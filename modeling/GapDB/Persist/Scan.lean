import GapDB.Persist.Frame
import GapDB.Storelib.Log

/-!
# Scanning a WAL

`ScanWAL` of `persist/recovery.go` over the bytes of the file: every complete frame is
decoded and checked against the revision order and the reservation, and what remains after
the last one is either nothing, a torn tail or corruption.
-/

namespace GapDB

open Storelib

variable {after reservedEnd physicalSize : Nat} {cs : List CommitFrame} {limits : Limits}
    {c : CommitFrame}

structure TailTruncation where
  code : String := "TAIL_TRUNCATED"
  file : Bytes := ascii "WAL"
  oldSize : Nat
  newSize : Nat
  lastCompleteRevision : Nat
deriving DecidableEq

structure WALReplay where
  header : WALHeader
  commits : List CommitFrame := []
  recoveredRevision : Nat
  completeOffset : Nat
  tail : Option TailTruncation := none
deriving DecidableEq

def withWALContext (err : Error) (file : Bytes) (baseOffset : Nat) : Error :=
  let located :=
    if err.code = .corruptWAL then
      { err with file, offset := err.offset.map (baseOffset + ·) }
    else err
  if located.code = .unknownFormat then { located with file } else located

def validateFramePrefix (bs : Bytes) (maximum maximumOperations : Nat) : Except Error Unit :=
  let version := uint (slice bs 4 6)
  let total := uint (slice bs 8 12)
  let count := uint (slice bs 20 24)
  let payload := uint (slice bs 24 28)
  if 4 ≤ bs.length ∧ slice bs 0 4 ≠ frameMagic then
    .error (corruptWAL "commit magic does not match CMIT" (ascii "WAL") 0 none)
  else if 6 ≤ bs.length ∧ version ≠ storageVersion then
    .error (unknownStorageFormat (ascii "WAL") version)
  else if 8 ≤ bs.length ∧ uint (slice bs 6 8) ≠ 0 then
    .error (corruptWAL "commit flags are nonzero" (ascii "WAL") 0 none)
  else if 12 ≤ bs.length ∧ (total < frameHeaderSize + frameTrailer ∨ maximum < total) then
    .error (corruptWAL "declared commit frame size is outside bounds" (ascii "WAL") 0 none)
  else if 24 ≤ bs.length ∧ uint (slice bs 12 20) = 0 then
    .error (corruptWAL "commit revision is zero" (ascii "WAL") 0 none)
  else if 24 ≤ bs.length ∧ (count = 0 ∨ maximumOperations < count) then
    .error (corruptWAL "declared mutation count is outside configured bounds" (ascii "WAL") 0 none)
  else if 28 ≤ bs.length ∧ total ≠ frameHeaderSize + frameTrailer + payload then
    .error (corruptWAL "declared commit and payload lengths disagree" (ascii "WAL") 0 none)
  else if 28 ≤ bs.length ∧ payload / effectHeader < count then
    .error (corruptWAL "mutation count cannot fit in declared payload" (ascii "WAL") 0 none)
  else .ok ()

theorem total_of_validateFramePrefix {bs : Bytes} {maximum operations : Nat}
    (h : validateFramePrefix bs maximum operations = .ok ()) (hlen : 12 ≤ bs.length) :
    frameHeaderSize + frameTrailer ≤ uint (slice bs 8 12) := by
  simp only [validateFramePrefix, ite_error_eq_ok] at h
  have := h.2.2.2.1
  omega

def WALReplay.torn (result : WALReplay) (physicalSize : Nat) : WALReplay :=
  { result with
    tail := some { oldSize := physicalSize, newSize := result.completeOffset,
                   lastCompleteRevision := result.recoveredRevision } }

/-- The loop of `ScanWAL`, over the bytes not read yet. -/
def scanFrames (physicalSize reservedEnd : Nat) (limits : Limits) (rest : Bytes)
    (result : WALReplay) : Except Error WALReplay :=
  let total := uint (slice (rest.take frameHeaderSize) 8 12)
  if rest = [] then .ok result
  else
    match _hpre : validateFramePrefix (rest.take frameHeaderSize) limits.commitBytes
        limits.maxBatchOperations with
    | .error e => .error (withWALContext e (ascii "WAL") result.completeOffset)
    | .ok () =>
      if _hheader : rest.length < frameHeaderSize then .ok (result.torn physicalSize)
      else if rest.length < total then .ok (result.torn physicalSize)
      else
        match decodeCommitFrame (rest.take total) limits with
        | .error e => .error (withWALContext e (ascii "WAL") result.completeOffset)
        | .ok commit =>
          if commit.revision ≤ result.recoveredRevision then
            .error (corruptWAL "commit revisions are not strictly increasing" (ascii "WAL")
              result.completeOffset none)
          else if reservedEnd < commit.revision then
            .error (revisionRangeError reservedEnd
              "WAL commit exceeds the durable revision reservation" none)
          else
            scanFrames physicalSize reservedEnd limits (rest.drop total)
              { result with
                commits := result.commits ++ [commit]
                recoveredRevision := commit.revision
                completeOffset := result.completeOffset + total }
termination_by rest.length
decreasing_by
  have hlong : 28 ≤ rest.length := not_lt.mp _hheader
  have htotal := total_of_validateFramePrefix _hpre (by simp [frameHeaderSize]; omega)
  simp only [List.length_drop, frameHeaderSize, frameTrailer] at htotal ⊢
  omega

def scanWAL (file : Bytes) (expectedID : DatabaseID) (afterRevision reservedEnd : Nat)
    (limits : Limits) : Except Error WALReplay :=
  if file.length < walHeaderSize then
    .error (corruptWAL "WAL header is incomplete" (ascii "WAL") 0 none)
  else match decodeWALHeader (file.take walHeaderSize) expectedID with
    | .error e => .error e
    | .ok header =>
      if afterRevision = maxUint64 ∨ header.firstRevision ≠ afterRevision + 1 then
        .error (corruptWAL "WAL first revision does not immediately follow the snapshot"
          (ascii "WAL") 0 none)
      else
        scanFrames file.length reservedEnd limits (file.drop walHeaderSize)
          { header, recoveredRevision := afterRevision, completeOffset := walHeaderSize }

/-! ### Scanning what a writer left behind -/

/-- The revision after replaying `cs` from `after`. -/
def lastRevision (after : Nat) (cs : List CommitFrame) : Nat :=
  cs.foldl (fun _ c => c.revision) after

theorem lastRevision_append (after : Nat) (cs ds : List CommitFrame) :
    lastRevision after (cs ++ ds) = lastRevision (lastRevision after cs) ds :=
  List.foldl_append

theorem le_lastRevision (h : (after :: cs.map CommitFrame.revision).Pairwise (· < ·)) :
    after ≤ lastRevision after cs := by
  induction cs generalizing after with
  | nil => exact le_rfl
  | cons c cs ih =>
    rw [List.map_cons, List.pairwise_cons] at h
    exact (h.1 c.revision (by simp)).le.trans (ih h.2)

/-- Commits that a writer may have appended one after another. -/
structure LogOk (limits : Limits) (after reservedEnd : Nat) (cs : List CommitFrame) :
    Prop where
  encodable : ∀ c ∈ cs, c.Encodable limits
  increasing : (after :: cs.map CommitFrame.revision).Pairwise (· < ·)
  reserved : ∀ c ∈ cs, c.revision ≤ reservedEnd

theorem LogOk.cons (h : LogOk limits after reservedEnd (c :: cs)) :
    c.Encodable limits ∧ after < c.revision ∧ c.revision ≤ reservedEnd ∧
      LogOk limits c.revision reservedEnd cs := by
  obtain ⟨hfits, hincreasing, hreserved⟩ := h
  rw [List.forall_mem_cons] at hfits hreserved
  rw [List.map_cons, List.pairwise_cons] at hincreasing
  exact ⟨hfits.1, hincreasing.1 _ (by simp), hreserved.1, hfits.2, hincreasing.2, hreserved.2⟩

theorem LogOk.take (h : LogOk limits after reservedEnd cs) (k : Nat) :
    LogOk limits after reservedEnd (cs.take k) := by
  refine ⟨fun c hc => h.encodable c (List.mem_of_mem_take hc), ?_,
    fun c hc => h.reserved c (List.mem_of_mem_take hc)⟩
  have hsub : (after :: (cs.take k).map CommitFrame.revision).Sublist
      (after :: cs.map CommitFrame.revision) :=
    ((List.take_sublist k cs).map _).cons_cons after
  exact h.increasing.sublist hsub

/-- The scan result after the complete frames of `cs`. -/
def WALReplay.advance (result : WALReplay) (cs : List CommitFrame) : WALReplay :=
  { result with
    commits := result.commits ++ cs
    recoveredRevision := lastRevision result.recoveredRevision cs
    completeOffset := result.completeOffset + (logBytes CommitFrame.bytes cs).length }

theorem LogOk.append_left {ds : List CommitFrame} (h : LogOk limits after reservedEnd (cs ++ ds)) :
    LogOk limits after reservedEnd cs := by
  refine ⟨fun c hc => h.encodable c (by simp [hc]), ?_, fun c hc => h.reserved c (by simp [hc])⟩
  have := h.increasing
  rw [List.map_append, ← List.cons_append, List.pairwise_append] at this
  exact this.1

theorem LogOk.mono {reservedEnd' : Nat} (h : LogOk limits after reservedEnd cs)
    (hle : reservedEnd ≤ reservedEnd') : LogOk limits after reservedEnd' cs :=
  ⟨h.encodable, h.increasing, fun c hc => (h.reserved c hc).trans hle⟩

/-- No commit of a log is past its last revision. -/
theorem le_lastRevision_of_mem (h : (after :: cs.map CommitFrame.revision).Pairwise (· < ·)) :
    ∀ n ∈ after :: cs.map CommitFrame.revision, n ≤ lastRevision after cs := by
  induction cs generalizing after with
  | nil => simp [lastRevision]
  | cons c cs ih =>
    intro n hn
    rcases List.mem_cons.mp hn with rfl | hn
    · exact le_lastRevision h
    · rw [List.map_cons, List.pairwise_cons] at h
      exact ih h.2 n (by simpa using hn)

theorem LogOk.concat (h : LogOk limits after reservedEnd cs) (hc : c.Encodable limits)
    (hlast : lastRevision after cs < c.revision) (hreserved : c.revision ≤ reservedEnd) :
    LogOk limits after reservedEnd (cs ++ [c]) := by
  refine ⟨?_, ?_, ?_⟩
  · simpa [or_imp, forall_and] using ⟨h.encodable, hc⟩
  · rw [List.map_append, ← List.cons_append, List.pairwise_append]
    refine ⟨h.increasing, by simp, fun n hn m hm => ?_⟩
    obtain rfl : m = c.revision := by simpa using hm
    exact (le_lastRevision_of_mem h.increasing n hn).trans_lt hlast
  · simpa [or_imp, forall_and] using ⟨h.reserved, hreserved⟩

/-- No truncation of an encoded frame looks like corruption. -/
theorem validateFramePrefix_of_isPrefix (h : c.Encodable limits) {bs : Bytes}
    (hbs : bs <+: c.bytes) :
    validateFramePrefix bs limits.commitBytes limits.maxBatchOperations = .ok () := by
  have f := h.fields
  have hslice : ∀ i j, j ≤ bs.length → slice bs i j = slice c.bytes i j := by
    intro i j hj
    obtain ⟨rest, hrest⟩ := hbs
    rw [← hrest, slice_append_left _ _ _ _ hj]
  have hfull : c.size = 32 + c.payloadSize := rfl
  have hsize := h.size
  have hfit := c.effects_length_mul_le
  have hne := List.length_pos_iff.mpr h.valid.nonempty
  have hops := h.valid.operations
  have hrevision := h.valid.revision
  simp only [validateFramePrefix, ite_error_eq_ok, and_true, not_and]
  refine ⟨fun hn => ?_, fun hn => ?_, fun hn => ?_, fun hn => ?_, fun hn => ?_, fun hn => ?_,
    fun hn => ?_, fun hn => ?_⟩
  · rw [hslice _ _ hn, f.magic]
    simp
  · rw [hslice _ _ hn, f.version]
    simp
  · rw [hslice _ _ hn, f.flags]
    simp
  · rw [hslice _ _ hn, f.total]
    simp only [frameHeaderSize, frameTrailer]
    omega
  · rw [hslice _ _ (by omega), f.revision]
    exact hrevision
  · rw [hslice _ _ (by omega), f.count]
    omega
  · rw [hslice _ _ (by omega), hslice _ _ (by omega), f.total, f.payloadLength]
    simp only [frameHeaderSize, frameTrailer]
    omega
  · rw [hslice _ _ (by omega), hslice _ _ (by omega), f.payloadLength, f.count]
    simp only [effectHeader]
    omega

variable {rest : Bytes} {result replay : WALReplay}

/-- The length that the frame at the front of `rest` declares. -/
def declaredLength (rest : Bytes) : Nat := uint (slice (rest.take frameHeaderSize) 8 12)

/-- The scan takes `commit` from the front of `rest`. -/
structure ReadsFrame (limits : Limits) (after reservedEnd : Nat) (rest : Bytes)
    (commit : CommitFrame) : Prop where
  header : frameHeaderSize ≤ rest.length
  complete : declaredLength rest ≤ rest.length
  decoded : decodeCommitFrame (rest.take (declaredLength rest)) limits = .ok commit
  increasing : after < commit.revision
  reserved : commit.revision ≤ reservedEnd

/-- What a scan has found behind one more frame. -/
def WALReplay.read (result : WALReplay) (commit : CommitFrame) (size : Nat) : WALReplay :=
  { result with
    commits := result.commits ++ [commit]
    recoveredRevision := commit.revision
    completeOffset := result.completeOffset + size }

/-- One turn of the loop that does not fail: the end, a torn frame, or one more frame. -/
theorem scanFrames_eq_ok (h : scanFrames physicalSize reservedEnd limits rest result = .ok replay) :
    rest = [] ∧ replay = result ∨
      rest ≠ [] ∧ validateFramePrefix (rest.take frameHeaderSize) limits.commitBytes
          limits.maxBatchOperations = .ok () ∧
        ((rest.length < frameHeaderSize ∨ rest.length < declaredLength rest) ∧
            replay = result.torn physicalSize ∨
          ∃ commit, ReadsFrame limits result.recoveredRevision reservedEnd rest commit ∧
            scanFrames physicalSize reservedEnd limits (rest.drop (declaredLength rest))
              (result.read commit (declaredLength rest)) = .ok replay) := by
  rw [scanFrames] at h
  by_cases hnil : rest = []
  · rw [if_pos hnil, Except.ok.injEq] at h
    exact .inl ⟨hnil, h.symm⟩
  rw [if_neg hnil] at h
  refine .inr ⟨hnil, ?_⟩
  split at h
  · cases h
  next hframing =>
  refine ⟨hframing, ?_⟩
  split at h
  · next hheader =>
    rw [Except.ok.injEq] at h
    exact .inl ⟨.inl hheader, h.symm⟩
  next hheader =>
  split at h
  · next hshort =>
    rw [Except.ok.injEq] at h
    exact .inl ⟨.inr hshort, h.symm⟩
  next hshort =>
  split at h
  · cases h
  next commit hdecoded =>
  rw [ite_error_eq_ok, ite_error_eq_ok] at h
  obtain ⟨hincreasing, hreserved, hrest⟩ := h
  exact .inr ⟨commit, ⟨not_lt.mp hheader, not_lt.mp hshort, hdecoded, not_le.mp hincreasing,
    not_lt.mp hreserved⟩, hrest⟩

theorem scanFrames_past (hnil : rest ≠ [])
    (hframing : validateFramePrefix (rest.take frameHeaderSize) limits.commitBytes
      limits.maxBatchOperations = .ok ())
    (hshort : rest.length < frameHeaderSize ∨ rest.length < declaredLength rest) :
    scanFrames physicalSize reservedEnd limits rest result = .ok (result.torn physicalSize) := by
  rw [scanFrames, if_neg hnil]
  split
  · next he => rw [hframing] at he; cases he
  split
  · rfl
  next hheader => exact if_pos (hshort.resolve_left hheader)

theorem scanFrames_read {commit : CommitFrame}
    (hframing : validateFramePrefix (rest.take frameHeaderSize) limits.commitBytes
      limits.maxBatchOperations = .ok ())
    (hread : ReadsFrame limits result.recoveredRevision reservedEnd rest commit) :
    scanFrames physicalSize reservedEnd limits rest result
      = scanFrames physicalSize reservedEnd limits (rest.drop (declaredLength rest))
          (result.read commit (declaredLength rest)) := by
  have hnil : rest ≠ [] := by
    rintro rfl
    exact absurd hread.header (by decide)
  rw [scanFrames, if_neg hnil]
  split
  · next he => rw [hframing] at he; cases he
  have hcomplete := hread.complete
  have hdecoded := hread.decoded
  rw [declaredLength] at hcomplete hdecoded
  rw [dif_neg (not_lt.mpr hread.header), if_neg (not_lt.mpr hcomplete), hdecoded]
  simp only [if_neg (not_le.mpr hread.increasing), if_neg (not_lt.mpr hread.reserved)]
  rfl

theorem frameHeaderSize_le (c : CommitFrame) : frameHeaderSize ≤ c.bytes.length := by
  rw [c.bytes_length, show c.size = 32 + c.payloadSize from rfl, frameHeaderSize]
  omega

theorem declaredLength_bytes_append (h : c.Encodable limits) (rest : Bytes) :
    declaredLength (c.bytes ++ rest) = c.bytes.length := by
  rw [declaredLength, List.take_append_of_le_length (frameHeaderSize_le c),
    slice_take _ _ _ _ (by decide), h.fields.total, c.bytes_length]

/-- One complete frame advances the scan by that frame. -/
theorem scanFrames_frame (h : c.Encodable limits)
    (hrevision : result.recoveredRevision < c.revision) (hreserved : c.revision ≤ reservedEnd)
    (rest : Bytes) :
    scanFrames physicalSize reservedEnd limits (c.bytes ++ rest) result
      = scanFrames physicalSize reservedEnd limits rest (result.advance [c]) := by
  have hdeclared := declaredLength_bytes_append h rest
  have hle : c.bytes.length ≤ (c.bytes ++ rest).length := (List.prefix_append _ _).length_le
  have hframing : validateFramePrefix ((c.bytes ++ rest).take frameHeaderSize) limits.commitBytes
      limits.maxBatchOperations = .ok () := by
    rw [List.take_append_of_le_length (frameHeaderSize_le c)]
    exact validateFramePrefix_of_isPrefix h (List.take_prefix _ _)
  have hread : ReadsFrame limits result.recoveredRevision reservedEnd (c.bytes ++ rest) c := by
    refine ⟨(frameHeaderSize_le c).trans hle, hdeclared.le.trans hle, ?_, hrevision, hreserved⟩
    rw [hdeclared, List.take_left' rfl]
    exact decodeCommitFrame_bytes h
  rw [scanFrames_read hframing hread, hdeclared, List.drop_left' rfl]
  simp [WALReplay.read, WALReplay.advance, lastRevision]

/-- The complete frames of a log are all read, in order. -/
theorem scanFrames_frames
    (h : LogOk limits result.recoveredRevision reservedEnd cs) (rest : Bytes) :
    scanFrames physicalSize reservedEnd limits (logBytes CommitFrame.bytes cs ++ rest) result
      = scanFrames physicalSize reservedEnd limits rest (result.advance cs) := by
  induction cs generalizing result with
  | nil => simp [WALReplay.advance, lastRevision]
  | cons c cs ih =>
    obtain ⟨hc, hrevision, hreserved, hcs⟩ := h.cons
    rw [logBytes_cons, List.append_assoc, scanFrames_frame hc hrevision hreserved,
      ih (by simpa [WALReplay.advance, lastRevision] using hcs)]
    simp [WALReplay.advance, lastRevision, Nat.add_assoc]

/-- A torn frame ends the scan and is reported as a tail. -/
theorem scanFrames_torn (h : c.Encodable limits) {torn : Bytes} (hne : torn ≠ [])
    (hpre : torn <+: c.bytes) (hshort : torn.length < c.bytes.length) (result : WALReplay) :
    scanFrames physicalSize reservedEnd limits torn result
      = .ok (result.torn physicalSize) := by
  refine scanFrames_past hne (validateFramePrefix_of_isPrefix h
    ((List.take_prefix _ _).trans hpre)) ?_
  rw [or_iff_not_imp_left]
  intro hheader
  obtain ⟨rest, hrest⟩ := hpre
  rw [declaredLength, slice_take _ _ _ _ (by decide), ← slice_append_left torn rest _ _
    (by simp only [frameHeaderSize] at hheader; omega), hrest, h.fields.total, ← c.bytes_length]
  exact hshort

/-- What the scan makes of a cut: the whole frames, and a tail exactly when something is torn. -/
def WALReplay.cut (result : WALReplay) (physicalSize : Nat) (cs : List CommitFrame)
    (torn : Bytes) : WALReplay :=
  if torn = [] then result.advance cs else (result.advance cs).torn physicalSize

theorem scanFrames_whole (h : LogOk limits result.recoveredRevision reservedEnd cs) {torn : Bytes}
    (ht : Torn CommitFrame.bytes (CommitFrame.Encodable limits) torn) :
    scanFrames physicalSize reservedEnd limits (logBytes CommitFrame.bytes cs ++ torn) result
      = .ok (result.cut physicalSize cs torn) := by
  rw [scanFrames_frames h, WALReplay.cut]
  by_cases hne : torn = []
  · subst hne
    rw [scanFrames]
    simp
  · obtain ⟨c, hc, hpre, hshort⟩ := ht.resolve_left hne
    rw [scanFrames_torn hc hne hpre hshort, if_neg hne]

/-- The bytes of a WAL with these commits. -/
def walBytes (header : WALHeader) (cs : List CommitFrame) : Bytes :=
  header.bytes ++ logBytes CommitFrame.bytes cs

theorem CommitFrame.bytes_ne_nil (frame : CommitFrame) : frame.bytes ≠ [] := by
  intro h
  have hlen := frame.bytes_length
  rw [h, show frame.size = 32 + frame.payloadSize from rfl] at hlen
  simp only [List.length_nil] at hlen
  omega

/-- The end of a log that a writer broke off in. -/
abbrev TornFrame (limits : Limits) (tail : Bytes) : Prop :=
  Torn CommitFrame.bytes (CommitFrame.Encodable limits) tail

/-- What the scan of a truncated WAL reports: its first `k` commits. -/
structure ScansTo (header : WALHeader) (cs : List CommitFrame) (file : Bytes) (k : Nat)
    (replay : WALReplay) : Prop where
  le : k ≤ cs.length
  headed : replay.header = header
  commits : replay.commits = cs.take k
  recoveredRevision :
    replay.recoveredRevision = lastRevision (header.firstRevision - 1) (cs.take k)
  /-- Truncating to the reported size leaves the whole commits. -/
  truncated : file.take (replay.tail.elim file.length TailTruncation.newSize)
    = walBytes header (cs.take k)
  whole : ∀ j ≤ cs.length, (walBytes header (cs.take j)).length ≤ file.length → j ≤ k

/-- The scan of what follows a header. -/
theorem scanWAL_bytes {header : WALHeader} (hh : header.Encodable) (bs : Bytes) :
    scanWAL (header.bytes ++ bs) header.databaseID (header.firstRevision - 1) reservedEnd limits
      = scanFrames (header.bytes ++ bs).length reservedEnd limits bs
          ⟨header, [], header.firstRevision - 1, walHeaderSize, none⟩ := by
  have hlen : header.bytes.length = walHeaderSize := header.bytes_length
  have hnext : ¬ (header.firstRevision - 1 = maxUint64 ∨
      header.firstRevision ≠ header.firstRevision - 1 + 1) := by
    have hfirst := hh.firstRevision
    simp only [maxUint64]
    omega
  rw [scanWAL, if_neg (by simp [hlen]), List.take_left' hlen, decodeWALHeader_bytes hh]
  simp only
  rw [if_neg hnext, List.drop_left' hlen]

/-- The scan of a header followed by a cut of the log. -/
theorem scanWAL_cut {header : WALHeader} (hh : header.Encodable)
    (h : LogOk limits (header.firstRevision - 1) reservedEnd cs) {bs torn : Bytes} {k : Nat}
    (hcut : Cut CommitFrame.bytes (CommitFrame.Encodable limits) cs bs k torn) :
    scanWAL (header.bytes ++ bs) header.databaseID (header.firstRevision - 1) reservedEnd limits
      = .ok (WALReplay.cut ⟨header, [], header.firstRevision - 1, walHeaderSize, none⟩
          (header.bytes ++ bs).length (cs.take k) torn) := by
  rw [scanWAL_bytes hh]
  nth_rewrite 2 [hcut.bytes]
  exact scanFrames_whole (h.take k) hcut.torn

/-- Scanning any truncation of a WAL behind its header yields a whole number of its commits. -/
theorem scanWAL_prefix {header : WALHeader} (hh : header.Encodable) {file tail : Bytes}
    (h : LogOk limits (header.firstRevision - 1) reservedEnd cs) (ht : TornFrame limits tail)
    (hfile : file <+: walBytes header cs ++ tail) (hheader : walHeaderSize ≤ file.length) :
    ∃ k replay, ScansTo header cs file k replay ∧
      scanWAL file header.databaseID (header.firstRevision - 1) reservedEnd limits
        = .ok replay := by
  have hlen : header.bytes.length = walHeaderSize := header.bytes_length
  obtain ⟨bs, rfl⟩ : header.bytes <+: file :=
    List.prefix_of_prefix_length_le
      ((List.prefix_append _ _).trans (List.prefix_append _ _)) hfile (by omega)
  rw [walBytes, List.append_assoc] at hfile
  obtain ⟨k, torn, hcut⟩ := exists_cut h.encodable ht ((List.prefix_append_right_inj _).mp hfile)
  refine ⟨k, _, ⟨hcut.le, ?_, ?_, ?_, ?_, ?_⟩, scanWAL_cut hh h hcut⟩
  · unfold WALReplay.cut
    split <;> rfl
  · unfold WALReplay.cut
    split <;> simp [WALReplay.torn, WALReplay.advance]
  · unfold WALReplay.cut
    split <;> rfl
  · unfold WALReplay.cut
    split
    · next htorn => simp [WALReplay.advance, walBytes, hcut.bytes, htorn]
    · simp only [WALReplay.torn, WALReplay.advance, Option.elim_some, walBytes, hcut.bytes]
      rw [← List.append_assoc]
      exact List.take_left' (by rw [List.length_append, hlen])
  · intro j hj hle
    refine hcut.whole j hj ?_
    simp only [walBytes, List.length_append] at hle
    omega

end GapDB
