import GapDB.Persist.Scan

/-!
# Damaged logs

What `ScanWAL` makes of a log whose bytes were changed after they were written. A checksum
covers every frame, but how long a frame is has to be read before the checksum can be found.
-/

namespace GapDB

open Storelib

variable {physicalSize reservedEnd : Nat} {limits : Limits} {rest : Bytes}
  {result replay : WALReplay}

/-! ### What an accepted frame looks like -/

/-- The checks of the decoder that do not depend on the payload. -/
structure FrameChecks (encoded : Bytes) : Prop where
  length : frameHeaderSize + frameTrailer ≤ encoded.length
  total : uint (slice encoded 8 12) = encoded.length
  payload : encoded.length = frameHeaderSize + frameTrailer + uint (slice encoded 24 28)
  sealed : Sealed encoded

theorem checks_of_decodeCommitFrame {encoded : Bytes} {commit : CommitFrame}
    (h : decodeCommitFrame encoded limits = .ok commit) : FrameChecks encoded := by
  simp only [decodeCommitFrame, ite_error_eq_ok] at h
  obtain ⟨hlength, -, -, -, htotal, -, hcrc, -⟩ := h
  push Not at htotal hcrc
  exact ⟨not_lt.mp hlength, htotal.1, htotal.1.symm.trans htotal.2.1, hcrc⟩

theorem declaredLength_eq_of_validateFramePrefix {maximum operations : Nat}
    (h : validateFramePrefix (rest.take frameHeaderSize) maximum operations = .ok ())
    (hlen : frameHeaderSize ≤ rest.length) :
    declaredLength rest
      = frameHeaderSize + frameTrailer + uint (slice (rest.take frameHeaderSize) 24 28) := by
  simp only [validateFramePrefix, ite_error_eq_ok] at h
  have hlong : 28 ≤ (rest.take frameHeaderSize).length := by
    rw [List.length_take]
    exact le_min le_rfl hlen
  have hlengths := h.2.2.2.2.2.2.1
  push Not at hlengths
  exact hlengths hlong

/-! ### One changed byte -/

theorem sealed_of_decodeWALHeader {encoded : Bytes} {id : DatabaseID} {header : WALHeader}
    (h : decodeWALHeader encoded id = .ok header) : encoded.length = 64 ∧ Sealed encoded := by
  simp only [decodeWALHeader, ite_error_eq_ok] at h
  obtain ⟨hlength, -, -, -, hcrc, -⟩ := h
  push Not at hlength hcrc
  refine ⟨hlength, ?_⟩
  rw [Sealed, show encoded.length = 64 from hlength]
  exact hcrc

theorem declaredLength_set {p : Nat} {b : Byte} (h : frameHeaderSize ≤ p) :
    declaredLength (rest.set p b) = declaredLength rest := by
  rw [declaredLength, declaredLength, List.take_set, List.set_eq_of_length_le]
  rw [List.length_take]
  exact (min_le_left _ _).trans h

/-- A byte of a frame header that is not in the length keeps the length, and a byte of the length
contradicts the other length. -/
theorem declaredLength_set_of_validateFramePrefix {p : Nat} {b : Byte}
    {maximum operations : Nat} (hlen : frameHeaderSize ≤ rest.length)
    (hrest : validateFramePrefix (rest.take frameHeaderSize) maximum operations = .ok ())
    (hset : validateFramePrefix ((rest.set p b).take frameHeaderSize) maximum operations = .ok ()) :
    declaredLength (rest.set p b) = declaredLength rest := by
  have hpayload := declaredLength_eq_of_validateFramePrefix hrest hlen
  have hpayload' := declaredLength_eq_of_validateFramePrefix hset (by simpa using hlen)
  by_cases hp : p < 12
  · -- the other length is not touched
    rw [List.take_set, slice_set_of_lt _ _ (by omega)] at hpayload'
    rw [hpayload', hpayload]
  · rw [declaredLength, declaredLength, List.take_set, slice_set_of_le _ _ (not_lt.mp hp)]

/-- Behind a frame that was read, a changed byte of that frame is an error. -/
theorem scanFrames_set_front {commit : CommitFrame}
    (hframing : validateFramePrefix (rest.take frameHeaderSize) limits.commitBytes
      limits.maxBatchOperations = .ok ())
    (hread : ReadsFrame limits result.recoveredRevision reservedEnd rest commit) {p : Nat}
    {b : Byte} (hp : p < declaredLength rest) (hb : ∀ h : p < rest.length, b ≠ rest[p]) :
    scanFrames physicalSize reservedEnd limits (rest.set p b) result ≠ .ok replay := by
  intro h
  have hlen := hread.complete
  have hchecks := checks_of_decodeCommitFrame hread.decoded
  have hframe : (rest.take (declaredLength rest)).length = declaredLength rest := by
    rw [List.length_take]
    exact min_eq_left hlen
  rcases scanFrames_eq_ok h with ⟨hnil, -⟩ | ⟨-, hframing', htorn | ⟨commit', hread', -⟩⟩
  · have := congrArg List.length hnil
    simp only [List.length_set, List.length_nil] at this
    omega
  · have hheader := hread.header
    rw [declaredLength_set_of_validateFramePrefix hread.header hframing hframing'] at htorn
    simp only [List.length_set] at htorn
    omega
  · have hchecks' := checks_of_decodeCommitFrame hread'.decoded
    rw [declaredLength_set_of_validateFramePrefix hread.header hframing hframing',
      List.take_set] at hchecks'
    have hlength := hchecks.length
    refine not_sealed_set hchecks.sealed ?_ (hframe.symm ▸ hp) ?_ hchecks'.sealed
    · simp only [frameHeaderSize, frameTrailer] at hlength
      omega
    · rw [List.getElem_take]
      exact hb (by omega)

/-- No single changed byte of a log without a tail passes the scan. -/
theorem scanFrames_set (h : scanFrames physicalSize reservedEnd limits rest result = .ok replay)
    (htail : replay.tail = none) {p : Nat} {b : Byte} (hp : p < rest.length) (hb : b ≠ rest[p])
    (replay' : WALReplay) :
    scanFrames physicalSize reservedEnd limits (rest.set p b) result ≠ .ok replay' := by
  induction hn : rest.length using Nat.strong_induction_on generalizing rest result p with
  | _ n ih =>
  rcases scanFrames_eq_ok h with ⟨rfl, -⟩ | ⟨hnil, hframing, ⟨-, rfl⟩ | ⟨commit, hread, hrest⟩⟩
  · simp at hp
  · simp [WALReplay.torn] at htail
  by_cases hfront : p < declaredLength rest
  · exact scanFrames_set_front hframing hread hfront fun _ => hb
  -- the changed byte is further behind: this frame is read as before
  rw [not_lt] at hfront
  have hchecks := checks_of_decodeCommitFrame hread.decoded
  have hlong : frameHeaderSize + frameTrailer ≤ declaredLength rest := by
    have hlength := hchecks.length
    rw [List.length_take, min_eq_left hread.complete] at hlength
    exact hlength
  have hheader : frameHeaderSize ≤ p := (Nat.le_add_right _ _).trans (hlong.trans hfront)
  intro h'
  rcases scanFrames_eq_ok h' with ⟨hnil', -⟩ | ⟨-, hframing', htorn | ⟨commit', hread', hrest'⟩⟩
  · exact hnil (by simpa using hnil')
  · have hcomplete := hread.complete
    have hlength := hread.header
    rw [declaredLength_set hheader] at htorn
    simp only [List.length_set] at htorn
    omega
  · have hdecoded := hread'.decoded
    rw [declaredLength_set hheader, List.take_set, List.set_eq_of_length_le (by
      rw [List.length_take]
      exact (min_le_left _ _).trans hfront), hread.decoded, Except.ok.injEq] at hdecoded
    subst hdecoded
    rw [declaredLength_set hheader, List.drop_set, if_neg (not_lt.mpr hfront)] at hrest'
    refine ih (n - declaredLength rest) ?_ hrest ?_ ?_ ?_ hrest'
    · simp only [frameHeaderSize] at hlong
      have := hread.header
      simp only [frameHeaderSize] at this
      omega
    · rw [List.length_drop]
      omega
    · rw [List.getElem_drop]
      simpa [Nat.add_sub_cancel' hfront] using hb
    · rw [List.length_drop, hn]

section

variable {file : Bytes} {id : DatabaseID} {afterRevision : Nat}

/-- A scan that succeeds has read a sealed header and goes on behind it. -/
theorem scanWAL_eq_ok (h : scanWAL file id afterRevision reservedEnd limits = .ok replay) :
    walHeaderSize ≤ file.length ∧ ∃ header,
      decodeWALHeader (file.take walHeaderSize) id = .ok header ∧
      scanFrames file.length reservedEnd limits (file.drop walHeaderSize)
        ⟨header, [], afterRevision, walHeaderSize, none⟩ = .ok replay := by
  rw [scanWAL, ite_error_eq_ok] at h
  obtain ⟨hlength, h⟩ := h
  refine ⟨not_lt.mp hlength, ?_⟩
  split at h
  · cases h
  next header hheader =>
  rw [ite_error_eq_ok] at h
  exact ⟨header, hheader, h.2⟩

/-- A log that scans without a tail fails to scan once any one of its bytes is another. -/
theorem changed_byte_detected {replay : WALReplay}
    (h : scanWAL file id afterRevision reservedEnd limits = .ok replay) (htail : replay.tail = none)
    {p : Nat} (hp : p < file.length) {b : Byte} (hb : b ≠ file[p]) :
    ∃ e, scanWAL (file.set p b) id afterRevision reservedEnd limits = .error e := by
  cases hresult : scanWAL (file.set p b) id afterRevision reservedEnd limits with
  | error e => exact ⟨e, rfl⟩
  | ok replay' =>
    exfalso
    obtain ⟨hlength, header, hheader, hframes⟩ := scanWAL_eq_ok h
    obtain ⟨-, header', hheader', hframes'⟩ := scanWAL_eq_ok hresult
    by_cases hfront : p < walHeaderSize
    · -- a byte of the header
      rw [List.take_set] at hheader'
      have hsealed := sealed_of_decodeWALHeader hheader
      refine not_sealed_set hsealed.2 (by omega) ?_ ?_ (sealed_of_decodeWALHeader hheader').2
      · rw [hsealed.1]
        exact hfront
      · rwa [List.getElem_take]
    · rw [not_lt] at hfront
      rw [List.take_set, List.set_eq_of_length_le (by
        rw [List.length_take]
        exact (min_le_left _ _).trans hfront), hheader, Except.ok.injEq] at hheader'
      subst hheader'
      rw [List.drop_set, if_neg (not_lt.mpr hfront), List.length_set] at hframes'
      refine scanFrames_set hframes htail ?_ ?_ replay' hframes'
      · rw [List.length_drop]
        omega
      · rw [List.getElem_drop]
        simpa [Nat.add_sub_cancel' hfront] using hb

end

/-- The log of a small database, for the examples below. -/
def sampleHeader : WALHeader := ⟨sampleID, 1, 1⟩

def sampleCommits : List CommitFrame :=
  [⟨1, [⟨.put, [97], [1], none⟩]⟩, ⟨2, [⟨.delete, [97], [], none⟩]⟩]

def sampleReplay : WALReplay := ⟨sampleHeader, sampleCommits, 2, 171, none⟩

theorem changed_byte_detected_sampleCommits :
    scanWAL (walBytes sampleHeader sampleCommits) sampleID 0 10 defaultLimits
        = .ok sampleReplay ∧
      ∃ e, scanWAL ((walBytes sampleHeader sampleCommits).set 100 7) sampleID 0 10
        defaultLimits = .error e := by
  have hscan : scanWAL (walBytes sampleHeader sampleCommits) sampleID 0 10
      defaultLimits = .ok sampleReplay := by decide +kernel
  refine ⟨hscan, changed_byte_detected hscan rfl (by decide +kernel) ?_⟩
  decide +kernel

/-! ### A damaged frame header -/

/-- Complete frames are read or refused; none of them is taken for a torn one. -/
theorem tail_of_scanFrames_logBytes {cs : List CommitFrame} (hcs : ∀ c ∈ cs, c.Encodable limits)
    (h : scanFrames physicalSize reservedEnd limits (logBytes CommitFrame.bytes cs) result
      = .ok replay) : replay.tail = result.tail := by
  induction cs generalizing result with
  | nil =>
    rcases scanFrames_eq_ok h with ⟨-, rfl⟩ | ⟨hnil, -⟩
    · rfl
    · exact absurd rfl hnil
  | cons c cs ih =>
    rw [List.forall_mem_cons] at hcs
    rw [logBytes_cons] at h
    have hdeclared := declaredLength_bytes_append hcs.1 (logBytes CommitFrame.bytes cs)
    rcases scanFrames_eq_ok h with ⟨hnil, -⟩ | ⟨-, -, ⟨hshort, -⟩ | ⟨commit, -, hrest⟩⟩
    · exact absurd (List.append_eq_nil_iff.mp hnil).1 c.bytes_ne_nil
    · have hlong := frameHeaderSize_le c
      rw [hdeclared, List.length_append] at hshort
      omega
    · rw [hdeclared, List.drop_left' rfl] at hrest
      have htail := ih hcs.2 hrest
      exact htail

/-- The scan takes what follows the last complete frame for a torn one. -/
def ReportsTail (result : Except Error WALReplay) : Prop :=
  ∃ replay, result = .ok replay ∧ replay.tail ≠ none

/-- From some place on the scan reads frames, as far as one that passes the prefix checks and
declares an end past the file. -/
inductive Overruns (limits : Limits) (reservedEnd : Nat) : Nat → Bytes → Prop where
  | past {after : Nat} {rest : Bytes} (some : rest ≠ [])
      (framing : validateFramePrefix (rest.take frameHeaderSize) limits.commitBytes
        limits.maxBatchOperations = .ok ())
      (short : rest.length < frameHeaderSize ∨ rest.length < declaredLength rest) :
      Overruns limits reservedEnd after rest
  | read {after : Nat} {rest : Bytes} (commit : CommitFrame)
      (framing : validateFramePrefix (rest.take frameHeaderSize) limits.commitBytes
        limits.maxBatchOperations = .ok ())
      (reads : ReadsFrame limits after reservedEnd rest commit)
      (behind : Overruns limits reservedEnd commit.revision (rest.drop (declaredLength rest))) :
      Overruns limits reservedEnd after rest

/-- A scan that has found no tail so far reports one exactly when it overruns the file. -/
theorem reportsTail_scanFrames (htail : result.tail = none) :
    ReportsTail (scanFrames physicalSize reservedEnd limits rest result) ↔
      Overruns limits reservedEnd result.recoveredRevision rest := by
  constructor
  · rintro ⟨replay, h, hreported⟩
    induction hn : rest.length using Nat.strong_induction_on generalizing rest result with
    | _ n ih =>
    rcases scanFrames_eq_ok h with ⟨-, rfl⟩ | ⟨hnil, hframing, ⟨hshort, -⟩ | ⟨commit, hread, hrest⟩⟩
    · exact absurd htail hreported
    · exact .past hnil hframing hshort
    · refine .read commit hframing hread (ih _ ?_ (by exact htail) hrest rfl)
      have hlength := hread.header
      have hdeclared := declaredLength_eq_of_validateFramePrefix hframing hlength
      simp only [frameHeaderSize, frameTrailer] at hlength hdeclared
      rw [List.length_drop]
      omega
  · intro h
    generalize hafter : result.recoveredRevision = after at h
    induction h generalizing result with
    | past hnil hframing hshort =>
      exact ⟨_, scanFrames_past hnil hframing hshort, by simp [WALReplay.torn]⟩
    | read commit hframing hread behind ih =>
      subst hafter
      rw [scanFrames_read hframing hread]
      exact ih (by exact htail) rfl

section

variable {header : WALHeader}
  {before after : List CommitFrame} {frame : CommitFrame} {head : Bytes}

/-- The frames from `frame` on, with another header in front of it. -/
def reheaded (head : Bytes) (frame : CommitFrame) (after : List CommitFrame) : Bytes :=
  head ++ frame.bytes.drop frameHeaderSize ++ logBytes CommitFrame.bytes after

/-- Whatever is written over the header of a frame, the scan reports a tail exactly when the header
passes the prefix checks and the length it now declares ends past the file, or ends at another place
than before where a frame is accepted and the scan overruns the file from there. -/
theorem damaged_header_reports_tail_iff (hheader : header.Encodable)
    (hlog : LogOk limits (header.firstRevision - 1) reservedEnd (before ++ frame :: after))
    (hhead : head.length = frameHeaderSize) {rest : Bytes}
    (hrest : rest = reheaded head frame after) :
    ReportsTail (scanWAL (walBytes header before ++ rest) header.databaseID
        (header.firstRevision - 1) reservedEnd limits) ↔
      validateFramePrefix head limits.commitBytes limits.maxBatchOperations = .ok () ∧
        (rest.length < declaredLength rest ∨
          declaredLength rest ≠ frame.bytes.length ∧ ∃ commit,
            ReadsFrame limits (lastRevision (header.firstRevision - 1) before) reservedEnd rest
              commit ∧
            Overruns limits reservedEnd commit.revision (rest.drop (declaredLength rest))) := by
  have htake : rest.take frameHeaderSize = head := by
    rw [hrest, reheaded, List.append_assoc, List.take_left' hhead]
  have hlong : frameHeaderSize ≤ rest.length := by
    rw [hrest, reheaded, List.append_assoc, List.length_append, hhead]
    exact Nat.le_add_right _ _
  have hnil : rest ≠ [] := by
    rintro rfl
    exact absurd hlong (by decide)
  -- the frames before the damaged one are read as ever
  rw [walBytes, List.append_assoc, scanWAL_bytes hheader,
    scanFrames_frames (by exact hlog.append_left), reportsTail_scanFrames rfl]
  constructor
  · intro h
    cases h with
    | past _ hframing hshort =>
      exact ⟨htake ▸ hframing, .inl (hshort.resolve_left (not_lt.mpr hlong))⟩
    | read commit hframing hread behind =>
      refine ⟨htake ▸ hframing, .inr ⟨fun heq => ?_, commit, hread, behind⟩⟩
      -- behind the old end there are only complete frames
      have hsize : (head ++ frame.bytes.drop frameHeaderSize).length = frame.bytes.length := by
        rw [List.length_append, List.length_drop, hhead]
        exact Nat.add_sub_cancel' (frameHeaderSize_le frame)
      rw [heq, hrest, reheaded, List.drop_left' hsize] at behind
      obtain ⟨replay, hscan, htail⟩ :=
        (@reportsTail_scanFrames 0 _ _ _ ⟨header, [], commit.revision, 0, none⟩ rfl).mpr behind
      refine htail (tail_of_scanFrames_logBytes (fun c hc => hlog.encodable c ?_) hscan)
      exact List.mem_append_right _ (List.mem_cons_of_mem _ hc)
  · rintro ⟨hframing, hshort | ⟨-, commit, hread, behind⟩⟩
    · exact .past hnil (htake.symm ▸ hframing) (.inr hshort)
    · exact .read commit (htake.symm ▸ hframing) hread behind

end

/-- The header of the first sample frame with both lengths raised by a hundred. -/
def stretchedHead : Bytes :=
  frameMagic ++ putUint 2 1 ++ putUint 2 0 ++ putUint 4 154 ++ putUint 8 1 ++ putUint 4 1 ++
    putUint 4 122

/-- Both complete frames are cut off as if the first one were torn. -/
theorem stretched_header_reports_tail :
    stretchedHead.length = frameHeaderSize ∧
      scanWAL (walBytes sampleHeader sampleCommits) sampleID 0 10 defaultLimits
        = .ok sampleReplay ∧
      scanWAL (sampleHeader.bytes ++
          (stretchedHead ++ (logBytes CommitFrame.bytes sampleCommits).drop frameHeaderSize))
          sampleID 0 10 defaultLimits
        = .ok ⟨sampleHeader, [], 0, 64, some ⟨"TAIL_TRUNCATED", ascii "WAL", 171, 64, 0⟩⟩ := by
  decide +kernel

theorem sampleCommits_logOk :
    LogOk defaultLimits (sampleHeader.firstRevision - 1) 10 sampleCommits := by
  refine ⟨fun c hc => ?_, by decide, by decide⟩
  rcases List.mem_pair.mp hc with rfl | rfl <;>
    exact ⟨validateCommit_eq_ok.mp (by decide +kernel), by decide +kernel,
      by decide +kernel, by decide⟩

/-- A frame header whose revision was overwritten, and one whose lengths were raised. -/
theorem damaged_header_reports_tail_iff_sampleCommits :
    ∃ frame second : CommitFrame, sampleCommits = [frame, second] ∧
      ¬ ReportsTail (scanWAL (walBytes sampleHeader [] ++
        reheaded ((frame.bytes.take frameHeaderSize).set 19 5) frame [second])
        sampleID (sampleHeader.firstRevision - 1) 10 defaultLimits) ∧
      ReportsTail (scanWAL (walBytes sampleHeader [] ++ reheaded stretchedHead frame [second])
        sampleID (sampleHeader.firstRevision - 1) 10 defaultLimits) := by
  have hheader : sampleHeader.Encodable := ⟨by decide, by decide, by decide⟩
  refine ⟨_, _, rfl, fun h => ?_, ?_⟩
  · obtain ⟨-, hshort | ⟨hne, -⟩⟩ := (damaged_header_reports_tail_iff hheader
      sampleCommits_logOk (by decide +kernel) rfl).mp h
    · exact absurd hshort (by decide +kernel)
    · exact hne (by decide +kernel)
  · exact (damaged_header_reports_tail_iff hheader sampleCommits_logOk (by decide) rfl).mpr
      ⟨by decide +kernel, .inl (by decide +kernel)⟩

end GapDB
