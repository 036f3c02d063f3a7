import GapDB.Persist.Damage

/-!
# Truncated logs

A WAL that is cut off anywhere behind its header loses the frame the cut falls into and nothing
else, and the scan says where that frame began.
-/

namespace GapDB

open Storelib

/-- Where the first `j` frames of a log end. -/
def frameEnd (header : WALHeader) (cs : List CommitFrame) (j : Nat) : Nat :=
  (walBytes header (cs.take j)).length

theorem frameEnd_eq (header : WALHeader) (cs : List CommitFrame) (j : Nat) :
    frameEnd header cs j = walHeaderSize + (logBytes CommitFrame.bytes (cs.take j)).length := by
  rw [frameEnd, walBytes, List.length_append, header.bytes_length]
  rfl

theorem frameEnd_mono (header : WALHeader) (cs : List CommitFrame) {i j : Nat} (h : i ≤ j) :
    frameEnd header cs i ≤ frameEnd header cs j := by
  rw [frameEnd_eq, frameEnd_eq]
  exact Nat.add_le_add_left (logBytes_take_length_le CommitFrame.bytes cs h) _

/-- The log up to the end of a frame is the log of the frames before. -/
theorem take_frameEnd (header : WALHeader) (cs : List CommitFrame) (j : Nat) :
    (walBytes header cs).take (frameEnd header cs j) = walBytes header (cs.take j) := by
  have hsplit : walBytes header cs
      = walBytes header (cs.take j) ++ logBytes CommitFrame.bytes (cs.drop j) := by
    rw [walBytes, walBytes, List.append_assoc, ← logBytes_append, List.take_append_drop]
  rw [hsplit, frameEnd, List.take_left']
  rfl

section

variable {limits : Limits} {header : WALHeader} {reservedEnd : Nat} {cs : List CommitFrame}

/-- The first `k` frames are exactly those that end at or before the cut. -/
def WholeBefore (header : WALHeader) (cs : List CommitFrame) (cut k : Nat) : Prop :=
  k ≤ cs.length ∧ ∀ j ≤ cs.length, frameEnd header cs j ≤ cut ↔ j ≤ k

theorem WholeBefore.frameEnd_le {cut k : Nat} (h : WholeBefore header cs cut k) :
    frameEnd header cs k ≤ cut :=
  (h.2 k h.1).mpr le_rfl

/-- A cut on a frame boundary is the boundary behind the last whole frame. -/
theorem WholeBefore.boundary_iff {cut k : Nat} (h : WholeBefore header cs cut k) :
    (∃ j ≤ cs.length, cut = frameEnd header cs j) ↔ cut = frameEnd header cs k := by
  constructor
  · rintro ⟨j, hj, rfl⟩
    have hle : j ≤ k := (h.2 j hj).mp le_rfl
    exact le_antisymm (frameEnd_mono header cs hle) h.frameEnd_le
  · intro hcut
    exact ⟨k, h.1, hcut⟩

theorem wholeBefore_of_cut {bs torn : Bytes} {k : Nat}
    (hcut : Cut CommitFrame.bytes (CommitFrame.Encodable limits) cs bs k torn) :
    WholeBefore header cs (walHeaderSize + bs.length) k := by
  refine ⟨hcut.le, fun j hj => ?_⟩
  rw [frameEnd_eq, Nat.add_le_add_iff_left]
  constructor
  · exact hcut.whole j hj
  · intro hjk
    refine (logBytes_take_length_le CommitFrame.bytes cs hjk).trans ?_
    rw [hcut.bytes, List.length_append]
    exact Nat.le_add_right _ _

/-- The scan of the first `k` frames alone. -/
theorem scanWAL_whole (hheader : header.Encodable)
    (hlog : LogOk limits (header.firstRevision - 1) reservedEnd cs) (k : Nat) :
    scanWAL (walBytes header (cs.take k)) header.databaseID (header.firstRevision - 1) reservedEnd
        limits
      = .ok ⟨header, cs.take k, lastRevision (header.firstRevision - 1) (cs.take k),
          frameEnd header cs k, none⟩ := by
  have hcut : Cut CommitFrame.bytes (CommitFrame.Encodable limits) (cs.take k)
      (logBytes CommitFrame.bytes (cs.take k)) (cs.take k).length [] := by
    refine ⟨le_rfl, ?_, .inl rfl, fun j hj _ => hj⟩
    rw [List.take_length, List.append_nil]
  have hscan := scanWAL_cut hheader (hlog.take k) hcut
  rw [walBytes, hscan, WALReplay.cut, if_pos rfl, List.take_length, WALReplay.advance, frameEnd_eq]
  rfl

/-- Cutting a log off anywhere behind its header leaves a log that scans: to the commits whose
frames are whole, with a tail exactly if a frame is torn, and once more without one after the tail
has been cut off as well. -/
theorem truncated_log_scans (hheader : header.Encodable)
    (hlog : LogOk limits (header.firstRevision - 1) reservedEnd cs) {cut : Nat}
    (hbehind : walHeaderSize ≤ cut) (hinside : cut ≤ (walBytes header cs).length) :
    ∃ (k : Nat) (replay : WALReplay), WholeBefore header cs cut k ∧
      scanWAL ((walBytes header cs).take cut) header.databaseID (header.firstRevision - 1)
        reservedEnd limits = .ok replay ∧
      replay.header = header ∧ replay.commits = cs.take k ∧
      replay.recoveredRevision = lastRevision (header.firstRevision - 1) (cs.take k) ∧
      (replay.tail ≠ none ↔ ¬ ∃ j ≤ cs.length, cut = frameEnd header cs j) ∧
      (∀ tail, replay.tail = some tail →
        tail.oldSize = cut ∧ tail.newSize = frameEnd header cs k ∧
          tail.lastCompleteRevision = lastRevision (header.firstRevision - 1) (cs.take k)) ∧
      scanWAL ((walBytes header cs).take (frameEnd header cs k)) header.databaseID
        (header.firstRevision - 1) reservedEnd limits = .ok { replay with tail := none } := by
  have hlen : header.bytes.length = walHeaderSize := header.bytes_length
  -- behind the header the file is a prefix of the frames
  obtain ⟨bs, hbs⟩ : header.bytes <+: (walBytes header cs).take cut := by
    refine List.prefix_of_prefix_length_le (List.prefix_append _ _) (List.take_prefix _ _) ?_
    rw [List.length_take, min_eq_left hinside, hlen]
    exact hbehind
  have hsize : cut = walHeaderSize + bs.length := by
    have hlength := congrArg List.length hbs
    rw [List.length_append, List.length_take, min_eq_left hinside, hlen] at hlength
    exact hlength.symm
  have hframes : bs <+: logBytes CommitFrame.bytes cs ++ [] := by
    rw [List.append_nil]
    have htake := List.take_prefix cut (walBytes header cs)
    rw [← hbs, walBytes] at htake
    exact (List.prefix_append_right_inj _).mp htake
  obtain ⟨k, torn, hcut⟩ := exists_cut hlog.encodable (.inl rfl) hframes
  have hwhole : WholeBefore header cs cut k := hsize ▸ wholeBefore_of_cut hcut
  have hend : cut = frameEnd header cs k ↔ torn = [] := by
    rw [frameEnd_eq, hsize, hcut.bytes, List.length_append, ← List.length_eq_zero_iff]
    omega
  have hscan := scanWAL_cut hheader hlog hcut
  rw [hbs] at hscan
  refine ⟨k, _, hwhole, hscan, ?_, ?_, ?_, ?_, ?_, ?_⟩
  · unfold WALReplay.cut
    split <;> rfl
  · unfold WALReplay.cut
    split <;> rfl
  · unfold WALReplay.cut
    split <;> rfl
  · rw [hwhole.boundary_iff, hend, WALReplay.cut]
    by_cases htorn : torn = []
    · simp [htorn, WALReplay.advance]
    · simp [htorn, WALReplay.torn]
  · intro tail htail
    rw [WALReplay.cut] at htail
    by_cases htorn : torn = []
    · rw [if_pos htorn] at htail
      cases htail
    · rw [if_neg htorn] at htail
      simp only [WALReplay.torn, WALReplay.advance, Option.some.injEq] at htail
      subst htail
      refine ⟨?_, (frameEnd_eq header cs k).symm, rfl⟩
      rw [List.length_take, min_eq_left hinside]
  · rw [take_frameEnd, scanWAL_whole hheader hlog]
    unfold WALReplay.cut
    rw [frameEnd_eq]
    split <;> rfl

end

theorem truncated_log_scans_sampleCommits :
    ∃ (k : Nat) (replay : WALReplay), WholeBefore sampleHeader sampleCommits 100 k ∧
      scanWAL ((walBytes sampleHeader sampleCommits).take 100) sampleHeader.databaseID
        (sampleHeader.firstRevision - 1) 10 defaultLimits = .ok replay ∧
      replay.commits = sampleCommits.take k := by
  have hheader : sampleHeader.Encodable := ⟨by decide, by decide, by decide⟩
  have hlog : LogOk defaultLimits (sampleHeader.firstRevision - 1) 10 sampleCommits := by
    refine ⟨fun c hc => ?_, by decide, by decide⟩
    simp only [sampleCommits, List.mem_cons, List.not_mem_nil, or_false] at hc
    rcases hc with rfl | rfl <;>
      exact ⟨validateCommit_eq_ok.mp (by decide +kernel), by decide, by decide, by decide⟩
  obtain ⟨k, replay, hwhole, hscan, -, hcommits, -⟩ :=
    truncated_log_scans hheader hlog (show walHeaderSize ≤ 100 by decide) (by decide +kernel)
  exact ⟨k, replay, hwhole, hscan, hcommits⟩

end GapDB
