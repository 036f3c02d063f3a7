import GapDB.Engine.Evidence

/-!
# Revision bookkeeping

The commits of a database are those before the engine was opened and those that it has published
since. The engine is at the last of them, and every record bears the revision of the last one that
wrote its key, as long as requests come and go and whatever fails.
-/

namespace GapDB

open Storelib DatabaseState

variable {frame : CommitFrame}

/-! ### Last writers -/

/-- The commit has an effect on the key. -/
def CommitFrame.Touches (frame : CommitFrame) (key : Key) : Prop :=
  ∃ effect ∈ frame.effects, effect.key = key

/-- The last of the commits that has an effect on the key. -/
def LastTouch (commits : List CommitFrame) (key : Key) (frame : CommitFrame) : Prop :=
  ∃ before after, commits = before ++ frame :: after ∧ frame.Touches key ∧
    ∀ later ∈ after, ¬ later.Touches key

theorem LastTouch.mem {commits : List CommitFrame} {key : Key}
    (h : LastTouch commits key frame) : frame ∈ commits := by
  obtain ⟨before, after, rfl, -⟩ := h
  simp

theorem CommitFrame.touches_iff {key : Key} :
    frame.Touches key ↔ key ∈ frame.writes.map Prod.fst := by
  simp [CommitFrame.Touches, CommitFrame.writes, Effect.write]

/-- A record is as it was before the commit, or the commit wrote it. -/
theorem replayCommit_eq_some {m : RecordMap} {key : Key} {record : Record}
    (h : replayCommit m frame key = some record) :
    ¬ frame.Touches key ∧ m key = some record ∨
      frame.Touches key ∧ record.revision = frame.revision := by
  rw [replayCommit_eq_writeAll] at h
  by_cases htouches : frame.Touches key
  · right
    refine ⟨htouches, ?_⟩
    rw [writeAll_of_written m (fun _ => none) (CommitFrame.touches_iff.mp htouches)] at h
    have hwritten := (writeAll_eq_some h).resolve_left (by simp)
    obtain ⟨effect, _, heq⟩ := List.mem_map.mp hwritten
    rw [Effect.write, Prod.mk.injEq] at heq
    obtain ⟨_, heq⟩ := heq
    split at heq
    · cases heq
      rfl
    · cases heq
  · left
    rw [writeAll_of_not_mem (mt CommitFrame.touches_iff.mpr htouches)] at h
    exact ⟨htouches, h⟩

/-- A replayed record bears the revision of the last commit that wrote its key. -/
theorem lastTouch_of_replay {commits : List CommitFrame} {key : Key} {record : Record}
    (h : replayCommits (fun _ => none) commits key = some record) :
    ∃ frame, LastTouch commits key frame ∧ record.revision = frame.revision := by
  induction commits using List.reverseRecOn with
  | nil => cases h
  | append_singleton commits frame ih =>
    rw [replayCommits_append] at h
    rcases replayCommit_eq_some h with ⟨huntouched, hrecord⟩ | ⟨htouched, hrevision⟩
    · obtain ⟨writer, ⟨before, after, rfl, htouches, hlater⟩, hrevision⟩ := ih hrecord
      refine ⟨writer, ⟨before, after ++ [frame], by simp, htouches, fun later hmem => ?_⟩,
        hrevision⟩
      rcases List.mem_append.mp hmem with hmem | hmem
      · exact hlater later hmem
      · rw [List.mem_singleton.mp hmem]
        exact huntouched
    · exact ⟨frame, ⟨commits, [], rfl, htouched, by simp⟩, hrevision⟩

/-! ### The books -/

/-- The engine is at the last of these commits and holds what they leave. Records may be missing:
a snapshot leaves out those that have expired. -/
structure DatabaseState.Keeps (s : DatabaseState) (commits : List CommitFrame) : Prop where
  increasing : (0 :: commits.map CommitFrame.revision).Pairwise (· < ·)
  current : s.current = lastRevision 0 commits
  records : Faded (fun _ => True) (replayCommits (fun _ => none) commits) s.records
  tracks : ∃ reserved frames left tail, s.Tracks reserved frames left tail

section

variable {σ : Type} {s : DatabaseState} {commits : List CommitFrame}

theorem revision_le_lastRevision
    (h : (0 :: commits.map CommitFrame.revision).Pairwise (· < ·)) (hframe : frame ∈ commits) :
    frame.revision ≤ lastRevision 0 commits := by
  induction commits using List.reverseRecOn with
  | nil => cases hframe
  | append_singleton commits last ih =>
    rw [lastRevision_append]
    change _ ≤ last.revision
    rw [List.map_append, ← List.cons_append, List.pairwise_append] at h
    rcases List.mem_append.mp hframe with hmem | hmem
    · exact (h.2.2 _ (List.mem_cons_of_mem _ (List.mem_map.mpr ⟨frame, hmem, rfl⟩)) last.revision
        (by simp)).le
    · rw [List.mem_singleton.mp hmem]

theorem DatabaseState.Keeps.healthy (h : s.Keeps commits) (hactive : ¬ s.Degraded) : s.Healthy := by
  obtain ⟨_, _, _, _, htracks⟩ := h.tracks
  exact htracks.healthy.resolve_left hactive

/-- A commit that is published is entered at the end. -/
theorem DatabaseState.Keeps.move {s' : DatabaseState} {move : Move} (h : s.Keeps commits)
    (hmoves : s.Moves s' move)
    (htracks : ∃ reserved frames left tail, s'.Tracks reserved frames left tail) :
    s'.Keeps (commits ++ move.out) ∧ s.current ≤ s'.current := by
  cases hmoves with
  | quiet same | torn _ _ _ _ same | switched same =>
    rw [Move.out, List.append_nil]
    refine ⟨⟨h.increasing, same.current.trans h.current, ?_, htracks⟩, same.current.ge⟩
    rw [same.records]
    exact h.records
  | published frame active ages advances assigned accepts extends_ records current =>
    have hlt : s.current < frame.revision := by
      rw [← (h.healthy active).tip]
      exact accepts.increasing
    refine ⟨⟨?_, ?_, ?_, htracks⟩, ?_⟩
    · rw [List.map_append, ← List.cons_append, List.pairwise_append]
      refine ⟨h.increasing, List.pairwise_singleton _ _, fun revision hmem later hlater => ?_⟩
      rw [List.mem_singleton.mp hlater]
      rcases List.mem_cons.mp hmem with rfl | hmem
      · exact Nat.zero_lt_of_lt hlt
      · obtain ⟨earlier, hearlier, rfl⟩ := List.mem_map.mp hmem
        exact (h.current ▸ revision_le_lastRevision h.increasing hearlier).trans_lt hlt
    · rw [current, lastRevision_append]
      rfl
    · rw [records, Move.out, replayCommits_append, replayCommit_eq_writeAll]
      change Faded _ (replayCommit _ frame) _
      rw [replayCommit_eq_writeAll]
      exact h.records.writeAll _
    · rw [current]
      exact hlt.le

theorem DatabaseState.Keeps.turn (h : s.Keeps commits) (world : σ) {r : Request σ}
    (hfresh : r.Fresh s.limits) :
    (r.run s world).2.1.Keeps (commits ++ (r.turn s world).published) ∧
      s.current ≤ (r.run s world).2.1.current ∧ (r.run s world).2.1.limits = s.limits ∧
      r.Books s world := by
  obtain ⟨reserved, frames, left, tail, htracks⟩ := h.tracks
  obtain ⟨move, hmoved, _⟩ := Request.moved htracks world hfresh
  have hpublished := hmoved.published_eq (by rwa [r.turn_before])
  have hmoves := hmoved.moves
  rw [r.turn_before, r.turn_after] at hmoves
  obtain ⟨reserved', hle, hend⟩ := exists_reserved (r.run s world).2.1 reserved
  obtain ⟨hkeeps, hcurrent⟩ := h.move hmoves ⟨_, _, _, _, htracks.move hmoves hle hend⟩
  exact ⟨hpublished ▸ hkeeps, hcurrent, hmoves.limits_eq, Request.books htracks world r hfresh⟩

theorem DatabaseState.Keeps.live (h : s.Keeps commits) (world : σ) {rs : List (Request σ)}
    (hfresh : ∀ r ∈ rs, r.Fresh s.limits) :
    (live s world rs).2.1.Keeps (commits ++ published (live s world rs).1) ∧
      (live s world rs).2.1.limits = s.limits := by
  induction rs using List.reverseRecOn with
  | nil =>
    rw [published, show (GapDB.live s world []).1 = [] from rfl, List.flatMap_nil, List.append_nil]
    exact ⟨h, rfl⟩
  | append_singleton rs r ih =>
    obtain ⟨hkeeps, hlimits⟩ := ih fun q hq => hfresh q (by simp [hq])
    obtain ⟨hnext, _, hlimits', _⟩ := hkeeps.turn (GapDB.live s world rs).2.2
      (r := r) (hlimits ▸ hfresh r (by simp))
    rw [live_concat]
    refine ⟨?_, hlimits'.trans hlimits⟩
    simpa [published, List.flatMap_append, List.append_assoc] using hnext

/-! ### Evidence -/

/-- After the requests `before` the commit of this one stayed unpublished: storage failed or its map
apply was interrupted. -/
def Interrupted (s : DatabaseState) (world : σ) (before : List (Request σ)) (r : Request σ) :
    Prop :=
  let past := live s world before
  r.interrupts ∧ ∃ frame, (r.turn past.2.1 past.2.2).frame = some frame ∧
    (r.run past.2.1 past.2.2).2.1.current < frame.revision

/-- Either the log ends where the engine is, or a commit was interrupted before. -/
theorem DatabaseState.Keeps.level (h : s.Keeps commits) (hlevel : s.log.lastRevision = s.current)
    (world : σ) {rs : List (Request σ)} (hfresh : ∀ r ∈ rs, r.Fresh s.limits) :
    (GapDB.live s world rs).2.1.log.lastRevision = (GapDB.live s world rs).2.1.current ∨
      ∃ before earlier after, rs = before ++ earlier :: after ∧
        Interrupted s world before earlier := by
  induction rs using List.reverseRecOn with
  | nil => exact .inl hlevel
  | append_singleton rs r ih =>
    have hfresh' : ∀ q ∈ rs, q.Fresh s.limits := fun q hq => hfresh q (by simp [hq])
    rcases ih hfresh' with hlevel | ⟨before, earlier, after, rfl, hinterrupted⟩
    · obtain ⟨hkeeps, hlimits⟩ := h.live world hfresh'
      obtain ⟨_, _, _, hbooks⟩ := hkeeps.turn (GapDB.live s world rs).2.2
        (r := r) (hlimits ▸ hfresh r (by simp))
      rcases hbooks.settles.tip hlevel with htip | hinterrupted
      · left
        rw [live_concat]
        exact htip
      · exact .inr ⟨rs, r, [], rfl, hinterrupted⟩
    · exact .inr ⟨before, earlier, after ++ [r], by simp, hinterrupted⟩

end

/-- The engine is opened with what these commits have left. -/
structure Config.Resumes (config : Config) (past : List CommitFrame) : Prop where
  increasing : (0 :: past.map CommitFrame.revision).Pairwise (· < ·)
  current : config.currentRevision = lastRevision 0 past
  records : Faded (fun _ => True) (replayCommits (fun _ => none) past) (recordsOf config.records)

/-- An engine opened after the commits `past`, whatever it was asked for and whatever failed since:
what its revisions and records say, what the next request does to them and tells the client, and
what must have happened before a check of the durability evidence fails. -/
theorem revision_bookkeeping {σ : Type} {config : Config} {s : DatabaseState}
    {snapshot : List Record} {base past : List CommitFrame} (hopen : newState config = .ok s)
    (hconfig : config.Continues snapshot base) (hpast : config.Resumes past) (world : σ)
    (requests : List (Request σ)) (hfresh : ∀ r ∈ requests, r.Fresh config.effectiveLimits)
    {turns : List Turn} {s' : DatabaseState} {world' : σ}
    (hlive : live s world requests = (turns, s', world')) :
    (¬ s'.Degraded → s'.durableThrough ≤ s'.current ∧
      ∀ key record, s'.records key = some record →
        1 ≤ record.revision ∧ record.revision ≤ s'.current ∧
        ∃ frame, LastTouch (past ++ published turns) key frame ∧
          record.revision = frame.revision) ∧
    ∀ r : Request σ, r.Fresh config.effectiveLimits →
      (¬ (r.run s' world').2.1.Degraded → s'.current ≤ (r.run s' world').2.1.current ∧
        s'.durableThrough ≤ (r.run s' world').2.1.durableThrough) ∧
      (∀ result, (r.run s' world').1 = .commit (.ok result) →
        (result.result.ack = .memory →
          result.result.durableThroughRevision ≤ result.result.revision) ∧
        (result.result.ack = .durable →
          result.result.durableThroughRevision = result.result.revision)) ∧
      (r.evidenceFails s' world' = true →
        ∃ before earlier after, requests = before ++ earlier :: after ∧
          Interrupted s world before earlier) := by
  have ho := opened_of_newState hopen
  rw [← ho.limits] at hfresh ⊢
  obtain ⟨reserved, htracks⟩ := hconfig.tracks ho
  have hstart : s.Keeps past :=
    ⟨hpast.increasing, ho.current.trans hpast.current, ho.records ▸ hpast.records,
      _, _, _, _, htracks⟩
  have hactive : ¬ s.Degraded := by
    rw [Degraded, ho.lifecycle]
    decide
  have hlevel := hstart.level (hstart.healthy hactive).tip world hfresh
  obtain ⟨hkeeps, hlimits⟩ := hstart.live world hfresh
  rw [hlive] at hlevel hkeeps hlimits
  refine ⟨fun hactive' => ⟨?_, fun key record hrecord => ?_⟩, fun r hr => ?_⟩
  · have hhealthy := hkeeps.healthy hactive'
    exact hhealthy.known.trans hhealthy.le
  · have hreplayed : replayCommits (fun _ => none) (past ++ published turns) key = some record := by
      rcases hkeeps.records key with heq | ⟨hnone, _⟩
      · exact heq ▸ hrecord
      · exact absurd (hrecord.symm.trans hnone) (by simp)
    obtain ⟨frame, htouch, hrevision⟩ := lastTouch_of_replay hreplayed
    have hmem := htouch.mem
    rw [hrevision, hkeeps.current]
    refine ⟨?_, revision_le_lastRevision hkeeps.increasing hmem, frame, htouch, rfl⟩
    exact (List.pairwise_cons.mp hkeeps.increasing).1 _ (List.mem_map.mpr ⟨frame, hmem, rfl⟩)
  · obtain ⟨_, hcurrent, _, hbooks⟩ := hkeeps.turn world' (hlimits ▸ hr)
    refine ⟨fun hd => ⟨hcurrent, hbooks.settles.durable hd⟩, hbooks.settles.vouched,
      fun hfails => ?_⟩
    exact hlevel.resolve_left (hbooks.evidence hfails)

theorem newDatabase_resumes : (newDatabase sampleID defaultLimits).Resumes [] where
  increasing := List.pairwise_singleton _ _
  current := rfl
  records := .refl _

theorem revision_bookkeeping_samplePut :
    ∃ s, newState (newDatabase sampleID defaultLimits) = .ok s ∧
      let after := live s () [.command samplePut]
      after.2.1.lifecycle = .ready ∧ after.2.1.durableThrough ≤ after.2.1.current ∧
        ∀ key record, after.2.1.records key = some record →
          ∃ frame, LastTouch (published after.1) key frame ∧ record.revision = frame.revision := by
  obtain ⟨s, hs⟩ := newDatabase_opens
  have h := revision_bookkeeping hs newDatabase_continues newDatabase_resumes ()
    [.command samplePut] (by simp [Request.Fresh]) rfl
  have hready : (live s () [.command samplePut]).2.1.lifecycle = .ready := by
    obtain rfl := Except.ok.inj (hs.symm.trans
      (rfl : newState (newDatabase sampleID defaultLimits) = _))
    rfl
  have hactive : ¬ (live s () [.command samplePut]).2.1.Degraded := by
    rw [Degraded, hready]
    decide
  obtain ⟨hdurable, hrecords⟩ := h.1 hactive
  exact ⟨s, hs, hready, hdurable, fun key record hrecord => (hrecords key record hrecord).2.2⟩

end GapDB
