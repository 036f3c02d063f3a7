import GapDB.Engine.History

/-!
# What history retains

However commits are appended and evicted, the retained groups are the latest commits, whole and
in order, and the compaction point is where they begin. Replay from that point on misses nothing.
-/

namespace GapDB

open Storelib

variable {history : HistoryLog} {base after : Nat} {commit : CommitFrame} {start : Bytes}
    {commits cs : List CommitFrame} {g : EventGroup}

/-- What history keeps of one commit. -/
def commitGroup (commit : CommitFrame) : EventGroup :=
  ⟨commit.revision, HistoryLog.commitEvents commit,
    ((HistoryLog.commitEvents commit).map historyEventBytes).sum⟩

/-- What history keeps of a run of commits; a commit without events leaves nothing. -/
def commitGroups (commits : List CommitFrame) : List EventGroup :=
  (commits.filter fun commit => commit.effects ≠ []).map commitGroup

theorem commitGroups_append (cs ds : List CommitFrame) :
    commitGroups (cs ++ ds) = commitGroups cs ++ commitGroups ds := by
  simp [commitGroups]

namespace HistoryLog

/-- The counters are the totals of the retained groups. -/
structure Counts (history : HistoryLog) : Prop where
  events : history.eventCount = (history.commits.map fun g => g.events.length).sum
  bytes : history.byteCount = (history.commits.map EventGroup.bytes).sum

/-- The retained groups are what is left of `groups` behind the compaction point, which started
at `base`. -/
structure Retains (history : HistoryLog) (base : Nat) (groups : List EventGroup) : Prop where
  counts : history.Counts
  eventLimit : history.eventCount ≤ history.maxEvents
  byteLimit : history.byteCount ≤ history.maxBytes
  split : ∃ evicted, groups = evicted ++ history.commits ∧
    base ≤ history.compactedThrough ∧
    (∀ g ∈ evicted, g.revision ≤ history.compactedThrough) ∧
    (history.compactedThrough = base ∨ ∃ g ∈ evicted, history.compactedThrough = g.revision)

/-- The eviction loop, from groups whose totals are the counters. -/
theorem evict_retains {commits evicted : List EventGroup}
    (hevents : history.eventCount = (commits.map fun g => g.events.length).sum)
    (hbytes : history.byteCount = (commits.map EventGroup.bytes).sum)
    (hbase : base ≤ history.compactedThrough)
    (hpast : ∀ g ∈ evicted, g.revision ≤ history.compactedThrough)
    (hpoint : history.compactedThrough = base ∨
      ∃ g ∈ evicted, history.compactedThrough = g.revision) :
    (history.evict commits).Retains base (evicted ++ commits) := by
  induction commits generalizing history evicted with
  | nil =>
    simp only [List.map_nil, List.sum_nil] at hevents hbytes
    refine ⟨⟨by simpa [evict] using hevents, by simpa [evict] using hbytes⟩, ?_, ?_, evicted, ?_⟩
    · simp [evict, hevents]
    · simp [evict, hbytes]
    · simpa [evict] using ⟨hbase, hpast, hpoint⟩
  | cons first commits ih =>
    simp only [List.map_cons, List.sum_cons] at hevents hbytes
    rw [evict]
    split
    · rw [show evicted ++ first :: commits = (evicted ++ [first]) ++ commits by simp]
      refine ih ?_ ?_ ?_ ?_ ?_
      · simp only
        omega
      · simp only
        omega
      · exact hbase.trans (le_max_left _ _)
      · intro g hg
        rcases List.mem_append.mp hg with hg | hg
        · exact (hpast g hg).trans (le_max_left _ _)
        · rw [List.mem_singleton.mp hg]
          exact le_max_right _ _
      · -- the point stays where it was or moves to the group that goes
        rcases le_total first.revision history.compactedThrough with hle | hle
        · rw [max_eq_left hle]
          exact hpoint.imp_right fun ⟨g, hg, heq⟩ => ⟨g, List.mem_append_left _ hg, heq⟩
        · rw [max_eq_right hle]
          exact .inr ⟨first, by simp, rfl⟩
    · next hwithin =>
      push Not at hwithin
      exact ⟨⟨by simpa using hevents, by simpa using hbytes⟩, hwithin.1, hwithin.2, evicted, rfl,
        hbase, hpast, hpoint⟩

theorem evict_limits (history : HistoryLog) (commits : List EventGroup) :
    (history.evict commits).maxEvents = history.maxEvents ∧
      (history.evict commits).maxBytes = history.maxBytes := by
  induction commits generalizing history with
  | nil => exact ⟨rfl, rfl⟩
  | cons first commits ih =>
    rw [evict]
    split
    · exact ih _
    · exact ⟨rfl, rfl⟩

theorem append_limits (history : HistoryLog) (events : List ChangeEvent) :
    (history.append events).maxEvents = history.maxEvents ∧
      (history.append events).maxBytes = history.maxBytes := by
  cases events with
  | nil => exact ⟨rfl, rfl⟩
  | cons first rest => exact evict_limits _ _

theorem appendCommits_limits (history : HistoryLog) (commits : List CommitFrame) :
    (history.appendCommits commits).maxEvents = history.maxEvents ∧
      (history.appendCommits commits).maxBytes = history.maxBytes := by
  induction commits generalizing history with
  | nil => exact ⟨rfl, rfl⟩
  | cons commit commits ih =>
    obtain ⟨hevents, hbytes⟩ := append_limits history (commitEvents commit)
    rw [← hevents, ← hbytes]
    exact ih _

theorem commitEvents_eq_cons (h : commit.effects ≠ []) :
    ∃ first rest, commitEvents commit = first :: rest ∧ first.revision = commit.revision := by
  obtain ⟨effect, effects, heq⟩ := List.exists_cons_of_ne_nil h
  exact ⟨_, _, by rw [commitEvents, heq, List.mapIdx_cons], rfl⟩

theorem append_commitEvents (h : commit.effects ≠ []) : history.append (commitEvents commit)
      = { history with
          eventCount := history.eventCount + (commitGroup commit).events.length
          byteCount := history.byteCount + (commitGroup commit).bytes }.evict
        (history.commits ++ [commitGroup commit]) := by
  obtain ⟨first, rest, heq, hrevision⟩ := commitEvents_eq_cons h
  have hgroup : commitGroup commit
      = ⟨first.revision, first :: rest, ((first :: rest).map historyEventBytes).sum⟩ := by
    rw [commitGroup, heq, hrevision]
  rw [hgroup, heq, append]

/-- One more commit is retained, at the cost of older ones if it has to be. -/
theorem Retains.append {groups : List EventGroup}
    (h : history.Retains base groups) (commit : CommitFrame) :
    (history.append (commitEvents commit)).Retains base (groups ++ commitGroups [commit]) := by
  by_cases hempty : commit.effects = []
  · have hevents : commitEvents commit = [] := by simp [commitEvents, hempty]
    rw [hevents, HistoryLog.append]
    simpa [commitGroups, hempty] using h
  · obtain ⟨evicted, rfl, hbase, hpast, hpoint⟩ := h.split
    rw [append_commitEvents hempty, List.append_assoc]
    have hgroups : commitGroups [commit] = [commitGroup commit] := by simp [commitGroups, hempty]
    rw [hgroups]
    refine evict_retains ?_ ?_ hbase hpast hpoint
    · simp [h.counts.events]
    · simp [h.counts.bytes]

theorem Retains.appendCommits {groups : List EventGroup}
    (h : history.Retains base groups) (commits : List CommitFrame) :
    (history.appendCommits commits).Retains base (groups ++ commitGroups commits) := by
  induction commits generalizing history groups with
  | nil => simpa [HistoryLog.appendCommits, commitGroups] using h
  | cons commit commits ih =>
    have hnext := ih (h.append commit)
    rw [List.append_assoc, ← commitGroups_append] at hnext
    exact hnext

theorem initialized_retains (limits : Limits) (base : Nat) :
    (initialized limits base).Retains base [] :=
  ⟨⟨rfl, rfl⟩, Nat.zero_le _, Nat.zero_le _, [], rfl, le_rfl, by simp, .inl rfl⟩

/-- The events of a commit that a watcher of `start` has to see. -/
def matchingEvents (start : Bytes) (commit : CommitFrame) : List ChangeEvent :=
  (commitEvents commit).filter fun event => hasPrefix event.key start

/-- What a watcher of `start` after a revision has to see of some commits: the matching events
of every later commit that has any. -/
def committedAfter (start : Bytes) (after : Nat) (commits : List CommitFrame) : List EventGroup :=
  (commits.filter fun commit => after < commit.revision ∧ matchingEvents start commit ≠ []).map
    fun commit => ⟨commit.revision, matchingEvents start commit, 0⟩

theorem committedAfter_append (start : Bytes) (after : Nat) (cs ds : List CommitFrame) :
    committedAfter start after (cs ++ ds)
      = committedAfter start after cs ++ committedAfter start after ds := by
  simp [committedAfter]

theorem committedAfter_singleton (start : Bytes) (after : Nat) (commit : CommitFrame) :
    committedAfter start after [commit]
      = if after < commit.revision ∧ matchingEvents start commit ≠ [] then
          [⟨commit.revision, matchingEvents start commit, 0⟩]
        else [] := by
  simp only [committedAfter, List.filter_cons, List.filter_nil, decide_eq_true_eq]
  split <;> rfl

theorem revision_of_mem_committedAfter (h : g ∈ committedAfter start after commits) :
    g.revision ∈ commits.map CommitFrame.revision := by
  obtain ⟨c, hc, rfl⟩ := List.mem_map.mp h
  exact List.mem_map.mpr ⟨c, (List.mem_filter.mp hc).1, rfl⟩

theorem lt_of_mem_committedAfter
    (h : g ∈ committedAfter start after commits) : after < g.revision := by
  obtain ⟨c, hc, rfl⟩ := List.mem_map.mp h
  have hkept := (List.mem_filter.mp hc).2
  rw [decide_eq_true_eq] at hkept
  exact hkept.1

theorem committedAfter_pairwise (h : (commits.map CommitFrame.revision).Pairwise (· < ·)) :
    ((committedAfter start after commits).map EventGroup.revision).Pairwise (· < ·) := by
  rw [committedAfter, List.map_map]
  exact h.sublist (List.filter_sublist.map _)

/-- The committed events that a watcher of `start` after a revision has to see. -/
def committedEvents (start : Bytes) (after : Nat) (commits : List CommitFrame) :
    List ChangeEvent :=
  (commits.flatMap commitEvents).filter fun event =>
    decide (after < event.revision) && hasPrefix event.key start

theorem revision_of_mem_commitEvents {event : ChangeEvent}
    (h : event ∈ commitEvents commit) : event.revision = commit.revision := by
  obtain ⟨i, hi, rfl⟩ := List.mem_mapIdx.mp h
  rfl

theorem committedEvents_append (start : Bytes) (after : Nat) (cs ds : List CommitFrame) :
    committedEvents start after (cs ++ ds)
      = committedEvents start after cs ++ committedEvents start after ds := by
  simp [committedEvents]

theorem committedAfter_events (start : Bytes) (after : Nat) (commits : List CommitFrame) :
    (committedAfter start after commits).flatMap EventGroup.events
      = committedEvents start after commits := by
  induction commits with
  | nil => rfl
  | cons c cs ih =>
    have hhead : (committedAfter start after [c]).flatMap EventGroup.events
        = committedEvents start after [c] := by
      have hrevision : committedEvents start after [c]
          = (commitEvents c).filter fun event =>
            decide (after < c.revision) && hasPrefix event.key start := by
        simp only [committedEvents, List.flatMap_cons, List.flatMap_nil, List.append_nil]
        refine List.filter_congr fun event hevent => ?_
        rw [revision_of_mem_commitEvents hevent]
      rw [hrevision, committedAfter_singleton]
      by_cases hafter : after < c.revision
      · simp only [hafter, decide_true, Bool.true_and, true_and]
        split
        · exact List.flatMap_singleton _ _
        · next hnone => exact (not_not.mp hnone).symm
      · simp [hafter]
    rw [← List.singleton_append, committedAfter_append, committedEvents_append,
      List.flatMap_append, hhead, ih]

theorem revision_of_mem_group (hg : g ∈ committedAfter start after commits) {event : ChangeEvent}
    (h : event ∈ g.events) : event.revision = g.revision := by
  obtain ⟨c, -, rfl⟩ := List.mem_map.mp hg
  exact revision_of_mem_commitEvents (List.mem_filter.mp h).1

/-- The order of events: by revision, and within a commit by position. -/
def Before (a b : ChangeEvent) : Prop :=
  a.revision < b.revision ∨ a.revision = b.revision ∧ a.order < b.order

theorem Before.revision_le {a b : ChangeEvent} (h : Before a b) : a.revision ≤ b.revision :=
  h.elim Nat.le_of_lt fun heq => heq.1.le

theorem Before.ne {a b : ChangeEvent} (h : Before a b) : a ≠ b := by
  rintro rfl
  exact h.elim (lt_irrefl _) fun heq => lt_irrefl _ heq.2

theorem commitEvents_before (h : commit.effects.length ≤ 2 ^ 32) :
    (commitEvents commit).Pairwise Before := by
  rw [List.pairwise_iff_getElem]
  intro i j hi hj hij
  simp only [commitEvents, List.length_mapIdx] at hi hj
  simp only [commitEvents, List.getElem_mapIdx, effectEvent, Before, u32]
  right
  refine ⟨trivial, ?_⟩
  rw [Nat.mod_eq_of_lt (by omega), Nat.mod_eq_of_lt (by omega)]
  exact hij

theorem committedEvents_before (hincreasing : (commits.map CommitFrame.revision).Pairwise (· < ·))
    (hcounts : ∀ c ∈ commits, c.effects.length ≤ 2 ^ 32) :
    (committedEvents start after commits).Pairwise Before := by
  refine List.Pairwise.filter _ (List.pairwise_flatMap.mpr ⟨?_, ?_⟩)
  · exact fun c hc => commitEvents_before (hcounts c hc)
  · refine (List.pairwise_map.mp hincreasing).imp fun hlt a ha b hb => .inl ?_
    rwa [revision_of_mem_commitEvents ha, revision_of_mem_commitEvents hb]

/-- A prefix of the matching commits is what matches in a prefix of all commits. -/
theorem exists_take_of_committedAfter
    {done rest : List EventGroup} (h : committedAfter start after commits = done ++ rest) :
    ∃ n, committedAfter start after (commits.take n) = done := by
  induction commits generalizing done with
  | nil =>
    obtain ⟨rfl, -⟩ := List.append_eq_nil_iff.mp h.symm
    exact ⟨0, rfl⟩
  | cons c cs ih =>
    rw [← List.singleton_append, committedAfter_append] at h
    cases done with
    | nil => exact ⟨0, rfl⟩
    | cons g done =>
      by_cases hkept : after < c.revision ∧ matchingEvents start c ≠ []
      · have hone : committedAfter start after [c]
            = [⟨c.revision, matchingEvents start c, 0⟩] := by
          rw [committedAfter_singleton, if_pos hkept]
        rw [hone, List.singleton_append, List.cons_append, List.cons.injEq] at h
        obtain ⟨n, hn⟩ := ih h.2
        refine ⟨n + 1, ?_⟩
        rw [List.take_succ_cons, ← List.singleton_append, committedAfter_append, hone, hn, ← h.1]
        rfl
      · have hone : committedAfter start after [c] = [] := by
          rw [committedAfter_singleton, if_neg hkept]
        rw [hone, List.nil_append] at h
        obtain ⟨n, hn⟩ := ih h
        refine ⟨n + 1, ?_⟩
        rw [List.take_succ_cons, ← List.singleton_append, committedAfter_append, hone, hn,
          List.nil_append]

/-- The number of events in some groups. -/
def eventTotal (groups : List EventGroup) : Nat :=
  (groups.map fun group => group.events.length).sum

theorem matchingGroups_commitGroups (start : Bytes) (after : Nat) (commits : List CommitFrame) :
    matchingGroups start after (commitGroups commits) = committedAfter start after commits := by
  induction commits with
  | nil => rfl
  | cons commit commits ih =>
    have htail : commitGroups (commit :: commits) = commitGroups [commit] ++ commitGroups commits :=
      commitGroups_append [commit] commits
    rw [htail]
    by_cases hempty : commit.effects = []
    · have hnone : matchingEvents start commit = [] := by
        simp [matchingEvents, commitEvents, hempty]
      have hgroup : commitGroups [commit] = [] := by simp [commitGroups, hempty]
      rw [hgroup, List.nil_append, ih, committedAfter, committedAfter,
        List.filter_cons_of_neg (by simp [hnone])]
    · have hgroup : commitGroups [commit] = [commitGroup commit] := by
        simp [commitGroups, hempty]
      rw [hgroup, List.singleton_append, matchingGroups]
      by_cases hskip : commit.revision ≤ after ∨ matchingEvents start commit = []
      · rw [if_pos (by simpa [commitGroup, matchingEvents] using hskip), ih, committedAfter,
          committedAfter, List.filter_cons_of_neg]
        simp only [decide_eq_true_eq, not_and, not_not]
        intro hlt
        exact hskip.resolve_left (by omega)
      · rw [if_neg (by simpa [commitGroup, matchingEvents] using hskip), ih, committedAfter,
          committedAfter, List.filter_cons_of_pos]
        · rfl
        · simpa [not_or] using hskip

/-- Groups at or below the start revision add nothing. -/
theorem matchingGroups_append_of_le {evicted : List EventGroup}
    (h : ∀ g ∈ evicted, g.revision ≤ after) (groups : List EventGroup) :
    matchingGroups start after (evicted ++ groups) = matchingGroups start after groups := by
  induction evicted with
  | nil => rfl
  | cons g evicted ih =>
    rw [List.cons_append, matchingGroups, if_pos (.inl (h g (by simp)))]
    exact ih fun g hg => h g (by simp [hg])

/-- The loop for a watch finds the same groups, and gives up exactly when they do not fit. -/
theorem watchGroups_eq (start : Bytes) (after limit : Nat) (groups : List EventGroup) {total : Nat}
    (htotal : total ≤ limit) :
    watchGroups start after limit groups total
      = if total + eventTotal (matchingGroups start after groups) ≤ limit then
          some (matchingGroups start after groups,
            total + eventTotal (matchingGroups start after groups))
        else none := by
  induction groups generalizing total with
  | nil => simp [watchGroups, matchingGroups, eventTotal, htotal]
  | cons g groups ih =>
    rw [watchGroups, matchingGroups]
    split
    · exact ih htotal
    · -- the group counts: either it already overflows the buffer, or the rest decides
      simp only [eventTotal, List.map_cons, List.sum_cons]
      split
      · rw [if_neg (by omega)]
      · rw [ih (by omega)]
        simp only [eventTotal, Nat.add_assoc]
        split <;> simp

/-- A rebuild that succeeds has read strictly increasing revisions that end at `current`. -/
theorem rebuildFrom_eq_ok {history' : HistoryLog} {current previous : Nat}
    (h : history.rebuildFrom current previous cs = .ok history') :
    (previous :: cs.map CommitFrame.revision).Pairwise (· < ·) ∧
      lastRevision previous cs = current ∧ history' = history.appendCommits cs := by
  induction cs generalizing history previous with
  | nil =>
    rw [rebuildFrom] at h
    obtain ⟨hcurrent, h⟩ := ite_error_eq_ok.mp h
    cases h
    exact ⟨by simp, by simpa [lastRevision] using hcurrent, rfl⟩
  | cons c cs ih =>
    rw [rebuildFrom] at h
    obtain ⟨hbounds, h⟩ := ite_error_eq_ok.mp h
    obtain ⟨hincreasing, hlast, heq⟩ := ih h
    refine ⟨?_, hlast, heq⟩
    push Not at hbounds
    refine List.pairwise_cons.mpr ⟨?_, hincreasing⟩
    intro r hr
    rcases List.mem_cons.mp hr with rfl | hr
    · exact hbounds.1
    · exact hbounds.1.trans ((List.pairwise_cons.mp hincreasing).1 r hr)

/-- Increasing revisions that go on from the last one are increasing together. -/
theorem pairwise_append_of_lastRevision {ds : List CommitFrame}
    (hcs : (base :: cs.map CommitFrame.revision).Pairwise (· < ·))
    (hds : (lastRevision base cs :: ds.map CommitFrame.revision).Pairwise (· < ·)) :
    (base :: (cs ++ ds).map CommitFrame.revision).Pairwise (· < ·) := by
  induction cs generalizing base with
  | nil => exact hds
  | cons c cs ih =>
    have htail := ih (List.pairwise_cons.mp hcs).2 hds
    have hfirst : base < c.revision := (List.pairwise_cons.mp hcs).1 _ (by simp)
    refine List.pairwise_cons.mpr ⟨?_, htail⟩
    intro r hr
    rcases List.mem_cons.mp hr with rfl | hr
    · exact hfirst
    · exact hfirst.trans ((List.pairwise_cons.mp htail).1 r hr)

theorem lastRevision_mem (base : Nat) (cs : List CommitFrame) :
    lastRevision base cs ∈ base :: cs.map CommitFrame.revision := by
  induction cs generalizing base with
  | nil => simp [lastRevision]
  | cons c cs ih => exact List.mem_cons_of_mem _ (ih c.revision)

/-- Later commits are past the last revision. -/
theorem lastRevision_lt_of_pairwise {ds : List CommitFrame}
    (h : (base :: (cs ++ ds).map CommitFrame.revision).Pairwise (· < ·)) :
    ∀ r ∈ ds.map CommitFrame.revision, lastRevision base cs < r := by
  intro r hr
  rw [List.map_append, ← List.cons_append, List.pairwise_append] at h
  exact h.2.2 _ (lastRevision_mem base cs) r hr

theorem mem_commitGroups
    (h : g ∈ commitGroups commits) : g.revision ∈ commits.map CommitFrame.revision := by
  obtain ⟨c, hc, rfl⟩ := List.mem_map.mp h
  exact List.mem_map.mpr ⟨c, (List.mem_filter.mp hc).1, rfl⟩

theorem bytes_of_mem_commitGroups
    (h : g ∈ commitGroups commits) : g.bytes = (g.events.map historyEventBytes).sum := by
  obtain ⟨c, -, rfl⟩ := List.mem_map.mp h
  rfl

theorem commitGroups_pairwise (h : (commits.map CommitFrame.revision).Pairwise (· < ·)) :
    ((commitGroups commits).map EventGroup.revision).Pairwise (· < ·) := by
  rw [commitGroups, List.map_map]
  exact h.sublist (List.filter_sublist.map _)

/-- The revision a refusal reports is not below the compaction point: it is the first retained
revision, later than everything evicted. -/
theorem Retains.le_earliestAvailable (h : history.Retains base (commitGroups commits))
    (hincreasing : (base :: commits.map CommitFrame.revision).Pairwise (· < ·)) :
    history.compactedThrough ≤ history.earliestAvailable := by
  rw [earliestAvailable]
  split
  · next first rest heq =>
    obtain ⟨evicted, hsplit, -, -, hpoint⟩ := h.split
    rw [heq] at hsplit
    rw [List.pairwise_cons] at hincreasing
    rcases hpoint with hpoint | ⟨g, hg, hpoint⟩
    · rw [hpoint]
      exact (hincreasing.1 _ (mem_commitGroups (by simp [hsplit]))).le
    · have hgroups := commitGroups_pairwise hincreasing.2
      rw [hsplit, List.map_append, List.pairwise_append] at hgroups
      rw [hpoint]
      exact (hgroups.2.2 _ (List.mem_map.mpr ⟨g, hg, rfl⟩) _ (by simp)).le
  · exact le_rfl

/-- From the compaction point on, the retained groups hold all that was committed. -/
theorem Retains.matchingGroups (h : history.Retains base (commitGroups commits)) (start : Bytes)
    (hafter : history.compactedThrough ≤ after) :
    matchingGroups start after history.commits = committedAfter start after commits := by
  obtain ⟨evicted, hsplit, -, hpast, -⟩ := h.split
  rw [← matchingGroups_commitGroups, hsplit,
    matchingGroups_append_of_le fun g hg => (hpast g hg).trans hafter]

/-- History is complete above its compaction point. After a rebuild and any further commits,
under any limits: a replay from the compaction point on returns what was committed after its
start, commit by commit; a lower start is refused with a start that is accepted; the counters are
the totals of the retained groups, which are the latest commits whole; and a watch replays the
same groups exactly when their events fit its buffer. -/
theorem replay_complete {limits : Limits} {base current : Nat} {cs ds : List CommitFrame}
    {rebuilt : HistoryLog}
    (hrebuild : (initialized limits base).rebuild cs current = .ok rebuilt)
    (hincreasing : (current :: ds.map CommitFrame.revision).Pairwise (· < ·)) :
    (∀ start after, (rebuilt.appendCommits ds).compactedThrough ≤ after →
      (rebuilt.appendCommits ds).replayGroups start after
        = .ok (committedAfter start after (cs ++ ds))) ∧
    (∀ start after limit, after < (rebuilt.appendCommits ds).compactedThrough →
      ∃ earliest,
        (rebuilt.appendCommits ds).replayGroups start after
          = .error (revisionCompacted after earliest) ∧
        (rebuilt.appendCommits ds).replayGroupsForWatch start after limit
          = .error (revisionCompacted after earliest) ∧
        (rebuilt.appendCommits ds).replayGroups start earliest
          = .ok (committedAfter start earliest (cs ++ ds))) ∧
    ((rebuilt.appendCommits ds).eventCount = eventTotal (rebuilt.appendCommits ds).commits ∧
      (rebuilt.appendCommits ds).byteCount
        = ((rebuilt.appendCommits ds).commits.map fun group =>
            (group.events.map historyEventBytes).sum).sum ∧
      (rebuilt.appendCommits ds).eventCount ≤ limits.maxHistoryEvents ∧
      (rebuilt.appendCommits ds).byteCount ≤ limits.maxHistoryBytes ∧
      (rebuilt.appendCommits ds).commits <:+ commitGroups (cs ++ ds)) ∧
    (∀ start after limit, (rebuilt.appendCommits ds).compactedThrough ≤ after →
      (rebuilt.appendCommits ds).replayGroupsForWatch start after limit
        = .ok (if eventTotal (committedAfter start after (cs ++ ds)) ≤ limit then
            some (committedAfter start after (cs ++ ds),
              eventTotal (committedAfter start after (cs ++ ds)))
          else none)) := by
  obtain ⟨hcs, hlast, rfl⟩ := rebuildFrom_eq_ok hrebuild
  have hall : (base :: (cs ++ ds).map CommitFrame.revision).Pairwise (· < ·) := by
    refine pairwise_append_of_lastRevision hcs ?_
    rwa [show lastRevision base cs = current from hlast]
  have hretains : (((initialized limits base).appendCommits cs).appendCommits ds).Retains base
      (commitGroups (cs ++ ds)) := by
    rw [← appendCommits_append]
    exact (initialized_retains limits base).appendCommits _
  have hlimits := appendCommits_limits (initialized limits base) (cs ++ ds)
  rw [appendCommits_append] at hlimits
  generalize ((initialized limits base).appendCommits cs).appendCommits ds = history at *
  have hplain : ∀ start after, history.compactedThrough ≤ after →
      history.replayGroups start after = .ok (committedAfter start after (cs ++ ds)) := by
    intro start after hafter
    rw [replayGroups, if_neg (by omega), hretains.matchingGroups start hafter]
  refine ⟨hplain, ?_, ⟨hretains.counts.events, ?_, ?_, ?_, ?_⟩, ?_⟩
  · intro start after limit hafter
    refine ⟨history.earliestAvailable, ?_, ?_, ?_⟩
    · rw [replayGroups, if_pos hafter]
    · rw [replayGroupsForWatch, if_pos hafter]
    · exact hplain _ _ (hretains.le_earliestAvailable hall)
  · obtain ⟨evicted, hsplit, -⟩ := hretains.split
    rw [hretains.counts.bytes]
    congr 1
    refine List.map_congr_left fun g hg => ?_
    have hmem : g ∈ commitGroups (cs ++ ds) := by
      rw [hsplit]
      exact List.mem_append_right _ hg
    exact bytes_of_mem_commitGroups hmem
  · exact hretains.eventLimit.trans_eq hlimits.1
  · exact hretains.byteLimit.trans_eq hlimits.2
  · obtain ⟨evicted, hsplit, -⟩ := hretains.split
    exact ⟨evicted, hsplit.symm⟩
  · intro start after limit hafter
    rw [replayGroupsForWatch, if_neg (by omega), watchGroups_eq _ _ _ _ (Nat.zero_le limit),
      hretains.matchingGroups start hafter]
    simp only [Nat.zero_add]

/-- Room for two events. -/
def twoEvents : Limits := { defaultLimits with maxHistoryEvents := 2 }

/-- The first of three commits is evicted. -/
theorem replay_complete_twoEvents :
    ∃ rebuilt,
      (initialized twoEvents 4).rebuild [⟨5, [⟨.put, [97], [1], none⟩]⟩] 5 = .ok rebuilt ∧
      (rebuilt.appendCommits
        [⟨7, [⟨.put, [98], [2], none⟩]⟩, ⟨9, [⟨.delete, [97], [], none⟩]⟩]).replayGroups [97] 5
        = .ok [⟨9, [⟨9, 0, .delete, [97], none⟩], 0⟩] := by
  have hrebuild : (initialized twoEvents 4).rebuild [⟨5, [⟨.put, [97], [1], none⟩]⟩] 5
      = .ok ((initialized twoEvents 4).append (commitEvents ⟨5, [⟨.put, [97], [1], none⟩]⟩)) := rfl
  have hincreasing : (5 :: ([⟨7, [⟨.put, [98], [2], none⟩]⟩, ⟨9, [⟨.delete, [97], [], none⟩]⟩] :
      List CommitFrame).map CommitFrame.revision).Pairwise (· < ·) := by decide
  exact ⟨_, hrebuild, (replay_complete hrebuild hincreasing).1 [97] 5 (by decide)⟩

end HistoryLog

end GapDB
