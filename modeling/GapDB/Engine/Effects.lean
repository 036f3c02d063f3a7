import GapDB.Engine.Lifetime

/-!
# What a request shows

A request leaves the records, the index, the current revision and history as they are, or it
publishes one commit in all of them at once. This holds of any state and any log, so that what
readers and watchers see needs nothing of the write-ahead invariant.
-/

namespace GapDB

open Storelib DatabaseState

variable {s s' s₀ : DatabaseState} {batch : Batch} {single : SingleOperation}

namespace DatabaseState

/-- The commit of `batch` as `revision` has been published. -/
structure Publishes (s : DatabaseState) (batch : Batch) (single : SingleOperation) (revision : Nat)
    (s' : DatabaseState) : Prop where
  increasing : s.current < revision
  records : s'.records = replayCommit s.records (commitFrame batch single revision)
  keys : s'.orderedKeys = s.orderedKeys.adopt (planOrderedKeys s.orderedKeys batch.mutations)
  current : s'.current = revision
  history : s'.history
    = s.history.append (HistoryLog.commitEvents (commitFrame batch single revision))
  limits : s'.limits = s.limits
  databaseID : s'.databaseID = s.databaseID

/-- Nothing that readers or watchers see has changed. -/
structure Alike (s s' : DatabaseState) : Prop where
  same : s.Same s'
  keys : s'.orderedKeys = s.orderedKeys
  watchers : s'.watchers = s.watchers

/-- What has become visible between two states. -/
inductive Shows (s s' : DatabaseState) : List CommitFrame → Prop where
  | nothing (same : s.Same s') (keys : s'.orderedKeys = s.orderedKeys) : Shows s s' []
  | commit (batch : Batch) (single : SingleOperation) (revision : Nat) (now : Time)
      (active : ¬ s.Degraded) (valid : validateBatchAt batch s.limits now = .ok ())
      (publishes : s.Publishes batch single revision s') :
      Shows s s' [commitFrame batch single revision]

/-- What the watchers are told of it. A commit that is published but not acknowledged is the last
one, and they are not told. -/
inductive Tells (s s' : DatabaseState) : List CommitFrame → Prop where
  | nothing (watchers : s'.watchers = s.watchers) : Tells s s' []
  | commit (frame : CommitFrame)
      (watchers : s'.watchers = s.watchers.publish (HistoryLog.commitEvents frame)) :
      Tells s s' [frame]
  | silence (frame : CommitFrame) (watchers : s'.watchers = s.watchers) (degraded : s'.Degraded) :
      Tells s s' [frame]

/-! ### The commit step -/

theorem Same.trans {s'' : DatabaseState} (h : s.Same s') (h' : s'.Same s'') : s.Same s'' :=
  ⟨h'.records.trans h.records, h'.current.trans h.current, h'.history.trans h.history,
    h'.limits.trans h.limits, h'.databaseID.trans h.databaseID⟩

theorem Alike.trans {s'' : DatabaseState} (h : s.Alike s') (h' : s'.Alike s'') : s.Alike s'' :=
  ⟨h.same.trans h'.same, h'.keys.trans h.keys, h'.watchers.trans h.watchers⟩

theorem Publishes.of_alike
    {revision : Nat} (h : s.Publishes batch single revision s') (halike : s₀.Alike s) :
    s₀.Publishes batch single revision s' where
  increasing := halike.same.current ▸ h.increasing
  records := by rw [h.records, halike.same.records]
  keys := by rw [h.keys, halike.keys]
  current := h.current
  history := by rw [h.history, halike.same.history]
  limits := h.limits.trans halike.same.limits
  databaseID := h.databaseID.trans halike.same.databaseID

theorem Tells.of_alike {frames : List CommitFrame}
    (h : s.Tells s' frames) (halike : s₀.Alike s) : s₀.Tells s' frames := by
  cases h with
  | nothing watchers => exact .nothing (watchers.trans halike.watchers)
  | commit frame watchers => exact .commit frame (by rw [watchers, halike.watchers])
  | silence frame watchers degraded =>
    exact .silence frame (watchers.trans halike.watchers) degraded

/-- How a command ends that holds a revision. -/
def Ends (s : DatabaseState) (batch : Batch) (single : SingleOperation) (revision : Nat)
    (s' : DatabaseState) : Prop :=
  s.Alike s' ∨
    s.Publishes batch single revision s' ∧ s.Tells s' [commitFrame batch single revision]

theorem Ends.of_alike {revision : Nat} (h : s.Ends batch single revision s') (halike : s₀.Alike s) :
    s₀.Ends batch single revision s' := by
  rcases h with h | ⟨hpublishes, htells⟩
  · exact .inl (halike.trans h)
  · exact .inr ⟨hpublishes.of_alike halike, htells.of_alike halike⟩

section

variable {revision : Nat}
  (faults : ExecuteFaults) (id : String)

/-- Neither the log, the clock, the allocator nor the lifecycle can be seen. -/
theorem Alike.of_rest (log : WAL) (clock : Nondecreasing) (allocator : Option RangeAllocator)
    (lifecycle : LifecycleState) (schedule : ExpirySchedule) :
    s.Alike { s with log, clock, allocator, lifecycle, schedule } :=
  ⟨⟨rfl, rfl, rfl, rfl, rfl⟩, rfl, rfl⟩

theorem publish_publishes (hrevision : s.current < revision) (durableThrough : Nat) :
    s.Publishes batch single revision (s.publish batch single revision durableThrough).1 := by
  rw [publish_eq]
  exact ⟨hrevision, rfl, rfl, rfl, rfl, rfl, rfl⟩

theorem publish_events (durableThrough : Nat) :
    (s.publish batch single revision durableThrough).2
      = HistoryLog.commitEvents (commitFrame batch single revision) := by
  unfold publish
  rw [applyAll_eq]
  simp [commitFrame, HistoryLog.commitEvents]

theorem mapApply_ends (hrevision : s.current < revision) (durableThrough : Nat) :
    s.Ends batch single revision
      (recovered (s.mapApply batch single revision durableThrough faults) id).2 := by
  have hpublishes : s.Publishes batch single revision
      (s.publish batch single revision durableThrough).1 := publish_publishes hrevision _
  have hwatchers : (s.publish batch single revision durableThrough).1.watchers = s.watchers := by
    rw [publish_eq]
  unfold mapApply
  cases checkpoint faults.mapApplyBefore .mapApply .before with
  | panic | error => exact .inl (.of_rest _ _ _ _ _)
  | ok u =>
    simp only
    obtain ⟨h₁, h₂, h₃, h₄, h₅, h₆, h₇⟩ := hpublishes
    cases checkpoint faults.mapApplyAfter .mapApply .after with
    | panic | error => exact .inr ⟨⟨h₁, h₂, h₃, h₄, h₅, h₆, h₇⟩, .silence _ hwatchers rfl⟩
    | ok u =>
      refine .inr ⟨⟨h₁, h₂, h₃, h₄, h₅, h₆, h₇⟩, .commit _ ?_⟩
      simp only [recovered, afterCommit]
      rw [publish_events, hwatchers]

theorem makeDurable_ends (hrevision : s.current < revision) :
    s.Ends batch single revision
      (recovered (s.makeDurable batch single revision faults) id).2 := by
  unfold makeDurable
  simp only
  split
  · exact .inl (.of_rest _ _ _ _ _)
  split
  · generalize s.log.barrier faults.barrier = result
    obtain ⟨outcome, log⟩ := result
    cases outcome with
    | panic | error => exact .inl (.of_rest _ _ _ _ _)
    | ok u =>
      simp only
      split
      · exact .inl (.of_rest _ _ _ _ _)
      · have hcurrent : { s with log }.current < revision := hrevision
        exact (mapApply_ends faults id hcurrent log.durableThrough).of_alike (.of_rest _ _ _ _ _)
  · exact mapApply_ends faults id hrevision _

theorem commit_ends (s : DatabaseState) (batch : Batch) (single : SingleOperation)
    (revision : Nat) :
    s.Ends batch single revision (recovered (s.commit batch single revision faults) id).2 := by
  unfold commit
  split
  · exact .inl (.of_rest _ _ _ _ _)
  next hrevision =>
  generalize s.log.append (commitFrame batch single revision) faults.writes = result
  obtain ⟨outcome, log⟩ := result
  cases outcome with
  | panic | error => exact .inl (.of_rest _ _ _ _ _)
  | ok u =>
    have hcurrent : { s with log }.current < revision := by
      simp only
      omega
    exact (makeDurable_ends faults id hcurrent).of_alike (.of_rest _ _ _ _ _)

end

/-! ### Requests -/

/-- How a command ends that reaches the writer. -/
def Executed (s : DatabaseState) (batch : Batch) (single : SingleOperation) (assigned : Option Nat)
    (s' : DatabaseState) : Prop :=
  s.Alike s' ∨
    ∃ revision now, assigned = some revision ∧ ¬ s.Degraded ∧
      validateBatchAt batch s.limits now = .ok () ∧ s.Publishes batch single revision s' ∧
      s.Tells s' [commitFrame batch single revision]

theorem execute_executed {σ : Type} (reserve : Option (ReserveFunc σ)) (s : DatabaseState)
    (world : σ) (batch : Batch) (single : SingleOperation) (faults : ExecuteFaults) (id : String) :
    s.Executed batch single (s.assignedRevision reserve world batch single faults)
      (recovered (s.execute reserve world batch single faults).1 id).2 := by
  unfold assignedRevision execute prepare
  by_cases hlifecycle : s.lifecycle ≠ .ready ∧ s.lifecycle ≠ .draining
  · simp only [if_pos hlifecycle]
    exact .inl (.of_rest _ _ _ _ _)
  have hactive : ¬ s.Degraded := by
    intro hd
    rw [Degraded] at hd
    simp [hd] at hlifecycle
  simp only [if_neg hlifecycle]
  cases hvalid : validateBatchAt batch s.limits (s.clock.now faults.source).1 with
  | error e => exact .inl (.of_rest _ _ _ _ _)
  | ok u =>
  cases predicatePhase { s with clock := (s.clock.now faults.source).2 } batch single
      (s.clock.now faults.source).1 faults with
  | error | panic => exact .inl (.of_rest _ _ _ _ _)
  | ok u =>
    simp only
    rw [allocate_clock, s.allocate_state reserve world]
    generalize s.allocate reserve world = result
    obtain ⟨outcome, s₁, world'⟩ := result
    simp only
    cases outcome with
    | error | panic => exact .inl (.of_rest _ _ _ _ _)
    | ok revision =>
      simp only
      rcases (commit_ends faults id _ batch single revision).of_alike
        (.of_rest s.log (s.clock.now faults.source).2 s₁.allocator s.lifecycle s.schedule)
        with halike | ⟨hpublishes, htells⟩
      · exact .inl halike
      · exact .inr ⟨revision, _, rfl, hactive, hvalid, hpublishes, htells⟩

theorem Executed.of_alike
    {assigned : Option Nat} (h : s.Executed batch single assigned s') (halike : s₀.Alike s)
    (hlifecycle : s.lifecycle = s₀.lifecycle) : s₀.Executed batch single assigned s' := by
  rcases h with h | ⟨revision, now, hassigned, hactive, hvalid, hpublishes, htells⟩
  · exact .inl (halike.trans h)
  · refine .inr ⟨revision, now, hassigned, ?_, ?_, hpublishes.of_alike halike,
      htells.of_alike halike⟩
    · rwa [Degraded, ← hlifecycle]
    · rwa [← halike.same.limits]

theorem executeDueExpiriesSafely_executed {σ : Type} (reserve : Option (ReserveFunc σ))
    (s : DatabaseState) (world : σ) (source : Time) (faults : ExecuteFaults) :
    s.Executed (expiryBatch (s.due source)) .expiry
      (s.assignedExpiry reserve world source faults)
      (s.executeDueExpiriesSafely reserve world source faults).1.2 := by
  unfold executeDueExpiriesSafely executeDueExpiries assignedExpiry due
  simp only
  split
  · exact .inl (.of_rest _ _ _ _ _)
  · exact (execute_executed reserve _ world _ _ faults _).of_alike
      (.of_rest s.log (s.clock.now source).2 s.allocator s.lifecycle _) rfl

theorem Executed.shows {assigned : Option Nat} (h : s.Executed batch single assigned s') :
    ∃ frames, frames = (if s'.current = s.current then []
        else (assigned.map (commitFrame batch single)).toList) ∧
      s.Shows s' frames ∧ s.Tells s' frames := by
  rcases h with ⟨same, keys, watchers⟩ | ⟨revision, now, rfl, active, valid, publishes, tells⟩
  · exact ⟨[], by rw [if_pos same.current], .nothing same keys, .nothing watchers⟩
  · refine ⟨_, ?_, .commit batch single revision now active valid publishes, tells⟩
    rw [if_neg (by rw [publishes.current]; exact publishes.increasing.ne')]
    rfl

theorem executeSnapshot_alike {σ : Type} (install : SnapshotInstaller σ) (s : DatabaseState)
    (world : σ)
    (faults : SnapshotFaults) : s.Alike (s.executeSnapshot install world faults).2.1 := by
  have hcases := executeSnapshot_cases install s world faults
  generalize s.executeSnapshot install world faults = result at hcases ⊢
  obtain ⟨⟨result, error⟩, s', world'⟩ := result
  cases hcases with
  | unbarriered | unevident | refused | broken | switched =>
    exact ⟨⟨rfl, rfl, rfl, rfl, rfl⟩, rfl, rfl⟩

theorem executeDurableAdmin_alike {σ : Type} (operation : DurableAdminOperation σ)
    (s : DatabaseState) (world : σ) (barrier : Option WAL.BarrierFault) :
    s.Alike (s.executeDurableAdmin operation world barrier).2.1 := by
  unfold executeDurableAdmin
  split
  · exact .of_rest _ _ _ _ _
  · exact .of_rest _ _ _ _ _
  · simp only
    split
    · exact ⟨⟨rfl, rfl, rfl, rfl, rfl⟩, rfl, rfl⟩
    · split <;> exact ⟨⟨rfl, rfl, rfl, rfl, rfl⟩, rfl, rfl⟩

end DatabaseState

namespace Request

variable {σ : Type}

/-- The requests by which watchers come and go. -/
def forWatchers : Request σ → Bool
  | .command (.register _ _ _) | .command (.unregister _) | .command (.retire _) | .shutdown _ =>
    true
  | _ => false

/-- What a request shows, and what watchers are told of it unless it is about them. -/
theorem shows (s : DatabaseState) (world : σ) (r : Request σ) :
    s.Shows (r.run s world).2.1 (r.turn s world).published ∧
      (r.forWatchers = false → s.Tells (r.run s world).2.1 (r.turn s world).published) ∧
      (r.forWatchers = true → (r.turn s world).published = []) := by
  have hnothing : ∀ r : Request σ, s.Same (r.run s world).2.1 →
      (r.run s world).2.1.orderedKeys = s.orderedKeys →
      (r.forWatchers = false → (r.run s world).2.1.watchers = s.watchers) →
      s.Shows (r.run s world).2.1 (r.turn s world).published ∧
        (r.forWatchers = false → s.Tells (r.run s world).2.1 (r.turn s world).published) ∧
        (r.forWatchers = true → (r.turn s world).published = []) := by
    intro r same keys watchers
    have hnone : (r.turn s world).published = [] := by
      rw [Turn.published, r.turn_before, r.turn_after, if_pos same.current]
    rw [hnone]
    exact ⟨.nothing same keys, fun h => .nothing (watchers h), fun _ => rfl⟩
  cases r with
  | shutdown barrier =>
    have hsame : s.Same (s.shutdown barrier).2 ∧
        (s.shutdown barrier).2.orderedKeys = s.orderedKeys := by
      unfold DatabaseState.shutdown
      simp only
      split <;> exact ⟨⟨rfl, rfl, rfl, rfl, rfl⟩, rfl⟩
    exact hnothing _ hsame.1 hsame.2 fun h => by cases h
  | snapshot install faults =>
    have halike := executeSnapshot_alike install s world faults
    exact hnothing _ halike.same halike.keys fun _ => halike.watchers
  | command c =>
    cases c with
    | mutation reserve batch single faults =>
      obtain ⟨frames, hframes, hshows, htells⟩ :=
        (execute_executed reserve s world batch single faults "engine-writer-panic").shows
      have hframe : (Command.mutation reserve batch single faults).frame s world
          = (s.assignedRevision reserve world batch single faults).map
            (commitFrame batch single) := Command.frame_of_batch rfl
      have hpublished : ((Request.command (.mutation reserve batch single faults)).turn s
          world).published = frames := by
        rw [hframes, ← hframe]
        rfl
      rw [hpublished]
      exact ⟨hshows, fun _ => htells, fun h => by cases h⟩
    | expiry reserve source faults =>
      obtain ⟨frames, hframes, hshows, htells⟩ :=
        (executeDueExpiriesSafely_executed reserve s world source faults).shows
      have hframe : (Command.expiry reserve source faults).frame s world
          = (s.assignedExpiry reserve world source faults).map
            (commitFrame (expiryBatch (s.due source)) .expiry) := by
        by_cases hdue : s.due source = []
        · have hassigned : s.assignedExpiry reserve world source faults = none := by
            rw [assignedExpiry]
            exact if_pos hdue
          simp [Command.frame, Command.batch, hdue, hassigned]
        · exact Command.frame_of_batch (by simp [Command.batch, hdue])
      have hpublished : ((Request.command (.expiry reserve source faults)).turn s
          world).published = frames := by
        rw [hframes, ← hframe]
        rfl
      rw [hpublished]
      exact ⟨hshows, fun _ => htells, fun h => by cases h⟩
    | register | unregister | retire =>
      exact hnothing _ ⟨rfl, rfl, rfl, rfl, rfl⟩ rfl fun h => by cases h
    | read | markAdminDegraded => exact hnothing _ ⟨rfl, rfl, rfl, rfl, rfl⟩ rfl fun _ => rfl
    | durableAdmin operation barrier =>
      have halike := executeDurableAdmin_alike operation s world barrier
      exact hnothing _ halike.same halike.keys fun _ => halike.watchers
    | drain =>
      have halike : s.Alike ((Command.drain : Command σ).run s world).2.1 := by
        simp only [Command.run]
        split <;> exact .of_rest _ _ _ _ _
      exact hnothing _ halike.same halike.keys fun _ => halike.watchers

/-- Nothing brings a degraded engine back. -/
theorem degraded_run (h : s.Degraded) (world : σ) (r : Request σ) :
    (r.run s world).2.1.Degraded := by
  have hexecute : ∀ s : DatabaseState, s.Degraded → ∀ reserve batch single faults,
      s.execute reserve world batch single faults
        = (⟨.error s.mutationUnavailable, false, s⟩, world) := by
    intro s h reserve batch single faults
    have hlifecycle : s.lifecycle ≠ .ready ∧ s.lifecycle ≠ .draining := by
      rw [Degraded] at h
      simp [h]
    simp only [execute, prepare, if_pos hlifecycle]
  cases r with
  | shutdown barrier =>
    simp only [Request.run, DatabaseState.shutdown]
    split
    · exact h
    · exact rfl
    · exact h
  | snapshot install faults =>
    have hcases := executeSnapshot_cases install s world faults
    simp only [Request.run]
    generalize s.executeSnapshot install world faults = result at hcases ⊢
    obtain ⟨⟨result, error⟩, s', world'⟩ := result
    cases hcases with
    | unbarriered | unevident | broken => exact rfl
    | refused | switched => exact h
  | command c =>
    cases c with
    | mutation reserve batch single faults =>
      simp only [Request.run, Command.run, executeSafely, hexecute s h]
      exact h
    | expiry reserve source faults =>
      simp only [Request.run, Command.run, executeDueExpiriesSafely, executeDueExpiries]
      split
      · exact h
      · rw [hexecute _ (by exact h)]
        exact h
    | register | unregister | retire | read => exact h
    | durableAdmin operation barrier =>
      simp only [Request.run, Command.run, executeDurableAdmin]
      split
      · exact rfl
      · exact rfl
      · split
        · exact rfl
        · split
          · exact rfl
          · exact h
          · exact h
    | markAdminDegraded => exact rfl
    | drain =>
      simp only [Request.run, Command.run]
      rw [if_neg (by rw [Degraded] at h; simp [h])]
      exact h

end Request

end GapDB
