import GapDB.Engine.Commit

/-!
# How the engine moves

Every command of the writer moves the engine in one of four ways: nothing a reader sees changes,
a frame is left in the log without being published, a frame is logged and published, or a
snapshot switches to a fresh log. The write-ahead invariant is proved once for each of them.
-/

namespace GapDB

open Storelib

variable {σ : Type} {s : DatabaseState} {reserve : Option (ReserveFunc σ)}

namespace DatabaseState

def Degraded (s : DatabaseState) : Prop := s.lifecycle = .degradedReadOnly

/-- Nothing that was published has changed. -/
structure Same (s s' : DatabaseState) : Prop where
  records : s'.records = s.records
  current : s'.current = s.current
  history : s'.history = s.history
  limits : s'.limits = s.limits
  databaseID : s'.databaseID = s.databaseID

/-- The lifecycle never turns back. -/
structure Ages (s s' : DatabaseState) : Prop where
  ready : s'.lifecycle = .ready → s.lifecycle = .ready
  degraded : s.Degraded → s'.Degraded

/-- The log takes appends, and ends where the engine believes it does. -/
structure Healthy (s : DatabaseState) : Prop where
  ready : s.log.failed = false
  tip : s.log.lastRevision = s.current
  known : s.durableThrough ≤ s.log.durableThrough
  le : s.log.durableThrough ≤ s.current

/-- The allocator hands out nothing that it could not hand out before. -/
def Advances (s s' : DatabaseState) : Prop :=
  ∀ a', s'.allocator = some a' → ∃ a, s.allocator = some a ∧ ∀ n, a.Above n → a'.Above n

/-- The revision came from the allocator, which is past it now. -/
def Assigned (s' : DatabaseState) (revision : Nat) : Prop :=
  ∃ a', s'.allocator = some a' ∧ a'.Above revision

/-- An empty log that continues after `revision`. -/
structure FreshLog (limits : Limits) (revision : Nat) (log : WAL) : Prop where
  header : log.header.Encodable
  first : log.header.firstRevision = revision + 1
  limits : log.limits = limits
  stream : log.stream = log.header.bytes
  synced : log.storage.file.synced = log.stream.length
  lastRevision : log.lastRevision = revision
  durableThrough : log.durableThrough = revision
  ready : log.failed = false

inductive Move where
  | quiet
  | torn (frame : CommitFrame) (accepted : Bytes)
  | published (frame : CommitFrame)
  | switched

inductive Moves (s s' : DatabaseState) : Move → Prop where
  | quiet (same : s.Same s') (ages : s.Ages s') (advances : s.Advances s')
      (extends_ : s.log.Extends s'.log [])
      (lastRevision : s'.log.lastRevision = s.log.lastRevision)
      (healthy : ¬ s'.Degraded → s.Healthy → s'.Healthy) : Moves s s' .quiet
  | torn (frame : CommitFrame) (accepted : Bytes) (active : ¬ s.Degraded) (degraded : s'.Degraded)
      (same : s.Same s') (advances : s.Advances s') (assigned : s'.Assigned frame.revision)
      (accepts : s.log.Accepts frame) (extends_ : s.log.Extends s'.log accepted)
      (isPrefix : accepted <+: frame.bytes) : Moves s s' (.torn frame accepted)
  | published (frame : CommitFrame) (active : ¬ s.Degraded) (ages : s.Ages s')
      (advances : s.Advances s') (assigned : s'.Assigned frame.revision)
      (accepts : s.log.Accepts frame) (extends_ : s.log.Extends s'.log frame.bytes)
      (records : s'.records = replayCommit s.records frame)
      (current : s'.current = frame.revision)
      (history : s'.history = s.history.append (HistoryLog.commitEvents frame))
      (limits : s'.limits = s.limits) (databaseID : s'.databaseID = s.databaseID)
      (healthy : ¬ s'.Degraded → s'.Healthy) : Moves s s' (.published frame)
  | switched (same : s.Same s') (ages : s.Ages s') (advances : s.Advances s')
      (fresh : FreshLog s.limits s.current s'.log)
      (known : s'.durableThrough = s.current) : Moves s s' .switched

theorem Same.refl (s : DatabaseState) : s.Same s := ⟨rfl, rfl, rfl, rfl, rfl⟩

theorem Ages.refl (s : DatabaseState) : s.Ages s := ⟨id, id⟩

theorem Ages.degrade (s s' : DatabaseState) : s.Ages s'.degrade :=
  ⟨fun h => (by cases h), fun _ => rfl⟩

theorem Advances.of_eq {s' : DatabaseState} (h : s'.allocator = s.allocator) : s.Advances s' :=
  fun a' ha' => ⟨a', h ▸ ha', fun _ => id⟩

/-- A state that differs in nothing the moves speak about. -/
theorem Moves.of_eq {s' : DatabaseState} (same : s.Same s') (ages : s.Ages s')
    (advances : s.Advances s') (log : s'.log = s.log)
    (durableThrough : s'.durableThrough = s.durableThrough) : s.Moves s' .quiet := by
  refine .quiet same ages advances (log ▸ .refl s.log) (log ▸ rfl) fun _ h => ?_
  exact ⟨log ▸ h.ready, by rw [log, same.current, h.tip],
    by rw [log, durableThrough]; exact h.known, by rw [log, same.current]; exact h.le⟩

/-- Degrading in passing changes nothing else. -/
theorem Moves.of_degrade {s' : DatabaseState} (same : s.Same s') (advances : s.Advances s')
    (extends_ : s.log.Extends s'.log []) (lastRevision : s'.log.lastRevision = s.log.lastRevision) :
    s.Moves s'.degrade .quiet :=
  .quiet ⟨same.records, same.current, same.history, same.limits, same.databaseID⟩ (.degrade s s')
    advances extends_ lastRevision fun h => absurd rfl h

/-! ### The commit step -/

theorem allocate_not_ok {world : σ} (h : ∀ n, (s.allocate reserve world).1 ≠ .ok n) :
    (s.allocate reserve world).2.1.allocator = s.allocator := by
  unfold allocate at h ⊢
  cases hs : s.allocator with
  | none => simp [hs]
  | some a =>
    simp only [hs] at h ⊢
    rw [RangeAllocator.nextRevision_not_ok h]

/-- An allocated revision is new, and the allocator only moved forward. -/
theorem allocate_ok {world : σ} {revision : Nat} (h : (s.allocate reserve world).1 = .ok revision) :
    ∃ a a', s.allocator = some a ∧ (s.allocate reserve world).2.1.allocator = some a' ∧
      ∀ n, a.Above n → n < revision ∧ a'.Above revision ∧ a'.Above n := by
  unfold allocate at h ⊢
  cases hs : s.allocator with
  | none => simp [hs] at h
  | some a =>
    simp only [hs] at h ⊢
    refine ⟨a, (a.nextRevision reserve world).2.1, rfl, rfl, fun n hn => ?_⟩
    have hnext : a.nextRevision reserve world
        = (.ok revision, (a.nextRevision reserve world).2.1, (a.nextRevision reserve world).2.2) :=
      Prod.ext h rfl
    have hspec := RangeAllocator.nextRevision_ok hn hnext
    refine ⟨hspec.1, hspec.2.2.1, by have := hspec.2.1; omega, fun hne => ?_⟩
    have := hspec.2.2.1.2 hne
    omega

/-- What the write lock publishes is the replay of the frame in the log. -/
theorem publish_eq (s : DatabaseState) (batch : Batch) (single : SingleOperation)
    (revision durableThrough : Nat) :
    (s.publish batch single revision durableThrough).1
      = { s with
          records := replayCommit s.records (commitFrame batch single revision)
          orderedKeys := s.orderedKeys.adopt (planOrderedKeys s.orderedKeys batch.mutations)
          current := revision
          durableThrough := max s.durableThrough durableThrough
          history := s.history.append
            (HistoryLog.commitEvents (commitFrame batch single revision)) } := by
  unfold publish
  rw [applyAll_eq]
  simp [commitFrame, replayCommit, HistoryLog.commitEvents]

/-- What the client is told about a move of the commit step. -/
inductive Answers (s : DatabaseState) (batch : Batch) (single : SingleOperation) (now : Time)
    (s' : DatabaseState) : Option Nat → Except Error CommitResult → Move → Prop where
  | refused (e : Error) (assigned : Option Nat) :
      Answers s batch single now s' assigned (.error e) .quiet
  | torn (e : Error) (revision : Nat) (accepted : Bytes)
      (proper : e.operationApplied = false →
        accepted ≠ (commitFrame batch single revision).bytes)
      (admitted : s.Admitted batch single now) :
      Answers s batch single now s' (some revision) (.error e)
        (.torn (commitFrame batch single revision) accepted)
  | unacknowledged (e : Error) (revision : Nat) (applied : e.operationApplied = true)
      (degraded : s'.Degraded) (admitted : s.Admitted batch single now) :
      Answers s batch single now s' (some revision) (.error e)
        (.published (commitFrame batch single revision))
  | committed (revision durableThrough : Nat) (events : List ChangeEvent)
      (durable : batch.ack = .durable → s'.log.Stable) (active : ¬ s'.Degraded)
      (admitted : s.Admitted batch single now) :
      Answers s batch single now s' (some revision)
        (.ok (commitResult batch revision durableThrough events))
        (.published (commitFrame batch single revision))

theorem Admitted.not_degraded {batch : Batch} {single : SingleOperation}
    {now : Time} (h : s.Admitted batch single now) : ¬ s.Degraded := by
  intro hd
  rcases h.lifecycle with hl | hl <;> simp [Degraded, hl] at hd

section

variable {s' : DatabaseState} {batch : Batch} {single : SingleOperation} {revision : Nat}
  {result : Except Error CommitResult}

/-- The moves of a command that holds a revision. `s₀` is the engine before the command. -/
theorem Commits.moves {s₀ : DatabaseState} {now : Time}
    (h : Commits s batch single revision result s') (admitted : s₀.Admitted batch single now)
    (same : s₀.Same s) (lifecycle : s.lifecycle = s₀.lifecycle) (log : s.log = s₀.log)
    (advances : s₀.Advances s) (assigned : s.Assigned revision) :
    ∃ move, s₀.Moves s' move ∧ s₀.Answers batch single now s' (some revision) result move := by
  have hactive := admitted.not_degraded
  cases h with
  | refused e =>
    exact ⟨.quiet, .of_degrade same advances (log ▸ .refl s₀.log) (log ▸ rfl), .refused e _⟩
  | torn e wal accepted accepts extends_ isPrefix proper =>
    refine ⟨.torn (commitFrame batch single revision) accepted, .torn _ _ hactive rfl ?_ advances
      assigned (log ▸ accepts) (log ▸ extends_) isPrefix, .torn e revision accepted proper admitted⟩
    exact ⟨same.records, same.current, same.history, same.limits, same.databaseID⟩
  | unpublished e wal applied logged =>
    refine ⟨.torn (commitFrame batch single revision) (commitFrame batch single revision).bytes,
      .torn _ _ hactive rfl ?_ advances assigned (log ▸ logged.accepts) (log ▸ logged.extends_)
        List.prefix_rfl, .torn e revision _ (fun h => absurd h (by simp [applied])) admitted⟩
    exact ⟨same.records, same.current, same.history, same.limits, same.databaseID⟩
  | unacknowledged e wal durableThrough applied logged evident =>
    refine ⟨.published (commitFrame batch single revision), ?_,
      .unacknowledged e revision applied rfl admitted⟩
    rw [publish_eq]
    exact .published _ hactive (.degrade _ _) advances assigned (log ▸ logged.accepts)
      (log ▸ logged.extends_) (by rw [← same.records]; rfl) rfl (by rw [← same.history]; rfl)
      same.limits same.databaseID fun h => absurd rfl h
  | committed wal durableThrough logged evident events published =>
    refine ⟨.published (commitFrame batch single revision), ?_,
      .committed revision durableThrough events ?_ ?_ admitted⟩
    · rw [publish_eq]
      refine .published _ hactive ⟨fun h => lifecycle ▸ h, fun h => absurd h hactive⟩ advances
        assigned (log ▸ logged.accepts) (log ▸ logged.extends_) (by rw [← same.records]; rfl) rfl
        (by rw [← same.history]; rfl) same.limits same.databaseID fun _ => ?_
      refine ⟨evident.ready, logged.lastRevision, ?_, ?_⟩
      · simp only [afterCommit, evident.claimed]
        exact max_le evident.known le_rfl
      · simp only [afterCommit, evident.claimed]
        exact evident.le
    · intro hack
      rw [publish_eq]
      exact (evident.durable hack).1
    · rw [publish_eq]
      exact fun hd => hactive (lifecycle.symm.trans hd)

theorem Executes.moves {world world' : σ} {source : Time} {assigned : Option Nat}
    (h : Executes reserve s world batch single source assigned result s' world')
    (habove : ∀ a, s.allocator = some a → a.Above s.current) :
    ∃ move, s.Moves s' move ∧
      s.Answers batch single (s.clock.now source).1 s' assigned result move := by
  cases h with
  | unavailable lifecycle =>
    exact ⟨.quiet, .of_eq (.refl s) (.refl s) (.of_eq rfl) rfl rfl, .refused _ _⟩
  | rejected e =>
    exact ⟨.quiet, .of_eq ⟨rfl, rfl, rfl, rfl, rfl⟩ ⟨id, id⟩ (.of_eq rfl) rfl rfl, .refused e _⟩
  | panicked e =>
    refine ⟨.quiet, .of_degrade ?_ (.of_eq rfl) (.refl s.log) rfl, .refused e _⟩
    exact ⟨rfl, rfl, rfl, rfl, rfl⟩
  | unallocated e allocator _ admitted ne allocated stored =>
    refine ⟨.quiet, .of_degrade ?_ (.of_eq ?_) (.refl s.log) rfl, .refused e _⟩
    · exact ⟨rfl, rfl, rfl, rfl, rfl⟩
    · exact allocated ▸ allocate_not_ok ne
  | committed revision allocator _ admitted allocated result _ commits =>
    obtain ⟨a, a', ha, ha', hspec⟩ := allocate_ok allocated.1
    rw [allocated.2.1] at ha'
    refine commits.moves admitted
      ⟨rfl, rfl, rfl, rfl, rfl⟩ rfl rfl ?_ ⟨a', ha', (hspec _ (habove a ha)).2.1⟩
    intro b hb
    have hb' : allocator = some b := hb
    rw [ha', Option.some.injEq] at hb'
    subst hb'
    exact ⟨a, ha, fun n hn => (hspec n hn).2.2⟩

end

end DatabaseState

end GapDB
