import GapDB.Engine.Predicates

/-!
# What a command can do

One inversion of the commit step: a command that reaches the writer is refused before the log
is touched, breaks off inside its frame, leaves its whole frame behind without being published,
or is published. Every invariant of the engine is derived from this case analysis.
-/

namespace GapDB

open Storelib

variable {wal wal' : WAL} {outcome : Outcome Error Unit}

/-- `wal'` is `wal` with `added` appended to its stream; nothing synced is lost. -/
structure WAL.Extends (wal wal' : WAL) (added : Bytes) : Prop where
  path : wal'.path = wal.path
  header : wal'.header = wal.header
  limits : wal'.limits = wal.limits
  stream : wal'.stream = wal.stream ++ added
  synced : wal.storage.file.synced ≤ wal'.storage.file.synced

theorem WAL.Extends.refl (wal : WAL) : wal.Extends wal [] :=
  ⟨rfl, rfl, rfl, by simp, le_rfl⟩

theorem WAL.Extends.trans {wal'' : WAL} {added added' : Bytes}
    (h : wal.Extends wal' added) (h' : wal'.Extends wal'' added') :
    wal.Extends wal'' (added ++ added') :=
  ⟨h'.path.trans h.path, h'.header.trans h.header, h'.limits.trans h.limits,
    by rw [h'.stream, h.stream, List.append_assoc], h.synced.trans h'.synced⟩

/-- A barrier that reports success covers the whole stream with its sync. -/
structure WAL.Stable (wal : WAL) : Prop where
  synced : wal.storage.file.synced = wal.stream.length
  durableThrough : wal.durableThrough = wal.lastRevision

theorem WAL.Barriered.extends (h : Barriered wal outcome wal') : wal.Extends wal' [] := by
  cases h with
  | refused e failed => exact .refl wal
  | broke e storage stream synced | panicked storage stream synced =>
    exact ⟨rfl, rfl, rfl, by simpa [WAL.stream] using stream, synced⟩
  | done ready =>
    refine ⟨rfl, rfl, rfl, by simp [WAL.stream], ?_⟩
    rw [BufferedFile.synced_sync_flush]
    exact wal.storage.synced_le_stream

theorem WAL.Barriered.lastRevision
    (h : Barriered wal outcome wal') : wal'.lastRevision = wal.lastRevision := by
  cases h <;> rfl

theorem WAL.Barriered.stable (h : Barriered wal (.ok ()) wal') :
    wal'.Stable ∧ wal'.failed = false := by
  cases h with
  | done ready =>
    refine ⟨⟨?_, rfl⟩, ready⟩
    simp [BufferedFile.synced_sync_flush, WAL.stream]

/-- A barrier that fails or panics leaves the durability the log claims as it was. -/
theorem WAL.Barriered.durableThrough (h : Barriered wal outcome wal') (hne : outcome ≠ .ok ()) :
    wal'.durableThrough = wal.durableThrough := by
  cases h with
  | done => exact absurd rfl hne
  | refused | broke | panicked => rfl

namespace DatabaseState

/-- The batch is valid and all its conditions hold at the effective time `now`. -/
structure Admitted (s : DatabaseState) (batch : Batch) (single : SingleOperation) (now : Time) :
    Prop where
  lifecycle : s.lifecycle = .ready ∨ s.lifecycle = .draining
  valid : batch.Valid s.limits now
  assertions : ∀ a ∈ batch.assertions, a.condition.Holds s.records now a.key
  mutations : ∀ m ∈ batch.mutations, m.Holds s.records now single

/-- The frame of the commit is in `log`, and nothing else was added. -/
structure Logged (s : DatabaseState) (batch : Batch) (single : SingleOperation) (revision : Nat)
    (log : WAL) : Prop where
  increasing : s.current < revision
  accepts : s.log.Accepts (commitFrame batch single revision)
  extends_ : s.log.Extends log (commitFrame batch single revision).bytes
  lastRevision : log.lastRevision = revision

/-- The durability stage let the commit pass with the evidence `durableThrough`. -/
structure Evident (s : DatabaseState) (batch : Batch) (revision : Nat) (log : WAL)
    (durableThrough : Nat) : Prop where
  known : s.durableThrough ≤ durableThrough
  le : durableThrough ≤ revision
  claimed : log.durableThrough = durableThrough
  durable : batch.ack = .durable → log.Stable ∧ durableThrough = revision
  memory : batch.ack ≠ .durable → durableThrough = s.log.durableThrough
  ready : log.failed = false

/-- The result a successful command returns. -/
def commitResult (batch : Batch) (revision durableThrough : Nat) (events : List ChangeEvent) :
    CommitResult :=
  ⟨⟨revision, batch.ack, durableThrough, batch.mutations.length, batch.assertions.length⟩, events⟩

/-- Every way in which a command can end once it has a revision. -/
inductive Commits (s : DatabaseState) (batch : Batch) (single : SingleOperation) (revision : Nat) :
    Except Error CommitResult → DatabaseState → Prop where
  | refused (e : Error) : Commits s batch single revision (.error e) s.degrade
  | torn (e : Error) (log : WAL) (accepted : Bytes)
      (accepts : s.log.Accepts (commitFrame batch single revision))
      (extends_ : s.log.Extends log accepted)
      (isPrefix : accepted <+: (commitFrame batch single revision).bytes)
      (proper : e.operationApplied = false →
        accepted ≠ (commitFrame batch single revision).bytes) :
      Commits s batch single revision (.error e) { s with log }.degrade
  | unpublished (e : Error) (log : WAL) (applied : e.operationApplied = true)
      (logged : s.Logged batch single revision log) :
      Commits s batch single revision (.error e) { s with log }.degrade
  | unacknowledged (e : Error) (log : WAL) (durableThrough : Nat)
      (applied : e.operationApplied = true) (logged : s.Logged batch single revision log)
      (evident : s.Evident batch revision log durableThrough) :
      Commits s batch single revision (.error e)
        ({ s with log }.publish batch single revision durableThrough).1.degrade
  | committed (log : WAL) (durableThrough : Nat) (logged : s.Logged batch single revision log)
      (evident : s.Evident batch revision log durableThrough) (events : List ChangeEvent)
      (published : events = ({ s with log }.publish batch single revision durableThrough).2) :
      Commits s batch single revision (.ok (commitResult batch revision durableThrough events))
        (({ s with log }.publish batch single revision durableThrough).1.afterCommit events)

section

variable {s : DatabaseState} {batch : Batch} {single : SingleOperation} {revision : Nat}
  (faults : ExecuteFaults) (id : String)

theorem mapApply_cases {log : WAL} {durableThrough : Nat}
    (logged : s.Logged batch single revision log)
    (evident : s.Evident batch revision log durableThrough) :
    Commits s batch single revision
      (recovered ({ s with log }.mapApply batch single revision durableThrough faults) id).1
      (recovered ({ s with log }.mapApply batch single revision durableThrough faults) id).2 := by
  unfold mapApply
  cases checkpoint faults.mapApplyBefore .mapApply .before with
  | panic | error => exact .unpublished _ log rfl logged
  | ok u =>
    simp only
    cases checkpoint faults.mapApplyAfter .mapApply .after with
    | panic | error => exact .unacknowledged _ log durableThrough rfl logged evident
    | ok u => exact .committed log durableThrough logged evident _ rfl

theorem persistenceFailure_applied (stage : String) (current durable : Nat) (e : Error) :
    (persistenceFailure stage current durable true e).operationApplied = true := by
  unfold persistenceFailure
  split <;> simp [storageDegraded]

theorem makeDurable_cases {log : WAL} (logged : s.Logged batch single revision log)
    (hready : log.failed = false) (hdurable : log.durableThrough = s.log.durableThrough) :
    Commits s batch single revision
      (recovered ({ s with log }.makeDurable batch single revision faults) id).1
      (recovered ({ s with log }.makeDurable batch single revision faults) id).2 := by
  unfold makeDurable
  simp only
  split
  · exact .unpublished _ log rfl logged
  next hevidence =>
  split
  · next hack =>
    have hcases := log.barrier_cases faults.barrier
    generalize log.barrier faults.barrier = result at hcases ⊢
    obtain ⟨outcome, log'⟩ := result
    have logged' : s.Logged batch single revision log' :=
      ⟨logged.increasing, logged.accepts, by simpa using logged.extends_.trans hcases.extends,
        hcases.lastRevision.trans logged.lastRevision⟩
    cases outcome with
    | panic => exact .unpublished _ log' rfl logged'
    | error e => exact .unpublished _ log' (persistenceFailure_applied _ _ _ _) logged'
    | ok u =>
      simp only
      split
      · exact .unpublished _ log' rfl logged'
      next hrevision =>
      have hstable := hcases.stable
      exact mapApply_cases faults id logged'
        ⟨by omega, by omega, rfl, fun _ => ⟨hstable.1, by omega⟩, fun h => absurd hack h,
          hstable.2⟩
  · next hack =>
    exact mapApply_cases faults id logged
      ⟨by omega, by omega, rfl, fun h => absurd h hack, fun _ => hdurable, hready⟩

/-- What `commit` reports after a failed append, and when that means that nothing was applied. -/
theorem proper_of_not_applied {current durable : Nat} {cause : StorageFault} {storage storage' :
    BufferedFile} {frame accepted : Bytes} {last through : Nat}
    (wrote : Wrote .walFrameWrite storage frame (.error cause, storage') accepted)
    (h : (persistenceFailure "wal_append" current durable
      (appendErrorMayHaveApplied (storageDegraded "wal_frame_write" last through false
        (some cause)))
      (storageDegraded "wal_frame_write" last through false (some cause))).operationApplied
      = false) : accepted ≠ frame := by
  have hmay : appendErrorMayHaveApplied (storageDegraded "wal_frame_write" last through false
      (some cause)) = false := by
    simpa [persistenceFailure, storageDegraded] using h
  unfold appendErrorMayHaveApplied at hmay
  simp only [storageDegraded] at hmay
  split at hmay
  · next hcause => cases hcause
  split at hmay
  · next hstage => exact absurd hstage.2 (by decide)
  split at hmay
  · next category hcause =>
    rw [Option.some.injEq] at hcause
    subst hcause
    exact wrote.proper category rfl
  · cases hmay

theorem commit_cases (hl : s.log.limits.Valid) :
    Commits s batch single revision
      (recovered (s.commit batch single revision faults) id).1
      (recovered (s.commit batch single revision faults) id).2 := by
  unfold commit
  split
  · exact .refused _
  next hrevision =>
  have hcases := s.log.append_cases hl (commitFrame batch single revision) faults.writes
  generalize s.log.append (commitFrame batch single revision) faults.writes = result at hcases ⊢
  obtain ⟨outcome, log⟩ := result
  cases hcases with
  | refused e => exact .refused _
  | broke accepts cause storage accepted wrote =>
    exact .torn _ _ accepted accepts ⟨rfl, rfl, rfl, wrote.stream, wrote.synced.ge⟩ wrote.isPrefix
      fun h => proper_of_not_applied wrote h
  | panicked accepts storage accepted wrote =>
    exact .torn _ _ accepted accepts ⟨rfl, rfl, rfl, wrote.stream, wrote.synced.ge⟩ wrote.isPrefix
      fun h => by cases h
  | done accepts storage wrote =>
    exact makeDurable_cases faults id
      ⟨by omega, accepts, ⟨rfl, rfl, rfl, wrote.stream, wrote.synced.ge⟩, rfl⟩ accepts.ready rfl

end

/-- Every way in which a command can end that reaches the writer, with the revision it got. -/
inductive Executes {σ : Type} (reserve : Option (ReserveFunc σ)) (s : DatabaseState) (world : σ)
    (batch : Batch) (single : SingleOperation) (source : Time) :
    Option Nat → Except Error CommitResult → DatabaseState → σ → Prop where
  | unavailable (lifecycle : s.lifecycle ≠ .ready ∧ s.lifecycle ≠ .draining) :
      Executes reserve s world batch single source none (.error s.mutationUnavailable) s world
  | rejected (e : Error) :
      Executes reserve s world batch single source none (.error e)
        { s with clock := (s.clock.now source).2 } world
  | panicked (e : Error) :
      Executes reserve s world batch single source none (.error e)
        { s with clock := (s.clock.now source).2 }.degrade world
  | unallocated (e : Error) (allocator : Option RangeAllocator) (world' : σ)
      (admitted : s.Admitted batch single (s.clock.now source).1)
      (ne : ∀ n, (s.allocate reserve world).1 ≠ .ok n)
      (allocated : (s.allocate reserve world).2.1.allocator = allocator)
      (stored : (s.allocate reserve world).2.2 = world') :
      Executes reserve s world batch single source none (.error e)
        { s with clock := (s.clock.now source).2, allocator }.degrade world'
  | committed (revision : Nat) (allocator : Option RangeAllocator) (world' : σ)
      (admitted : s.Admitted batch single (s.clock.now source).1)
      (allocated : (s.allocate reserve world).1 = .ok revision ∧
        (s.allocate reserve world).2.1.allocator = allocator ∧
        (s.allocate reserve world).2.2 = world')
      (result : Except Error CommitResult) (s' : DatabaseState)
      (commits : Commits { s with clock := (s.clock.now source).2, allocator } batch single
        revision result s') :
      Executes reserve s world batch single source (some revision) result s' world'

theorem allocate_state {σ : Type} (s : DatabaseState) (reserve : Option (ReserveFunc σ))
    (world : σ) :
    (s.allocate reserve world).2.1 = { s with
      allocator := (s.allocate reserve world).2.1.allocator } := by
  unfold allocate
  cases h : s.allocator with
  | none => simp
  | some allocator => rfl

theorem allocate_clock {σ : Type} (s : DatabaseState) (clock : Nondecreasing)
    (reserve : Option (ReserveFunc σ)) (world : σ) :
    { s with clock }.allocate reserve world
      = ((s.allocate reserve world).1, { (s.allocate reserve world).2.1 with clock },
          (s.allocate reserve world).2.2) := by
  unfold allocate
  cases h : s.allocator with
  | none => simp [h]
  | some allocator => rfl

theorem execute_cases {σ : Type} (reserve : Option (ReserveFunc σ)) (s : DatabaseState)
    (hlimits : s.limits.Valid) (hl : s.log.limits.Valid) (world : σ) (batch : Batch)
    (single : SingleOperation) (faults : ExecuteFaults) (id : String) :
    Executes reserve s world batch single faults.source
      (s.assignedRevision reserve world batch single faults)
      (recovered (s.execute reserve world batch single faults).1 id).1
      (recovered (s.execute reserve world batch single faults).1 id).2
      (s.execute reserve world batch single faults).2 := by
  unfold assignedRevision execute prepare
  by_cases hlifecycle : s.lifecycle ≠ .ready ∧ s.lifecycle ≠ .draining
  · simp only [if_pos hlifecycle]
    exact .unavailable hlifecycle
  simp only [if_neg hlifecycle]
  cases hvalidated : validateBatchAt batch s.limits (s.clock.now faults.source).1 with
  | error e => exact .rejected e
  | ok u =>
  cases hphase : predicatePhase { s with clock := (s.clock.now faults.source).2 } batch single
      (s.clock.now faults.source).1 faults with
  | error e => exact .rejected e
  | panic => exact .panicked _
  | ok u =>
    have hvalid := (validateBatchAt_eq_ok hlimits).mp hvalidated
    have hholds := holds_of_predicatePhase (fun a ha => (hvalid.assertions a ha).notAny) hphase
    have hadmitted : s.Admitted batch single (s.clock.now faults.source).1 :=
      ⟨by tauto, hvalid, hholds.1, hholds.2⟩
    simp only
    rw [allocate_clock]
    have hstate := s.allocate_state reserve world
    generalize hresult : s.allocate reserve world = result at hstate
    obtain ⟨outcome, s₁, world'⟩ := result
    simp only at hstate ⊢
    rw [hstate]
    cases outcome with
    | error e =>
      exact .unallocated e _ world' hadmitted (by simp [hresult]) (by rw [hresult])
        (by rw [hresult])
    | panic =>
      exact .unallocated _ _ world' hadmitted (by simp [hresult]) (by rw [hresult])
        (by rw [hresult])
    | ok revision =>
      exact .committed revision _ world' hadmitted (by rw [hresult]; exact ⟨rfl, rfl, rfl⟩) _ _
        (commit_cases faults id hl)

theorem executeSafely_cases {σ : Type} (reserve : Option (ReserveFunc σ)) (s : DatabaseState)
    (hlimits : s.limits.Valid) (hl : s.log.limits.Valid) (world : σ) (batch : Batch)
    (single : SingleOperation) (faults : ExecuteFaults) :
    Executes reserve s world batch single faults.source
      (s.assignedRevision reserve world batch single faults)
      (s.executeSafely reserve world batch single faults).1.1
      (s.executeSafely reserve world batch single faults).1.2
      (s.executeSafely reserve world batch single faults).2 :=
  s.execute_cases reserve hlimits hl world batch single faults _

end DatabaseState

end GapDB
