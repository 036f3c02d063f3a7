import GapDB.Engine.State

/-!
# The writer

The commit stages of `execute`, the panic barrier around it, due expiries, snapshots and durable
administration, as the single writer goroutine runs them (`engine/writer.go`, `engine/expiry.go`,
`engine/snapshot.go`, `engine/admin.go`).
-/

namespace GapDB

open Storelib

/-- How far a command got: its outcome, `progress.appliedPossible`, and the state it leaves. -/
structure Attempt (α : Type) where
  outcome : Outcome Error α
  appliedPossible : Bool
  state : DatabaseState

namespace DatabaseState

/-- Degrade and report. -/
def failWith {α : Type} (s : DatabaseState) (e : Error) (applied : Bool) : Attempt α :=
  ⟨.error e, applied, s.degrade⟩

/-- The section of `execute` under the write lock. -/
def publish (s : DatabaseState) (batch : Batch) (single : SingleOperation) (revision : Nat)
    (durableThrough : Nat) : DatabaseState × List ChangeEvent :=
  let (records, events) := s.records.applyAll revision single 0 batch.mutations
  ({ s with
      records
      orderedKeys := s.orderedKeys.adopt (planOrderedKeys s.orderedKeys batch.mutations)
      current := revision
      durableThrough := max s.durableThrough durableThrough
      history := s.history.append events }, events)

def afterCommit (s : DatabaseState) (events : List ChangeEvent) : DatabaseState :=
  { s with schedule := s.schedule.afterCommit events, watchers := s.watchers.publish events }

def mapApply (s : DatabaseState) (batch : Batch) (single : SingleOperation) (revision : Nat)
    (durableThrough : Nat) (faults : ExecuteFaults) : Attempt CommitResult :=
  match checkpoint faults.mapApplyBefore .mapApply .before with
  | .panic => ⟨.panic, true, s⟩
  | .error cause =>
    s.failWith (storageDegraded "map_apply" s.current s.durableThrough true (some cause)) true
  | .ok () =>
    let (s, events) := s.publish batch single revision durableThrough
    match checkpoint faults.mapApplyAfter .mapApply .after with
    | .panic => ⟨.panic, true, s⟩
    | .error cause =>
      s.failWith (storageDegraded "map_apply" s.current s.durableThrough true (some cause)) true
    | .ok () =>
      ⟨.ok ⟨⟨revision, batch.ack, durableThrough, batch.mutations.length,
        batch.assertions.length⟩, events⟩, true, s.afterCommit events⟩

/-- The durability stage, once the frame is in the log. -/
def makeDurable (s : DatabaseState) (batch : Batch) (single : SingleOperation) (revision : Nat)
    (faults : ExecuteFaults) : Attempt CommitResult :=
  let durableThrough := s.log.durableThrough
  if durableThrough < s.durableThrough ∨ revision < durableThrough then
    s.failWith (storageDegraded "wal_durability_evidence" s.current s.durableThrough true none) true
  else if batch.ack = .durable then
    match s.log.barrier faults.barrier with
    | (.panic, log) => ⟨.panic, true, { s with log }⟩
    | (.error e, log) =>
      { s with log }.failWith
        (persistenceFailure "wal_barrier" s.current s.durableThrough true e) true
    | (.ok (), log) =>
      if log.durableThrough ≠ revision then
        { s with log }.failWith
          (storageDegraded "wal_barrier_evidence" s.current s.durableThrough true none) true
      else { s with log }.mapApply batch single revision log.durableThrough faults
  else s.mapApply batch single revision durableThrough faults

def commitFrame (batch : Batch) (single : SingleOperation) (revision : Nat) : CommitFrame :=
  ⟨revision, batch.mutations.map (effectFor · single)⟩

/-- Everything after the allocation of a revision. -/
def commit (s : DatabaseState) (batch : Batch) (single : SingleOperation) (revision : Nat)
    (faults : ExecuteFaults) : Attempt CommitResult :=
  if revision = 0 ∨ revision ≤ s.current then
    s.failWith (internalFailure "engine-invalid-allocator-revision" false none) false
  else
    match s.log.append (commitFrame batch single revision) faults.writes with
    | (.panic, log) => ⟨.panic, true, { s with log }⟩
    | (.error e, log) =>
      let applied := appendErrorMayHaveApplied e
      { s with log }.failWith
        (persistenceFailure "wal_append" s.current s.durableThrough applied e) applied
    | (.ok (), log) => { s with log }.makeDurable batch single revision faults

/-- `allocator.Next()`; a nil allocator panics. -/
def allocate {σ : Type} (s : DatabaseState) (reserve : Option (ReserveFunc σ)) (world : σ) :
    Outcome Error Nat × DatabaseState × σ :=
  match s.allocator with
  | none => (.panic, s, world)
  | some allocator =>
    let (outcome, allocator, world) := allocator.nextRevision reserve world
    (outcome, { s with allocator := some allocator }, world)

/-- `execute` up to and including the allocation of a revision. -/
def prepare {σ : Type} (reserve : Option (ReserveFunc σ)) (s : DatabaseState) (world : σ)
    (batch : Batch) (single : SingleOperation) (faults : ExecuteFaults) : Attempt Nat × σ :=
  if s.lifecycle ≠ .ready ∧ s.lifecycle ≠ .draining then
    (⟨.error s.mutationUnavailable, false, s⟩, world)
  else
    let (now, clock) := s.clock.now faults.source
    let s := { s with clock }
    match validateBatchAt batch s.limits now with
    | .error e => (⟨.error e, false, s⟩, world)
    | .ok () =>
      match s.predicatePhase batch single now faults with
      | .error e => (⟨.error e, false, s⟩, world)
      | .panic => (⟨.panic, false, s⟩, world)
      | .ok () =>
        match s.allocate reserve world with
        | (.error e, s, world) => (s.failWith e false, world)
        | (.panic, s, world) => (⟨.panic, false, s⟩, world)
        | (.ok revision, s, world) => (⟨.ok revision, false, s⟩, world)

def execute {σ : Type} (reserve : Option (ReserveFunc σ)) (s : DatabaseState) (world : σ)
    (batch : Batch) (single : SingleOperation) (faults : ExecuteFaults) :
    Attempt CommitResult × σ :=
  match s.prepare reserve world batch single faults with
  | (⟨.error e, applied, s⟩, world) => (⟨.error e, applied, s⟩, world)
  | (⟨.panic, applied, s⟩, world) => (⟨.panic, applied, s⟩, world)
  | (⟨.ok revision, _, s⟩, world) => (s.commit batch single revision faults, world)

/-- The revision the command was given, if it got that far. -/
def assignedRevision {σ : Type} (reserve : Option (ReserveFunc σ)) (s : DatabaseState) (world : σ)
    (batch : Batch) (single : SingleOperation) (faults : ExecuteFaults) : Option Nat :=
  match (s.prepare reserve world batch single faults).1.outcome with
  | .ok revision => some revision
  | .error _ | .panic => none

/-- The deferred recovery: a panic degrades the engine and is reported with the progress made. -/
def recovered {α : Type} (attempt : Attempt α) (correlationID : String) :
    Except Error α × DatabaseState :=
  match attempt.outcome with
  | .ok value => (.ok value, attempt.state)
  | .error e => (.error e, attempt.state)
  | .panic =>
    (.error (internalFailure correlationID attempt.appliedPossible none), attempt.state.degrade)

def executeSafely {σ : Type} (reserve : Option (ReserveFunc σ)) (s : DatabaseState) (world : σ)
    (batch : Batch) (single : SingleOperation) (faults : ExecuteFaults) :
    (Except Error CommitResult × DatabaseState) × σ :=
  let (attempt, world) := s.execute reserve world batch single faults
  (recovered attempt "engine-writer-panic", world)

/-! ### Due expiries -/

def emptyResult : CommitResult := ⟨⟨0, .unknown, 0, 0, 0⟩, []⟩

def expiryBatch (due : List ExpiryCandidate) : Batch :=
  { ack := .durable, mutations := due.map fun c => newDeleteMutation c.key c.revision }

/-- `source` is the first reading of the clock, `faults.source` the one inside `execute`. -/
def executeDueExpiries {σ : Type} (reserve : Option (ReserveFunc σ)) (s : DatabaseState)
    (world : σ) (source : Time) (faults : ExecuteFaults) : Attempt CommitResult × σ :=
  let (now, clock) := s.clock.now source
  let (schedule, due) := s.schedule.dueExpiries s.limits s.records now
  let s := { s with clock, schedule }
  if due = [] then (⟨.ok emptyResult, false, s⟩, world)
  else s.execute reserve world (expiryBatch due) .expiry faults

def executeDueExpiriesSafely {σ : Type} (reserve : Option (ReserveFunc σ)) (s : DatabaseState)
    (world : σ) (source : Time) (faults : ExecuteFaults) :
    (Except Error CommitResult × DatabaseState) × σ :=
  let (attempt, world) := s.executeDueExpiries reserve world source faults
  (recovered attempt "engine-expiry-panic", world)

/-- The revision an expiry cleanup was given. -/
def assignedExpiry {σ : Type} (reserve : Option (ReserveFunc σ)) (s : DatabaseState) (world : σ)
    (source : Time) (faults : ExecuteFaults) : Option Nat :=
  let (now, clock) := s.clock.now source
  let (schedule, due) := s.schedule.dueExpiries s.limits s.records now
  if due = [] then none
  else { s with clock, schedule }.assignedRevision reserve world (expiryBatch due) .expiry faults

/-! ### Snapshots and durable administration -/

structure SnapshotCut where
  databaseID : DatabaseID
  revision : Nat
  asOf : Time
  records : List Record

/-- `SnapshotInstaller`, acting on a world; `none` is a nil log. -/
abbrev SnapshotInstaller (σ : Type) := SnapshotCut → σ → Outcome Error (Option WAL) × σ

structure SnapshotResult where
  revision : Nat := 0
  recordCount : Nat := 0
deriving DecidableEq

structure SnapshotFaults where
  source : Time
  barrier : Option WAL.BarrierFault := none
  /-- The order in which the map iteration visits the keys. -/
  order : List Key

/-- `executeSnapshot`: the result, the error beside it, the state and the world. -/
def executeSnapshot {σ : Type} (install : SnapshotInstaller σ) (s : DatabaseState) (world : σ)
    (faults : SnapshotFaults) : (SnapshotResult × Option Error) × DatabaseState × σ :=
  match s.log.barrier faults.barrier with
  | (.panic, log) =>
    (({}, some (internalFailure "engine-snapshot-panic" false none)),
      { s with log }.degrade, world)
  | (.error e, log) =>
    (({}, some (persistenceFailure "snapshot_wal_barrier" s.current s.durableThrough false e)),
      { s with log }.degrade, world)
  | (.ok (), log) =>
    let s := { s with log, durableThrough := log.durableThrough }
    if s.durableThrough ≠ s.current then
      (({}, some (storageDegraded "snapshot_wal_barrier_evidence" s.current s.durableThrough false
        none)), s.degrade, world)
    else
      let (asOf, clock) := s.clock.now faults.source
      let s := { s with clock }
      let cut : SnapshotCut := ⟨s.databaseID, s.current, asOf, faults.order.filterMap s.records⟩
      let result : SnapshotResult := ⟨s.current, cut.records.length⟩
      match install cut world with
      | (.panic, world) =>
        (({ revision := s.current }, some (internalFailure "engine-snapshot-panic" true none)),
          s.degrade, world)
      | (.error e, world) =>
        if e.operationApplied then ((result, some e), s.degrade, world)
        else (({}, some e), s, world)
      | (.ok none, world) =>
        (({}, some (internalFailure "engine-snapshot-nil-log" true none)), s.degrade, world)
      | (.ok (some next), world) =>
        if next.durableThrough ≠ s.current then
          (({}, some (storageDegraded "snapshot_new_wal_evidence" s.current s.current true none)),
            s.degrade, world)
        else
          ((result, none),
            { s with log := next, snapshotRevision := s.current,
                     activeWALStart := u64 (s.current + 1) }, world)

structure DurableAdminCut where
  databaseID : DatabaseID
  revision : Nat

abbrev DurableAdminOperation (σ : Type) := DurableAdminCut → σ → Outcome Error Unit × σ

def executeDurableAdmin {σ : Type} (operation : DurableAdminOperation σ) (s : DatabaseState)
    (world : σ) (barrier : Option WAL.BarrierFault) : Option Error × DatabaseState × σ :=
  match s.log.barrier barrier with
  | (.panic, log) =>
    (some (internalFailure "engine-durable-admin-panic" false none), { s with log }.degrade, world)
  | (.error e, log) =>
    (some (persistenceFailure "admin_wal_barrier" s.current s.durableThrough false e),
      { s with log }.degrade, world)
  | (.ok (), log) =>
    let s := { s with log, durableThrough := log.durableThrough }
    if s.durableThrough ≠ s.current then
      (some (storageDegraded "admin_wal_barrier_evidence" s.current s.durableThrough false none),
        s.degrade, world)
    else
      match operation ⟨s.databaseID, s.current⟩ world with
      | (.panic, world) =>
        (some (internalFailure "engine-durable-admin-panic" true none), s.degrade, world)
      | (.error e, world) => (some e, s, world)
      | (.ok (), world) => (none, s, world)

/-- The end of `runWriter`: watchers are told, and a last barrier is tried. -/
def shutdown (s : DatabaseState) (barrier : Option WAL.BarrierFault) :
    Option Error × DatabaseState :=
  let s := { s with watchers := s.watchers.shutdown s.current }
  match s.log.barrier barrier with
  | (.ok (), log) => (none, { s with log })
  | (.error e, log) => (some e, { s with log }.degrade)
  -- nothing recovers a panic here: the process is gone
  | (.panic, log) => (none, { s with log })

end DatabaseState

end GapDB
