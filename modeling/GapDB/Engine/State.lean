import GapDB.Batch
import GapDB.Engine.Allocator
import GapDB.Engine.Expiry
import GapDB.Engine.OrderedKeys
import GapDB.Engine.Watch
import GapDB.Persist.Wal

/-!
# The engine state and the commit step

`DatabaseState` of `engine/state.go` and `execute` of `engine/writer.go`. The step is written
stage by stage; each stage returns the outcome, whether the command may have been applied, and
the state it leaves.
-/

namespace GapDB

open Storelib

/-- `clock.Nondecreasing`: the latest instant observed. -/
structure Nondecreasing where
  latest : Option Time := none
deriving DecidableEq

/-- `Now`, for a reading of the source clock. -/
def Nondecreasing.now (clock : Nondecreasing) (source : Time) : Time × Nondecreasing :=
  match clock.latest with
  | none => (source, ⟨some source⟩)
  | some latest => if latest < source then (source, ⟨some source⟩) else (latest, clock)

structure DatabaseState where
  records : RecordMap
  orderedKeys : KeySlice
  current : Nat
  durableThrough : Nat
  lifecycle : LifecycleState
  limits : Limits
  clock : Nondecreasing
  log : WAL
  /-- `none` is the nil allocator that a rejected initial range leaves behind. -/
  allocator : Option RangeAllocator
  databaseID : DatabaseID
  snapshotRevision : Nat
  reservedRevisionEnd : Nat
  activeWALStart : Nat
  schedule : ExpirySchedule
  history : HistoryLog
  watchers : Watchers

structure CommitResult where
  result : MutationResult
  events : List ChangeEvent

/-- What can go wrong in one command, in the order in which it can. -/
structure ExecuteFaults where
  source : Time
  assertionBefore : Option Fault := none
  assertionAfter : Option Fault := none
  conditionBefore : Option Fault := none
  conditionAfter : Option Fault := none
  writes : List WriteCall := []
  barrier : Option WAL.BarrierFault := none
  mapApplyBefore : Option Fault := none
  mapApplyAfter : Option Fault := none

/-! ### Errors -/

def internalFailure (correlationID : String) (operationApplied : Bool)
    (cause : Option StorageFault) : Error :=
  { code := .internal, message := "The writer stopped after an internal invariant failure.",
    retry := .afterOperator, correlationID, operationApplied,
    safeActions := [.status, .verify, .abort], cause }

def notFound (key : Key) (current : Nat) : Error :=
  { code := .notFound, message := "The key is not present at the current effective time.",
    retry := .afterReconcile, key, currentRevision := some current,
    safeActions := [.get, .putIfAbsent, .abort] }

def persistenceFailure (stage : String) (current durable : Nat) (operationApplied : Bool)
    (cause : Error) : Error :=
  if cause.code = .storageDegraded then
    { cause with
      currentRevision := some current
      durableThroughRevision := some durable
      operationApplied := cause.operationApplied || operationApplied
      failedStage := if cause.failedStage = "" then stage else cause.failedStage }
  else storageDegraded stage current durable operationApplied cause.cause

def appendErrorMayHaveApplied (e : Error) : Bool :=
  if e.operationApplied then true
  else if e.code = .storageDegraded ∧ e.failedStage = "wal_unavailable" then false
  else match e.cause with
    | some (.hook ⟨.walFrameWrite, .before⟩ _) => false
    | _ => true

def batchConditionError (mutation : Mutation) (record : Option Record) (live : Bool)
    (index : Nat) : Error :=
  { code := .conditionFailed, message := "A batch mutation condition failed.",
    retry := .afterReconcile, key := mutation.key, mutationIndex := some index,
    condition := some mutation.condition.kind, safeActions := [.get, .rebuildBatch, .abort],
    actualRevision := if live then record.map Record.revision else none,
    actualState := if live then "" else "absent" }

/-- The revision of a map entry; a missing entry reads as the zero record. -/
def revisionOf (record : Option Record) : Nat := (record.map Record.revision).getD 0

def conditionError (mutation : Mutation) (record : Option Record) (live : Bool) (current : Nat)
    (index : Nat) (single : SingleOperation) : Option Error :=
  let expected := mutation.condition.expectedRevision
  if single = .expiry ∧ mutation.condition.kind = .revision ∧ revisionOf record = expected then
    none
  else
    match mutation.condition.kind with
    | .any => none
    | .absent =>
      if ¬ live then none
      else if single = .putIfAbsent then
        some { code := .alreadyExists, message := "The key already exists.",
               retry := .afterReconcile, key := mutation.key,
               actualRevision := some (revisionOf record),
               safeActions := [.get, .compareAndSwap, .abort] }
      else some (batchConditionError mutation record live index)
    | .revision =>
      if live ∧ revisionOf record = expected then none
      else if single = .compareAndSwap ∨ single = .deleteIfRevision then
        if ¬ live then some (notFound mutation.key current)
        else some
          { code := .revisionMismatch,
            message := "The record revision does not match the condition.",
            retry := .afterReconcile, key := mutation.key, expectedRevision := some expected,
            actualRevision := some (revisionOf record),
            safeActions := [.get, .retryWithNewCondition, .abort] }
      else some (batchConditionError mutation record live index)
    | .unknown => some (invalidField "condition.kind" "must be any, absent, or revision")

def boundedPredicateKey (key : Key) : Key :=
  if key.length ≤ 256 then key else key.take (validPrefixEnd key 256)

def assertionConditionError (assertion : Assertion) (record : Option Record) (live : Bool)
    (index : Nat) : Option Error :=
  let expected := assertion.condition.expectedRevision
  let failure : Error :=
    { code := .conditionFailed, message := "Atomic batch assertion failed.",
      retry := .afterReconcile, key := boundedPredicateKey assertion.key,
      assertionIndex := some index, condition := some assertion.condition.kind,
      expectedRevision := if assertion.condition.kind = .revision then some expected else none,
      actualRevision := if live then some (revisionOf record) else none,
      actualState := if live then "" else "absent",
      safeActions := [.get, .rebuildBatch, .abort] }
  match assertion.condition.kind with
  | .absent => if ¬ live then none else some failure
  | .revision => if live ∧ revisionOf record = expected then none else some failure
  | .any | .unknown =>
    some (invalidField "condition.kind" "assertions require absent or revision")

namespace DatabaseState

def degrade (s : DatabaseState) : DatabaseState := { s with lifecycle := .degradedReadOnly }

def mutationUnavailable (s : DatabaseState) : Error :=
  if s.lifecycle = .degradedReadOnly then
    storageDegraded "writer_disabled" s.current s.durableThrough false none
  else
    { code := .serverShuttingDown, message := "The owner is not accepting new mutations.",
      retry := .afterRestart, lifecycle := some s.lifecycle,
      safeActions := [.waitForRestart, .abort] }

/-! ### The predicate phase -/

def liveAt (s : DatabaseState) (key : Key) (now : Time) : Bool :=
  (s.records key).any fun record => !recordExpired record now

def checkAssertions (s : DatabaseState) (now : Time) : Nat → List Assertion → Option Error
  | _, [] => none
  | index, assertion :: assertions =>
    match assertionConditionError assertion (s.records assertion.key) (s.liveAt assertion.key now)
        index with
    | some e => some e
    | none => checkAssertions s now (index + 1) assertions

def checkConditions (s : DatabaseState) (now : Time) (single : SingleOperation) :
    Nat → List Mutation → Option Error
  | _, [] => none
  | index, mutation :: mutations =>
    match conditionError mutation (s.records mutation.key) (s.liveAt mutation.key now) s.current
        index single with
    | some e => some e
    | none => checkConditions s now single (index + 1) mutations

/-- A checkpoint of the predicate phase; without assertions theirs is not visited. -/
def predicateCheckpoint (visited : Bool) (fault : Option Fault) (point : Point) (phase : Phase)
    (correlationID : String) : Outcome Error Unit :=
  match checkpoint (if visited then fault else none) point phase with
  | .ok () => .ok ()
  | .error cause => .error (internalFailure correlationID false (some cause))
  | .panic => .panic

/-- Continue only after success. -/
def andAlso {α : Type} (first : Outcome Error Unit) (next : Outcome Error α) : Outcome Error α :=
  match first with
  | .ok () => next
  | .error e => .error e
  | .panic => .panic

def refusal (e : Option Error) : Outcome Error Unit :=
  match e with
  | some e => .error e
  | none => .ok ()

def predicatePhase (s : DatabaseState) (batch : Batch) (single : SingleOperation) (now : Time)
    (faults : ExecuteFaults) : Outcome Error Unit :=
  let asserted := !batch.assertions.isEmpty
  andAlso (predicateCheckpoint asserted faults.assertionBefore .assertionEvaluation .before
    "engine-assertion-evaluation") <|
  andAlso (refusal (s.checkAssertions now 0 batch.assertions)) <|
  andAlso (predicateCheckpoint asserted faults.assertionAfter .assertionEvaluation .after
    "engine-assertion-evaluation") <|
  andAlso (predicateCheckpoint true faults.conditionBefore .mutationConditionEvaluation .before
    "engine-mutation-condition-evaluation") <|
  andAlso (refusal (s.checkConditions now single 0 batch.mutations)) <|
  predicateCheckpoint true faults.conditionAfter .mutationConditionEvaluation .after
    "engine-mutation-condition-evaluation"

end DatabaseState

end GapDB
