import GapDB.Types

/-!
# Structured errors and storage faults

`Error` is the machine-readable failure surface of `gapdb/types.go`, with the evidence
fields the modelled code fills in. `StorageFault` is what `internal/faultfs` hands back when an
operation breaks off: a hook that fired before or after the operation, or an operating-system error.
-/

namespace GapDB

open Storelib

inductive ErrorCode where
  | invalidRequest | frameTooLarge | keyTooLarge | valueTooLarge | batchTooLarge
  | duplicateKey | expiryNotFuture | notFound | alreadyExists | revisionMismatch
  | conditionFailed | invalidCursor | scanStale | revisionAhead | revisionCompacted | watchLagged
  | serverBusy | serverShuttingDown | serverUnavailable | storageDegraded | corruptIdentity
  | corruptManifest
  | corruptSnapshot | corruptWAL | unknownFormat | databaseIDMismatch
  | revisionRangeExhausted | ioError | adminPreconditionFailed | compactionNotSafe
  | recoveryRequired | auditFailedAfterApply | internal | unsupportedVersion | ownerExists
  | deadlineExceeded | permissionDenied | snapshotInProgress | backupDestinationExists
  | backupInvalid | recoveryActionMismatch
deriving DecidableEq, Repr

inductive RetryClass where
  | never | immediate | afterReconcile | afterRescan | afterRestart | afterOperator
deriving DecidableEq, Repr

inductive SafeAction where
  | abort | fixRequest | reduceKey | reduceValue | splitBatch | deduplicateBatch
  | chooseFutureExpiry | restartScan | get | putIfAbsent | compareAndSwap
  | retryWithNewCondition | rebuildBatch | scanPrefix | restartWatch | status | wait
  | retryWithBackoff | waitForRestart | verify | restartAfterRecovery | inspectOffline
  | restoreBackup | recoverPropose | upgradeGapdb | useCompatibleBinary
  | selectCorrectDatabase | verifyStorage | checkStorage | rebuildRequest | createSnapshot
  | repairAuditStorage | reduceRequest | statusOffline | startServer | useSupportedVersion
  | upgradeClient | reconcile | fixPermissions | chooseNewDestination | verifyBackup
  | chooseOtherBackup
deriving DecidableEq, Repr

/-- The authority boundaries at which `faultfs` can stop an operation. -/
inductive Point where
  | lockOpen | identityTempCreate | identityTempWrite | identityTempSync | identityRename
  | identityDirectorySync | walHeaderCreate | walHeaderWrite | walFrameWrite
  | walBufferFlush | walFileSync | walTailTruncate | walTailSync | snapshotTempCreate
  | snapshotTempWrite | snapshotTempSync | snapshotRename | snapshotDirectorySync
  | nextWALCreate | nextWALSync | nextWALRename | manifestTempCreate | manifestTempWrite
  | manifestTempSync | manifestRename | manifestDirectorySync | compactionRemove
  | compactionDirectorySync | auditAppend | auditSync | mapApply | openFile | stat | readDir
  | assertionEvaluation | mutationConditionEvaluation | backupFileCopy | backupFileSync
  | backupRename | publicationDirectorySync
deriving DecidableEq, Repr

inductive Phase where
  | before | after
deriving DecidableEq, Repr

structure Event where
  point : Point
  phase : Phase
deriving DecidableEq, Repr

inductive OSErrorCategory where
  | other | permission | notExist | alreadyExists | noSpace | readOnly
deriving DecidableEq, Repr

inductive StorageFault where
  /-- A `HookError`, with the category of the error the hook returned. -/
  | hook (event : Event) (category : OSErrorCategory)
  | os (category : OSErrorCategory)
deriving DecidableEq, Repr

def StorageFault.category : StorageFault → OSErrorCategory
  | .hook _ category => category
  | .os category => category

/-- `faultfs.FailedAfter`: the operation took effect before it was reported as failed. -/
def StorageFault.failedAfter : StorageFault → Bool
  | .hook event _ => event.phase == .after
  | .os _ => false

/-- `io.ErrShortWrite`. -/
def errShortWrite : StorageFault := .os .other

structure Error where
  code : ErrorCode
  message : String
  retry : RetryClass
  safeActions : List SafeAction
  field : String := ""
  path : Bytes := []
  reason : String := ""
  key : Key := []
  operation : String := ""
  osErrorCategory : Option OSErrorCategory := none
  expectedRevision : Option Nat := none
  actualRevision : Option Nat := none
  currentRevision : Option Nat := none
  requestedRevision : Option Nat := none
  earliestRevision : Option Nat := none
  lastDeliveredRevision : Option Nat := none
  cursorRevision : Option Nat := none
  durableThroughRevision : Option Nat := none
  reservedRevisionEnd : Option Nat := none
  throughRevision : Option Nat := none
  activeSnapshotRevision : Option Nat := none
  mutationIndex : Option Nat := none
  mutationIndexes : List Nat := []
  assertionIndex : Option Nat := none
  receivedVersion : Option Nat := none
  supportedVersions : List Nat := []
  offset : Option Nat := none
  activeClients : Option Nat := none
  maximumClients : Option Nat := none
  queueDepth : Option Nat := none
  receivedBytes : Nat := 0
  maximumBytes : Nat := 0
  receivedOperations : Nat := 0
  maximumOperations : Nat := 0
  expectedDatabaseID : Bytes := []
  actualDatabaseID : Bytes := []
  condition : Option ConditionKind := none
  actualState : String := ""
  lifecycle : Option LifecycleState := none
  failedStage : String := ""
  file : Bytes := []
  detectedCorruption : String := ""
  proposalAvailable : Option Bool := none
  correlationID : String := ""
  suppliedExpiry : Option Time := none
  effectiveTime : Option Time := none
  operationApplied : Bool := false
  /-- The storage fault that `errors.As` finds in the cause chain. -/
  cause : Option StorageFault := none
deriving DecidableEq, Repr

def invalidField (field reason : String) : Error :=
  { code := .invalidRequest, message := "Request validation failed.", retry := .never,
    field, reason, safeActions := [.fixRequest, .abort] }

end GapDB
