import GapDB.Batch
import GapDB.Storelib.JsonRecords

/-!
# Errors on the wire

The JSON form of `Error` in `gapdb/types.go`: its fields under their JSON names, the texts of
codes, retry classes and actions, the table `ErrorDefinitions`, and the strict decoder that
`internal/protocol/envelope.go` and `gapdb/client_codec.go` share up to the texts of their
errors. What the two sides take from Go's library is a parameter, `GoLibrary`.
-/

namespace GapDB

open Storelib

/-- The fields of `Error` that have a JSON name. -/
inductive ErrorField where
  | code | message | retry | field | path | reason | key | operation | deadline | osErrorCategory
  | expectedRevision | actualRevision | currentRevision | requestedRevision | cursorRevision
  | earliestAvailableRevision | lastDeliveredRevision | durableThroughRevision
  | reservedRevisionEnd | throughRevision | activeSnapshotRevision | mutationIndex
  | mutationIndexes | assertionIndex | receivedVersion | supportedVersions
  | expectedManifestGeneration | actualManifestGeneration | offset | activeClients
  | maximumClients | queueDepth | receivedBytes | maximumBytes | receivedOperations
  | maximumOperations | expectedDatabaseId | actualDatabaseId | condition | actualState
  | lifecycle | failedStage | file | socketPath | connectionReason | operationId | startedAt
  | destination | backupPath | proposalId | detectedCorruption | proposalAvailable | correlationId
  | suppliedExpiry | effectiveTime | operationApplied | safeActions
deriving DecidableEq, Repr

namespace ErrorField

def name : ErrorField → String
  | .code => "code"
  | .message => "message"
  | .retry => "retry"
  | .field => "field"
  | .path => "path"
  | .reason => "reason"
  | .key => "key"
  | .operation => "operation"
  | .deadline => "deadline"
  | .osErrorCategory => "os_error_category"
  | .expectedRevision => "expected_revision"
  | .actualRevision => "actual_revision"
  | .currentRevision => "current_revision"
  | .requestedRevision => "requested_revision"
  | .cursorRevision => "cursor_revision"
  | .earliestAvailableRevision => "earliest_available_revision"
  | .lastDeliveredRevision => "last_delivered_revision"
  | .durableThroughRevision => "durable_through_revision"
  | .reservedRevisionEnd => "reserved_revision_end"
  | .throughRevision => "through_revision"
  | .activeSnapshotRevision => "active_snapshot_revision"
  | .mutationIndex => "mutation_index"
  | .mutationIndexes => "mutation_indexes"
  | .assertionIndex => "assertion_index"
  | .receivedVersion => "received_version"
  | .supportedVersions => "supported_versions"
  | .expectedManifestGeneration => "expected_manifest_generation"
  | .actualManifestGeneration => "actual_manifest_generation"
  | .offset => "offset"
  | .activeClients => "active_clients"
  | .maximumClients => "maximum_clients"
  | .queueDepth => "queue_depth"
  | .receivedBytes => "received_bytes"
  | .maximumBytes => "maximum_bytes"
  | .receivedOperations => "received_operations"
  | .maximumOperations => "maximum_operations"
  | .expectedDatabaseId => "expected_database_id"
  | .actualDatabaseId => "actual_database_id"
  | .condition => "condition"
  | .actualState => "actual_state"
  | .lifecycle => "lifecycle"
  | .failedStage => "failed_stage"
  | .file => "file"
  | .socketPath => "socket_path"
  | .connectionReason => "connection_reason"
  | .operationId => "operation_id"
  | .startedAt => "started_at"
  | .destination => "destination"
  | .backupPath => "backup_path"
  | .proposalId => "proposal_id"
  | .detectedCorruption => "detected_corruption"
  | .proposalAvailable => "proposal_available"
  | .correlationId => "correlation_id"
  | .suppliedExpiry => "supplied_expiry"
  | .effectiveTime => "effective_time"
  | .operationApplied => "operation_applied"
  | .safeActions => "safe_actions"

def kind : ErrorField → Json.Kind
  | .code | .message | .retry | .field | .path | .reason | .key | .operation | .deadline
  | .osErrorCategory | .expectedDatabaseId | .actualDatabaseId | .condition | .actualState
  | .lifecycle | .failedStage | .file | .socketPath | .connectionReason | .operationId
  | .startedAt | .destination | .backupPath | .proposalId | .detectedCorruption | .correlationId
  | .suppliedExpiry | .effectiveTime => .text
  | .expectedRevision | .actualRevision | .currentRevision | .requestedRevision | .cursorRevision
  | .earliestAvailableRevision | .lastDeliveredRevision | .durableThroughRevision
  | .reservedRevisionEnd | .throughRevision | .activeSnapshotRevision | .receivedVersion
  | .expectedManifestGeneration | .actualManifestGeneration => .uintPointer
  | .mutationIndex | .assertionIndex | .offset | .activeClients | .maximumClients
  | .queueDepth => .intPointer
  | .mutationIndexes => .ints
  | .supportedVersions => .uints
  | .receivedBytes | .maximumBytes | .receivedOperations | .maximumOperations => .int
  | .proposalAvailable => .flagPointer
  | .operationApplied => .flag
  | .safeActions => .texts

def all : List ErrorField :=
  [.code, .message, .retry, .field, .path, .reason, .key, .operation, .deadline,
   .osErrorCategory, .expectedRevision, .actualRevision, .currentRevision, .requestedRevision,
   .cursorRevision, .earliestAvailableRevision, .lastDeliveredRevision, .durableThroughRevision,
   .reservedRevisionEnd, .throughRevision, .activeSnapshotRevision, .mutationIndex,
   .mutationIndexes, .assertionIndex, .receivedVersion, .supportedVersions,
   .expectedManifestGeneration, .actualManifestGeneration, .offset, .activeClients,
   .maximumClients, .queueDepth, .receivedBytes, .maximumBytes, .receivedOperations,
   .maximumOperations, .expectedDatabaseId, .actualDatabaseId, .condition, .actualState,
   .lifecycle, .failedStage, .file, .socketPath, .connectionReason, .operationId, .startedAt,
   .destination, .backupPath, .proposalId, .detectedCorruption, .proposalAvailable,
   .correlationId, .suppliedExpiry, .effectiveTime, .operationApplied, .safeActions]

/-- The field with exactly this name. -/
def ofName (name : String) : Option ErrorField := all.find? fun f => f.name == name

theorem mem_all (f : ErrorField) : f ∈ all := by
  cases f <;> decide

theorem ofName_name (f : ErrorField) : ofName f.name = some f := by
  have hall : ∀ f ∈ all, ofName f.name = some f := by decide +kernel
  exact hall f (mem_all f)

theorem name_injective {a b : ErrorField} (h : a.name = b.name) : a = b := by
  have hb := ofName_name b
  rw [← h, ofName_name a] at hb
  exact Option.some.inj hb

end ErrorField

/-! ### Texts -/

def ErrorCode.text : ErrorCode → String
  | .invalidRequest => "INVALID_REQUEST"
  | .unsupportedVersion => "UNSUPPORTED_VERSION"
  | .frameTooLarge => "FRAME_TOO_LARGE"
  | .keyTooLarge => "KEY_TOO_LARGE"
  | .valueTooLarge => "VALUE_TOO_LARGE"
  | .batchTooLarge => "BATCH_TOO_LARGE"
  | .duplicateKey => "DUPLICATE_KEY"
  | .expiryNotFuture => "EXPIRY_NOT_FUTURE"
  | .invalidCursor => "INVALID_CURSOR"
  | .notFound => "NOT_FOUND"
  | .alreadyExists => "ALREADY_EXISTS"
  | .revisionMismatch => "REVISION_MISMATCH"
  | .conditionFailed => "CONDITION_FAILED"
  | .scanStale => "SCAN_STALE"
  | .revisionAhead => "REVISION_AHEAD"
  | .revisionCompacted => "REVISION_COMPACTED"
  | .watchLagged => "WATCH_LAGGED"
  | .ownerExists => "OWNER_EXISTS"
  | .serverBusy => "SERVER_BUSY"
  | .serverShuttingDown => "SERVER_SHUTTING_DOWN"
  | .deadlineExceeded => "DEADLINE_EXCEEDED"
  | .serverUnavailable => "SERVER_UNAVAILABLE"
  | .permissionDenied => "PERMISSION_DENIED"
  | .storageDegraded => "STORAGE_DEGRADED"
  | .corruptIdentity => "CORRUPT_IDENTITY"
  | .corruptManifest => "CORRUPT_MANIFEST"
  | .corruptSnapshot => "CORRUPT_SNAPSHOT"
  | .corruptWAL => "CORRUPT_WAL"
  | .unknownFormat => "UNKNOWN_FORMAT"
  | .databaseIDMismatch => "DATABASE_ID_MISMATCH"
  | .revisionRangeExhausted => "REVISION_RANGE_EXHAUSTED"
  | .ioError => "IO_ERROR"
  | .adminPreconditionFailed => "ADMIN_PRECONDITION_FAILED"
  | .snapshotInProgress => "SNAPSHOT_IN_PROGRESS"
  | .compactionNotSafe => "COMPACTION_NOT_SAFE"
  | .backupDestinationExists => "BACKUP_DESTINATION_EXISTS"
  | .backupInvalid => "BACKUP_INVALID"
  | .recoveryRequired => "RECOVERY_REQUIRED"
  | .recoveryActionMismatch => "RECOVERY_ACTION_MISMATCH"
  | .auditFailedAfterApply => "AUDIT_FAILED_AFTER_APPLY"
  | .internal => "INTERNAL"

def RetryClass.text : RetryClass → String
  | .never => "never"
  | .immediate => "immediate"
  | .afterReconcile => "after_reconcile"
  | .afterRescan => "after_rescan"
  | .afterRestart => "after_restart"
  | .afterOperator => "after_operator"

def SafeAction.text : SafeAction → String
  | .abort => "abort"
  | .fixRequest => "fix_request"
  | .useSupportedVersion => "use_supported_version"
  | .upgradeClient => "upgrade_client"
  | .reduceRequest => "reduce_request"
  | .reduceKey => "reduce_key"
  | .reduceValue => "reduce_value"
  | .splitBatch => "split_batch"
  | .deduplicateBatch => "deduplicate_batch"
  | .chooseFutureExpiry => "choose_future_expiry"
  | .restartScan => "restart_scan"
  | .get => "get"
  | .putIfAbsent => "put_if_absent"
  | .compareAndSwap => "compare_and_swap"
  | .retryWithNewCondition => "retry_with_new_condition"
  | .rebuildBatch => "rebuild_batch"
  | .scanPrefix => "scan_prefix"
  | .restartWatch => "restart_watch"
  | .status => "status"
  | .wait => "wait"
  | .retryWithBackoff => "retry_with_backoff"
  | .waitForRestart => "wait_for_restart"
  | .reconcile => "reconcile"
  | .statusOffline => "status_offline"
  | .startServer => "start_server"
  | .fixPermissions => "fix_permissions"
  | .verify => "verify"
  | .restartAfterRecovery => "restart_after_recovery"
  | .inspectOffline => "inspect_offline"
  | .restoreBackup => "restore_backup"
  | .recoverPropose => "recover_propose"
  | .upgradeGapdb => "upgrade_gapdb"
  | .useCompatibleBinary => "use_compatible_binary"
  | .selectCorrectDatabase => "select_correct_database"
  | .verifyStorage => "verify_storage"
  | .checkStorage => "check_storage"
  | .rebuildRequest => "rebuild_request"
  | .createSnapshot => "create_snapshot"
  | .chooseNewDestination => "choose_new_destination"
  | .verifyBackup => "verify_backup"
  | .chooseOtherBackup => "choose_other_backup"
  | .repairAuditStorage => "repair_audit_storage"

def ConditionKind.ofText (text : String) : ConditionKind :=
  if text = "any" then .any
  else if text = "absent" then .absent
  else if text = "revision" then .revision
  else .unknown

structure ErrorDefinition where
  code : ErrorCode
  retry : RetryClass
  safeActions : List SafeAction
deriving DecidableEq, Repr

def errorDefinitions : List ErrorDefinition :=
  [⟨.invalidRequest, .never, [.fixRequest, .abort]⟩,
   ⟨.unsupportedVersion, .never, [.useSupportedVersion, .upgradeClient, .abort]⟩,
   ⟨.frameTooLarge, .never, [.reduceRequest, .abort]⟩,
   ⟨.keyTooLarge, .never, [.reduceKey, .abort]⟩,
   ⟨.valueTooLarge, .never, [.reduceValue, .abort]⟩,
   ⟨.batchTooLarge, .never, [.splitBatch, .abort]⟩,
   ⟨.duplicateKey, .never, [.deduplicateBatch, .abort]⟩,
   ⟨.expiryNotFuture, .afterReconcile, [.chooseFutureExpiry, .abort]⟩,
   ⟨.invalidCursor, .never, [.restartScan, .abort]⟩,
   ⟨.notFound, .afterReconcile, [.get, .putIfAbsent, .abort]⟩,
   ⟨.alreadyExists, .afterReconcile, [.get, .compareAndSwap, .abort]⟩,
   ⟨.revisionMismatch, .afterReconcile, [.get, .retryWithNewCondition, .abort]⟩,
   ⟨.conditionFailed, .afterReconcile, [.get, .rebuildBatch, .abort]⟩,
   ⟨.scanStale, .afterRescan, [.restartScan, .abort]⟩,
   ⟨.revisionAhead, .afterRescan, [.scanPrefix, .restartWatch, .abort]⟩,
   ⟨.revisionCompacted, .afterRescan, [.scanPrefix, .restartWatch, .abort]⟩,
   ⟨.watchLagged, .afterRescan, [.scanPrefix, .restartWatch, .abort]⟩,
   ⟨.ownerExists, .afterOperator, [.status, .wait, .abort]⟩,
   ⟨.serverBusy, .immediate, [.retryWithBackoff, .abort]⟩,
   ⟨.serverShuttingDown, .afterRestart, [.waitForRestart, .abort]⟩,
   ⟨.deadlineExceeded, .afterReconcile, [.status, .reconcile, .abort]⟩,
   ⟨.serverUnavailable, .afterRestart, [.statusOffline, .startServer, .abort]⟩,
   ⟨.permissionDenied, .afterOperator, [.fixPermissions, .abort]⟩,
   ⟨.storageDegraded, .afterRestart, [.status, .verify, .restartAfterRecovery, .abort]⟩,
   ⟨.corruptIdentity, .afterOperator, [.inspectOffline, .restoreBackup, .abort]⟩,
   ⟨.corruptManifest, .afterOperator, [.inspectOffline, .recoverPropose, .restoreBackup, .abort]⟩,
   ⟨.corruptSnapshot, .afterOperator, [.inspectOffline, .recoverPropose, .restoreBackup, .abort]⟩,
   ⟨.corruptWAL, .afterOperator, [.inspectOffline, .recoverPropose, .restoreBackup, .abort]⟩,
   ⟨.unknownFormat, .never, [.upgradeGapdb, .useCompatibleBinary, .abort]⟩,
   ⟨.databaseIDMismatch, .never, [.selectCorrectDatabase, .abort]⟩,
   ⟨.revisionRangeExhausted, .afterRestart, [.verifyStorage, .restartAfterRecovery, .abort]⟩,
   ⟨.ioError, .afterOperator, [.checkStorage, .verify, .abort]⟩,
   ⟨.adminPreconditionFailed, .afterReconcile, [.status, .rebuildRequest, .abort]⟩,
   ⟨.snapshotInProgress, .immediate, [.status, .wait, .abort]⟩,
   ⟨.compactionNotSafe, .afterReconcile, [.status, .createSnapshot, .abort]⟩,
   ⟨.backupDestinationExists, .never, [.chooseNewDestination, .abort]⟩,
   ⟨.backupInvalid, .afterOperator, [.verifyBackup, .chooseOtherBackup, .abort]⟩,
   ⟨.recoveryRequired, .afterOperator, [.recoverPropose, .restoreBackup, .abort]⟩,
   ⟨.recoveryActionMismatch, .afterReconcile, [.recoverPropose, .abort]⟩,
   ⟨.auditFailedAfterApply, .afterReconcile, [.status, .verify, .repairAuditStorage, .abort]⟩,
   ⟨.internal, .afterOperator, [.status, .verify, .abort]⟩]

/-- The code a text stands for. -/
def ErrorCode.ofText (text : String) : Option ErrorCode :=
  (errorDefinitions.map ErrorDefinition.code).find? fun code => code.text == text

/-! ### The decoded record -/

abbrev WireError := Json.Record ErrorField.kind

namespace WireError

def code (e : WireError) : String := e .code

def message (e : WireError) : String := e .message

def retry (e : WireError) : String := e .retry

def safeActions (e : WireError) : List String := e .safeActions

/-- The key's bytes. -/
def key (e : WireError) : Key :=
  let text : String := e .key
  text.toUTF8.data.toList.map fun b => Fin.ofNat 256 b.toNat

def condition (e : WireError) : String := e .condition

def expectedRevision (e : WireError) : Option Nat := e .expectedRevision

def assertionIndex (e : WireError) : Option Int := e .assertionIndex

end WireError

/-! ### The strict decoder -/

/-- What the two codecs take from Go's standard library. -/
structure GoLibrary where
  /-- The one JSON value a text holds, or why it holds none. -/
  parse : Bytes → Except String Json
  /-- The field `encoding/json` takes for a name that is no field's exact name. -/
  foldName : String → Option ErrorField
  mismatch : Option ErrorField → Json → String
  /-- The verb `%q`. -/
  quote : String → String

section

variable (go : GoLibrary)

def GoLibrary.findField (name : String) : Option ErrorField :=
  match ErrorField.ofName name with
  | some f => some f
  | none => go.foldName name

/-- `Decode` of a document into an `Error`, unknown fields disallowed. -/
def GoLibrary.decodeError : Json → Except String WireError
  | .object members =>
    Json.decodeFields ErrorField.kind go.findField
      (fun name => "json: unknown field " ++ go.quote name)
      (fun f value => go.mismatch (some f) value) (Json.Record.zero ErrorField.kind) members
  | .null => .ok (Json.Record.zero ErrorField.kind)
  | value => .error (go.mismatch none value)

/-- `Unmarshal` of a text into a map of its members. -/
def GoLibrary.unmarshalObject (raw : Bytes) : Except String (List (String × Json)) :=
  match go.parse raw with
  | .error reason => .error reason
  | .ok (.object members) => .ok members
  | .ok .null => .ok []
  | .ok value => .error (go.mismatch none value)

variable {α : Type} (decode : Json → Except String α)

/-- What both strict decoders do with a nonempty text of valid UTF-8. -/
def decodeDistinct (raw : Bytes) : Except String α :=
  match go.parse raw with
  | .error reason => .error reason
  | .ok document =>
    match document.firstDuplicate with
    | some name => .error ("duplicate field " ++ go.quote name)
    | none => decode document

/-- `decodeStrict` of the server. -/
def decodeStrict (raw : Bytes) : Except String α :=
  if raw = [] then .error "empty JSON"
  else if ¬ validUtf8 raw then .error "JSON is not valid UTF-8"
  else decodeDistinct go decode raw

def clientDecodeStrict (raw : Bytes) : Except String α :=
  if raw = [] ∨ ¬ validUtf8 raw then .error "empty or invalid UTF-8 JSON"
  else decodeDistinct go decode raw

end

variable {go : GoLibrary} {raw : Bytes} {e : WireError} {α : Type}
  {decode : Json → Except String α} {value : α}

theorem decodeStrict_eq_ok : decodeStrict go decode raw = .ok value ↔
    raw ≠ [] ∧ validUtf8 raw ∧ decodeDistinct go decode raw = .ok value := by
  rw [decodeStrict, ite_error_eq_ok, ite_error_eq_ok, not_not]

theorem clientDecodeStrict_eq_ok : clientDecodeStrict go decode raw = .ok value ↔
    raw ≠ [] ∧ validUtf8 raw ∧ decodeDistinct go decode raw = .ok value := by
  rw [clientDecodeStrict, ite_error_eq_ok, not_or, not_not, and_assoc]

/-- How deep `encoding/json` follows arrays and objects. -/
def maxNestingDepth : Nat := 10000

/-- The library reads back what it writes. -/
def GoLibrary.Inverts (go : GoLibrary) : Prop :=
  ∀ document : Json, document.Readable maxNestingDepth → go.parse document.text = .ok document

section

variable {document : Json}

theorem decodeDistinct_text (hgo : go.Inverts) (h : document.Readable maxNestingDepth) :
    decodeDistinct go decode document.text
      = match document.firstDuplicate with
        | some name => .error ("duplicate field " ++ go.quote name)
        | none => decode document := by
  rw [decodeDistinct, hgo document h]

theorem decodeStrict_text (hgo : go.Inverts) (h : document.Readable maxNestingDepth)
    (hdistinct : document.firstDuplicate = none) :
    decodeStrict go decode document.text = decode document := by
  rw [decodeStrict, if_neg (Json.text_ne_nil h.numeric), if_neg (by simp [Json.validUtf8_text]),
    decodeDistinct_text hgo h, hdistinct]

theorem clientDecodeStrict_text (hgo : go.Inverts) (h : document.Readable maxNestingDepth)
    (hdistinct : document.firstDuplicate = none) :
    clientDecodeStrict go decode document.text = decode document := by
  rw [clientDecodeStrict, if_neg (by simp [Json.validUtf8_text, Json.text_ne_nil h.numeric]),
    decodeDistinct_text hgo h, hdistinct]

end

/-- A decoded error that passes a check; the decoder's own error is passed on as `wrap` has it. -/
def checkDecoded {ε : Type} (wrap : String → ε) (check : WireError → Except ε Unit) :
    Except String WireError → Except ε WireError
  | .error reason => .error (wrap reason)
  | .ok decoded => andThen (check decoded) (.ok decoded)

theorem checkDecoded_eq_ok {ε : Type} {wrap : String → ε} {check : WireError → Except ε Unit}
    {decoding : Except String WireError} :
    checkDecoded wrap check decoding = .ok e ↔ decoding = .ok e ∧ check e = .ok () := by
  cases decoding with
  | error reason => simp [checkDecoded]
  | ok decoded =>
    simp only [checkDecoded, andThen_eq_ok, Except.ok.injEq]
    constructor
    · rintro ⟨h, rfl⟩
      exact ⟨rfl, h⟩
    · rintro ⟨rfl, h⟩
      exact ⟨h, rfl⟩

theorem findField_name (go : GoLibrary) (f : ErrorField) :
    go.findField f.name = some f := by
  rw [GoLibrary.findField, ErrorField.ofName_name]

/-- A field of a decoded error comes from the member of its name, if all names are exact. -/
theorem decodeDistinct_member {object : List (String × Json)}
    (h : decodeDistinct go go.decodeError raw = .ok e)
    (hobject : go.unmarshalObject raw = .ok object)
    (hexact : ∀ name ∈ object.map Prod.fst, ∃ f : ErrorField, f.name = name)
    (f : ErrorField) :
    Json.decodeMember f.kind f.kind.zero (object.lookup f.name) = some (e f) := by
  unfold decodeDistinct at h
  unfold GoLibrary.unmarshalObject at hobject
  cases hparse : go.parse raw with
  | error reason => simp [hparse] at h
  | ok document =>
    simp only [hparse] at h hobject
    cases hduplicate : document.firstDuplicate with
    | some name => simp [hduplicate] at h
    | none =>
      simp only [hduplicate] at h
      cases document with
      | object members =>
        simp only [Except.ok.injEq] at hobject
        subst hobject
        exact Json.decodeFields_member (findField_name go) hexact (Json.names_nodup hduplicate) h
          f
      | null =>
        -- a null document leaves the record as it was, and the map empty
        simp only [Except.ok.injEq] at hobject
        simp only [GoLibrary.decodeError, Except.ok.injEq] at h
        subst hobject
        subst h
        rfl
      | bool | number | string | array => simp at hobject

end GapDB
