import GapDB.Protocol.ErrorEvidence

/-!
# Errors as the client takes them

`validateRemoteErrorRaw` of `gapdb/client_codec.go`, with its own table of schemas, and the
agreement of the two codecs: a text is a valid error for the server exactly when it is one for
the client, and both read the same error from it. The tables list `operation_applied` for
different codes, but both admit it for every code (`evidenceOf_agrees`).
-/

namespace GapDB

open Storelib

def clientMeaningfulEvidence : Option Json → Bool := meaningfulEvidence

def clientEvidence (required optional : List ErrorField) (groups : List (List ErrorField)) :
    EvidenceSchema :=
  evidenceSchema required optional groups

def clientEvidenceOf : ErrorCode → EvidenceSchema
  | .invalidRequest => clientEvidence [.reason] [] [[.field, .path]]
  | .unsupportedVersion => clientEvidence [.receivedVersion, .supportedVersions] [] []
  | .frameTooLarge => clientEvidence [.receivedBytes, .maximumBytes] [] []
  | .keyTooLarge | .valueTooLarge => clientEvidence [.receivedBytes, .maximumBytes] [.field] []
  | .batchTooLarge =>
    clientEvidence [] [.receivedOperations, .maximumOperations, .receivedBytes, .maximumBytes]
      []
  | .duplicateKey => clientEvidence [.key] [.mutationIndex] [[.mutationIndexes, .assertionIndex]]
  | .expiryNotFuture => clientEvidence [.suppliedExpiry, .effectiveTime] [] []
  | .invalidCursor => clientEvidence [.reason] [] []
  | .notFound => clientEvidence [.key, .currentRevision] [] []
  | .alreadyExists => clientEvidence [.key, .actualRevision] [] []
  | .revisionMismatch => clientEvidence [.key, .expectedRevision, .actualRevision] [] []
  | .conditionFailed =>
    clientEvidence [.key, .condition] [.expectedRevision] [[.mutationIndex, .assertionIndex],
      [.actualState, .actualRevision]]
  | .scanStale => clientEvidence [.cursorRevision, .currentRevision] [] []
  | .revisionAhead => clientEvidence [.requestedRevision, .currentRevision] [] []
  | .revisionCompacted => clientEvidence [.requestedRevision, .earliestAvailableRevision] [] []
  | .watchLagged => clientEvidence [.lastDeliveredRevision, .currentRevision] [] []
  | .ownerExists => clientEvidence [.path] [] []
  | .serverBusy => clientEvidence [.activeClients, .maximumClients, .queueDepth] [] []
  | .serverShuttingDown => clientEvidence [.lifecycle] [] []
  | .deadlineExceeded => clientEvidence [.operation, .deadline] [] []
  | .serverUnavailable => clientEvidence [.socketPath, .connectionReason] [] []
  | .permissionDenied => clientEvidence [.path, .operation] [] []
  | .storageDegraded =>
    clientEvidence [.failedStage, .currentRevision, .durableThroughRevision] [] []
  | .corruptIdentity => clientEvidence [.file] [.expectedDatabaseId] [[.offset, .reason]]
  | .corruptManifest => clientEvidence [.file, .reason] [] []
  | .corruptSnapshot => clientEvidence [.file, .offset, .reason] [] []
  | .corruptWAL => clientEvidence [.file, .offset, .reason] [.actualRevision] []
  | .unknownFormat => clientEvidence [.file, .receivedVersion, .supportedVersions] [] []
  | .databaseIDMismatch =>
    clientEvidence [.expectedDatabaseId, .actualDatabaseId] [] [[.file, .operation]]
  | .revisionRangeExhausted => clientEvidence [.reservedRevisionEnd, .reason] [] []
  | .ioError => clientEvidence [.operation, .path, .osErrorCategory] [] []
  | .adminPreconditionFailed =>
    clientEvidence [] [.expectedDatabaseId, .actualDatabaseId, .expectedRevision,
      .actualRevision, .expectedManifestGeneration, .actualManifestGeneration] []
  | .snapshotInProgress => clientEvidence [.operationId, .startedAt] [] []
  | .compactionNotSafe => clientEvidence [.throughRevision, .activeSnapshotRevision] [] []
  | .backupDestinationExists => clientEvidence [.destination] [] []
  | .backupInvalid => clientEvidence [.backupPath] [] [[.file, .reason]]
  | .recoveryRequired => clientEvidence [.detectedCorruption, .proposalAvailable] [] []
  | .recoveryActionMismatch =>
    clientEvidence [.expectedDatabaseId, .actualDatabaseId, .expectedManifestGeneration,
      .actualManifestGeneration, .proposalId] [] []
  | .auditFailedAfterApply =>
    clientEvidence [.operation, .reason, .currentRevision, .operationApplied] [] []
  | .internal => clientEvidence [.correlationId] [.lifecycle, .reason] []

def clientErrorSchemaFor (code : String) : Option EvidenceSchema :=
  (ErrorCode.ofText code).map clientEvidenceOf

/-! ### The validator of the client -/

def validateRemoteError (remote : WireError) : Except String Unit :=
  if remote.message = "" then .error "remote error is incomplete"
  else
    match definitionOf remote.code with
    | none => .error "remote error code is unknown"
    | some definition =>
      if definition.retry.text ≠ remote.retry ∨
          definition.safeActions.length ≠ remote.safeActions.length then
        .error "remote error classification does not match its code"
      else if ((definition.safeActions.map SafeAction.text).zip remote.safeActions).any
          fun pair => pair.1 != pair.2 then
        .error "remote error actions do not match its code"
      else .ok ()

def remoteErrorTexts (go : GoLibrary) : EvidenceTexts String :=
  { irrelevant := fun name => "remote error evidence " ++ go.quote name ++ " is invalid"
    absent := fun name => "remote error evidence " ++ go.quote name ++ " is invalid"
    required := fun name => "remote error evidence " ++ go.quote name ++ " is required"
    alternatives := "remote error is missing required alternative evidence"
    applied := "operation_applied must be true when present" }

/-- The last checks of `validateRemoteErrorRaw`. -/
def remoteAlternatives (remote : WireError) (object : Members) : Except String Unit :=
  let pair (left right : ErrorField) : Bool :=
    clientMeaningfulEvidence (object.lookup left.name) &&
      clientMeaningfulEvidence (object.lookup right.name)
  let code := ErrorCode.ofText remote.code
  if code = some .batchTooLarge ∧ ¬ pair .receivedOperations .maximumOperations ∧
      ¬ pair .receivedBytes .maximumBytes then
    .error "batch evidence requires a complete pair"
  else if code = some .adminPreconditionFailed ∧ ¬ pair .expectedDatabaseId .actualDatabaseId ∧
      ¬ pair .expectedRevision .actualRevision ∧
      ¬ pair .expectedManifestGeneration .actualManifestGeneration then
    .error "admin evidence requires a complete pair"
  else if code = some .conditionFailed then
    let hasMutation := (object.lookup ErrorField.mutationIndex.name).isSome
    let hasAssertion := (object.lookup ErrorField.assertionIndex.name).isSome
    if hasMutation = hasAssertion then
      .error "condition evidence must identify exactly one mutation or assertion"
    else if hasAssertion then
      match ConditionKind.ofText remote.condition with
      | .absent =>
        if (object.lookup ErrorField.expectedRevision.name).isSome then
          .error "expected_revision is invalid for an absent assertion"
        else .ok ()
      | .revision =>
        if remote.expectedRevision = none ∨ remote.expectedRevision = some 0 then
          .error "expected_revision must be positive for a revision assertion"
        else .ok ()
      | _ => .error "assertion condition must be absent or revision"
    else .ok ()
  else .ok ()

def validateRemoteErrorRaw (go : GoLibrary) (remote : WireError) (raw : Bytes) :
    Except String Unit :=
  andThen (validateRemoteError remote) <|
  if ∃ index ∈ remote.assertionIndex, index < 0 then .error "remote assertion index is invalid"
  else if remote.assertionIndex.isSome ∧ (maxAssertionDiagnosticBytes ≤ raw.length ∨
      remote.key ≠ diagnosticKey remote.key) then
    .error "remote assertion diagnostic exceeds its safe bound"
  else
    match go.unmarshalObject raw with
    | .error reason => .error reason
    | .ok object =>
      match clientErrorSchemaFor remote.code with
      | none => .error "remote error has no evidence schema"
      | some schema =>
        andThen (inspectEvidence (remoteErrorTexts go) schema object)
          (remoteAlternatives remote object)

/-- The error of a response as the client takes it. -/
def decodeRemoteError (go : GoLibrary) (raw : Bytes) : Except String WireError :=
  checkDecoded (fun reason => "error: " ++ reason)
    (fun remote => validateRemoteErrorRaw go remote raw) (clientDecodeStrict go go.decodeError raw)

/-! ### What the client accepts -/

variable {go : GoLibrary} {raw : Bytes} {e : WireError} {object : Members}

theorem validateRemoteError_eq_ok :
    validateRemoteError e = .ok () ↔ ∃ definition, e.Classified definition := by
  rw [validateRemoteError, ite_error_eq_ok]
  cases hdefinition : definitionOf e.code with
  | none =>
    constructor
    · rintro ⟨_, h⟩
      exact absurd h (by simp)
    · rintro ⟨definition, hclassified⟩
      exact absurd (hdefinition.symm.trans hclassified.defined) (by simp)
  | some definition =>
    have hactions : ∀ want : List String, want.length = e.safeActions.length →
        ((¬ (want.zip e.safeActions).any fun pair => pair.1 != pair.2) ↔ e.safeActions = want) := by
      intro want hlength
      rw [eq_comm (a := e.safeActions), ← equalSafeActions_iff]
      simp [equalSafeActions, hlength]
    simp only [ite_error_eq_ok, not_or, not_not]
    constructor
    · rintro ⟨hmessage, ⟨hretry, hlength⟩, hsame, _⟩
      have hlength' : (definition.safeActions.map SafeAction.text).length
          = e.safeActions.length := by rw [List.length_map, hlength]
      exact ⟨definition, hmessage, hdefinition, hretry, (hactions _ hlength').mp hsame⟩
    · rintro ⟨other, hclassified⟩
      have hsame : definition = other :=
        Option.some.inj (hdefinition.symm.trans hclassified.defined)
      subst hsame
      have hlength : (definition.safeActions.map SafeAction.text).length
          = e.safeActions.length := by rw [hclassified.safeActions]
      refine ⟨hclassified.message, ⟨hclassified.retry, ?_⟩,
        (hactions _ hlength).mpr hclassified.safeActions, trivial⟩
      rw [← hlength, List.length_map]

theorem validateRemoteErrorRaw_eq_ok :
    validateRemoteErrorRaw go e raw = .ok () ↔ (∃ definition, e.Classified definition) ∧
      e.Bounded raw ∧ ∃ object schema, go.unmarshalObject raw = .ok object ∧
        clientErrorSchemaFor e.code = some schema ∧ schema.Admits object ∧
        remoteAlternatives e object = .ok () := by
  rw [validateRemoteErrorRaw, andThen_eq_ok, validateRemoteError_eq_ok, ite_error_eq_ok,
    ite_error_eq_ok]
  constructor
  · rintro ⟨hclassified, hindex, hsize, h⟩
    refine ⟨hclassified, ⟨hindex, hsize⟩, ?_⟩
    cases hobject : go.unmarshalObject raw with
    | error reason => simp [hobject] at h
    | ok object =>
      cases hschema : clientErrorSchemaFor e.code with
      | none => simp [hobject, hschema] at h
      | some schema =>
        simp only [hobject, hschema, andThen_eq_ok, inspectEvidence_eq_ok] at h
        exact ⟨object, schema, rfl, rfl, h⟩
  · rintro ⟨hclassified, hbounded, object, schema, hobject, hschema, h⟩
    refine ⟨hclassified, hbounded.index, hbounded.size, ?_⟩
    simp only [hobject, hschema, andThen_eq_ok, inspectEvidence_eq_ok]
    exact h

/-! ### The two tables -/

/-- The two tables ask for the same evidence and allow the same. -/
theorem evidenceOf_agrees (code : ErrorCode) :
    (evidenceOf code).required = (clientEvidenceOf code).required ∧
    (evidenceOf code).requiredAny = (clientEvidenceOf code).requiredAny ∧
    (∀ f ∈ (evidenceOf code).allowed, f ∈ (clientEvidenceOf code).allowed) ∧
    ∀ f ∈ (clientEvidenceOf code).allowed, f ∈ (evidenceOf code).allowed := by
  cases code <;> decide

theorem EvidenceSchema.Admits.of_agrees {a b : EvidenceSchema} (hrequired : a.required = b.required)
    (hany : a.requiredAny = b.requiredAny) (hallowed : ∀ f ∈ a.allowed, f ∈ b.allowed)
    (h : a.Admits object) : b.Admits object where
  relevant member hmember := by
    rcases h.relevant member hmember with hbase | ⟨⟨f, hf, hname⟩, hmeaningful⟩
    · exact .inl hbase
    · exact .inr ⟨⟨f, hallowed f hf, hname⟩, hmeaningful⟩
  required := hrequired ▸ h.required
  alternatives := hany ▸ h.alternatives
  applied := h.applied

theorem admits_iff (code : ErrorCode) :
    (evidenceOf code).Admits object ↔ (clientEvidenceOf code).Admits object := by
  obtain ⟨hrequired, hany, hserver, hclient⟩ := evidenceOf_agrees code
  exact ⟨.of_agrees hrequired hany hserver, .of_agrees hrequired.symm hany.symm hclient⟩

/-! ### The two readings of a member -/

theorem rawStringValue_eq {value : Option Json} {text : String}
    (h : Json.decodeMember .text "" value = some text) : rawStringValue value = text := by
  cases value with
  | none => exact Option.some.inj h
  | some value =>
    cases value with
    | string | null => exact Option.some.inj h
    | bool | number | array | object =>
      exact absurd h (by simp [Json.decodeMember, Json.decodeValue, Json.decodeText])

/-- The revision read from the member and the one in the record are positive together. -/
theorem rawRevision_zero_iff {value : Option Json} {revision : Option Nat}
    (h : Json.decodeMember .uintPointer none value = some revision) :
    rawRevision value = none ∨ rawRevision value = some 0 ↔
      revision = none ∨ revision = some 0 := by
  cases value with
  | none =>
    obtain rfl : none = revision := Option.some.inj h
    simp [rawRevision]
  | some value =>
    cases value with
    | null =>
      obtain rfl : none = revision := Option.some.inj h
      simp [rawRevision, Json.decodeUint]
    | number literal =>
      cases hparse : Json.parseUint literal with
      | none =>
        exact absurd h (by simp [Json.decodeMember, Json.decodeValue, Json.decodePointer,
          Json.decodeUint, hparse])
      | some parsed =>
        have hrevision : some (some parsed) = some revision := by
          rw [← h]
          simp [Json.decodeMember, Json.decodeValue, Json.decodePointer, Json.decodeUint, hparse]
        obtain rfl : some parsed = revision := Option.some.inj hrevision
        simp [rawRevision, Json.decodeUint, hparse]
    | bool | string | array | object =>
      exact absurd h (by simp [Json.decodeMember, Json.decodeValue,
        Json.decodePointer, Json.decodeUint])

theorem alternatives_agree {schema : EvidenceSchema} (h : schema.Admits object)
    (hcondition : rawStringValue (object.lookup ErrorField.condition.name) = e.condition)
    (hrevision : rawRevision (object.lookup ErrorField.expectedRevision.name) = none ∨
        rawRevision (object.lookup ErrorField.expectedRevision.name) = some 0 ↔
      e.expectedRevision = none ∨ e.expectedRevision = some 0) :
    validateAlternativeEvidence e.code object = .ok () ↔ remoteAlternatives e object = .ok () := by
  have hmutation := h.meaningful_iff (f := .mutationIndex) (by decide)
  have hassertion := h.meaningful_iff (f := .assertionIndex) (by decide)
  rw [validateAlternativeEvidence, remoteAlternatives]
  simp only [hmutation, hassertion, hcondition]
  cases hcode : ErrorCode.ofText e.code with
  | none => simp
  | some code =>
    by_cases hbatch : code = .batchTooLarge
    · subst hbatch
      simp [evidencePair, clientMeaningfulEvidence]
    · by_cases hadmin : code = .adminPreconditionFailed
      · subst hadmin
        simp [evidencePair, clientMeaningfulEvidence]
      · by_cases hfailed : code = .conditionFailed
        · subst hfailed
          simp only [hbatch, hadmin, Option.some.injEq, false_and, if_false, if_true,
            ite_error_eq_ok]
          refine and_congr_right fun _ => ?_
          cases hassert : (object.lookup ErrorField.assertionIndex.name).isSome with
          | false => simp
          | true =>
            simp only [if_true]
            cases ConditionKind.ofText e.condition with
            | any | unknown | absent => simp
            | revision => simp only [ite_error_eq_ok, hrevision]
        · cases code <;> simp_all

/-- The last checks agree on a decoded error whose members are admitted. -/
theorem decoded_alternatives {schema : EvidenceSchema}
    (hdecode : decodeDistinct go go.decodeError raw = .ok e)
    (hobject : go.unmarshalObject raw = .ok object) (h : schema.Admits object) :
    validateAlternativeEvidence e.code object = .ok () ↔ remoteAlternatives e object = .ok () :=
  alternatives_agree h (rawStringValue_eq
    (decodeDistinct_member hdecode hobject h.exact .condition))
    (rawRevision_zero_iff (decodeDistinct_member hdecode hobject h.exact .expectedRevision))

theorem decodeStructuredError_iff :
    decodeStructuredError go raw = .ok e ↔ decodeRemoteError go raw = .ok e := by
  rw [decodeStructuredError, decodeRemoteError, checkDecoded_eq_ok, checkDecoded_eq_ok,
    decodeStrict_eq_ok, clientDecodeStrict_eq_ok, validateStructuredError_eq_ok,
    validateRemoteErrorRaw_eq_ok]
  -- classification and bounds are the same conditions; what is left is about the members
  refine and_congr_right fun hdecode => and_congr_right fun _ => and_congr_right fun _ => ?_
  refine exists_congr fun object => ?_
  constructor
  · rintro ⟨schema, hobject, hschema, hadmits, halternatives⟩
    obtain ⟨code, hcode, rfl⟩ := Option.map_eq_some_iff.mp hschema
    have hclient : clientErrorSchemaFor e.code = some (clientEvidenceOf code) := by
      rw [clientErrorSchemaFor, hcode]
      rfl
    exact ⟨_, hobject, hclient, (admits_iff code).mp hadmits,
      (decoded_alternatives hdecode.2.2 hobject hadmits).mp halternatives⟩
  · rintro ⟨schema, hobject, hschema, hadmits, halternatives⟩
    obtain ⟨code, hcode, rfl⟩ := Option.map_eq_some_iff.mp hschema
    have hserver : errorSchema e.code = some (evidenceOf code) := by
      rw [errorSchema, hcode]
      rfl
    exact ⟨_, hobject, hserver, (admits_iff code).mpr hadmits,
      (decoded_alternatives hdecode.2.2 hobject hadmits).mpr halternatives⟩

/-- Server and client agree on what a valid error is, and on the error they read. -/
theorem error_validators_agree (go : GoLibrary) (raw : Bytes) (e : WireError) :
    decodeStructuredError go raw = .ok e ↔ decodeRemoteError go raw = .ok e :=
  decodeStructuredError_iff

-- a complete error passes; one whose evidence is an empty text does not
example :
    let go (key : String) : GoLibrary :=
      { parse := fun _ => .ok (.object [("code", .string "NOT_FOUND"),
        ("message", .string "Missing."),
          ("retry", .string "after_reconcile"), ("key", .string key),
          ("current_revision", .number "7"),
          ("safe_actions", .array [.string "get", .string "put_if_absent", .string "abort"])])
        foldName := fun _ => none, mismatch := fun _ _ => "", quote := id }
    (decodeRemoteError (go "a") [123, 125]).isOk = true ∧
      (decodeRemoteError (go "") [123, 125]).isOk = false := by
  decide +kernel

end GapDB
