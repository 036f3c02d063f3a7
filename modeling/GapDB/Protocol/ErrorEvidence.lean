import GapDB.Protocol.WireErrors

/-!
# The evidence an error must carry

`validateStructuredError` of `internal/protocol/envelope.go`: an error is classified by its
code, a diagnostic about an assertion is bounded, and the members of its JSON object are held
against the schema of the code. The inspection of the members is written once for both codecs
(`inspectEvidence`); what it accepts is `EvidenceSchema.Admits`.
-/

namespace GapDB

open Storelib

abbrev Members := List (String × Json)

def maxAssertionDiagnosticBytes : Nat := 4 * 2 ^ 10

def maxAssertionDiagnosticKeyBytes : Nat := 256

def invalidProtocol (field reason : String) : Error :=
  { code := .invalidRequest, message := "Protocol request is invalid.", retry := .never,
    field, reason, safeActions := [.fixRequest, .abort] }

/-! ### Evidence and its schema -/

/-- Evidence is present, not null, and not an empty text or list. -/
def meaningfulEvidence : Option Json → Bool
  | none => false
  | some .null => false
  | some (.string value) => value != ""
  | some (.array items) => !items.isEmpty
  | some _ => true

structure EvidenceSchema where
  required : List ErrorField
  requiredAny : List (List ErrorField)
  allowed : List ErrorField

/-- Evidence that an operation was applied may accompany every error. -/
def evidenceSchema (required optional : List ErrorField) (requiredAny : List (List ErrorField)) :
    EvidenceSchema :=
  { required, requiredAny,
    allowed := .operationApplied :: (required ++ optional ++ requiredAny.flatten) }

def EvidenceSchema.allows (schema : EvidenceSchema) (name : String) : Bool :=
  schema.allowed.any fun f => f.name == name

def baseFields : List ErrorField := [.code, .message, .retry, .safeActions]

/-- The errors of an inspection; the first three name the member. -/
structure EvidenceTexts (ε : Type) where
  irrelevant : String → ε
  absent : String → ε
  required : String → ε
  alternatives : ε
  applied : ε

section

variable {ε : Type} (texts : EvidenceTexts ε) (schema : EvidenceSchema) (object : Members)

def inspectMember (member : String × Json) : Except ε Unit :=
  if baseFields.any fun f => f.name == member.1 then .ok ()
  else if ¬ schema.allows member.1 then .error (texts.irrelevant member.1)
  else if ¬ meaningfulEvidence (some member.2) then .error (texts.absent member.1)
  else .ok ()

def inspectRequired (f : ErrorField) : Except ε Unit :=
  if ¬ meaningfulEvidence (object.lookup f.name) then .error (texts.required f.name) else .ok ()

def inspectGroup (alternatives : List ErrorField) : Except ε Unit :=
  if ¬ alternatives.any fun f => meaningfulEvidence (object.lookup f.name) then
    .error texts.alternatives
  else .ok ()

def inspectApplied : Except ε Unit :=
  match object.lookup ErrorField.operationApplied.name with
  | none => .ok ()
  | some (.bool true) => .ok ()
  | some _ => .error texts.applied

/-- The inspection of the members both codecs make, in their order. -/
def inspectEvidence : Except ε Unit :=
  andThen (checkAll (inspectMember texts schema) object) <|
  andThen (checkAll (inspectRequired texts object) schema.required) <|
  andThen (checkAll (inspectGroup texts object) schema.requiredAny) <|
  inspectApplied texts object

/-- The members an error of this schema may have. -/
structure EvidenceSchema.Admits : Prop where
  relevant : ∀ member ∈ object, (∃ f ∈ baseFields, f.name = member.1) ∨
    (∃ f ∈ schema.allowed, f.name = member.1) ∧ meaningfulEvidence (some member.2)
  required : ∀ f ∈ schema.required, meaningfulEvidence (object.lookup f.name)
  alternatives : ∀ group ∈ schema.requiredAny,
    ∃ f ∈ group, meaningfulEvidence (object.lookup f.name)
  applied : ∀ value, object.lookup ErrorField.operationApplied.name = some value →
    value = .bool true

variable {texts schema object}

theorem inspectMember_eq_ok {member : String × Json} :
    inspectMember texts schema member = .ok () ↔ (∃ f ∈ baseFields, f.name = member.1) ∨
      (∃ f ∈ schema.allowed, f.name = member.1) ∧ meaningfulEvidence (some member.2) := by
  have hbase : (baseFields.any fun f => f.name == member.1) = true ↔
      ∃ f ∈ baseFields, f.name = member.1 := by
    simp only [List.any_eq_true, beq_iff_eq]
  have hallows : schema.allows member.1 = true ↔ ∃ f ∈ schema.allowed, f.name = member.1 := by
    simp only [EvidenceSchema.allows, List.any_eq_true, beq_iff_eq]
  rw [inspectMember]
  by_cases h : ∃ f ∈ baseFields, f.name = member.1
  · simp only [hbase.mpr h, if_true, h, true_or]
  · rw [if_neg (mt hbase.mp h), ite_error_eq_ok, ite_error_eq_ok, not_not, not_not, hallows]
    simp only [h, false_or, and_true]

theorem inspectApplied_eq_ok : inspectApplied texts object = .ok () ↔
    ∀ value, object.lookup ErrorField.operationApplied.name = some value → value = .bool true := by
  rw [inspectApplied]
  cases object.lookup ErrorField.operationApplied.name with
  | none => simp
  | some value =>
    cases value with
    | bool flag => cases flag <;> simp
    | null | number | string | array | object => simp

theorem inspectEvidence_eq_ok :
    inspectEvidence texts schema object = .ok () ↔ schema.Admits object := by
  rw [inspectEvidence, andThen_eq_ok, andThen_eq_ok, andThen_eq_ok, checkAll_eq_ok,
    checkAll_eq_ok, checkAll_eq_ok, inspectApplied_eq_ok]
  have hrequired : ∀ f, inspectRequired texts object f = .ok () ↔
      meaningfulEvidence (object.lookup f.name) = true := by
    intro f
    rw [inspectRequired, ite_error_eq_ok, not_not]
    exact and_iff_left rfl
  have hgroup : ∀ group, inspectGroup texts object group = .ok () ↔
      ∃ f ∈ group, meaningfulEvidence (object.lookup f.name) = true := by
    intro group
    rw [inspectGroup, ite_error_eq_ok, not_not, List.any_eq_true]
    exact and_iff_left rfl
  constructor
  · rintro ⟨hmembers, hneeded, hgroups, happlied⟩
    exact ⟨fun member hmember => inspectMember_eq_ok.mp (hmembers member hmember),
      fun f hf => (hrequired f).mp (hneeded f hf),
      fun group hmem => (hgroup group).mp (hgroups group hmem), happlied⟩
  · rintro ⟨hmembers, hneeded, hgroups, happlied⟩
    exact ⟨fun member hmember => inspectMember_eq_ok.mpr (hmembers member hmember),
      fun f hf => (hrequired f).mpr (hneeded f hf),
      fun group hmem => (hgroup group).mpr (hgroups group hmem), happlied⟩

end

/-- Members that a schema admits carry exact names of fields. -/
theorem EvidenceSchema.Admits.exact {schema : EvidenceSchema} {object : Members}
    (h : schema.Admits object) :
    ∀ name ∈ object.map Prod.fst, ∃ f : ErrorField, f.name = name := by
  intro name hname
  obtain ⟨member, hmember, rfl⟩ := List.mem_map.mp hname
  rcases h.relevant member hmember with ⟨f, _, hf⟩ | ⟨⟨f, _, hf⟩, _⟩
  · exact ⟨f, hf⟩
  · exact ⟨f, hf⟩

/-- Evidence outside the base fields is meaningful as soon as it is there. -/
theorem EvidenceSchema.Admits.meaningful_iff {schema : EvidenceSchema} {object : Members}
    (h : schema.Admits object) {f : ErrorField} (hbase : f ∉ baseFields) :
    meaningfulEvidence (object.lookup f.name) = (object.lookup f.name).isSome := by
  cases hlookup : object.lookup f.name with
  | none => rfl
  | some value =>
    obtain ⟨before, after, hobject, _⟩ := List.lookup_eq_some_iff.mp hlookup
    have hmember : (f.name, value) ∈ object := by simp [hobject]
    rcases h.relevant _ hmember with ⟨g, hg, hname⟩ | ⟨_, hmeaningful⟩
    · have hsame : g = f := ErrorField.name_injective hname
      exact absurd (hsame ▸ hg) hbase
    · exact hmeaningful

/-! ### The schema of a code -/

def evidenceOf : ErrorCode → EvidenceSchema
  | .invalidRequest => evidenceSchema [.reason] [] [[.field, .path]]
  | .unsupportedVersion => evidenceSchema [.receivedVersion, .supportedVersions] [] []
  | .frameTooLarge => evidenceSchema [.receivedBytes, .maximumBytes] [] []
  | .keyTooLarge | .valueTooLarge => evidenceSchema [.receivedBytes, .maximumBytes] [.field] []
  | .batchTooLarge =>
    evidenceSchema [] [.receivedOperations, .maximumOperations, .receivedBytes, .maximumBytes]
      []
  | .duplicateKey => evidenceSchema [.key] [.mutationIndex] [[.mutationIndexes, .assertionIndex]]
  | .expiryNotFuture => evidenceSchema [.suppliedExpiry, .effectiveTime] [] []
  | .invalidCursor => evidenceSchema [.reason] [] []
  | .notFound => evidenceSchema [.key, .currentRevision] [] []
  | .alreadyExists => evidenceSchema [.key, .actualRevision] [] []
  | .revisionMismatch => evidenceSchema [.key, .expectedRevision, .actualRevision] [] []
  | .conditionFailed =>
    evidenceSchema [.key, .condition] [.expectedRevision] [[.mutationIndex, .assertionIndex],
      [.actualState, .actualRevision]]
  | .scanStale => evidenceSchema [.cursorRevision, .currentRevision] [] []
  | .revisionAhead => evidenceSchema [.requestedRevision, .currentRevision] [] []
  | .revisionCompacted => evidenceSchema [.requestedRevision, .earliestAvailableRevision] [] []
  | .watchLagged => evidenceSchema [.lastDeliveredRevision, .currentRevision] [] []
  | .ownerExists => evidenceSchema [.path] [] []
  | .serverBusy => evidenceSchema [.activeClients, .maximumClients, .queueDepth] [] []
  | .serverShuttingDown => evidenceSchema [.lifecycle] [] []
  | .deadlineExceeded => evidenceSchema [.operation, .deadline] [.operationApplied] []
  | .serverUnavailable => evidenceSchema [.socketPath, .connectionReason] [] []
  | .permissionDenied => evidenceSchema [.path, .operation] [] []
  | .storageDegraded =>
    evidenceSchema [.failedStage, .currentRevision, .durableThroughRevision] [] []
  | .corruptIdentity => evidenceSchema [.file] [.expectedDatabaseId] [[.offset, .reason]]
  | .corruptManifest => evidenceSchema [.file, .reason] [] []
  | .corruptSnapshot => evidenceSchema [.file, .offset, .reason] [] []
  | .corruptWAL => evidenceSchema [.file, .offset, .reason] [.actualRevision] []
  | .unknownFormat => evidenceSchema [.file, .receivedVersion, .supportedVersions] [] []
  | .databaseIDMismatch =>
    evidenceSchema [.expectedDatabaseId, .actualDatabaseId] [] [[.file, .operation]]
  | .revisionRangeExhausted => evidenceSchema [.reservedRevisionEnd, .reason] [] []
  | .ioError => evidenceSchema [.operation, .path, .osErrorCategory] [.operationApplied] []
  | .adminPreconditionFailed =>
    evidenceSchema [] [.expectedDatabaseId, .actualDatabaseId, .expectedRevision,
      .actualRevision, .expectedManifestGeneration, .actualManifestGeneration] []
  | .snapshotInProgress => evidenceSchema [.operationId, .startedAt] [] []
  | .compactionNotSafe => evidenceSchema [.throughRevision, .activeSnapshotRevision] [] []
  | .backupDestinationExists => evidenceSchema [.destination] [] []
  | .backupInvalid => evidenceSchema [.backupPath] [] [[.file, .reason]]
  | .recoveryRequired => evidenceSchema [.detectedCorruption, .proposalAvailable] [] []
  | .recoveryActionMismatch =>
    evidenceSchema [.expectedDatabaseId, .actualDatabaseId, .expectedManifestGeneration,
      .actualManifestGeneration, .proposalId] [] []
  | .auditFailedAfterApply =>
    evidenceSchema [.operation, .reason, .currentRevision, .operationApplied] [] []
  | .internal => evidenceSchema [.correlationId] [.lifecycle, .reason, .operationApplied] []

/-- `errorSchema`. -/
def errorSchema (code : String) : Option EvidenceSchema := (ErrorCode.ofText code).map evidenceOf

/-! ### Alternatives -/

def evidencePair (object : Members) (left right : ErrorField) : Bool :=
  meaningfulEvidence (object.lookup left.name) && meaningfulEvidence (object.lookup right.name)

def rawStringValue : Option Json → String
  | some (.string value) => value
  | _ => ""

/-- `Unmarshal` of a member into a revision. -/
def rawRevision : Option Json → Option Nat
  | none => none
  | some value => Json.decodeUint 0 value

def validateAlternativeEvidence (code : String) (object : Members) : Except Error Unit :=
  match ErrorCode.ofText code with
  | some .batchTooLarge =>
    if ¬ evidencePair object .receivedOperations .maximumOperations ∧
        ¬ evidencePair object .receivedBytes .maximumBytes then
      .error (invalidProtocol "error" "batch evidence must provide an operations or bytes pair")
    else .ok ()
  | some .adminPreconditionFailed =>
    if ¬ evidencePair object .expectedDatabaseId .actualDatabaseId ∧
        ¬ evidencePair object .expectedRevision .actualRevision ∧
        ¬ evidencePair object .expectedManifestGeneration .actualManifestGeneration then
      .error (invalidProtocol "error"
        "admin evidence must provide one complete expected/actual pair")
    else .ok ()
  | some .conditionFailed =>
    let mutation := meaningfulEvidence (object.lookup ErrorField.mutationIndex.name)
    let assertion := meaningfulEvidence (object.lookup ErrorField.assertionIndex.name)
    if mutation = assertion then
      .error (invalidProtocol "error"
        "condition evidence must identify exactly one mutation or assertion")
    else if assertion then
      match ConditionKind.ofText (rawStringValue (object.lookup ErrorField.condition.name)) with
      | .absent =>
        if (object.lookup ErrorField.expectedRevision.name).isSome then
          .error (invalidProtocol "error.expected_revision"
            "must be omitted for an absent assertion")
        else .ok ()
      | .revision =>
        let expected := rawRevision (object.lookup ErrorField.expectedRevision.name)
        if expected = none ∨ expected = some 0 then
          .error (invalidProtocol "error.expected_revision" "must be a positive revision")
        else .ok ()
      | _ =>
        .error (invalidProtocol "error.condition" "must be absent or revision for an assertion")
    else .ok ()
  | _ => .ok ()

/-! ### The validator of the server -/

def boundedAssertionDiagnosticKey (key : Key) : Key :=
  if key.length ≤ maxAssertionDiagnosticKeyBytes then key
  else key.take (validPrefixEnd key maxAssertionDiagnosticKeyBytes)

def equalSafeActions (got want : List String) : Bool :=
  got.length == want.length && (got.zip want).all fun pair => pair.1 == pair.2

theorem equalSafeActions_iff {got want : List String} :
    equalSafeActions got want = true ↔ got = want := by
  induction got generalizing want with
  | nil => cases want <;> simp [equalSafeActions]
  | cons action got ih =>
    cases want with
    | nil => simp [equalSafeActions]
    | cons other want =>
      have hrest : equalSafeActions got want = true ↔ got = want := ih
      simp only [equalSafeActions, Bool.and_eq_true, beq_iff_eq, List.length_cons,
        List.zip_cons_cons, List.all_cons, List.cons.injEq, Nat.add_right_cancel_iff] at hrest ⊢
      rw [← hrest]
      exact and_left_comm

def definitionOf (code : String) : Option ErrorDefinition :=
  errorDefinitions.find? fun definition => definition.code.text == code

def structuredErrorTexts : EvidenceTexts Error :=
  { irrelevant := fun name =>
      invalidProtocol ("error." ++ name) "is not relevant to this error code"
    absent := fun name =>
      invalidProtocol ("error." ++ name) "must be omitted when evidence is absent"
    required := fun name => invalidProtocol ("error." ++ name) "is required for this error code"
    alternatives := invalidProtocol "error" "is missing required code-specific evidence"
    applied := invalidProtocol "error.operation_applied" "must be true when present" }

def validateStructuredError (go : GoLibrary) (value : WireError) (raw : Bytes) :
    Except Error Unit :=
  if value.message = "" then .error (invalidProtocol "error.message" "must not be empty")
  else
    match definitionOf value.code with
    | none => .error (invalidProtocol "error.code" "is not a protocol v1 error code")
    | some definition =>
      if definition.retry.text ≠ value.retry then
        .error (invalidProtocol "error.retry" "does not match the stable code")
      else if ∃ index ∈ value.assertionIndex, index < 0 then
        .error (invalidProtocol "error.assertion_index" "must not be negative")
      else if value.assertionIndex.isSome ∧ (maxAssertionDiagnosticBytes ≤ raw.length ∨
          value.key ≠ boundedAssertionDiagnosticKey value.key) then
        .error (invalidProtocol "error" "assertion diagnostic exceeds its safe bound")
      else if ¬ equalSafeActions value.safeActions (definition.safeActions.map SafeAction.text) then
        .error (invalidProtocol "error.safe_actions"
          "must exactly match the stable code-specific actions")
      else
        match go.unmarshalObject raw with
        | .error _ => .error (invalidProtocol "error" "could not inspect evidence")
        | .ok object =>
          match errorSchema value.code with
          | none => .error (invalidProtocol "error.code" "has no evidence schema")
          | some schema =>
            andThen (inspectEvidence structuredErrorTexts schema object)
              (validateAlternativeEvidence value.code object)

/-- The error of a response as the server's codec takes it: strict decoding and validation. -/
def decodeStructuredError (go : GoLibrary) (raw : Bytes) : Except Error WireError :=
  checkDecoded (fun reason => invalidProtocol "error" reason)
    (fun decoded => validateStructuredError go decoded raw) (decodeStrict go go.decodeError raw)

/-! ### What the validator accepts -/

/-- The error carries the classification of its code. -/
structure WireError.Classified (e : WireError) (definition : ErrorDefinition) : Prop where
  message : e.message ≠ ""
  defined : definitionOf e.code = some definition
  retry : definition.retry.text = e.retry
  safeActions : e.safeActions = definition.safeActions.map SafeAction.text

/-- A diagnostic about an assertion stays within its safe bound. -/
structure WireError.Bounded (e : WireError) (raw : Bytes) : Prop where
  index : ¬ ∃ index ∈ e.assertionIndex, index < 0
  size : ¬ (e.assertionIndex.isSome ∧
    (maxAssertionDiagnosticBytes ≤ raw.length ∨ e.key ≠ diagnosticKey e.key))

theorem validateStructuredError_eq_ok {go : GoLibrary} {e : WireError} {raw : Bytes} :
    validateStructuredError go e raw = .ok () ↔ (∃ definition, e.Classified definition) ∧
      e.Bounded raw ∧ ∃ object schema, go.unmarshalObject raw = .ok object ∧
        errorSchema e.code = some schema ∧ schema.Admits object ∧
        validateAlternativeEvidence e.code object = .ok () := by
  have hkey : boundedAssertionDiagnosticKey e.key = diagnosticKey e.key := rfl
  rw [validateStructuredError, ite_error_eq_ok]
  cases hdefinition : definitionOf e.code with
  | none =>
    constructor
    · rintro ⟨_, h⟩
      exact absurd h (by simp)
    · rintro ⟨⟨definition, hclassified⟩, _⟩
      exact absurd (hdefinition.symm.trans hclassified.defined) (by simp)
  | some definition =>
    simp only [ite_error_eq_ok, not_not, equalSafeActions_iff, hkey]
    constructor
    · rintro ⟨hmessage, hretry, hindex, hsize, hactions, h⟩
      refine ⟨⟨definition, hmessage, hdefinition, hretry, hactions⟩, ⟨hindex, hsize⟩, ?_⟩
      cases hobject : go.unmarshalObject raw with
      | error reason => simp [hobject] at h
      | ok object =>
        cases hschema : errorSchema e.code with
        | none => simp [hobject, hschema] at h
        | some schema =>
          simp only [hobject, hschema, andThen_eq_ok, inspectEvidence_eq_ok] at h
          exact ⟨object, schema, rfl, rfl, h⟩
    · rintro ⟨⟨other, hclassified⟩, hbounded, object, schema, hobject, hschema, h⟩
      have hsame : definition = other :=
        Option.some.inj (hdefinition.symm.trans hclassified.defined)
      subst hsame
      refine ⟨hclassified.message, hclassified.retry, hbounded.index, hbounded.size,
        hclassified.safeActions, ?_⟩
      simp only [hobject, hschema, andThen_eq_ok, inspectEvidence_eq_ok]
      exact h

end GapDB
