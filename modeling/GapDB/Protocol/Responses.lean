import GapDB.Protocol.Events
import GapDB.Protocol.Framing

/-!
# Responses on the wire

`EncodeResponse` and `DecodeResponse` of `internal/protocol/envelope.go`. The envelope and the error
in it are JSON records, and so is the event of a watch; what an operation puts into its result is a
JSON document, and what its check finds is a parameter of the codec, as are the parts of Go's
library.
-/

namespace GapDB

open Storelib

/-! ### Errors as JSON -/

def ErrorField.always : ErrorField → Bool
  | .code | .message | .retry | .safeActions => true
  | _ => false

/-- The members that `Marshal` writes for an error. -/
def WireError.members (e : WireError) : Members :=
  Json.encodeRecord ErrorField.name ErrorField.always ErrorField.all e

def WireError.json (e : WireError) : Json := .object e.members

def ConditionKind.text : ConditionKind → String
  | .any => "any"
  | .absent => "absent"
  | .revision => "revision"
  | .unknown => ""

def LifecycleState.text : LifecycleState → String
  | .ready => "ready"
  | .degradedReadOnly => "degraded_read_only"
  | .draining => "draining"
  | .inspectionOnly => "inspection_only"

def OSErrorCategory.text : OSErrorCategory → String
  | .other => "other"
  | .permission => "permission"
  | .notExist => "not_exist"
  | .alreadyExists => "already_exists"
  | .noSpace => "no_space"
  | .readOnly => "read_only"

/-- An error as a JSON record; `formatTime` writes its instants. -/
def Error.wire (formatTime : Time → String) (e : Error) : WireError := fun f =>
  match f with
  | .code => e.code.text
  | .message => e.message
  | .retry => e.retry.text
  | .field => e.field
  | .path => bytesText e.path
  | .reason => e.reason
  | .key => bytesText e.key
  | .operation => e.operation
  | .osErrorCategory => (e.osErrorCategory.map OSErrorCategory.text).getD ""
  | .expectedRevision => e.expectedRevision
  | .actualRevision => e.actualRevision
  | .currentRevision => e.currentRevision
  | .requestedRevision => e.requestedRevision
  | .cursorRevision => e.cursorRevision
  | .earliestAvailableRevision => e.earliestRevision
  | .lastDeliveredRevision => e.lastDeliveredRevision
  | .durableThroughRevision => e.durableThroughRevision
  | .reservedRevisionEnd => e.reservedRevisionEnd
  | .throughRevision => e.throughRevision
  | .activeSnapshotRevision => e.activeSnapshotRevision
  | .mutationIndex => e.mutationIndex.map Int.ofNat
  | .mutationIndexes => e.mutationIndexes.map Int.ofNat
  | .assertionIndex => e.assertionIndex.map Int.ofNat
  | .receivedVersion => e.receivedVersion
  | .supportedVersions => e.supportedVersions
  | .offset => e.offset.map Int.ofNat
  | .activeClients => e.activeClients.map Int.ofNat
  | .maximumClients => e.maximumClients.map Int.ofNat
  | .queueDepth => e.queueDepth.map Int.ofNat
  | .receivedBytes => Int.ofNat e.receivedBytes
  | .maximumBytes => Int.ofNat e.maximumBytes
  | .receivedOperations => Int.ofNat e.receivedOperations
  | .maximumOperations => Int.ofNat e.maximumOperations
  | .expectedDatabaseId => bytesText e.expectedDatabaseID
  | .actualDatabaseId => bytesText e.actualDatabaseID
  | .condition => (e.condition.map ConditionKind.text).getD ""
  | .actualState => e.actualState
  | .lifecycle => (e.lifecycle.map LifecycleState.text).getD ""
  | .failedStage => e.failedStage
  | .file => bytesText e.file
  | .detectedCorruption => e.detectedCorruption
  | .proposalAvailable => e.proposalAvailable
  | .correlationId => e.correlationID
  | .suppliedExpiry => (e.suppliedExpiry.map formatTime).getD ""
  | .effectiveTime => (e.effectiveTime.map formatTime).getD ""
  | .operationApplied => e.operationApplied
  | .safeActions => e.safeActions.map SafeAction.text
  | f => f.kind.zero

/-- `boundedAssertionDiagnosticKey` on the key of an error about an assertion. -/
def WireError.bounded (e : WireError) : WireError :=
  if e.assertionIndex.isSome then
    Function.update e .key (bytesText (boundedAssertionDiagnosticKey e.key))
  else e

/-! ### Envelopes -/

inductive EnvelopeField where
  | schemaVersion | ok | requestID | databaseID | operation | result | stream
  | registrationRevision | event | reason | error
deriving DecidableEq, Repr

namespace EnvelopeField

def name : EnvelopeField → String
  | .schemaVersion => "schema_version"
  | .ok => "ok"
  | .requestID => "request_id"
  | .databaseID => "database_id"
  | .operation => "operation"
  | .result => "result"
  | .stream => "stream"
  | .registrationRevision => "registration_revision"
  | .event => "event"
  | .reason => "reason"
  | .error => "error"

def kind : EnvelopeField → Json.Kind
  | .schemaVersion | .registrationRevision => .uintPointer
  | .ok => .flagPointer
  | .requestID | .databaseID | .operation | .stream | .reason => .text
  | .result | .event | .error => .raw

def all : List EnvelopeField :=
  [.schemaVersion, .ok, .requestID, .databaseID, .operation, .result, .stream,
   .registrationRevision, .event, .reason, .error]

def always : EnvelopeField → Bool
  | .schemaVersion | .ok | .databaseID | .operation => true
  | _ => false

def ofName (name : String) : Option EnvelopeField := all.find? fun f => f.name == name

theorem ofName_name (f : EnvelopeField) : ofName f.name = some f := by
  cases f <;> decide

end EnvelopeField

abbrev Envelope := Json.Record EnvelopeField.kind

/-! ### Responses -/

/-- `SchemaVersion` of the protocol. -/
def protocolSchemaVersion : Nat := 1

def allOperations : List String :=
  ["get", "get_many", "read_recovery_snapshot", "put", "put_if_absent", "compare_and_swap",
   "delete_if_revision", "atomic_batch", "scan_prefix", "watch", "status", "health", "stats",
   "describe_config", "verify", "create_snapshot", "compact", "backup", "offline_inspect",
   "offline_verify", "offline_recover_propose", "offline_recover_apply"]

structure Response where
  schemaVersion : Nat
  ok : Bool
  requestID : String := ""
  databaseID : String
  operation : String
  /-- The JSON of the result. -/
  result : Option Json := none
  stream : String := ""
  registrationRevision : Nat := 0
  event : Option Json := none
  endReason : String := ""
  error : Option WireError := none

/-- Only the first frame of a watch has a registration revision. -/
def Response.registration (response : Response) : Option Nat :=
  if response.stream = "started" then some response.registrationRevision else none

/-- The envelope that is written for a response. -/
def Response.envelope (response : Response) : Envelope := fun f =>
  match f with
  | .schemaVersion => some response.schemaVersion
  | .ok => some response.ok
  | .requestID => response.requestID
  | .databaseID => response.databaseID
  | .operation => response.operation
  | .result => response.result
  | .stream => response.stream
  | .registrationRevision => response.registration
  | .event => response.event
  | .reason => response.endReason
  | .error => (response.error.map WireError.bounded).map WireError.json

def Response.document (response : Response) : Json :=
  .object (Json.encodeRecord EnvelopeField.name EnvelopeField.always EnvelopeField.all
    response.envelope)

/-- What `decodeResult` finds wrong with a result: a field of it, or a record in it. -/
inductive ResultFault where
  | field (field reason : String)
  | record (record : WireRecord)

/-- What the codec takes from Go's library, and what it finds wrong with an operation's result. -/
structure ResponseLibrary extends EventLibrary where
  foldEnvelopeName : String → Option EnvelopeField
  envelopeMismatch : Option EnvelopeField → Json → String
  resultFault : String → Int → Json → Option ResultFault

def unsupportedVersion (received : Nat) : Error :=
  { code := .unsupportedVersion, message := "Protocol version is not supported.", retry := .never,
    receivedVersion := some received, supportedVersions := [protocolSchemaVersion],
    safeActions := [.useSupportedVersion, .upgradeClient, .abort] }

def byteLength (s : String) : Nat := (utf8 s.toList).length

def isNull : Json → Bool
  | .null => true
  | _ => false

section

variable (go : ResponseLibrary)

def decodeEnvelopeFields : Json → Except String Envelope
  | .object members =>
    Json.decodeFields EnvelopeField.kind
      (fun name => (EnvelopeField.ofName name).or (go.foldEnvelopeName name))
      (fun name => "json: unknown field " ++ go.quote name)
      (fun f value => go.envelopeMismatch (some f) value)
      (Json.Record.zero EnvelopeField.kind) members
  | .null => .ok (Json.Record.zero EnvelopeField.kind)
  | value => .error (go.envelopeMismatch none value)

/-- Every fault is an invalid request, except that what `public` says of a record is passed on. -/
def decodeResult (operation : String) (maximum : Int) (raw : Json) : Except Error Unit :=
  match go.resultFault operation maximum raw with
  | none => .ok ()
  | some (.field field reason) => .error (invalidProtocol field reason)
  | some (.record record) => record.publicRecord.map fun _ => ()

/-- A member that is there and not `null`. -/
def presentMember (members : Members) (f : EnvelopeField) : Bool :=
  (members.lookup f.name).any fun value => !isNull value

/-- The checks of the first fields; what is left are the fields. -/
def checkEnvelope (envelope : Envelope) : Except Error Bool :=
  let version : Option Nat := envelope .schemaVersion
  let ok : Option Bool := envelope .ok
  let requestID : String := envelope .requestID
  let databaseID : String := envelope .databaseID
  let operation : String := envelope .operation
  match version with
  | none => .error (invalidProtocol "schema_version" "is required")
  | some version =>
    if version ≠ protocolSchemaVersion then .error (unsupportedVersion version)
    else
      match ok with
      | none => .error (invalidProtocol "ok" "is required")
      | some ok =>
        if 256 < byteLength requestID then
          .error (invalidProtocol "request_id" "must not exceed 256 bytes")
        else if databaseID = "" then .error (invalidProtocol "database_id" "is required")
        else if operation ∉ allOperations then
          .error (invalidProtocol "operation" "is not a protocol v1 operation")
        else .ok ok

/-- Which members go together, for a unary response and for a watch. -/
def checkPresence (operation : String) (ok : Bool) (members : Members) : Except Error Unit :=
  if operation ≠ "watch" then
    if presentMember members .stream ∨ presentMember members .registrationRevision ∨
        presentMember members .event ∨ presentMember members .reason then
      .error (invalidProtocol "stream" "watch fields are invalid for a unary response")
    else if ok ≠ presentMember members .result then
      .error (invalidProtocol "result"
        "must be present exactly for successful unary responses")
    else .ok ()
  else if presentMember members .result then
    .error (invalidProtocol "result" "must be omitted for watch")
  else .ok ()

/-- The error of a response: decoded, checked, and bounded where it is about an assertion. -/
def checkError (operation : String) (payloadBytes : Nat) : Option Json →
    Except Error (Option WireError)
  | none => .ok none
  | some document =>
    if isNull document then .ok none
    else
      match decodeStructuredError go.toGoLibrary document.text with
      | .error e => .error e
      | .ok decoded =>
        if decoded.assertionIndex.isSome ∧ operation ≠ "atomic_batch" then
          .error (invalidProtocol "error.assertion_index" "is valid only for atomic_batch")
        else if decoded.assertionIndex.isSome ∧ maxAssertionDiagnosticBytes ≤ payloadBytes then
          .error (invalidProtocol "error" "assertion diagnostic exceeds its safe bound")
        else .ok (some decoded)

/-- The fields of a frame of a watch. -/
def checkStream (operation stream reason : String) (ok hasError : Bool)
    (registrationRevision : Option Nat) (event : Option Json) : Except Error Unit :=
  if stream ≠ "" then
    if operation ≠ "watch" then .error (invalidProtocol "stream" "is valid only for watch")
    else if stream = "started" then
      if ¬ ok ∨ registrationRevision = none ∨ event.isSome ∨ reason ≠ "" ∨ hasError then
        .error (invalidProtocol "registration_revision" "is required for a started watch")
      else .ok ()
    else if stream = "event" then
      if ¬ ok ∨ registrationRevision ≠ none ∨ event.isNone ∨ reason ≠ "" ∨ hasError then
        .error (invalidProtocol "event" "is required for a watch event")
      else .ok ()
    else if stream = "ended" then
      if registrationRevision ≠ none ∨ event.isSome ∨
          (ok ∧ reason ≠ "client_closed" ∧ reason ≠ "server_shutdown") ∨
            (¬ ok ∧ reason ≠ "error") then
        .error (invalidProtocol "reason" "is required for a normal watch end")
      else .ok ()
    else .error (invalidProtocol "stream" "must be started, event, or ended")
  else if operation = "watch" then .error (invalidProtocol "stream" "is required for watch")
  else .ok ()

/-- A result or an event that is there passes its check. -/
def checkDocument {α : Type} (check : Json → Except Error α) : Option Json → Except Error Unit
  | none => .ok ()
  | some document => (check document).map fun _ => ()

/-- A raw member that holds an error. -/
def hasErrorMember (error : Option Json) : Bool := error.any fun value => !isNull value

/-- `revisionValue`. -/
def registrationRevisionOf (envelope : Envelope) : Nat :=
  let revision : Option Nat := envelope .registrationRevision
  revision.getD 0

def decodeResponse (payload : Bytes) (maximum : Int) : Except Error Response :=
  if maximum ≤ 0 ∨ hardMaxFrameBytes < maximum then
    .error (invalidProtocol "maximum_frame_bytes" "is outside the supported range")
  else if maximum < payload.length then .error (frameTooLarge payload.length maximum.toNat)
  else
    match decodeStrict go.toGoLibrary (decodeEnvelopeFields go) payload with
    | .error reason => .error (invalidProtocol "envelope" reason)
    | .ok envelope =>
      match checkEnvelope envelope with
      | .error e => .error e
      | .ok ok =>
        let operation : String := envelope .operation
        let error : Option Json := envelope .error
        if ok ∧ hasErrorMember error then
          .error (invalidProtocol "error" "must be omitted when ok is true")
        else if ¬ ok ∧ ¬ hasErrorMember error then
          .error (invalidProtocol "error" "is required when ok is false")
        else
          match go.unmarshalObject payload with
          | .error _ => .error (invalidProtocol "envelope" "could not inspect field presence")
          | .ok members =>
            match checkPresence operation ok members with
            | .error e => .error e
            | .ok () =>
              match checkError go operation payload.length error with
              | .error e => .error e
              | .ok decoded =>
                match checkDocument (decodeResult go operation maximum) (envelope .result) with
                | .error e => .error e
                | .ok () =>
                  match checkDocument (decodeEvent go.toEventLibrary) (envelope .event) with
                  | .error e => .error e
                  | .ok () =>
                    match checkStream operation (envelope .stream) (envelope .reason) ok
                        (hasErrorMember error) (envelope .registrationRevision)
                        (envelope .event) with
                    | .error e => .error e
                    | .ok () =>
                      .ok {
                        schemaVersion := protocolSchemaVersion, ok
                        requestID := envelope .requestID, databaseID := envelope .databaseID
                        operation, result := envelope .result, stream := envelope .stream
                        registrationRevision := registrationRevisionOf envelope
                        event := envelope .event, endReason := envelope .reason
                        error := decoded }

def encodeResponse (response : Response) : Except Error Bytes :=
  if response.schemaVersion ≠ protocolSchemaVersion then
    .error (unsupportedVersion response.schemaVersion)
  else if response.operation ∉ allOperations then
    .error (invalidProtocol "operation" "is not a protocol v1 operation")
  else if 256 < byteLength response.requestID then
    .error (invalidProtocol "request_id" "must not exceed 256 bytes")
  else if response.error.isSome ∧ response.ok then
    .error (invalidProtocol "ok" "cannot be true when error is present")
  else if response.error.isNone ∧ ¬ response.ok then
    .error (invalidProtocol "error" "is required when ok is false")
  else
    let payload := response.document.text
    if hardMaxFrameBytes < payload.length then
      .error (frameTooLarge payload.length hardMaxFrameBytes.toNat)
    else if (response.error.bind WireError.assertionIndex).isSome ∧
        maxAssertionDiagnosticBytes ≤ payload.length then
      .error (invalidProtocol "error" "assertion diagnostic exceeds its safe bound")
    else
      match decodeResponse go payload hardMaxFrameBytes with
      | .error e => .error e
      | .ok _ => .ok payload

end

/-! ### Errors that are written and read -/

/-- A value of each field that Go's types can hold. -/
def WireError.InRange (e : WireError) : Prop := ∀ f, Json.InRange 1 (ErrorField.kind f) (e f)

theorem ErrorField.all_nodup : ErrorField.all.Nodup := by decide +kernel

theorem ErrorField.names_nodup : (ErrorField.all.map ErrorField.name).Nodup :=
  ErrorField.all_nodup.map fun _ _ h => ErrorField.name_injective h

theorem ErrorField.kind_ne_raw (f : ErrorField) : f.kind ≠ .raw := by
  cases f <;> simp [ErrorField.kind]

section

variable {go : GoLibrary} {e : WireError}

theorem WireError.json_readable (h : e.InRange) : e.json.Readable 2 :=
  Json.encodeRecord_readable le_rfl h

theorem WireError.firstDuplicate_json (e : WireError) : e.json.firstDuplicate = none :=
  Json.firstDuplicate_encodeRecord ErrorField.names_nodup fun f _ =>
    Json.firstDuplicate_encodeValue (ErrorField.kind_ne_raw f) _

theorem decodeError_json (h : e.InRange) : go.decodeError e.json = .ok e := by
  show Json.decodeFields ErrorField.kind go.findField _ _ (Json.Record.zero ErrorField.kind)
    (Json.encodeRecord ErrorField.name ErrorField.always ErrorField.all e) = .ok e
  refine Json.decodeFields_encodeRecord ?_ ?_ h ErrorField.all_nodup (fun _ _ => rfl) ?_
  · intro f
    rw [GoLibrary.findField, ErrorField.ofName_name]
  · exact fun f hf => absurd hf (ErrorField.kind_ne_raw f)
  · exact fun f hf => absurd (ErrorField.mem_all f) hf

theorem decodeStrict_json (hgo : go.Inverts) (h : e.InRange) :
    decodeStrict go go.decodeError e.json.text = .ok e :=
  (decodeStrict_text hgo ((WireError.json_readable h).mono (by decide))
    (WireError.firstDuplicate_json e)).trans (decodeError_json h)

theorem unmarshalObject_json (hgo : go.Inverts) (h : e.InRange) :
    go.unmarshalObject e.json.text = .ok e.members := by
  rw [GoLibrary.unmarshalObject, hgo e.json ((WireError.json_readable h).mono (by decide))]
  rfl

/-- An error that is classified and bounded and has the evidence of its code is accepted as it was
written. -/
theorem decodeStructuredError_json (hgo : go.Inverts) (h : e.InRange) {definition : ErrorDefinition}
    (hclassified : e.Classified definition) (hbounded : e.Bounded e.json.text)
    {schema : EvidenceSchema} (hschema : errorSchema e.code = some schema)
    (hadmits : schema.Admits e.members)
    (halternatives : validateAlternativeEvidence e.code e.members = .ok ()) :
    decodeStructuredError go e.json.text = .ok e := by
  rw [decodeStructuredError, checkDecoded_eq_ok, validateStructuredError_eq_ok]
  exact ⟨decodeStrict_json hgo h, ⟨definition, hclassified⟩, hbounded, e.members, schema,
    unmarshalObject_json hgo h, hschema, hadmits, halternatives⟩

/-- What is written of a field is found under its name. -/
theorem lookup_members (e : WireError) (f : ErrorField) :
    e.members.lookup f.name
      = if Json.isEmpty f.kind (e f) ∧ ¬ f.always then none
        else some (Json.encodeValue f.kind (e f)) :=
  Json.lookup_encodeRecord (fun _ _ h => ErrorField.name_injective h) f ErrorField.all_nodup
    (ErrorField.mem_all f)

end

/-! ### Envelopes that are written and read -/

/-- The response holds values of Go's types. -/
structure Response.Encodable (response : Response) : Prop where
  version : response.schemaVersion < 2 ^ 64
  registration : response.registrationRevision < 2 ^ 64
  result : ∀ document ∈ response.result, document.Readable 9999
  event : ∀ document ∈ response.event, document.Readable 9999
  error : ∀ e ∈ response.error, WireError.InRange e

theorem WireError.InRange.bounded {e : WireError} (h : e.InRange) : e.bounded.InRange := by
  unfold WireError.bounded
  split
  · intro f
    by_cases hf : f = .key
    · subst hf
      exact trivial
    · exact (congrArg (Json.InRange 1 f.kind) (Function.update_of_ne hf _ e)).mpr (h f)
  · exact h

section

variable {go : ResponseLibrary} {response : Response}

theorem Response.Encodable.inRange (h : response.Encodable) (f : EnvelopeField) :
    Json.InRange 9999 f.kind (response.envelope f) := by
  cases f with
  | schemaVersion =>
    intro n hn
    obtain rfl := Option.some.inj hn
    exact h.version
  | registrationRevision =>
    intro n hn
    have hpointer : response.registration = some n := hn
    rw [Response.registration] at hpointer
    split at hpointer
    · obtain rfl := Option.some.inj hpointer
      exact h.registration
    · cases hpointer
  | result => exact h.result
  | event => exact h.event
  | error =>
    intro document hdocument
    obtain ⟨e, he, rfl⟩ := Option.map_eq_some_iff.mp hdocument
    obtain ⟨original, horiginal, rfl⟩ := Option.map_eq_some_iff.mp he
    exact (WireError.json_readable (h.error original horiginal).bounded).mono (by decide)
  | ok | requestID | databaseID | operation | stream | reason => exact trivial

theorem Response.Encodable.readable (h : response.Encodable) :
    response.document.Readable maxNestingDepth :=
  Json.encodeRecord_readable (by decide) h.inRange

/-- The fields of an envelope are read back as they were written. -/
theorem decodeEnvelopeFields_document (h : response.Encodable) :
    decodeEnvelopeFields go response.document = .ok response.envelope := by
  refine Json.decodeFields_encodeRecord ?_ ?_ h.inRange (by decide) (fun _ _ => rfl) ?_
  · intro f
    rw [EnvelopeField.ofName_name]
    rfl
  · intro f hf
    cases f <;> simp [EnvelopeField.kind] at hf <;> rfl
  · intro f hf
    exact absurd (by cases f <;> decide) hf

/-- An envelope in which no name is repeated is read back. -/
theorem decodeEnvelope_document (hgo : go.Inverts) (h : response.Encodable)
    (hdistinct : response.document.firstDuplicate = none) :
    decodeStrict go.toGoLibrary (decodeEnvelopeFields go) response.document.text
      = .ok response.envelope :=
  (decodeStrict_text hgo h.readable hdistinct).trans (decodeEnvelopeFields_document h)

/-- The members of an envelope. -/
def Response.members (response : Response) : Members :=
  Json.encodeRecord EnvelopeField.name EnvelopeField.always EnvelopeField.all response.envelope

theorem EnvelopeField.name_injective : Function.Injective EnvelopeField.name := by
  intro f g h
  have hg := EnvelopeField.ofName_name g
  rw [← h, EnvelopeField.ofName_name f] at hg
  exact Option.some.inj hg

theorem Response.lookup_members (response : Response) (f : EnvelopeField) :
    response.members.lookup f.name
      = if Json.isEmpty f.kind (response.envelope f) ∧ ¬ f.always then none
        else some (Json.encodeValue f.kind (response.envelope f)) :=
  Json.lookup_encodeRecord EnvelopeField.name_injective f (by decide) (by cases f <;> decide)

theorem unmarshalObject_document (hgo : go.Inverts) (h : response.Encodable) :
    go.unmarshalObject response.document.text
      = .ok response.members := by
  rw [GoLibrary.unmarshalObject, hgo _ h.readable]
  rfl

end

/-! ### What the codec makes of a response -/

section

variable {go : ResponseLibrary} {response : Response} {maximum : Int} {payload : Bytes}

theorem checkEnvelope_eq_ok {envelope : Envelope} {ok : Bool}
    (h : checkEnvelope envelope = .ok ok) : envelope .ok = some ok := by
  simp only [checkEnvelope] at h
  split at h
  · cases h
  · rw [ite_error_eq_ok] at h
    have h := h.2
    split at h
    · cases h
    · next hok =>
      simp only [ite_error_eq_ok] at h
      rw [hok, Except.ok.inj h.2.2.2]

/-- An error that is accepted is the error that was written. -/
theorem checkError_eq_ok (hgo : go.Inverts) (h : response.Encodable) {operation : String}
    {payloadBytes : Nat} {decoded : Option WireError}
    (hdecoded : checkError go operation payloadBytes (response.envelope .error) = .ok decoded) :
    decoded = response.error.map WireError.bounded := by
  have henvelope : response.envelope .error
      = (response.error.map WireError.bounded).map WireError.json := rfl
  rw [henvelope] at hdecoded
  cases herror : response.error with
  | none =>
    rw [herror] at hdecoded
    exact (Except.ok.inj hdecoded).symm
  | some e =>
    rw [herror] at hdecoded
    simp only [Option.map_some, checkError, WireError.json, isNull, Bool.false_eq_true,
      if_false] at hdecoded
    split at hdecoded
    · cases hdecoded
    · next accepted haccepted =>
      simp only [ite_error_eq_ok] at hdecoded
      have hread := (checkDecoded_eq_ok.mp haccepted).1
      have hsame := decodeStrict_json hgo (h.error e herror).bounded
      rw [WireError.json, hread] at hsame
      rw [← Except.ok.inj hdecoded.2.2, Except.ok.inj hsame]
      rfl

/-- What is decoded from a written response is that response. -/
theorem decodeResponse_document (hgo : go.Inverts) (h : response.Encodable) {decoded : Response}
    (hdecoded : decodeResponse go response.document.text maximum = .ok decoded) :
    decoded = { response with
        schemaVersion := protocolSchemaVersion
        registrationRevision := response.registration.getD 0
        error := response.error.map WireError.bounded } ∧
      checkStream response.operation response.stream response.endReason response.ok
        (hasErrorMember (response.envelope .error)) response.registration response.event
          = .ok () := by
  rw [decodeResponse, ite_error_eq_ok, ite_error_eq_ok] at hdecoded
  have hdecoded := hdecoded.2.2
  split at hdecoded
  · cases hdecoded
  next envelope henvelope =>
  obtain ⟨_, _, hdistinct⟩ := decodeStrict_eq_ok.mp henvelope
  rw [decodeDistinct_text hgo h.readable] at hdistinct
  split at hdistinct
  · cases hdistinct
  rw [decodeEnvelopeFields_document h] at hdistinct
  obtain rfl := Except.ok.inj hdistinct
  split at hdecoded
  · cases hdecoded
  next ok hok =>
  simp only [ite_error_eq_ok] at hdecoded
  have hdecoded := hdecoded.2.2
  split at hdecoded
  · cases hdecoded
  split at hdecoded
  · cases hdecoded
  split at hdecoded
  · cases hdecoded
  next error herror =>
  split at hdecoded
  · cases hdecoded
  split at hdecoded
  · cases hdecoded
  split at hdecoded
  · cases hdecoded
  next hstream =>
  obtain rfl := Except.ok.inj hdecoded
  have hflag : some response.ok = some ok := checkEnvelope_eq_ok hok
  obtain rfl := Option.some.inj hflag
  rw [checkError_eq_ok hgo h herror]
  exact ⟨rfl, hstream⟩

/-- The checks that every response passes before its size is looked at. -/
structure Response.Presentable (response : Response) : Prop where
  version : response.schemaVersion = protocolSchemaVersion
  operation : response.operation ∈ allOperations
  requestID : byteLength response.requestID ≤ 256

theorem encodeResponse_eq_ok (h : encodeResponse go response = .ok payload) :
    response.Presentable ∧ payload = response.document.text ∧
      ∃ decoded, decodeResponse go payload hardMaxFrameBytes = .ok decoded := by
  simp only [encodeResponse, ite_error_eq_ok] at h
  obtain ⟨hversion, hoperation, hid, _, _, _, _, h⟩ := h
  split at h
  · cases h
  · next decoded hdecoded =>
    obtain rfl := Except.ok.inj h
    exact ⟨⟨not_not.mp hversion, not_not.mp hoperation, not_lt.mp hid⟩, rfl, decoded, hdecoded⟩

/-- An error that is not about the size of a frame. -/
def NotOversize (e : Error) : Prop := e.code ≠ .frameTooLarge

theorem notOversize_invalidProtocol (field reason : String) :
    NotOversize (invalidProtocol field reason) := fun h => nomatch h

theorem failsOnly_invalidProtocol {α : Type} (field reason : String) :
    FailsOnly NotOversize (.error (invalidProtocol field reason) : Except Error α) :=
  .error (notOversize_invalidProtocol field reason)

theorem failsOnly_inspectEvidence (schema : EvidenceSchema) (object : Members) :
    FailsOnly NotOversize (inspectEvidence structuredErrorTexts schema object) := by
  refine .andThen (.checkAll (fun member => ?_) _) (.andThen (.checkAll (fun f => ?_) _)
    (.andThen (.checkAll (fun group => ?_) _) ?_))
  · exact .ite (.ok ()) (.guard (notOversize_invalidProtocol _ _)
      (.guard (notOversize_invalidProtocol _ _) (.ok ())))
  · exact .guard (notOversize_invalidProtocol _ _) (.ok ())
  · exact .guard (notOversize_invalidProtocol _ _) (.ok ())
  · unfold inspectApplied
    split
    · exact .ok ()
    · exact .ok ()
    · exact failsOnly_invalidProtocol _ _

theorem failsOnly_validateAlternativeEvidence (code : String) (object : Members) :
    FailsOnly NotOversize (validateAlternativeEvidence code object) := by
  unfold validateAlternativeEvidence
  split
  · exact .guard (notOversize_invalidProtocol _ _) (.ok ())
  · exact .guard (notOversize_invalidProtocol _ _) (.ok ())
  · refine .guard (notOversize_invalidProtocol _ _) (.ite ?_ (.ok ()))
    split
    · exact .guard (notOversize_invalidProtocol _ _) (.ok ())
    · exact .guard (notOversize_invalidProtocol _ _) (.ok ())
    · exact failsOnly_invalidProtocol _ _
  · exact .ok ()

theorem failsOnly_decodeStructuredError (library : GoLibrary) (raw : Bytes) :
    FailsOnly NotOversize (decodeStructuredError library raw) := by
  unfold decodeStructuredError checkDecoded
  split
  · exact failsOnly_invalidProtocol _ _
  refine .andThen ?_ (.ok _)
  refine .guard (notOversize_invalidProtocol _ _) ?_
  split
  · exact failsOnly_invalidProtocol _ _
  refine .guard (notOversize_invalidProtocol _ _) (.guard (notOversize_invalidProtocol _ _)
    (.guard (notOversize_invalidProtocol _ _) (.guard (notOversize_invalidProtocol _ _) ?_)))
  split
  · exact failsOnly_invalidProtocol _ _
  split
  · exact failsOnly_invalidProtocol _ _
  · exact (failsOnly_inspectEvidence _ _).andThen (failsOnly_validateAlternativeEvidence _ _)

theorem failsOnly_checkEnvelope (envelope : Envelope) :
    FailsOnly NotOversize (checkEnvelope envelope) := by
  simp only [checkEnvelope]
  split
  · exact failsOnly_invalidProtocol _ _
  next version _ =>
  have hversion : NotOversize (unsupportedVersion version) := fun h => nomatch h
  refine .guard hversion ?_
  split
  · exact failsOnly_invalidProtocol _ _
  split
  · exact failsOnly_invalidProtocol _ _
  split
  · exact failsOnly_invalidProtocol _ _
  split
  · exact failsOnly_invalidProtocol _ _
  · exact .ok _

theorem failsOnly_checkPresence (operation : String) (ok : Bool) (members : Members) :
    FailsOnly NotOversize (checkPresence operation ok members) :=
  .ite (.guard (notOversize_invalidProtocol _ _)
    (.guard (notOversize_invalidProtocol _ _) (.ok ())))
    (.guard (notOversize_invalidProtocol _ _) (.ok ()))

theorem failsOnly_checkError (operation : String) (payloadBytes : Nat) (error : Option Json) :
    FailsOnly NotOversize (checkError go operation payloadBytes error) := by
  unfold checkError
  split
  · exact .ok none
  refine .ite (.ok none) ?_
  split
  · next e he => exact .error (failsOnly_decodeStructuredError _ _ e he)
  · exact .guard (notOversize_invalidProtocol _ _)
      (.guard (notOversize_invalidProtocol _ _) (.ok _))

theorem failsOnly_checkStream (operation stream reason : String) (ok hasError : Bool)
    (registrationRevision : Option Nat) (event : Option Json) : FailsOnly NotOversize
      (checkStream operation stream reason ok hasError registrationRevision event) := by
  refine .ite (.guard (notOversize_invalidProtocol _ _) (.ite ?_ (.ite ?_ (.ite ?_ ?_))))
    (.guard (notOversize_invalidProtocol _ _) (.ok ()))
  · exact .guard (notOversize_invalidProtocol _ _) (.ok ())
  · exact .guard (notOversize_invalidProtocol _ _) (.ok ())
  · exact .guard (notOversize_invalidProtocol _ _) (.ok ())
  · exact failsOnly_invalidProtocol _ _

theorem failsOnly_publicRecord (record : WireRecord) :
    FailsOnly NotOversize record.publicRecord := by
  refine .andThen (.andThen ?_ (.andThen (.ok ()) ?_)) (.guard (notOversize_invalidProtocol _ _)
    (.ok _))
  · refine .guard (fun h => nomatch h) (.guard (fun h => nomatch h) (.guard ?_ (.ok ())))
    exact fun h => nomatch h
  · exact .guard (fun h => nomatch h) (.ok ())

theorem failsOnly_decodeResult (operation : String) (raw : Json) :
    FailsOnly NotOversize (decodeResult go operation maximum raw) := by
  unfold decodeResult
  split
  · exact .ok ()
  · exact failsOnly_invalidProtocol _ _
  · next record _ => exact (failsOnly_publicRecord record).map _

theorem failsOnly_decodeEvent (library : EventLibrary) (raw : Json) :
    FailsOnly NotOversize (decodeEvent library raw) := by
  unfold decodeEvent
  split
  · exact failsOnly_invalidProtocol _ _
  refine .guard (notOversize_invalidProtocol _ _) ?_
  split
  · split
    · exact failsOnly_invalidProtocol _ _
    next record _ =>
    split
    · next e he => exact .error (failsOnly_publicRecord record e he)
    · exact .guard (notOversize_invalidProtocol _ _) (.ok _)
  · exact .guard (notOversize_invalidProtocol _ _) (.ok _)
  · exact failsOnly_invalidProtocol _ _

theorem failsOnly_checkDocument {α : Type} {check : Json → Except Error α}
    (h : ∀ document, FailsOnly NotOversize (check document)) (document : Option Json) :
    FailsOnly NotOversize (checkDocument check document) := by
  cases document with
  | none => exact .ok ()
  | some document => exact (h document).map _

/-- The decoder reports the size of a frame only for the frame itself. -/
theorem failsOnly_decodeResponse (hfits : (payload.length : Int) ≤ maximum) :
    FailsOnly NotOversize (decodeResponse go payload maximum) := by
  simp only [decodeResponse]
  rw [if_neg (not_lt.mpr hfits)]
  refine .guard (notOversize_invalidProtocol _ _) ?_
  split
  · exact failsOnly_invalidProtocol _ _
  split
  · next e he => exact .error (failsOnly_checkEnvelope _ e he)
  refine .guard (notOversize_invalidProtocol _ _) (.guard (notOversize_invalidProtocol _ _) ?_)
  split
  · exact failsOnly_invalidProtocol _ _
  split
  · next e he => exact .error (failsOnly_checkPresence _ _ _ e he)
  split
  · next e he => exact .error (failsOnly_checkError _ _ _ e he)
  split
  · next e he =>
    exact .error (failsOnly_checkDocument (failsOnly_decodeResult _) _ e he)
  split
  · next e he => exact .error (failsOnly_checkDocument (failsOnly_decodeEvent _) _ e he)
  split
  · next e he => exact .error (failsOnly_checkStream _ _ _ _ _ _ _ e he)
  · exact .ok _

/-- A response that is refused for its size is larger than any frame may be. -/
theorem encodeResponse_oversize {e : Error} (h : encodeResponse go response = .error e)
    (hcode : e.code = .frameTooLarge) :
    response.Presentable ∧ hardMaxFrameBytes < response.document.text.length ∧
      e.receivedBytes = response.document.text.length := by
  have hother : ∀ {field reason : String}, Except.error (invalidProtocol field reason)
      = (.error e : Except Error Bytes) → False := by
    intro field reason herror
    exact failsOnly_invalidProtocol field reason e herror hcode
  simp only [encodeResponse] at h
  split at h
  · rw [← Except.error.inj h] at hcode
    cases hcode
  next hversion =>
  split at h
  · exact (hother h).elim
  next hoperation =>
  split at h
  · exact (hother h).elim
  next hid =>
  split at h
  · exact (hother h).elim
  split at h
  · exact (hother h).elim
  split at h
  · next hlarge =>
    rw [← Except.error.inj h]
    exact ⟨⟨not_not.mp hversion, not_not.mp hoperation, not_lt.mp hid⟩, hlarge, rfl⟩
  next hsmall =>
  split at h
  · exact (hother h).elim
  split at h
  · next other hdecode =>
    rw [← Except.error.inj h] at hcode
    exact (failsOnly_decodeResponse (not_lt.mp hsmall) other hdecode hcode).elim
  · cases h

end

end GapDB
