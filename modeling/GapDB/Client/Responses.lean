import GapDB.Protocol.Accepted
import GapDB.Client.RemoteErrors

/-!
# What the client accepts

`validateClientResponse` of `gapdb/client_codec.go`. The check of a result is a parameter; the
envelope, the presence of its members, the error and the event are checked as the source does.
-/

namespace GapDB

open Storelib

/-- The client's check of a result. -/
structure ClientChecks where
  validateClientResult : String → Option Json → Except String Unit

section

variable (go : ResponseLibrary) (checks : ClientChecks)

/-- The error of a response. -/
def clientCheckError (operation : String) (payloadBytes : Nat) (error : Option Json) :
    Except String Unit :=
  match decodeRemoteError go.toGoLibrary ((error.map Json.text).getD []) with
  | .error reason => .error reason
  | .ok remote =>
    if remote.assertionIndex.isSome ∧ operation ≠ "atomic_batch" then
      .error "assertion_index is invalid outside atomic_batch"
    else if remote.assertionIndex.isSome ∧ maxAssertionDiagnosticBytes ≤ payloadBytes then
      .error "assertion diagnostic exceeds its safe bound"
    else .ok ()

def clientCheckUnary (envelope : Envelope) (ok : Bool) (members : Members) : Except String Unit :=
  if presentMember members .stream ∨ presentMember members .registrationRevision ∨
      presentMember members .event ∨ presentMember members .reason then
    .error "watch fields are invalid for unary response"
  else if ok then
    if ¬ presentMember members .result then .error "successful unary result is required"
    else checks.validateClientResult (envelope .operation) (envelope .result)
  else if presentMember members .result then .error "failed unary result must be omitted"
  else .ok ()

def clientCheckWatch (stream reason : String) (registration : Option Nat) (event : Option Json)
    (ok hasResult hasEvent hasReason hasError : Bool) : Except String Unit :=
  if hasResult then .error "watch result must be omitted"
  else if stream = "started" then
    if ¬ ok ∨ registration = none ∨ hasEvent ∨ hasReason ∨ hasError then
      .error "invalid watch started frame"
    else .ok ()
  else if stream = "event" then
    if ¬ ok ∨ registration ≠ none ∨ ¬ hasEvent ∨ hasReason ∨ hasError then
      .error "invalid watch event frame"
    else validateClientEvent go.toEventLibrary ((event.map Json.text).getD [])
  else if stream = "ended" then
    if registration ≠ none ∨ hasEvent then .error "invalid watch ended frame"
    else if ok then
      if reason ≠ "client_closed" ∧ reason ≠ "server_shutdown" then
        .error "normal watch end reason is invalid"
      else .ok ()
    else if reason ≠ "error" then .error "error watch end reason is invalid"
    else .ok ()
  else .error "watch stream kind is invalid"

/-- The checks of an envelope whose version and first fields are there. -/
def clientCheckMembers (envelope : Envelope) (ok : Bool) (payloadBytes : Nat) (members : Members) :
    Except String Unit :=
  let operation : String := envelope .operation
  if ok = presentMember members .error then .error "response ok/error presence is inconsistent"
  else
    andThen
      (if presentMember members .error then
        clientCheckError go operation payloadBytes (envelope .error)
      else .ok ())
      (if operation ≠ "watch" then clientCheckUnary checks envelope ok members
      else
        clientCheckWatch go (envelope .stream) (envelope .reason)
          (envelope .registrationRevision) (envelope .event) ok (presentMember members .result)
          (presentMember members .event) (presentMember members .reason)
          (presentMember members .error))

def validateClientResponse (payload : Bytes) : Except String Unit :=
  match clientDecodeStrict go.toGoLibrary (decodeEnvelopeFields go) payload with
  | .error reason => .error reason
  | .ok envelope =>
    let version : Option Nat := envelope .schemaVersion
    let ok : Option Bool := envelope .ok
    let requestID : String := envelope .requestID
    let databaseID : String := envelope .databaseID
    let operation : String := envelope .operation
    if version ≠ some protocolSchemaVersion ∨ databaseID = "" ∨ operation ∉ allOperations ∨
        256 < byteLength requestID then
      .error "response envelope is incomplete"
    else
      match ok with
      | none => .error "response envelope is incomplete"
      | some ok =>
        match go.unmarshalObject payload with
        | .error reason => .error reason
        | .ok members => clientCheckMembers go checks envelope ok payload.length members

end

/-! ### What is accepted -/

section

variable {go : ResponseLibrary} {checks : ClientChecks} {response : Response} {e : WireError}

/-- A response that the server's codec accepts is accepted by the client if the last checks pass,
those of a unary response or of a frame of a watch. -/
theorem Response.Acceptable.validateClientResponse (h : response.Acceptable go) (hgo : go.Inverts)
    (hlast : (if response.operation ≠ "watch" then
        clientCheckUnary checks response.envelope response.ok response.members
      else
        clientCheckWatch go response.stream response.endReason response.registration response.event
          response.ok (presentMember response.members .result)
          (presentMember response.members .event) (presentMember response.members .reason)
          response.error.isSome) = .ok ()) :
    validateClientResponse go checks response.document.text = .ok () := by
  have hdecode : clientDecodeStrict go.toGoLibrary (decodeEnvelopeFields go) response.document.text
      = .ok response.envelope :=
    (clientDecodeStrict_text hgo h.encodable.readable h.distinct).trans
      (decodeEnvelopeFields_document h.encodable)
  have hremote : (if response.error.isSome then clientCheckError go response.operation
      response.document.text.length (response.envelope .error) else .ok ()) = .ok () := by
    rw [envelope_error]
    rcases h.error with ⟨_, herror⟩ | ⟨_, e, herror, haccepted, hassertion⟩
    · rw [herror]
      rfl
    · have hdecoded : decodeRemoteError go.toGoLibrary e.bounded.json.text = .ok e.bounded :=
        decodeStructuredError_iff.mp haccepted
      rw [herror, Option.isSome_some, if_pos rfl, clientCheckError]
      simp only [Option.map_some, Option.getD_some, hdecoded, e.assertionIndex_bounded]
      rw [if_neg, if_neg]
      · rintro ⟨hsome, hlarge⟩
        exact absurd (hassertion hsome).2 (not_lt.mpr hlarge)
      · rintro ⟨hsome, hother⟩
        exact hother (hassertion hsome).1
  have hmembers : clientCheckMembers go checks response.envelope response.ok
      response.document.text.length response.members = .ok () := by
    have hne : ¬ response.ok = response.error.isSome := by
      rcases h.error with ⟨hok, herror⟩ | ⟨hok, e, herror, _⟩ <;> simp [hok, herror]
    have hoperation : (response.envelope .operation : String) = response.operation := rfl
    rw [clientCheckMembers]
    simp only [presentMember_error, hoperation]
    rw [if_neg hne, andThen_eq_ok]
    exact ⟨hremote, hlast⟩
  have hcomplete : ¬ ((response.envelope .schemaVersion : Option Nat) ≠ some protocolSchemaVersion ∨
      response.databaseID = "" ∨ response.operation ∉ allOperations ∨
      256 < byteLength response.requestID) := by
    rintro (hne | hempty | hunknown | hlong)
    · exact hne (congrArg some h.version)
    · exact h.databaseID hempty
    · exact hunknown h.operation
    · exact absurd h.requestID (not_le.mpr hlong)
  have hok : (response.envelope .ok : Option Bool) = some response.ok := rfl
  rw [GapDB.validateClientResponse, hdecode]
  refine (if_neg hcomplete).trans ?_
  simp only [hok, unmarshalObject_document hgo h.encodable, hmembers]

/-- A unary failure has no last check to pass. -/
theorem Response.Failure.validateClientResponse (h : response.Failure e)
    (hacceptable : response.Acceptable go) (hgo : go.Inverts) :
    GapDB.validateClientResponse go checks response.document.text = .ok () := by
  obtain ⟨hwatch, hresult⟩ := h.absentMembers
  refine hacceptable.validateClientResponse hgo ?_
  rw [if_pos h.unary, clientCheckUnary, if_neg hwatch, h.ok, if_neg Bool.false_ne_true,
    if_neg (by simp [hresult])]

end

end GapDB
