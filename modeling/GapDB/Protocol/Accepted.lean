import GapDB.Protocol.Responses

/-!
# Responses that the codec accepts

A response whose parts pass their checks is written, read back as it was sent, and as long as its
members. The error of a response is described by the fields it sets: whether it is accepted, and how
long it gets, follows from these.
-/

namespace GapDB

open Storelib

variable {e : WireError}

theorem forall_mem_none {α : Type*} {P : α → Prop} : ∀ a ∈ (none : Option α), P a := by
  intro a h
  cases h

/-! ### Members -/

section

variable {response : Response}

/-- A member that may be left out is present if its field is not empty and not `null`. -/
theorem presentMember_members {f : EnvelopeField} (halways : f.always = false) :
    presentMember response.members f = (!Json.isEmpty f.kind (response.envelope f) &&
      !isNull (Json.encodeValue f.kind (response.envelope f))) := by
  rw [presentMember, Response.lookup_members, halways]
  cases Json.isEmpty f.kind (response.envelope f) <;> rfl

theorem envelope_error (response : Response) : response.envelope .error
    = (response.error.map WireError.bounded).map WireError.json := rfl

theorem hasErrorMember_envelope (response : Response) :
    hasErrorMember (response.envelope .error) = response.error.isSome := by
  rw [envelope_error]
  cases response.error with
  | none => rfl
  | some e => rfl

theorem presentMember_error (response : Response) :
    presentMember response.members .error = response.error.isSome := by
  rw [presentMember_members rfl, envelope_error]
  cases response.error with
  | none => rfl
  | some e => rfl

/-- The names of an envelope are distinct, and so are those of an error in it. -/
theorem Response.firstDuplicate_document
    (hresult : ∀ document ∈ response.result, document.firstDuplicate = none)
    (hevent : ∀ document ∈ response.event, document.firstDuplicate = none) :
    response.document.firstDuplicate = none := by
  refine Json.firstDuplicate_encodeRecord ?_ fun f _ => ?_
  · exact List.Nodup.map EnvelopeField.name_injective (by decide)
  · cases f with
    | result =>
      show ((response.result).getD .null).firstDuplicate = none
      cases h : response.result with
      | none => rfl
      | some document => exact hresult document h
    | event =>
      show ((response.event).getD .null).firstDuplicate = none
      cases h : response.event with
      | none => rfl
      | some document => exact hevent document h
    | error =>
      show (((response.error.map WireError.bounded).map WireError.json).getD .null).firstDuplicate
        = none
      cases response.error with
      | none => rfl
      | some e => exact WireError.firstDuplicate_json e.bounded
    | schemaVersion | registrationRevision | ok | requestID | databaseID | operation | stream
    | reason => exact Json.firstDuplicate_encodeValue (by decide) _

end

/-! ### What is accepted -/

theorem WireError.assertionIndex_bounded (e : WireError) :
    e.bounded.assertionIndex = e.assertionIndex := by
  unfold WireError.bounded
  split
  · exact Function.update_of_ne (by decide) _ e
  · rfl

/-- A response whose parts pass the checks of the codec. -/
structure Response.Acceptable (go : ResponseLibrary) (response : Response) : Prop where
  version : response.schemaVersion = protocolSchemaVersion
  operation : response.operation ∈ allOperations
  requestID : byteLength response.requestID ≤ 256
  databaseID : response.databaseID ≠ ""
  encodable : response.Encodable
  distinct : response.document.firstDuplicate = none
  error : response.ok = true ∧ response.error = none ∨
    response.ok = false ∧ ∃ e, response.error = some e ∧
      decodeStructuredError go.toGoLibrary e.bounded.json.text = .ok e.bounded ∧
      (e.assertionIndex.isSome → response.operation = "atomic_batch" ∧
        response.document.text.length < maxAssertionDiagnosticBytes)
  presence : checkPresence response.operation response.ok response.members = .ok ()
  result : checkDocument (decodeResult go response.operation hardMaxFrameBytes) response.result
    = .ok ()
  event : checkDocument (decodeEvent go.toEventLibrary) response.event = .ok ()
  stream : checkStream response.operation response.stream response.endReason response.ok
    response.error.isSome response.registration response.event = .ok ()

namespace Response.Acceptable

variable {go : ResponseLibrary} {response : Response} (h : response.Acceptable go)

include h

theorem checkEnvelope : checkEnvelope response.envelope = .ok response.ok := by
  have hid : ¬ 256 < byteLength response.requestID := not_lt.mpr h.requestID
  simp only [GapDB.checkEnvelope, Response.envelope, h.version, hid, h.databaseID,
    not_true_eq_false, if_false, ne_eq, h.operation]

theorem checkError : checkError go response.operation response.document.text.length
    (response.envelope .error) = .ok (response.error.map WireError.bounded) := by
  rw [envelope_error]
  rcases h.error with ⟨_, herror⟩ | ⟨_, e, herror, haccepted, hassertion⟩
  · rw [herror]
    rfl
  · rw [herror]
    show GapDB.checkError go response.operation _ (some e.bounded.json) = .ok (some e.bounded)
    rw [GapDB.checkError, if_neg (by simp [WireError.json, isNull]), haccepted]
    simp only [e.assertionIndex_bounded]
    rw [if_neg, if_neg]
    · rintro ⟨hsome, hlarge⟩
      exact absurd (hassertion hsome).2 (not_lt.mpr hlarge)
    · rintro ⟨hsome, hother⟩
      exact hother (hassertion hsome).1

/-- An error is there exactly when the response is not ok. -/
theorem ok_error : ¬ (response.ok = true ∧ response.error.isSome = true) ∧
    ¬ (¬ response.ok = true ∧ ¬ response.error.isSome = true) := by
  rcases h.error with ⟨hok, herror⟩ | ⟨hok, e, herror, _⟩
  · simp [hok, herror]
  · simp [hok, herror]

/-- It is decoded to what was sent. -/
theorem decodes (hgo : go.Inverts)
    (hfits : (response.document.text.length : Int) ≤ hardMaxFrameBytes) :
    decodeResponse go response.document.text hardMaxFrameBytes
      = .ok { response with
          registrationRevision := response.registration.getD 0
          error := response.error.map WireError.bounded } := by
  have hresult : checkDocument (decodeResult go response.operation hardMaxFrameBytes)
      (response.envelope .result) = .ok () := h.result
  have hevent : checkDocument (decodeEvent go.toEventLibrary) (response.envelope .event) = .ok () :=
    h.event
  have hstream : checkStream response.operation (response.envelope .stream)
      (response.envelope .reason) response.ok response.error.isSome
      (response.envelope .registrationRevision) (response.envelope .event) = .ok () := h.stream
  have hoperation : (response.envelope .operation : String) = response.operation := rfl
  rw [decodeResponse, if_neg (by decide), if_neg (not_lt.mpr hfits),
    decodeEnvelope_document hgo h.encodable h.distinct]
  simp only [h.checkEnvelope, unmarshalObject_document hgo h.encodable, hasErrorMember_envelope,
    hoperation]
  rw [if_neg h.ok_error.1, if_neg h.ok_error.2]
  simp only [h.presence, h.checkError, hresult, hevent, hstream]
  have hversion := h.version
  cases response
  subst hversion
  rfl

/-- It is written if it fits a frame. -/
theorem encodes (hgo : go.Inverts)
    (hfits : (response.document.text.length : Int) ≤ hardMaxFrameBytes) :
    encodeResponse go response = .ok response.document.text := by
  have hok : ¬ (response.error.isSome = true ∧ response.ok = true) ∧
      ¬ (response.error.isNone = true ∧ ¬ response.ok = true) ∧
      ¬ ((response.error.bind WireError.assertionIndex).isSome = true ∧
        maxAssertionDiagnosticBytes ≤ response.document.text.length) := by
    rcases h.error with ⟨hok, herror⟩ | ⟨hok, e, herror, _, hassertion⟩
    · simp [hok, herror]
    · simp only [hok, herror, Option.bind_some, Bool.false_eq_true, and_false, Option.isNone_some,
        false_and, not_false_eq_true, true_and, not_and, not_le]
      exact fun hsome => (hassertion hsome).2
  rw [encodeResponse, if_neg (not_not.mpr h.version), if_neg (not_not.mpr h.operation),
    if_neg (not_lt.mpr h.requestID), if_neg hok.1, if_neg hok.2.1]
  simp only
  rw [if_neg (not_lt.mpr hfits), if_neg hok.2.2, h.decodes hgo hfits]

end Response.Acceptable

/-! ### Unary failures -/

/-- A unary response with an error and nothing else. -/
structure Response.Failure (response : Response) (e : WireError) : Prop where
  version : response.schemaVersion = protocolSchemaVersion
  ok : response.ok = false
  operation : response.operation ∈ allOperations
  unary : response.operation ≠ "watch"
  requestID : byteLength response.requestID ≤ 256
  databaseID : response.databaseID ≠ ""
  result : response.result = none
  stream : response.stream = ""
  registrationRevision : response.registrationRevision = 0
  event : response.event = none
  reason : response.endReason = ""
  error : response.error = some e

section

variable {go : ResponseLibrary} {response : Response} (h : response.Failure e)

include h

theorem Response.Failure.registration : response.registration = none := by
  rw [Response.registration, h.stream, if_neg (by decide)]

/-- No member of a watch is there, and no result. -/
theorem Response.Failure.absentMembers : ¬ (presentMember response.members .stream ∨
        presentMember response.members .registrationRevision ∨
        presentMember response.members .event ∨ presentMember response.members .reason) ∧
      presentMember response.members .result = false := by
  have hmember : ∀ {f : EnvelopeField}, f.always = false →
      response.envelope f = f.kind.zero → presentMember response.members f = false := by
    intro f halways hzero
    rw [presentMember_members halways, hzero]
    cases f <;> rfl
  have hstream := @hmember .stream rfl h.stream
  have hregistration := @hmember .registrationRevision rfl h.registration
  have hevent := @hmember .event rfl h.event
  have hreason := @hmember .reason rfl h.reason
  have hresult := @hmember .result rfl h.result
  exact ⟨by simp [hstream, hregistration, hevent, hreason], hresult⟩

theorem Response.Failure.acceptable (he : e.InRange)
    (haccepted : decodeStructuredError go.toGoLibrary e.bounded.json.text = .ok e.bounded)
    (hassertion : e.assertionIndex.isSome → response.operation = "atomic_batch" ∧
      response.document.text.length < maxAssertionDiagnosticBytes) : response.Acceptable go where
  version := h.version
  operation := h.operation
  requestID := h.requestID
  databaseID := h.databaseID
  encodable := by
    refine ⟨h.version ▸ by decide, h.registrationRevision ▸ Nat.two_pow_pos 64, ?_, ?_, ?_⟩
    · rw [h.result]
      exact forall_mem_none
    · rw [h.event]
      exact forall_mem_none
    · rw [h.error]
      intro other hother
      exact Option.some.inj hother ▸ he
  distinct := by
    refine Response.firstDuplicate_document ?_ ?_
    · rw [h.result]
      exact forall_mem_none
    · rw [h.event]
      exact forall_mem_none
  error := .inr ⟨h.ok, e, h.error, haccepted, hassertion⟩
  presence := by
    obtain ⟨hwatch, hresult⟩ := h.absentMembers
    rw [checkPresence, if_pos h.unary, if_neg hwatch, if_neg (by simp [hresult, h.ok])]
  result := by
    rw [h.result]
    rfl
  event := by
    rw [h.event]
    rfl
  stream := by
    rw [h.stream]
    exact (if_neg (not_not.mpr rfl)).trans (if_neg h.unary)

end

/-! ### Evidence of a written error -/

theorem meaningfulEvidence_encodeValue {kind : Json.Kind} (hkind : kind ≠ .raw)
    {value : kind.Value} (h : Json.isEmpty kind value = false) :
    meaningfulEvidence (some (Json.encodeValue kind value)) = true := by
  have hitems : ∀ {α : Type} {encode : α → Json} {items : List α}, items.isEmpty = false →
      meaningfulEvidence (some (Json.encodeItems encode items)) = true := by
    intro α encode items hitems
    rw [Json.encodeItems, hitems]
    cases items with
    | nil => cases hitems
    | cons item items => rfl
  cases kind with
  | text =>
    exact congrArg not h
  | int => rfl
  | flag => rfl
  | intPointer =>
    cases value with
    | none => cases h
    | some i => rfl
  | uintPointer =>
    cases value with
    | none => cases h
    | some n => rfl
  | flagPointer =>
    cases value with
    | none => cases h
    | some b => rfl
  | texts | ints | uints => exact hitems h
  | raw => exact absurd rfl hkind

theorem WireError.lookup_of_nonempty {f : ErrorField} (h : Json.isEmpty f.kind (e f) = false) :
    e.members.lookup f.name = some (Json.encodeValue f.kind (e f)) := by
  rw [lookup_members, if_neg]
  rintro ⟨hempty, _⟩
  rw [h] at hempty
  cases hempty

theorem WireError.lookup_of_empty {f : ErrorField}
    (h : Json.isEmpty f.kind (e f) = true) (halways : f.always = false) :
    e.members.lookup f.name = none := by
  rw [lookup_members, if_pos]
  exact ⟨h, by rw [halways]; exact Bool.false_ne_true⟩

/-- A schema admits an error whose evidence it allows, with the evidence it requires. -/
theorem admits_members {schema : EvidenceSchema}
    (hallowed : ∀ f, Json.isEmpty f.kind (e f) = false → f ∈ baseFields ∨ f ∈ schema.allowed)
    (hrequired : ∀ f ∈ schema.required, Json.isEmpty f.kind (e f) = false)
    (hgroups : ∀ group ∈ schema.requiredAny, ∃ f ∈ group, Json.isEmpty f.kind (e f) = false) :
    schema.Admits e.members where
  relevant member hmember := by
    obtain ⟨f, _, rfl, hempty⟩ := Json.mem_encodeRecord hmember
    cases hvalue : Json.isEmpty f.kind (e f) with
    | true =>
      -- only the base fields are written when they are empty
      refine .inl ⟨f, ?_, rfl⟩
      have halways := hempty hvalue
      cases f <;> first | decide | cases halways
    | false =>
      rcases hallowed f hvalue with hbase | hallowed
      · exact .inl ⟨f, hbase, rfl⟩
      · exact .inr ⟨⟨f, hallowed, rfl⟩,
          meaningfulEvidence_encodeValue (ErrorField.kind_ne_raw f) hvalue⟩
  required f hf := by
    rw [WireError.lookup_of_nonempty (hrequired f hf)]
    exact meaningfulEvidence_encodeValue (ErrorField.kind_ne_raw f) (hrequired f hf)
  alternatives group hgroup := by
    obtain ⟨f, hf, hvalue⟩ := hgroups group hgroup
    refine ⟨f, hf, ?_⟩
    rw [WireError.lookup_of_nonempty hvalue]
    exact meaningfulEvidence_encodeValue (ErrorField.kind_ne_raw f) hvalue
  applied value hvalue := by
    cases happlied : Json.isEmpty (ErrorField.kind .operationApplied) (e .operationApplied) with
    | true =>
      rw [WireError.lookup_of_empty happlied rfl] at hvalue
      cases hvalue
    | false =>
      rw [WireError.lookup_of_nonempty happlied] at hvalue
      obtain rfl := Option.some.inj hvalue
      have htrue : (e .operationApplied : Bool) = true := (Bool.not_not _).symm.trans
        (congrArg not happlied)
      exact congrArg Json.bool htrue

/-! ### Sizes -/

theorem WireError.json_length_le {bound : ErrorField → Nat}
    (h : ∀ f, Json.isEmpty f.kind (e f) = true ∧ f.always = false ∨
      Json.memberLength (f.name, Json.encodeValue f.kind (e f)) ≤ bound f) :
    e.json.text.length ≤ 1 + (ErrorField.all.map bound).sum := by
  have hne : e.members ≠ [] := by
    intro hnil
    have hcode := lookup_members e .code
    rw [hnil, if_neg (fun hskip => hskip.2 rfl)] at hcode
    cases hcode
  rw [WireError.json, Json.text_object_length hne]
  exact Nat.add_le_add_left (Json.sum_memberLength_le fun f _ => h f) 1

/-! ### The fields an error sets -/

theorem inRange_zero {levels : Nat} (kind : Json.Kind) : Json.InRange levels kind kind.zero := by
  cases kind with
  | int => exact Json.isInt64_ofNat (by decide : 0 < 2 ^ 63)
  | text | flag | flagPointer | texts => exact trivial
  | intPointer | uintPointer | ints | uints | raw => exact fun _ h => nomatch h

theorem isEmpty_zero (kind : Json.Kind) : Json.isEmpty kind kind.zero = true := by
  cases kind <;> rfl

/-- The error sets the fields of the list and no others, each within the length that stands with
it. -/
structure WireError.Sets (fields : List (ErrorField × Nat)) (e : WireError) : Prop where
  only : ∀ f ∉ fields.map Prod.fst, e f = f.kind.zero
  inRange : ∀ field ∈ fields, Json.InRange 1 field.1.kind (e field.1)
  length_le : ∀ field ∈ fields, Json.isEmpty field.1.kind (e field.1) = true ∧
      field.1.always = false ∨
    Json.memberLength (field.1.name, Json.encodeValue field.1.kind (e field.1)) ≤ field.2

namespace WireError.Sets

variable {fields : List (ErrorField × Nat)} (h : e.Sets fields)

include h

theorem wire_inRange : e.InRange := by
  intro f
  by_cases hf : f ∈ fields.map Prod.fst
  · obtain ⟨field, hfield, rfl⟩ := List.mem_map.mp hf
    exact h.inRange field hfield
  · rw [h.only f hf]
    exact inRange_zero _

/-- A schema admits the error if it allows its fields and requires nothing else. -/
theorem admits {schema : EvidenceSchema}
    (hallowed : ∀ f ∈ fields.map Prod.fst, f ∈ baseFields ∨ f ∈ schema.allowed)
    (hrequired : ∀ f ∈ schema.required, Json.isEmpty f.kind (e f) = false)
    (hgroups : ∀ group ∈ schema.requiredAny, ∃ f ∈ group, Json.isEmpty f.kind (e f) = false) :
    schema.Admits e.members := by
  refine admits_members (fun f hvalue => ?_) hrequired hgroups
  by_contra hother
  have hempty := isEmpty_zero f.kind
  rw [← h.only f fun hf => hother (hallowed f hf), hvalue] at hempty
  cases hempty

/-- The lengths add up, if the fields that are always written are among those that are set. -/
theorem json_length_le {total : Nat}
    (halways : ∀ f ∈ ErrorField.all, f.always = true → f ∈ fields.map Prod.fst)
    (htotal : 1 + (ErrorField.all.map fun f => (fields.lookup f).getD 0).sum ≤ total) :
    e.json.text.length ≤ total := by
  refine (WireError.json_length_le fun f => ?_).trans htotal
  cases hlookup : fields.lookup f with
  | none =>
    have hf : f ∉ fields.map Prod.fst := by
      rw [← lookup_isSome_iff_mem, hlookup]
      exact Bool.false_ne_true
    refine .inl ⟨by rw [h.only f hf]; exact isEmpty_zero _, ?_⟩
    exact Bool.eq_false_iff.mpr fun hwritten => hf (halways f (ErrorField.mem_all f) hwritten)
  | some bound =>
    obtain ⟨before, after, rfl, _⟩ := List.lookup_eq_some_iff.mp hlookup
    exact h.length_le (f, bound) (by simp)

end WireError.Sets

theorem WireError.Bounded.of_none {raw : Bytes} (h : e.assertionIndex = none) : e.Bounded raw := by
  constructor
  · rintro ⟨_, hindex, _⟩
    rw [h] at hindex
    cases hindex
  · rintro ⟨hindex, _⟩
    rw [h] at hindex
    cases hindex

theorem WireError.bounded_of_none (h : e.assertionIndex = none) : e.bounded = e := by
  rw [WireError.bounded, h]
  exact if_neg Bool.false_ne_true

/-- A number of 64 bits has at most twenty digits. -/
theorem memberLength_number_le {name : String} {n : Nat} (hn : n < 2 ^ 64) :
    Json.memberLength (name, .number (Json.natLiteral n))
      ≤ (utf8 (Json.quote name)).length + 22 := by
  have hnumber : (Json.number (Json.natLiteral n)).text.length ≤ 20 :=
    Json.text_natLiteral_length_le (by decide) (hn.trans (by decide))
  show (utf8 (Json.quote name)).length + (Json.number (Json.natLiteral n)).text.length + 2
    ≤ (utf8 (Json.quote name)).length + 22
  omega

theorem memberLength_uint_le {name : String} {n bound : Nat} (hn : n < 2 ^ 64)
    (hname : (utf8 (Json.quote name)).length + 22 ≤ bound) :
    Json.memberLength (name, .number (Json.natLiteral n)) ≤ bound :=
  (memberLength_number_le hn).trans hname

theorem memberLength_int_le {name : String} {n bound : Nat} (hn : n < 2 ^ 63)
    (hname : (utf8 (Json.quote name)).length + 22 ≤ bound) :
    Json.memberLength (name, .number (Json.intLiteral (Int.ofNat n))) ≤ bound :=
  memberLength_uint_le (hn.trans (by decide)) hname

/-- What the parts of a response take; each byte of the id takes at most six. -/
theorem Response.document_length_le {response : Response}
    (hversion : response.schemaVersion = protocolSchemaVersion)
    (hoperation : response.operation ∈ allOperations) (hid : byteLength response.requestID ≤ 256)
    (hplain : response.databaseID.toList.all Json.plainChar = true)
    (hdatabase : response.databaseID.toList.length = 32)
    {resultBytes streamBytes reasonBytes registrationBytes eventBytes errorBytes : Nat}
    (hresult : ∀ document ∈ response.result, 10 + document.text.length ≤ resultBytes)
    (hstream : response.stream = "" ∨
      Json.memberLength ("stream", .string response.stream) ≤ streamBytes)
    (hreason : response.endReason = "" ∨
      Json.memberLength ("reason", .string response.endReason) ≤ reasonBytes)
    (hregistration : ∀ n ∈ response.registration, n < 2 ^ 64 ∧ 45 ≤ registrationBytes)
    (hevent : ∀ document ∈ response.event, 9 + document.text.length ≤ eventBytes)
    (herror : ∀ e ∈ response.error, 9 + e.bounded.json.text.length ≤ errorBytes) :
    response.document.text.length
      ≤ 1670 + resultBytes + streamBytes + reasonBytes + registrationBytes + eventBytes
        + errorBytes := by
  have hne : response.members ≠ [] := by
    intro hnil
    have hok := Response.lookup_members response .ok
    rw [hnil, if_neg (fun hskip => hskip.2 rfl)] at hok
    cases hok
  -- a document takes its own length and that of its name
  have hraw : ∀ {name : String} {value : Option Json} {n bytes : Nat},
      (utf8 (Json.quote name)).length + 2 = n →
      (∀ document ∈ value, n + document.text.length ≤ bytes) →
        Json.isEmpty .raw value = true ∧ false = false ∨
          Json.memberLength (name, Json.encodeValue .raw value) ≤ bytes := by
    intro name value n bytes hname hbytes
    cases value with
    | none => exact .inl ⟨rfl, rfl⟩
    | some document =>
      refine .inr ?_
      have hlength := hbytes document rfl
      show (utf8 (Json.quote name)).length + document.text.length + 2 ≤ bytes
      omega
  have hbound : (response.members.map Json.memberLength).sum ≤ (EnvelopeField.all.map
      fun f => match f with
        | .schemaVersion => 19
        | .ok => 11
        | .requestID => 1552
        | .databaseID => 49
        | .operation => 38
        | .stream => streamBytes
        | .reason => reasonBytes
        | .registrationRevision => registrationBytes
        | .event => eventBytes
        | .error => errorBytes
        | .result => resultBytes).sum := by
    refine Json.sum_memberLength_le fun f _ => ?_
    cases f with
    | schemaVersion =>
      refine .inr ?_
      show Json.memberLength ("schema_version", .number (Json.natLiteral response.schemaVersion))
        ≤ 19
      rw [hversion]
      decide +kernel
    | ok =>
      refine .inr ?_
      have hall : ∀ ok : Bool, Json.memberLength ("ok", .bool ok) ≤ 11 := by decide +kernel
      exact hall response.ok
    | requestID =>
      refine .inr ?_
      show Json.memberLength ("request_id", .string response.requestID) ≤ 1552
      have hname : (utf8 (Json.quote "request_id")).length = 12 := by decide +kernel
      have hquoted := Json.utf8_quote_length_le response.requestID
      have hlength : (utf8 response.requestID.toList).length ≤ 256 := hid
      rw [Json.memberLength, Json.text_string_length, hname]
      omega
    | databaseID =>
      refine .inr ?_
      show Json.memberLength ("database_id", .string response.databaseID) ≤ 49
      have hname : (utf8 (Json.quote "database_id")).length = 13 := by decide +kernel
      rw [Json.memberLength, Json.text_string_length, hname, Json.utf8_quote_length hplain,
        hdatabase]
    | operation =>
      refine .inr ?_
      show Json.memberLength ("operation", .string response.operation) ≤ 38
      have hall : ∀ operation ∈ allOperations,
          Json.memberLength ("operation", .string operation) ≤ 38 := by decide +kernel
      exact hall _ hoperation
    | stream => exact hstream.imp (fun hempty => ⟨beq_iff_eq.mpr hempty, rfl⟩) id
    | reason => exact hreason.imp (fun hempty => ⟨beq_iff_eq.mpr hempty, rfl⟩) id
    | registrationRevision =>
      cases hvalue : response.registration with
      | none => exact .inl ⟨congrArg Option.isNone hvalue, rfl⟩
      | some n =>
        obtain ⟨hn, hbytes⟩ := hregistration n hvalue
        have hname : (utf8 (Json.quote "registration_revision")).length = 23 := by decide +kernel
        have hnumber := @memberLength_number_le "registration_revision" n hn
        refine .inr ?_
        show Json.memberLength ("registration_revision",
          Json.encodeValue .uintPointer response.registration) ≤ registrationBytes
        rw [hvalue]
        show Json.memberLength ("registration_revision", .number (Json.natLiteral n))
          ≤ registrationBytes
        omega
    | event => exact hraw (by decide +kernel) hevent
    | error =>
      refine hraw (n := 9) (by decide +kernel) fun document hdocument => ?_
      obtain ⟨bounded, hbounded, rfl⟩ := Option.map_eq_some_iff.mp hdocument
      obtain ⟨e, he, rfl⟩ := Option.map_eq_some_iff.mp hbounded
      exact herror e he
    | result => exact hraw (by decide +kernel) hresult
  have hlength : response.document.text.length = 1 + (response.members.map Json.memberLength).sum :=
    Json.text_object_length hne
  simp only [EnvelopeField.all, List.map_cons, List.map_nil, List.sum_cons, List.sum_nil] at hbound
  omega

theorem Response.Failure.document_length_le {response : Response}
    (h : response.Failure e) (hplain : response.databaseID.toList.all Json.plainChar = true)
    (hdatabase : response.databaseID.toList.length = 32) :
    response.document.text.length
      ≤ 1670 + 0 + 0 + 0 + 0 + 0 + (9 + e.bounded.json.text.length) := by
  refine Response.document_length_le h.version h.operation h.requestID hplain hdatabase ?_
    (.inl h.stream) (.inl h.reason) ?_ ?_ ?_
  · rw [h.result]
    exact forall_mem_none
  · rw [h.registration]
    exact forall_mem_none
  · rw [h.event]
    exact forall_mem_none
  · rw [h.error]
    intro other hother
    obtain rfl := Option.some.inj hother
    exact le_rfl

end GapDB
