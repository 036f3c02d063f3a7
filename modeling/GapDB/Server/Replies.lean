import GapDB.Protocol.Accepted
import GapDB.Options
import GapDB.Persist.Manifest

/-!
# Replies within the frame limit

`encodeResponseForFrame` of `internal/server/server.go`: a response that does not fit the configured
frame is replaced by a `FRAME_TOO_LARGE` failure with the same id, database and operation. The
smallest frame limit leaves room for that failure whatever characters the id has.
-/

namespace GapDB

open Storelib

/-- The failure that takes the place of a response. -/
def oversizedResponse (receivedBytes maximumBytes : Nat) : Error :=
  { code := .frameTooLarge, message := "Protocol response exceeds the configured frame limit.",
    retry := .never, receivedBytes, maximumBytes, safeActions := [.reduceRequest, .abort] }

section

variable (go : ResponseLibrary) (maxFrameBytes : Nat) (response : Response)

def fallbackResponse (receivedBytes : Nat) : Response :=
  { schemaVersion := protocolSchemaVersion, ok := false, requestID := response.requestID,
    databaseID := response.databaseID, operation := response.operation,
    error := some ((oversizedResponse receivedBytes maxFrameBytes).wire go.formatTime) }

def encodeFallback (receivedBytes : Nat) : Except Error Bytes :=
  match encodeResponse go (fallbackResponse go maxFrameBytes response receivedBytes) with
  | .error e => .error e
  | .ok payload =>
    if maxFrameBytes < payload.length then .error (oversizedResponse receivedBytes maxFrameBytes)
    else .ok payload

def encodeResponseForFrame : Except Error Bytes :=
  match encodeResponse go response with
  | .error e =>
    if e.code ≠ .frameTooLarge then .error e
    else encodeFallback go maxFrameBytes response e.receivedBytes
  | .ok payload =>
    if maxFrameBytes < payload.length then
      encodeFallback go maxFrameBytes response payload.length
    else .ok payload

end

/-! ### The failure that stands in -/

def WireError.receivedBytes (e : WireError) : Int := e .receivedBytes

def WireError.maximumBytes (e : WireError) : Int := e .maximumBytes

section

variable (formatTime : Time → String) {received maximum : Nat}

theorem oversizedResponse_sets (hreceived : received < 2 ^ 63) (hmaximum : maximum < 2 ^ 63) :
    ((oversizedResponse received maximum).wire formatTime).Sets [(.code, 25), (.message, 66),
      (.retry, 16), (.receivedBytes, 38), (.maximumBytes, 38), (.safeActions, 42)] where
  only f hf := by
    cases f <;> first | rfl | exact absurd (by decide) hf
  inRange := by
    simp only [List.forall_mem_cons, List.not_mem_nil, false_imp_iff, implies_true, and_true]
    exact ⟨trivial, trivial, trivial, Json.isInt64_ofNat hreceived, Json.isInt64_ofNat hmaximum,
      trivial⟩
  length_le := by
    simp only [List.forall_mem_cons, List.not_mem_nil, false_imp_iff, implies_true, and_true]
    refine ⟨.inr ?_, .inr ?_, .inr ?_, .inr (memberLength_int_le hreceived (by decide +kernel)),
      .inr (memberLength_int_le hmaximum (by decide +kernel)), .inr ?_⟩
    · exact (by decide +kernel : Json.memberLength ("code", .string "FRAME_TOO_LARGE") ≤ 25)
    · exact (by decide +kernel : Json.memberLength ("message",
        .string "Protocol response exceeds the configured frame limit.") ≤ 66)
    · exact (by decide +kernel : Json.memberLength ("retry", .string "never") ≤ 16)
    · exact (by decide +kernel : Json.memberLength ("safe_actions",
        .array [.string "reduce_request", .string "abort"]) ≤ 42)

/-- The failure passes the validator of the codec. -/
theorem oversizedResponse_accepted {go : GoLibrary} (hgo : go.Inverts)
    (hreceived : received < 2 ^ 63)
    (hmaximum : maximum < 2 ^ 63) (hpos : 0 < maximum) (hlarger : maximum < received) :
    decodeStructuredError go ((oversizedResponse received maximum).wire formatTime).json.text
      = .ok ((oversizedResponse received maximum).wire formatTime) := by
  have hsets := oversizedResponse_sets formatTime hreceived hmaximum
  have hnonempty : ∀ {n : Nat}, 0 < n → Json.isEmpty .int (Int.ofNat n) = false := by
    intro n hn
    refine beq_eq_false_iff_ne.mpr ?_
    rw [Int.ofNat_eq_natCast]
    omega
  have hclassified : ((oversizedResponse received maximum).wire formatTime).Classified
      ⟨.frameTooLarge, .never, [.reduceRequest, .abort]⟩ :=
    ⟨(by decide : "Protocol response exceeds the configured frame limit." ≠ ""), rfl, rfl, rfl⟩
  have hschema : errorSchema ((oversizedResponse received maximum).wire formatTime).code
      = some (evidenceOf .frameTooLarge) := rfl
  refine decodeStructuredError_json hgo hsets.wire_inRange hclassified (.of_none rfl) hschema
    (hsets.admits (by decide) ?_ fun group hgroup => nomatch hgroup) rfl
  intro f hf
  rcases List.mem_pair.mp hf with rfl | rfl
  · exact hnonempty (by omega : 0 < received)
  · exact hnonempty hpos

end

theorem databaseID_digits (id : DatabaseID) :
    ∀ b ∈ id.string, 48 ≤ b.val ∧ b.val ≤ 57 ∨ 97 ≤ b.val ∧ b.val ≤ 102 :=
  fun _ hb => mem_hexEncode hb

theorem bytesText_databaseID (id : DatabaseID) :
    bytesText id.string = String.ofList (id.string.map fun b => Char.ofNat b.val) := by
  have hascii : utf8 (id.string.map fun b => Char.ofNat b.val) = id.string := by
    refine utf8_map_ascii fun b hb => ?_
    have := databaseID_digits id b hb
    omega
  have hdecode := utf8Chars_utf8 (id.string.map fun b => Char.ofNat b.val)
  rw [hascii] at hdecode
  rw [bytesText, hdecode, Option.getD_some]

/-- The name of a database is 32 characters that are written as they are. -/
theorem databaseID_plain (id : DatabaseID) :
    (bytesText id.string).toList.all Json.plainChar = true ∧
      (bytesText id.string).toList.length = 32 := by
  have hplain : ∀ n < 103, 48 ≤ n ∧ n ≤ 57 ∨ 97 ≤ n ∧ n ≤ 102 →
      Json.plainChar (Char.ofNat n) = true := by decide
  rw [bytesText_databaseID, String.toList_ofList, List.length_map, DatabaseID.string_length]
  refine ⟨List.all_eq_true.mpr fun c hc => ?_, rfl⟩
  obtain ⟨b, hb, rfl⟩ := List.mem_map.mp hc
  have hdigit := databaseID_digits id b hb
  exact hplain b.val (by omega) hdigit

section

variable {go : ResponseLibrary} {maxFrameBytes received : Nat} {response : Response}

theorem fallbackResponse_failure (hunary : response.operation ≠ "watch")
    (hoperation : response.operation ∈ allOperations) (hid : byteLength response.requestID ≤ 256)
    (hdatabase : response.databaseID ≠ "") :
    (fallbackResponse go maxFrameBytes response received).Failure
      ((oversizedResponse received maxFrameBytes).wire go.formatTime) where
  version := rfl
  ok := rfl
  operation := hoperation
  unary := hunary
  requestID := hid
  databaseID := hdatabase
  result := rfl
  stream := rfl
  registrationRevision := rfl
  event := rfl
  reason := rfl
  error := rfl

/-- The failure is written in less than the smallest frame, and read back as it was written. -/
theorem encodeResponse_fallback (hgo : go.Inverts) (hpos : 0 < maxFrameBytes)
    (hunary : response.operation ≠ "watch") (h : response.Presentable) {id : DatabaseID}
    (hdatabase : response.databaseID = bytesText id.string) (hreceived : received < 2 ^ 63)
    (hlarger : maxFrameBytes < received) :
    encodeResponse go (fallbackResponse go maxFrameBytes response received)
        = .ok (fallbackResponse go maxFrameBytes response received).document.text ∧
      (fallbackResponse go maxFrameBytes response received).document.text.length ≤ 1920 ∧
      decodeResponse go (fallbackResponse go maxFrameBytes response received).document.text
        hardMaxFrameBytes = .ok (fallbackResponse go maxFrameBytes response received) := by
  obtain ⟨hplain, hlength⟩ := databaseID_plain id
  rw [← hdatabase] at hplain hlength
  have hne : response.databaseID ≠ "" := by
    rintro hempty
    rw [hempty] at hlength
    cases hlength
  have hmaximum : maxFrameBytes < 2 ^ 63 := by omega
  have hfailure := @fallbackResponse_failure go maxFrameBytes received response hunary h.operation
    h.requestID hne
  have hsets := oversizedResponse_sets go.formatTime hreceived hmaximum
  have hbounded : ((oversizedResponse received maxFrameBytes).wire go.formatTime).bounded
      = (oversizedResponse received maxFrameBytes).wire go.formatTime :=
        WireError.bounded_of_none rfl
  have haccepted := oversizedResponse_accepted go.formatTime hgo hreceived hmaximum hpos hlarger
  have hacceptable := hfailure.acceptable hsets.wire_inRange (by rwa [hbounded])
    fun hindex => nomatch hindex
  have hsize := hfailure.document_length_le hplain hlength
  rw [hbounded] at hsize
  have herror : ((oversizedResponse received maxFrameBytes).wire go.formatTime).json.text.length
      ≤ 240 := hsets.json_length_le (by decide) (by decide)
  have hfits : ((fallbackResponse go maxFrameBytes response received).document.text.length : Int)
      ≤ hardMaxFrameBytes := by
    rw [hardMaxFrameBytes]
    omega
  refine ⟨hacceptable.encodes hgo hfits, by omega, (hacceptable.decodes hgo hfits).trans ?_⟩
  simp only [fallbackResponse, Option.map_some, hbounded]
  rfl

theorem encodeFallback_eq_ok (hgo : go.Inverts) (hlimit : 2048 ≤ maxFrameBytes)
    (hunary : response.operation ≠ "watch") (h : response.Presentable) {id : DatabaseID}
    (hdatabase : response.databaseID = bytesText id.string)
    (hreceived : received < 2 ^ 63) (hlarger : maxFrameBytes < received) :
    ∃ payload, encodeFallback go maxFrameBytes response received = .ok payload ∧
      payload.length ≤ maxFrameBytes ∧
      decodeResponse go payload hardMaxFrameBytes
        = .ok (fallbackResponse go maxFrameBytes response received) := by
  obtain ⟨hencode, hsize, hdecode⟩ :=
    encodeResponse_fallback hgo (by omega) hunary h hdatabase hreceived hlarger
  refine ⟨_, ?_, by omega, hdecode⟩
  rw [encodeFallback, hencode]
  exact if_neg (by omega)

end

/-- A unary response always fits: it is sent as it is, or a failure takes its place that says how
large it was. -/
theorem unary_response_fits (go : ResponseLibrary) (hgo : go.Inverts) {limits : Limits}
    (hlimits : limits.validate = .ok ()) (response : Response) (hencodable : response.Encodable)
    (hunary : response.operation ≠ "watch") {id : DatabaseID}
    (hdatabase : response.databaseID = bytesText id.string)
    (hsize : response.document.text.length < 2 ^ 63)
    (haccepted : ∀ e, encodeResponse go response = .error e → e.code = .frameTooLarge) :
    ∃ payload decoded, encodeResponseForFrame go limits.maxFrameBytes response = .ok payload ∧
      payload.length ≤ limits.maxFrameBytes ∧
      decodeResponse go payload hardMaxFrameBytes = .ok decoded ∧
      decoded.requestID = response.requestID ∧ decoded.databaseID = response.databaseID ∧
      decoded.operation = response.operation ∧
      ((decoded.ok = response.ok ∧ decoded.result = response.result ∧
          decoded.error = response.error.map WireError.bounded) ∨
        decoded.ok = false ∧ ∃ e : WireError, decoded.error = some e ∧
          e.code = "FRAME_TOO_LARGE" ∧ e.maximumBytes < e.receivedBytes) := by
  obtain ⟨hlimit, hceiling⟩ := (Limits.valid_of_validate hlimits).frameBytes
  have hfallback : ∀ {received : Nat}, response.Presentable → received < 2 ^ 63 →
      limits.maxFrameBytes < received → ∃ payload decoded,
        encodeFallback go limits.maxFrameBytes response received = .ok payload ∧
        payload.length ≤ limits.maxFrameBytes ∧
        decodeResponse go payload hardMaxFrameBytes = .ok decoded ∧
        decoded.requestID = response.requestID ∧ decoded.databaseID = response.databaseID ∧
        decoded.operation = response.operation ∧
        decoded.ok = false ∧ ∃ e : WireError, decoded.error = some e ∧
          e.code = "FRAME_TOO_LARGE" ∧ e.maximumBytes < e.receivedBytes := by
    intro received hpresentable hreceived hlarger
    obtain ⟨payload, hencode, hlength, hdecode⟩ :=
      encodeFallback_eq_ok hgo hlimit hunary hpresentable hdatabase hreceived hlarger
    exact ⟨payload, _, hencode, hlength, hdecode, rfl, rfl, rfl, rfl, _, rfl, rfl,
      Int.ofNat_lt.mpr hlarger⟩
  cases hencode : encodeResponse go response with
  | error e =>
    have hcode := haccepted e hencode
    obtain ⟨hpresentable, hlarge, hreceived⟩ := encodeResponse_oversize hencode hcode
    rw [hardMaxFrameBytes] at hlarge
    obtain ⟨payload, decoded, hpayload, hlength, hdecode, hid, hname, hoperation, hcontent⟩ :=
      hfallback hpresentable hsize (by omega)
    refine ⟨payload, decoded, ?_, hlength, hdecode, hid, hname, hoperation, .inr hcontent⟩
    rw [encodeResponseForFrame, hencode]
    simp only
    rw [if_neg (not_not.mpr hcode), hreceived, hpayload]
  | ok payload =>
    obtain ⟨hpresentable, rfl, decoded, hdecoded⟩ := encodeResponse_eq_ok hencode
    by_cases hfits : limits.maxFrameBytes < response.document.text.length
    · obtain ⟨payload, decoded, hpayload, hlength, hdecode, hid, hname, hoperation, hcontent⟩ :=
        hfallback hpresentable hsize hfits
      refine ⟨payload, decoded, ?_, hlength, hdecode, hid, hname, hoperation, .inr hcontent⟩
      rw [encodeResponseForFrame, hencode]
      exact (if_pos hfits).trans hpayload
    · obtain ⟨rfl, _⟩ := decodeResponse_document hgo hencodable hdecoded
      refine ⟨response.document.text, _, ?_, not_lt.mp hfits, hdecoded, rfl, rfl, rfl,
        .inl ⟨rfl, rfl, rfl⟩⟩
      rw [encodeResponseForFrame, hencode]
      exact if_neg hfits

/-! ### A library -/

/-- The digit of the URL alphabet for one of the standard alphabet. -/
def urlDigit (c : Char) : Byte :=
  Fin.ofNat 256 (if c = '+' then 45 else if c = '/' then 95 else c.toNat)

def readBase64 (text : String) : Option Bytes :=
  base64Decode ((text.toList.filter (· ≠ '=')).map urlDigit)

/-- Instants as a number of nanoseconds. -/
def writeInstant (t : Time) : String := String.ofList ((Json.intLiteral t).toList ++ ['Z'])

def readInstant (text : String) : Option Time :=
  if text.toList.getLast? = some 'Z' then Json.parseInt (String.ofList text.toList.dropLast)
    else none

/-- A library whose reader is the one of `Json.parse`, and which finds no fault with a result. -/
def sampleLibrary : ResponseLibrary where
  parse raw := match Json.parse raw with
    | some document => .ok document
    | none => .error "invalid character"
  foldName _ := none
  mismatch _ _ := "json: cannot unmarshal"
  quote s := s
  foldRecordName _ := none
  foldEventName _ := none
  recordMismatch _ _ := "json: cannot unmarshal"
  eventMismatch _ _ := "json: cannot unmarshal"
  decodeBase64 := readBase64
  formatTime := writeInstant
  parseTime := readInstant
  foldEnvelopeName _ := none
  envelopeMismatch _ _ := "json: cannot unmarshal"
  resultFault _ _ _ := none

theorem sampleLibrary_inverts : sampleLibrary.Inverts := fun document hdocument => by
  show (match Json.parse document.text with
    | some document => Except.ok document
    | none => .error "invalid character") = .ok document
  rw [Json.parse_text hdocument.numeric]

/-- The smallest frames. -/
def tightLimits : Limits where
  maxKeyBytes := 512
  maxValueBytes := 1024
  maxFrameBytes := 2048
  maxBatchBytes := 2048
  maxBatchOperations := 4
  maxScanRecords := 4
  maxScanBytes := 2048
  watchBufferEvents := 4
  maxWatchClients := 4
  maxConcurrentClients := 4
  maxHistoryEvents := 16
  maxHistoryBytes := 4096

/-- A reply with this value. -/
def getReply (value : String) : Response :=
  { schemaVersion := 1, ok := true, requestID := "<<\n>>", operation := "get"
    databaseID := bytesText (DatabaseID.ofBytes []).string
    result := some (.object [("record", .object [("value_base64", .string value)])]) }

theorem getReply_acceptable (value : String) : (getReply value).Acceptable sampleLibrary where
  version := rfl
  operation := show "get" ∈ allOperations by decide
  requestID := show byteLength "<<\n>>" ≤ 256 by decide
  databaseID := fun hempty => by
    have hlength := (databaseID_plain (DatabaseID.ofBytes [])).2
    have hid : bytesText (DatabaseID.ofBytes []).string = "" := hempty
    rw [hid] at hlength
    cases hlength
  encodable :=
    { version := show 1 < 2 ^ 64 by decide
      registration := show 0 < 2 ^ 64 by decide
      result := fun document hdocument => by
        obtain rfl := Option.some.inj hdocument
        exact ⟨⟨⟨trivial, trivial⟩, trivial⟩, show 2 ≤ 9999 by decide⟩
      event := forall_mem_none
      error := forall_mem_none }
  distinct := Response.firstDuplicate_document
    (fun document hdocument => by
      obtain rfl := Option.some.inj hdocument
      rfl)
    forall_mem_none
  error := .inl ⟨rfl, rfl⟩
  presence := rfl
  result := rfl
  event := rfl
  stream := rfl

theorem getReply_length {value : String} (hvalue : (Json.string value).text.length = 2050) :
    2048 < (getReply value).document.text.length ∧
      (getReply value).document.text.length ≤ 4000 := by
  have hnames : (utf8 (Json.quote "value_base64")).length = 14 ∧
      (utf8 (Json.quote "record")).length = 8 := by decide +kernel
  have hresult : (Json.object [("record", .object [("value_base64", .string value)])]).text.length
      = 2078 := by
    rw [Json.text_object_length (List.cons_ne_nil _ []), List.map_cons, List.sum_cons,
      Json.memberLength, hnames.2, Json.text_object_length (List.cons_ne_nil _ []),
      List.map_cons, List.sum_cons, Json.memberLength, hnames.1, hvalue]
    rfl
  have hlower := Json.text_length_le_of_lookup ((getReply value).lookup_members .result)
  obtain ⟨hplain, hdatabase⟩ := databaseID_plain (DatabaseID.ofBytes [])
  have hupper := @Response.document_length_le (getReply value) rfl
    (getReply_acceptable value).operation (getReply_acceptable value).requestID hplain
    hdatabase 2088 0 0 0 0 0 (fun document hdocument => by
      obtain rfl := Option.some.inj hdocument
      omega) (.inl rfl) (.inl rfl) forall_mem_none forall_mem_none forall_mem_none
  have hdocument : (getReply value).document = .object (getReply value).members := rfl
  have hencoded : Json.encodeValue EnvelopeField.result.kind ((getReply value).envelope .result)
      = .object [("record", .object [("value_base64", .string value)])] := rfl
  rw [hencoded, hresult] at hlower
  rw [hdocument] at hupper ⊢
  omega

/-- A reply of more than the smallest frame. -/
def sampleReply : Response := getReply (String.ofList (List.replicate 2048 'A'))

theorem unary_response_fits_sampleReply :
    2048 < sampleReply.document.text.length ∧
    ∃ payload decoded, encodeResponseForFrame sampleLibrary 2048 sampleReply = .ok payload ∧
      payload.length ≤ 2048 ∧
      decodeResponse sampleLibrary payload hardMaxFrameBytes = .ok decoded ∧
      decoded.requestID = "<<\n>>" := by
  have hacceptable : sampleReply.Acceptable sampleLibrary := getReply_acceptable _
  obtain ⟨hlarge, hbound⟩ : 2048 < sampleReply.document.text.length ∧
      sampleReply.document.text.length ≤ 4000 :=
    getReply_length (Json.text_replicate_length (by decide) 2048)
  have hwritten := hacceptable.encodes sampleLibrary_inverts (by
    rw [hardMaxFrameBytes]
    omega)
  obtain ⟨payload, decoded, hencode, hlength, hdecode, hid, _⟩ :=
    unary_response_fits sampleLibrary sampleLibrary_inverts
      (show tightLimits.validate = .ok () from rfl)
      sampleReply hacceptable.encodable (by decide) rfl (by omega)
      (fun e he => by rw [hwritten] at he; cases he)
  exact ⟨hlarge, payload, decoded, hencode, hlength, hdecode, hid⟩

end GapDB
