import GapDB.Batch
import GapDB.Protocol.ErrorEvidence
import GapDB.Storelib.Utf8Text

/-!
# The events of a watch on the wire

`decodeEvent` of `internal/protocol/envelope.go` and `validateClientEvent` of
`gapdb/client_codec.go`. Both read the record of an event through a type with a decoder of its own;
they differ in their texts and in what they do with the fields.
-/

namespace GapDB

open Storelib

/-! ### Texts -/

/-- The text of a byte string of valid UTF-8. -/
def bytesText (bs : Bytes) : String := String.ofList ((utf8Chars bs).getD [])

theorem toList_bytesText {bs : Bytes} (h : validUtf8 bs = true) :
    utf8 (bytesText bs).toList = bs := by
  obtain ⟨cs, rfl⟩ := exists_utf8 bs h
  rw [bytesText, utf8Chars_utf8, Option.getD_some, String.toList_ofList]

def base64Digit (n : Nat) : Char :=
  if n < 26 then Char.ofNat (65 + n)
  else if n < 52 then Char.ofNat (71 + n)
  else if n < 62 then Char.ofNat (n - 4)
  else if n = 62 then '+'
  else '/'

/-- `StdEncoding`, as `Marshal` writes a byte slice. -/
def standardBase64 : Bytes → List Char
  | [] => []
  | [a] => [base64Digit (a.val / 4), base64Digit (a.val % 4 * 16), '=', '=']
  | [a, b] =>
    [base64Digit (a.val / 4), base64Digit (a.val % 4 * 16 + b.val / 16),
     base64Digit (b.val % 16 * 4), '=']
  | a :: b :: c :: rest =>
    base64Digit (a.val / 4) :: base64Digit (a.val % 4 * 16 + b.val / 16) ::
      base64Digit (b.val % 16 * 4 + c.val / 64) :: base64Digit (c.val % 64) :: standardBase64 rest

def ChangeKind.text : ChangeKind → String
  | .put => "put"
  | .delete => "delete"
  | .expire => "expire"

def ChangeKind.ofText (text : String) : Option ChangeKind :=
  [ChangeKind.put, .delete, .expire].find? fun kind => kind.text == text

/-! ### The decoders -/

inductive RecordField where
  | key | value | revision | expiresAt

def RecordField.ofName : String → Option RecordField
  | "key" => some .key
  | "value_base64" => some .value
  | "revision" => some .revision
  | "expires_at" => some .expiresAt
  | _ => none

inductive EventField where
  | revision | order | kind | key | record

def EventField.ofName : String → Option EventField
  | "revision" => some .revision
  | "order" => some .order
  | "kind" => some .kind
  | "key" => some .key
  | "record" => some .record
  | _ => none

/-- What reading an event takes from Go's library besides its JSON. -/
structure EventLibrary extends GoLibrary where
  foldRecordName : String → Option RecordField
  foldEventName : String → Option EventField
  recordMismatch : Option RecordField → Json → String
  eventMismatch : Option EventField → Json → String
  /-- `StdEncoding.Strict().DecodeString`. -/
  decodeBase64 : String → Option Bytes
  /-- `Format` in UTC and `time.Parse`, both with the layout `RFC3339Nano`. -/
  formatTime : Time → String
  parseTime : String → Option Time

/-- `wireRecord` and `clientWireRecord`. -/
structure WireRecord where
  key : String := ""
  value : Bytes := []
  revision : Nat := 0
  expiresAt : Option Time := none

structure WireEvent where
  revision : Nat := 0
  order : Nat := 0
  kind : String := ""
  key : String := ""
  record : Option WireRecord := none

/-- The two codecs. -/
inductive CodecSide where
  | protocol | client

namespace CodecSide

def base64Null : CodecSide → String
  | .protocol => "must be a padded standard-base64 string"
  | .client => "base64 value must be a string"

def base64String : CodecSide → String
  | .protocol => "must be a padded standard-base64 string: "
  | .client => ""

def base64Canonical : CodecSide → String
  | .protocol => "must be canonical padded standard base64"
  | .client => "base64 value is not canonical padded standard base64"

def instantString : CodecSide → String
  | .protocol => "must be an RFC3339Nano UTC string: "
  | .client => ""

def instantCanonical : CodecSide → String
  | .protocol => "must be canonical RFC3339Nano UTC with a Z suffix"
  | .client => "timestamp is not canonical RFC3339Nano UTC"

/-- The strict decoder of the codec. -/
def strict {α : Type} (side : CodecSide) (go : GoLibrary) (decode : Json → Except String α)
    (raw : Bytes) : Except String α :=
  match side with
  | .protocol => decodeStrict go decode raw
  | .client => clientDecodeStrict go decode raw

end CodecSide

section

variable (go : EventLibrary) (side : CodecSide)

/-- `UnmarshalJSON` of `Base64Bytes` and of `clientBase64`. -/
def decodeBase64Bytes : Json → Except String Bytes
  | .null => .error side.base64Null
  | .string text =>
    match go.decodeBase64 text with
    | none => .error side.base64Canonical
    | some decoded =>
      if String.ofList (standardBase64 decoded) ≠ text then .error side.base64Canonical
      else .ok decoded
  | value => .error (side.base64String ++ go.recordMismatch (some .value) value)

/-- `UnmarshalJSON` of `UTCInstant` and of `clientUTCInstant`. -/
def decodeInstant : Json → Except String Time
  | .string text =>
    match go.parseTime text with
    | none => .error side.instantCanonical
    | some parsed =>
      if text.toList.getLast? ≠ some 'Z' ∨ go.formatTime parsed ≠ text then
        .error side.instantCanonical
      else .ok parsed
  | value => .error (side.instantString ++ go.recordMismatch (some .expiresAt) value)

def orMismatch {α : Type} (reason : String) : Option α → Except String α
  | none => .error reason
  | some value => .ok value

def setRecordField (field : RecordField) (record : WireRecord) (value : Json) :
    Except String WireRecord :=
  match field with
  | .key =>
    (orMismatch (go.recordMismatch (some .key) value) (Json.decodeText record.key value)).map
      fun key => { record with key }
  | .value => (decodeBase64Bytes go side value).map fun value => { record with value }
  | .revision =>
    (orMismatch (go.recordMismatch (some .revision) value)
      (Json.decodeUint record.revision value)).map fun revision => { record with revision }
  | .expiresAt =>
    match value with
    | .null => .ok { record with expiresAt := none }
    | value => (decodeInstant go side value).map fun t => { record with expiresAt := some t }

def decodeRecordFields : Json → Except String WireRecord
  | .object members =>
    Json.decodeMembers (fun name => (RecordField.ofName name).or (go.foldRecordName name))
      (fun name => "json: unknown field " ++ go.quote name) (setRecordField go side) {} members
  | .null => .ok {}
  | value => .error (go.recordMismatch none value)

/-- `UnmarshalJSON` of `wireRecord` and of `clientWireRecord`. -/
def decodeWireRecord (encoded : Bytes) : Except String WireRecord :=
  match go.unmarshalObject encoded with
  | .error reason => .error reason
  | .ok object =>
    match ["key", "value_base64", "revision"].find? fun name => (object.lookup name).isNone with
    | some name => .error ("record field " ++ go.quote name ++ " is required")
    | none => side.strict go.toGoLibrary (decodeRecordFields go side) encoded

def setEventField (field : EventField) (event : WireEvent) (value : Json) :
    Except String WireEvent :=
  match field with
  | .revision =>
    (orMismatch (go.eventMismatch (some .revision) value)
      (Json.decodeUint event.revision value)).map fun revision => { event with revision }
  | .order =>
    (orMismatch (go.eventMismatch (some .order) value)
      ((Json.decodeUint event.order value).filter (· < 2 ^ 32))).map fun order =>
        { event with order }
  | .kind =>
    (orMismatch (go.eventMismatch (some .kind) value) (Json.decodeText event.kind value)).map
      fun kind => { event with kind }
  | .key =>
    (orMismatch (go.eventMismatch (some .key) value) (Json.decodeText event.key value)).map
      fun key => { event with key }
  | .record =>
    match value with
    | .null => .ok { event with record := none }
    | value => (decodeWireRecord go side value.text).map fun record =>
        { event with record := some record }

def decodeEventFields : Json → Except String WireEvent
  | .object members =>
    Json.decodeMembers (fun name => (EventField.ofName name).or (go.foldEventName name))
      (fun name => "json: unknown field " ++ go.quote name) (setEventField go side) {} members
  | .null => .ok {}
  | value => .error (go.eventMismatch none value)

end

/-- The limits under which a record of a response is checked. -/
def wireRecordLimits : Limits :=
  { defaultLimits with
    maxKeyBytes := hardCeilings.maxKeyBytes, maxValueBytes := hardCeilings.maxValueBytes }

/-- `wireRecord.public`. -/
def WireRecord.publicRecord (record : WireRecord) : Except Error Record :=
  let key := utf8 record.key.toList
  andThen ((newPutMutation key record.value ⟨.any, 0⟩ record.expiresAt).validate
    wireRecordLimits) <|
  if record.revision = 0 then
      .error (invalidProtocol "record.revision" "must be greater than zero")
    else .ok (newRecord key record.value record.revision record.expiresAt)

def decodeEvent (go : EventLibrary) (raw : Json) : Except Error ChangeEvent :=
  match decodeStrict go.toGoLibrary (decodeEventFields go .protocol) raw.text with
  | .error reason => .error (invalidProtocol "event" reason)
  | .ok wire =>
    let key := utf8 wire.key.toList
    if wire.revision = 0 then
      .error (invalidProtocol "event.revision" "must be greater than zero")
    else
      match ChangeKind.ofText wire.kind with
      | some .put =>
        match wire.record with
        | none => .error (invalidProtocol "event.record" "is required for put")
        | some record =>
          match record.publicRecord with
          | .error e => .error e
          | .ok record =>
            if record.key ≠ key ∨ record.revision ≠ wire.revision then
              .error (invalidProtocol "event.record" "must match the event key and revision")
            else .ok ⟨wire.revision, wire.order, .put, key, some record⟩
      | some kind =>
        if wire.record.isSome then
          .error (invalidProtocol "event.record" "must be omitted for delete and expire")
        else .ok ⟨wire.revision, wire.order, kind, key, none⟩
      | none => .error (invalidProtocol "event.kind" "must be put, delete, or expire")

/-- The text of an error, `Error.Error`. -/
def Error.text (e : Error) : String :=
  if e.message = "" then e.code.text else e.code.text ++ ": " ++ e.message

/-- `clientWireRecord.validate`. -/
def WireRecord.validate (record : WireRecord) : Except String Unit :=
  match (newPutMutation (utf8 record.key.toList) record.value ⟨.any, 0⟩ none).validate
      wireRecordLimits with
  | .error e => .error e.text
  | .ok () => if record.revision = 0 then .error "record revision must be nonzero" else .ok ()

def validateClientEvent (go : EventLibrary) (raw : Bytes) : Except String Unit :=
  match clientDecodeStrict go.toGoLibrary (decodeEventFields go .client) raw with
  | .error reason => .error reason
  | .ok value =>
    if value.revision = 0 then .error "event revision must be nonzero"
    else
      match ChangeKind.ofText value.kind with
      | some .put =>
        match value.record with
        | none => .error "put event record must match event"
        | some record =>
          if record.key ≠ value.key ∨ record.revision ≠ value.revision then
            .error "put event record must match event"
          else record.validate
      | some _ =>
        if value.record.isSome then .error "delete/expire event cannot contain record"
        else .ok ()
      | none => .error "event kind is invalid"

end GapDB
