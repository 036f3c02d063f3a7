import GapDB.Engine.State
import GapDB.Storelib.Base64

/-!
# Scans by pages

`ScanPrefix` of `engine/scan.go`. A page that stops short of the last match carries a cursor: the
key it stopped at, the revision and the instant of the first page, sealed by a checksum and encoded
as text.
-/

namespace GapDB

open Storelib

structure ScanCursor where
  start : Bytes
  lastKey : Key
  revision : Nat
  asOf : Time
deriving DecidableEq

structure ScanPage where
  records : List Record := []
  observedRevision : Nat
  asOf : Time
  cursor : Bytes := []
  truncated : Bool := false
deriving DecidableEq

def validatePrefix (start : Bytes) (limits : Limits) : Except Error Unit :=
  if ¬ validUtf8 start then .error (invalidField "prefix" "must be valid UTF-8")
  else if limits.maxKeyBytes < start.length then
    .error { code := .keyTooLarge, message := "Prefix exceeds the configured key limit.",
             retry := .never, field := "prefix", receivedBytes := start.length,
             maximumBytes := limits.maxKeyBytes, safeActions := [.reduceKey, .abort] }
  else .ok ()

def invalidCursor (reason : String) : Error :=
  { code := .invalidCursor, message := "The scan cursor is invalid.", retry := .never, reason,
    safeActions := [.restartScan, .abort] }

def scanStale (cursorRevision current : Nat) : Error :=
  { code := .scanStale, message := "The database changed after the scan page was created.",
    retry := .afterRescan, cursorRevision := some cursorRevision, currentRevision := some current,
    safeActions := [.restartScan, .abort] }

def scanRecordTooLarge (received maximum : Nat) : Error :=
  { code := .frameTooLarge, message := "A scan record exceeds the configured page byte limit.",
    retry := .never, receivedBytes := received, maximumBytes := maximum,
    safeActions := [.reduceRequest, .abort] }

/-! ### The cursor -/

def scanCursorFixedBytes : Nat := 52

def scanCursorMagic : Bytes := ascii "GAPCUR01"

/-- Everything the checksum covers. -/
def ScanCursor.body (id : DatabaseID) (cursor : ScanCursor) : Bytes :=
  scanCursorMagic ++ (id.bytes ++ (putUint 8 cursor.revision ++
    (putUint 8 (int64Bits (unixNano cursor.asOf)) ++ (putUint 4 cursor.start.length ++
      (putUint 4 cursor.lastKey.length ++ (cursor.start ++ cursor.lastKey))))))

def encodeScanCursor (id : DatabaseID) (cursor : ScanCursor) : Bytes :=
  base64Encode (cursor.body id ++ putUint 4 (crc32c (cursor.body id)))

/-- `decodeScanCursor`, behind the decoding of the text. -/
def readScanCursor (id : DatabaseID) (limits : Limits) (encoded : Bytes) :
    Except Error ScanCursor :=
  let prefixBytes := uint (slice encoded 40 44)
  let lastBytes := uint (slice encoded 44 48)
  let prefixEnd := 48 + prefixBytes
  let start := slice encoded 48 prefixEnd
  let last := slice encoded prefixEnd (encoded.length - 4)
  let asOf := int64 (uint (slice encoded 32 40))
  if slice encoded 0 8 ≠ scanCursorMagic ∨ slice encoded 8 24 ≠ id.bytes then
    .error (invalidCursor "cursor version or database ID does not match")
  else if limits.maxKeyBytes < prefixBytes ∨ limits.maxKeyBytes < lastBytes ∨
      scanCursorFixedBytes + prefixBytes + lastBytes ≠ encoded.length then
    .error (invalidCursor "cursor field lengths are invalid")
  else if crc32c (slice encoded 0 (encoded.length - 4))
      ≠ uint (slice encoded (encoded.length - 4) encoded.length) then
    .error (invalidCursor "cursor checksum does not match")
  else if ¬ validUtf8 start ∨ ¬ validUtf8 last ∨ last = [] ∨ ¬ start <+: last then
    .error (invalidCursor "cursor key fields are invalid")
  else if ¬ unixNanoRepresentable asOf then
    .error (invalidCursor "cursor as-of time is invalid")
  else .ok ⟨start, last, uint (slice encoded 24 32), asOf⟩

def decodeScanCursor (id : DatabaseID) (limits : Limits) (value : Bytes) :
    Except Error ScanCursor :=
  let maximumDecoded := scanCursorFixedBytes + 2 * limits.maxKeyBytes
  if base64Length maximumDecoded < value.length then
    .error (invalidCursor "cursor exceeds the configured bound")
  else
    match base64Decode value with
    | none => .error (invalidCursor "cursor is not canonical base64url or has an invalid size")
    | some encoded =>
      if encoded.length < scanCursorFixedBytes ∨ maximumDecoded < encoded.length ∨
          base64Encode encoded ≠ value then
        .error (invalidCursor "cursor is not canonical base64url or has an invalid size")
      else readScanCursor id limits encoded

/-! ### A page -/

def scanRecordBytes (record : Record) : Nat :=
  32 + record.key.length + record.value.length + if record.expiresAt.isSome then 8 else 0

namespace DatabaseState

/-- The loop over the index, with the records and bytes of the page so far. -/
def scanKeys (s : DatabaseState) (start : Bytes) (limit : Int) (asOf : Time) :
    List Key → List Record → Nat → Except Error (List Record × Bool)
  | [], records, _ => .ok (records, false)
  | key :: keys, records, used =>
    if ¬ start <+: key then .ok (records, false)
    else
      match s.records key with
      | none => .error (internalFailure "engine-ordered-key-index" false none)
      | some record =>
        if recordExpired record asOf then scanKeys s start limit asOf keys records used
        else if records.length = limit ∨
            s.limits.maxScanBytes < used + scanRecordBytes record then
          if records = [] then
            .error (scanRecordTooLarge (scanRecordBytes record) s.limits.maxScanBytes)
          else .ok (records, true)
        else
          scanKeys s start limit asOf keys (records ++ [record]) (used + scanRecordBytes record)

/-- The checks of `ScanPrefix` before it takes the lock; an empty text is no cursor. -/
def openScan (s : DatabaseState) (start : Bytes) (limit : Int) (encodedCursor : Bytes) :
    Except Error (Option ScanCursor) :=
  match validatePrefix start s.limits with
  | .error e => .error e
  | .ok () =>
    if limit ≤ 0 ∨ s.limits.maxScanRecords < limit then
      .error (invalidField "limit" "must be between 1 and the configured scan-record limit")
    else if encodedCursor = [] then .ok none
    else
      match decodeScanCursor s.databaseID s.limits encodedCursor with
      | .error e => .error e
      | .ok cursor =>
        if cursor.start ≠ start then
          .error (invalidCursor "cursor prefix does not match request prefix")
        else .ok (some cursor)

/-- The page that is read under the lock, at the instant `asOf`. -/
def readPage (s : DatabaseState) (start : Bytes) (limit : Int) (asOf : Time) (keys : List Key) :
    Except Error ScanPage :=
  match s.scanKeys start limit asOf keys [] 0 with
  | .error e => .error e
  | .ok (records, truncated) =>
    .ok
      { records, observedRevision := s.current, asOf, truncated
        cursor :=
          if truncated then
            encodeScanCursor s.databaseID
              ⟨start, ((records.getLast?).map Record.key).getD [], s.current, asOf⟩
          else [] }

/-- `ScanPrefix` from the lock on; `now` is the effective time. A cursor keeps the time of the first
page. -/
def scanAt (s : DatabaseState) (start : Bytes) (limit : Int) (now : Time) :
    Option ScanCursor → Except Error ScanPage
  | none =>
    s.readPage start limit now
      (s.orderedKeys.keys.drop (s.orderedKeys.keys.findIdx fun key => start ≤ key))
  | some cursor =>
    if cursor.revision ≠ s.current then .error (scanStale cursor.revision s.current)
    else
      s.readPage start limit cursor.asOf
        (s.orderedKeys.keys.drop (s.orderedKeys.keys.findIdx fun key => cursor.lastKey < key))

def scanPrefix (s : DatabaseState) (start : Bytes) (limit : Int) (encodedCursor : Bytes)
    (source : Time) : Except Error ScanPage × DatabaseState :=
  match s.openScan start limit encodedCursor with
  | .error e => (.error e, s)
  | .ok cursor =>
    let (now, clock) := s.clock.now source
    (s.scanAt start limit now cursor, { s with clock })

end DatabaseState

end GapDB
