import GapDB.Engine.PageReads

/-!
# Reads under the lock

`Get`, `ReadMany` and `ReadRecoverySnapshot` of `engine/state.go`. Each takes the effective time as
an argument: `Get` reads the clock before it takes the lock, the others while they hold it.
-/

namespace GapDB

open Storelib

/-! ### `ReadMany` -/

structure ReadManyEntry where
  key : Key
  found : Bool := false
  record : Option Record := none
deriving DecidableEq

structure ReadManyResult where
  observedRevision : Nat
  asOf : Time
  entries : List ReadManyEntry
deriving DecidableEq

/-- An error of the API, or a plain one with what it wraps. -/
inductive ReadError where
  | api (e : Error)
  | plain (text : String) (wrapped : Option Error := none)
deriving DecidableEq

/-- The zero `time.Time`: the first of January of year 1. -/
def zeroTime : Time := -62135596800 * 10 ^ 9

def duplicateRead (key : Key) : Error :=
  { code := .duplicateKey, message := "Exact read keys must be unique.", retry := .never, key,
    safeActions := [.deduplicateBatch, .abort] }

def readTooLarge (received maximum : Nat) : Error :=
  { code := .frameTooLarge, message := "Exact read response exceeds the configured scan limit.",
    retry := .never, receivedBytes := received, maximumBytes := maximum,
    safeActions := [.reduceRequest, .abort] }

/-- The checks on the requested keys; `seen` are the keys before. -/
def checkReadKeys (limits : Limits) : List Key → List Key → Except Error Unit
  | _, [] => .ok ()
  | seen, key :: keys =>
    match validateKey key limits with
    | .error e => .error e
    | .ok () =>
      if key ∈ seen then .error (duplicateRead key) else checkReadKeys limits (key :: seen) keys

/-- The checks on the entries of a result. -/
def checkReadEntries (limits : Limits) (result : ReadManyResult) :
    List Key → List ReadManyEntry → Except ReadError Unit
  | _, [] => .ok ()
  | seen, entry :: entries =>
    match (newPutMutation entry.key [] ⟨.any, 0⟩ none).validate limits with
    | .error e => .error (.plain "read-many entry key" (some e))
    | .ok () =>
      if entry.key ∈ seen then .error (.plain "read-many entry keys must be unique")
      else if entry.found ≠ entry.record.isSome then
        .error (.plain "read-many found flag and record presence differ")
      else
        match entry.record with
        | none => checkReadEntries limits result (entry.key :: seen) entries
        | some record =>
          if record.key ≠ entry.key ∨ record.revision = 0 ∨
              result.observedRevision < record.revision then
            .error (.plain "read-many record identity or revision is inconsistent")
          else if record.expiresAt.any fun t => ¬ result.asOf < t then
            .error (.plain "read-many record is expired at the observation time")
          else checkReadEntries limits result (entry.key :: seen) entries

/-- `ValidateReadManyResult`; `marshal` is the size of the JSON encoding, if there is one. -/
def validateReadManyResult (marshal : ReadManyResult → Option Nat) (result : ReadManyResult)
    (limits : Limits) : Except ReadError Unit :=
  if result.entries = [] ∨ limits.maxBatchOperations < result.entries.length then
    .error (.plain "read-many entry count is outside the configured limit")
  else if result.asOf = zeroTime then
    .error (.plain "read-many observation time is required")
  else
    match checkReadEntries limits result [] result.entries with
    | .error e => .error e
    | .ok () =>
      match marshal result with
      | none => .error (.plain "encode read-many result")
      | some size =>
        if limits.maxScanBytes = 0 ∨ limits.maxScanBytes < size then
          .error (.api (readTooLarge size limits.maxScanBytes))
        else .ok ()

/-! ### `ReadRecoverySnapshot` -/

structure RecoverySnapshotRequest where
  start : Bytes
  expectedRevision : Nat
  maxRecords : Int
  maxBytes : Int

structure RecoverySnapshotResult where
  databaseID : Bytes
  observedRevision : Nat
  asOf : Time
  records : List Record
deriving DecidableEq

def hardMaxRecoveryRecords : Int := 200000

def hardMaxRecoveryBytes : Int := 256 * 2 ^ 20

def validateRecoverySnapshotRequest (request : RecoverySnapshotRequest) (limits : Limits) :
    Except Error Unit :=
  if request.start = [] ∨ limits.maxKeyBytes < request.start.length ∨
      ¬ validUtf8 request.start then
    .error (invalidField "prefix" "must be a bounded non-empty key prefix")
  else if request.maxRecords ≤ 0 ∨ hardMaxRecoveryRecords < request.maxRecords then
    .error (invalidField "max_records" "exceeds the recovery record bound")
  else if request.maxBytes ≤ 0 ∨ hardMaxRecoveryBytes < request.maxBytes then
    .error (invalidField "max_bytes" "exceeds the recovery byte bound")
  else .ok ()

def recoveryStale (expected current : Nat) : Error :=
  { code := .scanStale,
    message := "Recovery snapshot revision differs from the current owner revision.",
    retry := .afterRescan, cursorRevision := some expected, currentRevision := some current,
    safeActions := [.restartScan, .abort] }

def recoveryTooLarge (received maximum : Int) : Error :=
  { code := .frameTooLarge, message := "Recovery snapshot exceeds its declared bound.",
    retry := .never, receivedBytes := received.toNat, maximumBytes := maximum.toNat,
    safeActions := [.reduceRequest, .abort] }

def recoveryRecordBytes (record : Record) : Int :=
  4 + record.key.length + 8 + 8 + 4 + record.value.length

namespace DatabaseState

def get (s : DatabaseState) (key : Key) (now : Time) : Except Error Record :=
  match validateKey key s.limits with
  | .error e => .error e
  | .ok () =>
    match s.records key with
    | none => .error (notFound key s.current)
    | some record =>
      if recordExpired record now then .error (notFound key s.current) else .ok record

/-- The entry of a result for one key. -/
def readEntry (s : DatabaseState) (asOf : Time) (key : Key) : ReadManyEntry :=
  match s.records key with
  | none => { key }
  | some record =>
    if recordExpired record asOf then { key } else { key, found := true, record := some record }

def readMany (s : DatabaseState) (marshal : ReadManyResult → Option Nat) (keys : List Key)
    (asOf : Time) : Except ReadError ReadManyResult :=
  if keys = [] ∨ s.limits.maxBatchOperations < keys.length then
    .error (.api (invalidField "keys"
      "must contain between 1 and the configured batch-operation limit"))
  else
    match checkReadKeys s.limits [] keys with
    | .error e => .error (.api e)
    | .ok () =>
      let result : ReadManyResult := ⟨s.current, asOf, keys.map (s.readEntry asOf)⟩
      match validateReadManyResult marshal result s.limits with
      | .error e => .error e
      | .ok () => .ok result

/-- The loop over the index, with the records and bytes so far. A key without a record is passed
over here, unlike in a scan. -/
def recoveryKeys (s : DatabaseState) (request : RecoverySnapshotRequest) (asOf : Time) :
    List Key → List Record → Int → Except Error (List Record)
  | [], records, _ => .ok records
  | key :: keys, records, bytesUsed =>
    if ¬ request.start <+: key then .ok records
    else
      match s.records key with
      | none => recoveryKeys s request asOf keys records bytesUsed
      | some record =>
        if recordExpired record asOf then recoveryKeys s request asOf keys records bytesUsed
        else if records.length = request.maxRecords ∨
            request.maxBytes - bytesUsed < recoveryRecordBytes record then
          .error (recoveryTooLarge
            (if bytesUsed ≤ request.maxBytes ∧
                recoveryRecordBytes record ≤ request.maxBytes - bytesUsed then
              bytesUsed + recoveryRecordBytes record
            else request.maxBytes + 1) request.maxBytes)
        else
          recoveryKeys s request asOf keys (records ++ [record])
            (bytesUsed + recoveryRecordBytes record)

def readRecoverySnapshot (s : DatabaseState) (request : RecoverySnapshotRequest) (asOf : Time) :
    Except Error RecoverySnapshotResult :=
  match validateRecoverySnapshotRequest request s.limits with
  | .error e => .error e
  | .ok () =>
    if request.expectedRevision ≠ s.current then
      .error (recoveryStale request.expectedRevision s.current)
    else
      match s.recoveryKeys request asOf
          (s.orderedKeys.keys.drop (searchStrings s.orderedKeys.keys request.start)) []
          (8 + 2 + s.databaseID.string.length + 2 + 256 + 8 + 8 + 4 + 32) with
      | .error e => .error e
      | .ok records => .ok ⟨s.databaseID.string, s.current, asOf, records⟩

end DatabaseState

/-! ### Readers show what is live -/

open DatabaseState

theorem visible_eq_some {m : RecordMap} {now : Time} {key : Key} {record : Record} :
    m.visible now key = some record ↔ m key = some record ∧ recordExpired record now = false := by
  rw [RecordMap.visible, Option.filter_eq_some_iff]
  simp

section

variable {s : DatabaseState} (h : s.Indexed) {now : Time}

include h

theorem get_visible {key : Key} {record : Record} (hget : s.get key now = .ok record) :
    s.records.visible now record.key = some record := by
  unfold DatabaseState.get at hget
  split at hget
  · cases hget
  split at hget
  · cases hget
  next found hfound =>
  split at hget
  · cases hget
  next hlive =>
    obtain rfl := Except.ok.inj hget
    rw [h.key hfound]
    exact visible_eq_some.mpr ⟨hfound, by simpa using hlive⟩

theorem readEntry_visible {key : Key} {record : Record}
    (hentry : (s.readEntry now key).record = some record) :
    s.records.visible now record.key = some record := by
  unfold readEntry at hentry
  split at hentry
  · cases hentry
  next found hfound =>
  split at hentry
  · cases hentry
  next hlive =>
    obtain rfl := Option.some.inj hentry
    rw [h.key hfound]
    exact visible_eq_some.mpr ⟨hfound, by simpa using hlive⟩

theorem readMany_visible {marshal : ReadManyResult → Option Nat} {keys : List Key}
    {result : ReadManyResult} (hread : s.readMany marshal keys now = .ok result) :
    ∀ record ∈ result.entries.filterMap ReadManyEntry.record,
      s.records.visible now record.key = some record := by
  unfold readMany at hread
  split at hread
  · cases hread
  split at hread
  · cases hread
  simp only at hread
  split at hread
  · cases hread
  obtain rfl := Except.ok.inj hread
  intro record hrecord
  obtain ⟨entry, hentry, heq⟩ := List.mem_filterMap.mp hrecord
  obtain ⟨key, -, rfl⟩ := List.mem_map.mp hentry
  exact readEntry_visible h heq

theorem recoveryKeys_visible {request : RecoverySnapshotRequest} (keys : List Key)
    {records result : List Record} {used : Int}
    (hread : s.recoveryKeys request now keys records used = .ok result)
    (hrecords : ∀ record ∈ records, s.records.visible now record.key = some record) :
    ∀ record ∈ result, s.records.visible now record.key = some record := by
  induction keys generalizing records used with
  | nil =>
    obtain rfl := Except.ok.inj hread
    exact hrecords
  | cons key keys ih =>
    rw [recoveryKeys] at hread
    split at hread
    · obtain rfl := Except.ok.inj hread
      exact hrecords
    split at hread
    · exact ih hread hrecords
    next found hfound =>
    split at hread
    · exact ih hread hrecords
    next hlive =>
    split at hread
    · cases hread
    · refine ih hread fun record hrecord => ?_
      rcases List.mem_append.mp hrecord with hold | hnew
      · exact hrecords record hold
      · obtain rfl := List.mem_singleton.mp hnew
        rw [h.key hfound]
        exact visible_eq_some.mpr ⟨hfound, by simpa using hlive⟩

theorem readRecoverySnapshot_visible {request : RecoverySnapshotRequest}
    {result : RecoverySnapshotResult}
    (hread : s.readRecoverySnapshot request now = .ok result) :
    ∀ record ∈ result.records, s.records.visible now record.key = some record := by
  unfold readRecoverySnapshot at hread
  split at hread
  · cases hread
  split at hread
  · cases hread
  split at hread
  · cases hread
  next records hrecords =>
    obtain rfl := Except.ok.inj hread
    exact recoveryKeys_visible h _ hrecords (by simp)

theorem firstPage_visible {start : Bytes} {limit : Int} (hlimit : 0 < limit) {page : ScanPage}
    (hpage : s.scanAt start limit now none = .ok page) :
    ∀ record ∈ page.records, s.records.visible now record.key = some record := by
  intro record hrecord
  have hreads : s.ReadsPage start now (s.matching start now) (s.scanAt start limit now none) :=
    readPage_reads (h.firstPage_ends hlimit)
  have hmem : record ∈ s.matching start now := by
    rw [hpage] at hreads
    cases hreads with
    | whole page truncated records => exact records ▸ hrecord
    | part page last next truncated split => exact split ▸ List.mem_append_left _ hrecord
  obtain ⟨hfound, -, hlive⟩ := h.mem_matching.mp hmem
  exact visible_eq_some.mpr ⟨hfound, hlive⟩

end

theorem limit_of_openScan {s : DatabaseState} {start : Bytes} {limit : Int} {encoded : Bytes}
    {cursor : Option ScanCursor} (h : s.openScan start limit encoded = .ok cursor) : 0 < limit := by
  unfold openScan at h
  split at h
  · cases h
  split at h
  · cases h
  · omega

theorem openScan_nil {s : DatabaseState} {start : Bytes} {limit : Int}
    {cursor : Option ScanCursor} (h : s.openScan start limit [] = .ok cursor) : cursor = none := by
  unfold openScan at h
  split at h
  · cases h
  split at h
  · cases h
  · exact (Except.ok.inj h).symm

end GapDB
