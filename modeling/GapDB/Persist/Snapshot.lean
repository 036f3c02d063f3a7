import GapDB.Persist.Frame
import GapDB.Persist.Manifest
import GapDB.Storelib.Sha256
import Mathlib.Data.List.Sort

/-!
# Snapshots

The snapshot codec of `persist/snapshot.go`: a header, one item per record in the order of the
keys, and a digest over both. Records that have expired at the as-of instant are left out.
-/

namespace GapDB

open Storelib

variable {limits : Limits} {previous : Option Key}

def snapshotHeaderSize : Nat := 64

def snapshotItemHeader : Nat := 40

def snapshotTrailer : Nat := 32

def maxSnapshotBytes : Nat := 2 ^ 30

structure SnapshotState where
  revision : Nat := 0
  records : List Record := []
deriving DecidableEq

/-- What `filepath.Base` makes of an empty name. -/
def noFile : Bytes := ascii "."

/-! ### Encoding -/

def Record.itemSize (record : Record) : Nat :=
  snapshotItemHeader + record.key.length + record.value.length

/-- The two lengths, the revision, the expiry with its flag, and reserved bytes. -/
def recordFixed (record : Record) : Bytes :=
  putUint 4 record.key.length ++ (putUint 4 record.value.length ++ (putUint 8 record.revision ++
    (putUint 1 (expiryFlag record.expiresAt) ++ (putUint 7 0 ++
      (putUint 8 (expiryWord record.expiresAt) ++ putUint 8 0)))))

def encodeRecord (record : Record) : Bytes := recordFixed record ++ (record.key ++ record.value)

/-- The loop that checks the sorted records and adds up their sizes. -/
def snapshotPayload (limits : Limits) (revision : Nat) :
    Option Key → Nat → Nat → List Record → Except Error Nat
  | _, _, payloadBytes, [] => .ok payloadBytes
  | previous, index, payloadBytes, record :: records =>
    if record.key = [] ∨ ¬ validUtf8 record.key ∨ limits.maxKeyBytes < record.key.length ∨
        limits.maxValueBytes < record.value.length ∨ record.revision = 0 ∨
        revision < record.revision then
      .error (corruptSnapshot "snapshot record fields are invalid" noFile index none)
    else if previous = some record.key then
      .error (corruptSnapshot "snapshot contains duplicate keys" noFile index none)
    else if ¬ record.expiresAt.all unixNanoRepresentable then
      .error (corruptSnapshot "snapshot expiry is outside the signed Unix nanosecond range" noFile
        index none)
    else if maxUint64 - record.itemSize < payloadBytes then
      .error (corruptSnapshot "snapshot payload length overflows" noFile index none)
    else
      snapshotPayload limits revision (some record.key) (index + 1)
        (payloadBytes + record.itemSize) records

def snapshotMagic : Bytes := ascii "GAPSNAP1"

namespace SnapshotState

def payloadBytes (state : SnapshotState) : Nat := (state.records.map Record.itemSize).sum

def body (state : SnapshotState) (id : DatabaseID) : Bytes :=
  snapshotMagic ++ (putUint 2 storageVersion ++ (putUint 2 snapshotHeaderSize ++ (id.bytes ++
    (putUint 8 state.revision ++ (putUint 8 state.records.length ++ (putUint 8 state.payloadBytes ++
      (putUint 12 0 ++ state.records.flatMap encodeRecord)))))))

def digest (state : SnapshotState) (id : DatabaseID) : Bytes := sha256 (state.body id)

def bytes (state : SnapshotState) (id : DatabaseID) : Bytes := state.body id ++ state.digest id

/-- The records that are kept at the as-of instant, in the order of their keys. -/
def kept (state : SnapshotState) (asOf : Time) : List Record :=
  (state.records.filter fun record => record.expiresAt.all fun t => asOf < t).insertionSort
    fun a b => a.key ≤ b.key

end SnapshotState

/-- `EncodeSnapshot`: the file and its digest. A payload for which the total would wrap cannot be
held in memory. -/
def encodeSnapshot (databaseID : DatabaseID) (state : SnapshotState) (asOf : Time)
    (limits : Limits) : Except Error (Bytes × Bytes) :=
  if databaseID.isZero ∨ limits.maxKeyBytes = 0 ∨ limits.maxValueBytes = 0 then
    .error (corruptSnapshot "database ID and snapshot limits must be valid" noFile 0 none)
  else
    let kept : SnapshotState := ⟨state.revision, state.kept asOf⟩
    match snapshotPayload limits state.revision none 0 0 kept.records with
    | .error e => .error e
    | .ok payloadBytes =>
      let total := snapshotHeaderSize + snapshotTrailer + payloadBytes
      if maxSnapshotBytes < total ∨ maxInt < total then
        .error (corruptSnapshot "snapshot exceeds the format size bound" noFile 0 none)
      else .ok (kept.bytes databaseID, kept.digest databaseID)

/-! ### Decoding -/

/-- One turn of the decoding loop: the record at `offset` and the payload behind it. -/
def decodeRecord (limits : Limits) (revision : Nat) (previous : Option Key) (offset : Nat)
    (rest : Bytes) : Except Error (Record × Bytes) :=
  let keyBytes := uint (slice rest 0 4)
  let valueBytes := uint (slice rest 4 8)
  let recordRevision := uint (slice rest 8 16)
  let flags := uint (slice rest 16 17)
  let expiryNanos := int64 (uint (slice rest 24 32))
  let remaining := rest.length - snapshotItemHeader
  let key := slice rest snapshotItemHeader (snapshotItemHeader + keyBytes)
  let value := slice rest (snapshotItemHeader + keyBytes)
    (snapshotItemHeader + keyBytes + valueBytes)
  let behind := rest.drop (snapshotItemHeader + keyBytes + valueBytes)
  if rest.length < snapshotItemHeader then
    .error (corruptSnapshot "record header is truncated" noFile offset none)
  else if 1 < flags ∨ ¬ allZero (slice rest 17 24) ∨ ¬ allZero (slice rest 32 40) then
    .error (corruptSnapshot "record flags or reserved bytes are invalid" noFile offset none)
  else if keyBytes = 0 ∨ limits.maxKeyBytes < keyBytes ∨ limits.maxValueBytes < valueBytes ∨
      remaining < keyBytes ∨ remaining - keyBytes < valueBytes then
    .error (corruptSnapshot "record key/value lengths exceed bounds" noFile
      (offset + snapshotItemHeader) none)
  else if ¬ validUtf8 key ∨ recordRevision = 0 ∨ revision < recordRevision ∨
      previous.any (key ≤ ·) then
    .error (corruptSnapshot "records are invalid, duplicated, or not strictly sorted" noFile
      (offset + snapshotItemHeader) none)
  else if flags = 1 then .ok (newRecord key value recordRevision (some expiryNanos), behind)
  else if expiryNanos ≠ 0 then
    .error (corruptSnapshot "expiry is nonzero without its flag" noFile
      (offset + snapshotItemHeader) none)
  else .ok (newRecord key value recordRevision none, behind)

def decodeRecords (limits : Limits) (revision payloadEnd : Nat) :
    Nat → Option Key → Bytes → Except Error (List Record × Bytes)
  | 0, _, rest => .ok ([], rest)
  | count + 1, previous, rest =>
    match decodeRecord limits revision previous (payloadEnd - rest.length) rest with
    | .error e => .error e
    | .ok (record, behind) =>
      match decodeRecords limits revision payloadEnd count (some record.key) behind with
      | .error e => .error e
      | .ok (records, behind) => .ok (record :: records, behind)

def decodeSnapshot (encoded : Bytes) (expectedID : DatabaseID) (expectedDigest : Bytes)
    (limits : Limits) : Except Error SnapshotState :=
  let version := uint (slice encoded 8 10)
  let databaseID := DatabaseID.ofBytes (slice encoded 12 28)
  let revision := uint (slice encoded 28 36)
  let count := uint (slice encoded 36 44)
  let payloadBytes := uint (slice encoded 44 52)
  let payloadEnd := encoded.length - snapshotTrailer
  let digest := sha256 (slice encoded 0 payloadEnd)
  if encoded.length < snapshotHeaderSize + snapshotTrailer ∨ maxSnapshotBytes < encoded.length then
    .error (corruptSnapshot "snapshot size is outside bounds" noFile 0 none)
  else if slice encoded 0 8 ≠ snapshotMagic then
    .error (corruptSnapshot "magic does not match GAPSNAP1" noFile 0 none)
  else if version ≠ storageVersion then .error (unknownStorageFormat (ascii "snapshot") version)
  else if uint (slice encoded 10 12) ≠ snapshotHeaderSize ∨ ¬ allZero (slice encoded 52 64) then
    .error (corruptSnapshot "header length or reserved bytes are invalid" noFile 0 none)
  else if databaseID ≠ expectedID then
    .error (databaseIDMismatch expectedID databaseID (ascii "snapshot"))
  else if u64 (payloadBytes + snapshotHeaderSize + snapshotTrailer) ≠ encoded.length ∨
      payloadBytes / snapshotItemHeader < count then
    .error (corruptSnapshot "revision, count, or payload length is invalid" noFile 0 none)
  else if digest ≠ expectedDigest ∨ digest ≠ slice encoded payloadEnd encoded.length then
    .error (corruptSnapshot "SHA-256 mismatch" noFile payloadEnd none)
  else
    match decodeRecords limits revision payloadEnd count none
        (slice encoded snapshotHeaderSize payloadEnd) with
    | .error e => .error e
    | .ok (records, behind) =>
      if behind ≠ [] then
        .error (corruptSnapshot "snapshot payload has trailing bytes" noFile
          (payloadEnd - behind.length) none)
      else .ok ⟨revision, records⟩

/-! ### Round trip -/

/-- A record that fits in a snapshot at `revision`. -/
structure Record.Storable (limits : Limits) (revision : Nat) (record : Record) : Prop where
  nonempty : record.key ≠ []
  utf8 : validUtf8 record.key
  keyLength : record.key.length ≤ limits.maxKeyBytes
  valueLength : record.value.length ≤ limits.maxValueBytes
  assigned : record.revision ≠ 0
  old : record.revision ≤ revision
  expiry : ∀ t, record.expiresAt = some t → unixNanoRepresentable t

/-- A snapshot that `EncodeSnapshot` can have written. -/
structure SnapshotState.Encodable (limits : Limits) (state : SnapshotState) : Prop where
  revision : state.revision < 2 ^ 64
  records : ∀ record ∈ state.records, record.Storable limits state.revision
  sorted : (state.records.map Record.key).Pairwise (· < ·)
  size : snapshotHeaderSize + snapshotTrailer + state.payloadBytes ≤ maxSnapshotBytes

@[simp] theorem recordFixed_length (record : Record) : (recordFixed record).length = 40 := by
  simp [recordFixed]

@[simp] theorem encodeRecord_length (record : Record) :
    (encodeRecord record).length = record.itemSize := by
  simp only [encodeRecord, List.length_append, recordFixed_length, Record.itemSize,
    snapshotItemHeader]
  omega

/-- What stands at the front of an encoded record. -/
theorem encodeRecord_prefix_iff {record : Record} {bs : Bytes} : encodeRecord record <+: bs ↔
    slice bs 0 4 = putUint 4 record.key.length ∧ slice bs 4 8 = putUint 4 record.value.length ∧
      slice bs 8 16 = putUint 8 record.revision ∧
      slice bs 16 17 = putUint 1 (expiryFlag record.expiresAt) ∧ slice bs 17 24 = putUint 7 0 ∧
      slice bs 24 32 = putUint 8 (expiryWord record.expiresAt) ∧ slice bs 32 40 = putUint 8 0 ∧
      slice bs 40 (40 + record.key.length) = record.key ∧
      slice bs (40 + record.key.length) (40 + record.key.length + record.value.length)
        = record.value := by
  have h := @carries_iff bs 0 [putUint 4 record.key.length, putUint 4 record.value.length,
    putUint 8 record.revision, putUint 1 (expiryFlag record.expiresAt), putUint 7 0,
    putUint 8 (expiryWord record.expiresAt), putUint 8 0, record.key, record.value]
  simpa [Carries, encodeRecord, recordFixed] using h.symm

theorem decodeRecord_encodeRecord {revision : Nat}
    (hrevision : revision < 2 ^ 64) {record : Record} (h : record.Storable limits revision)
    (hword : record.itemSize < 2 ^ 32) (hprevious : ∀ key, previous = some key → key < record.key)
    (offset : Nat) (behind : Bytes) :
    decodeRecord limits revision previous offset (encodeRecord record ++ behind)
      = .ok (record, behind) := by
  have hkey := h.keyLength
  have hvalue := h.valueLength
  have hold := h.old
  have hpositive := List.length_pos_of_ne_nil h.nonempty
  have hflag := expiryFlag_le record.expiresAt
  have hlength := encodeRecord_length record
  have hbehind : (encodeRecord record ++ behind).drop
      (40 + record.key.length + record.value.length) = behind := List.drop_left' hlength
  simp only [Record.itemSize, snapshotItemHeader] at hword hlength
  have hsorted : previous.any (record.key ≤ ·) = false := by
    cases previous with
    | none => rfl
    | some key => simpa using hprevious key rfl
  obtain ⟨hkeyLength, hvalueLength, hrevisionAt, hflags, hreserved, hexpiry, hreserved', hkeyAt,
    hvalueAt⟩ := encodeRecord_prefix_iff.mp (List.prefix_append (encodeRecord record) behind)
  simp only [decodeRecord, snapshotItemHeader, List.length_append, hlength, hkeyLength,
    hvalueLength, hrevisionAt, hflags, hreserved, hexpiry, hreserved',
    uint_putUint (show record.key.length < 256 ^ 4 by omega),
    uint_putUint (show record.value.length < 256 ^ 4 by omega),
    uint_putUint (show record.revision < 256 ^ 8 by omega),
    uint_putUint (show expiryFlag record.expiresAt < 256 ^ 1 by omega),
    uint_putUint (expiryWord_lt _), hkeyAt, hvalueAt, hbehind, allZero_putUint]
  rw [if_neg (by omega), if_neg (by simpa using hflag), if_neg (by omega),
    if_neg (by simp [h.utf8, h.assigned, hold, hsorted])]
  obtain ⟨key, value, recordRevision, expiresAt⟩ := record
  cases expiresAt with
  | none => simp [expiryFlag, expiryWord, int64_zero, newRecord]
  | some t =>
    have ht := int64_int64Bits (h.expiry t rfl)
    simp [expiryFlag, expiryWord, ht, newRecord]

theorem decodeRecords_flatMap {revision : Nat}
    (hrevision : revision < 2 ^ 64) {records : List Record}
    (h : ∀ record ∈ records, record.Storable limits revision)
    (hword : ∀ record ∈ records, record.itemSize < 2 ^ 32)
    (hsorted : (records.map Record.key).Pairwise (· < ·))
    (hprevious : ∀ key, previous = some key → ∀ record ∈ records, key < record.key)
    (payloadEnd : Nat) (behind : Bytes) :
    decodeRecords limits revision payloadEnd records.length previous
      (records.flatMap encodeRecord ++ behind) = .ok (records, behind) := by
  induction records generalizing previous with
  | nil => rfl
  | cons record records ih =>
    rw [List.forall_mem_cons] at h hword
    rw [List.map_cons, List.pairwise_cons] at hsorted
    rw [List.length_cons, decodeRecords, List.flatMap_cons, List.append_assoc,
      decodeRecord_encodeRecord hrevision h.1 hword.1
        fun key hkey => hprevious key hkey _ (by simp)]
    simp only
    rw [ih h.2 hword.2 hsorted.2 fun key hkey other hother => ?_]
    rw [Option.some.injEq] at hkey
    subst hkey
    exact hsorted.1 other.key (List.mem_map_of_mem hother)

theorem flatMap_encodeRecord_length (records : List Record) :
    (records.flatMap encodeRecord).length = (records.map Record.itemSize).sum := by
  induction records with
  | nil => rfl
  | cons record records ih => simp [ih]

namespace SnapshotState

theorem body_length (state : SnapshotState) (id : DatabaseID) :
    (state.body id).length = 64 + state.payloadBytes := by
  have hmagic : snapshotMagic.length = 8 := rfl
  simp only [body, List.length_append, putUint_length, hmagic, id.size,
    flatMap_encodeRecord_length, payloadBytes]
  omega

theorem bytes_length (state : SnapshotState) (id : DatabaseID) :
    (state.bytes id).length = 96 + state.payloadBytes := by
  simp only [bytes, digest, List.length_append, body_length, sha256_length]
  omega

/-- Every record takes at least its fixed header. -/
theorem records_length_mul_le (state : SnapshotState) :
    40 * state.records.length ≤ state.payloadBytes := by
  unfold payloadBytes
  induction state.records with
  | nil => simp
  | cons record records ih =>
    simp only [List.length_cons, List.map_cons, List.sum_cons, Record.itemSize, snapshotItemHeader]
    omega

end SnapshotState

/-- What the decoder reads from an encoded snapshot. -/
structure SnapshotFields (state : SnapshotState) (id : DatabaseID) (bs : Bytes) : Prop where
  length : bs.length = 96 + state.payloadBytes
  magic : slice bs 0 8 = snapshotMagic
  version : uint (slice bs 8 10) = storageVersion
  size : uint (slice bs 10 12) = snapshotHeaderSize
  database : slice bs 12 28 = id.bytes
  revision : uint (slice bs 28 36) = state.revision
  count : uint (slice bs 36 44) = state.records.length
  payloadBytes : uint (slice bs 44 52) = state.payloadBytes
  reserved : allZero (slice bs 52 64)
  payload : slice bs 64 (64 + state.payloadBytes) = state.records.flatMap encodeRecord
  signed : slice bs 0 (64 + state.payloadBytes) = state.body id
  digest : slice bs (64 + state.payloadBytes) (96 + state.payloadBytes) = state.digest id

variable {state : SnapshotState}

theorem SnapshotState.body_prefix_iff {id : DatabaseID} {bs : Bytes} : state.body id <+: bs ↔
    slice bs 0 8 = snapshotMagic ∧ slice bs 8 10 = putUint 2 storageVersion ∧
      slice bs 10 12 = putUint 2 snapshotHeaderSize ∧ slice bs 12 28 = id.bytes ∧
      slice bs 28 36 = putUint 8 state.revision ∧
      slice bs 36 44 = putUint 8 state.records.length ∧
      slice bs 44 52 = putUint 8 state.payloadBytes ∧ slice bs 52 64 = putUint 12 0 ∧
      slice bs 64 (64 + state.payloadBytes) = state.records.flatMap encodeRecord := by
  have hmagic : snapshotMagic.length = 8 := rfl
  have h := @carries_iff bs 0 [snapshotMagic, putUint 2 storageVersion,
    putUint 2 snapshotHeaderSize, id.bytes, putUint 8 state.revision,
    putUint 8 state.records.length, putUint 8 state.payloadBytes, putUint 12 0,
    state.records.flatMap encodeRecord]
  simp only [Carries, hmagic, id.size, putUint_length, flatMap_encodeRecord_length] at h
  simpa [SnapshotState.body, SnapshotState.payloadBytes] using h.symm

theorem SnapshotState.Encodable.fields (h : state.Encodable limits) (id : DatabaseID) :
    SnapshotFields state id (state.bytes id) := by
  have hsize := h.size
  have hcount := state.records_length_mul_le
  have hbody := state.body_length id
  simp only [snapshotHeaderSize, snapshotTrailer, maxSnapshotBytes] at hsize
  obtain ⟨hmagic, hversion, hheader, hid, hrevision, hcountAt, hpayloadBytes, hreserved,
    hpayload⟩ := SnapshotState.body_prefix_iff.mp (List.prefix_append (state.body id)
      (state.digest id))
  rw [← SnapshotState.bytes] at *
  exact
    { length := state.bytes_length id, magic := hmagic, database := hid, payload := hpayload
      version := by rw [hversion, uint_putUint (by decide)]
      size := by rw [hheader, uint_putUint (by decide)]
      revision := by rw [hrevision, uint_putUint h.revision]
      count := by rw [hcountAt, uint_putUint (by omega)]
      payloadBytes := by rw [hpayloadBytes, uint_putUint (by omega)]
      reserved := by rw [hreserved, allZero_putUint]
      signed := slice_append_exact _ _ _ hbody
      digest := by
        rw [SnapshotState.bytes, slice_append_right _ _ _ _ (by omega), hbody, Nat.sub_self]
        exact slice_exact _ _ (by simp [SnapshotState.digest]; omega) }

theorem SnapshotState.Encodable.itemSize_lt
    (h : state.Encodable limits) : ∀ record ∈ state.records, record.itemSize < 2 ^ 32 := by
  intro record hrecord
  have hsize := h.size
  have hle : record.itemSize ≤ state.payloadBytes :=
    List.le_sum_of_mem (List.mem_map_of_mem hrecord)
  simp only [maxSnapshotBytes] at hsize
  omega

/-- Decoding an encoded snapshot gives it back. -/
theorem decodeSnapshot_bytes (h : state.Encodable limits) (id : DatabaseID) :
    decodeSnapshot (state.bytes id) id (state.digest id) limits = .ok state := by
  have f := h.fields id
  have hsize := h.size
  have hcount := state.records_length_mul_le
  simp only [snapshotHeaderSize, snapshotTrailer, maxSnapshotBytes] at hsize
  have hend : 96 + state.payloadBytes - snapshotTrailer = 64 + state.payloadBytes := by
    simp only [snapshotTrailer]
    omega
  have hbounds : ¬ (96 + state.payloadBytes < snapshotHeaderSize + snapshotTrailer ∨
      maxSnapshotBytes < 96 + state.payloadBytes) := by
    simp only [snapshotHeaderSize, snapshotTrailer, maxSnapshotBytes]
    omega
  have hlengths : ¬ (u64 (state.payloadBytes + snapshotHeaderSize + snapshotTrailer)
      ≠ 96 + state.payloadBytes ∨ state.payloadBytes / snapshotItemHeader
        < state.records.length) := by
    simp only [u64, snapshotHeaderSize, snapshotTrailer, snapshotItemHeader]
    omega
  have hfirst : ∀ key, none = some key → ∀ record ∈ state.records, key < record.key := by simp
  have hrecords := decodeRecords_flatMap h.revision h.records h.itemSize_lt h.sorted hfirst
    (64 + state.payloadBytes) []
  rw [List.append_nil] at hrecords
  have hpayload : slice (state.bytes id) snapshotHeaderSize (64 + state.payloadBytes)
      = state.records.flatMap encodeRecord := f.payload
  simp only [decodeSnapshot, f.length, f.magic, f.version, f.size, f.database, f.revision, f.count,
    f.payloadBytes, f.reserved, hend, f.signed, f.digest, DatabaseID.ofBytes_bytes]
  rw [if_neg hbounds, if_neg (by simp), if_neg (by simp), if_neg (by simp), if_neg (by simp),
    if_neg hlengths, if_neg (by simp [SnapshotState.digest]), hpayload, hrecords]
  simp

/-! ### What the encoder accepts -/

theorem snapshotPayload_eq_ok {revision : Nat} {records : List Record}
    {index payloadBytes total : Nat}
    (h : snapshotPayload limits revision previous index payloadBytes records = .ok total)
    (hsorted : (records.map Record.key).Pairwise (· ≤ ·))
    (hprevious : ∀ key, previous = some key → ∀ record ∈ records, key ≤ record.key) :
    (∀ record ∈ records, record.Storable limits revision) ∧
      (records.map Record.key).Pairwise (· < ·) ∧
      (∀ key, previous = some key → ∀ record ∈ records, key < record.key) ∧
      total = payloadBytes + (records.map Record.itemSize).sum := by
  induction records generalizing previous index payloadBytes with
  | nil =>
    injection h with h
    simp [h]
  | cons record records ih =>
    rw [List.map_cons, List.pairwise_cons] at hsorted
    rw [snapshotPayload, ite_error_eq_ok, ite_error_eq_ok, ite_error_eq_ok, ite_error_eq_ok] at h
    obtain ⟨hfields, hduplicate, hexpiry, -, hrest⟩ := h
    push Not at hfields
    obtain ⟨hempty, hutf8, hkey, hvalue, hassigned, hold⟩ := hfields
    obtain ⟨hstorable, hstrict, hnext, htotal⟩ :=
      ih hrest hsorted.2 fun key hsome other hother => by
      rw [Option.some.injEq] at hsome
      subst hsome
      exact hsorted.1 other.key (List.mem_map_of_mem hother)
    have hstorableHead : record.Storable limits revision :=
      ⟨hempty, hutf8, hkey, hvalue, hassigned, hold, fun t ht => by
        simpa [ht] using hexpiry⟩
    refine ⟨List.forall_mem_cons.2 ⟨hstorableHead, hstorable⟩, ?_, ?_, ?_⟩
    · rw [List.map_cons, List.pairwise_cons]
      refine ⟨fun key hmem => ?_, hstrict⟩
      obtain ⟨other, hother, rfl⟩ := List.mem_map.1 hmem
      exact hnext record.key rfl other hother
    · intro key hsome
      have hhead : key < record.key := lt_of_le_of_ne (hprevious key hsome record (by simp))
        fun heq => hduplicate (heq ▸ hsome)
      exact List.forall_mem_cons.2
        ⟨hhead, fun other hother => hhead.trans (hnext record.key rfl other hother)⟩
    · rw [htotal, List.map_cons, List.sum_cons]
      omega

theorem SnapshotState.kept_sorted (state : SnapshotState) (asOf : Time) :
    ((state.kept asOf).map Record.key).Pairwise (· ≤ ·) := by
  rw [List.pairwise_map]
  have : Std.Total fun a b : Record => a.key ≤ b.key := ⟨fun a b => le_total a.key b.key⟩
  have : IsTrans Record fun a b => a.key ≤ b.key := ⟨fun _ _ _ => le_trans⟩
  exact List.pairwise_insertionSort _ _

theorem SnapshotState.mem_kept {asOf : Time} {record : Record} : record ∈ state.kept asOf ↔
      record ∈ state.records ∧ ∀ t, record.expiresAt = some t → asOf < t := by
  simp only [kept, List.mem_insertionSort, List.mem_filter]
  cases record.expiresAt <;> simp

/-- What a successful encoding wrote. -/
theorem encodeSnapshot_eq_ok {id : DatabaseID} {asOf : Time}
    {bytes digest : Bytes} (hrevision : state.revision < 2 ^ 64)
    (h : encodeSnapshot id state asOf limits = .ok (bytes, digest)) :
    (SnapshotState.mk state.revision (state.kept asOf)).Encodable limits ∧
      bytes = (SnapshotState.mk state.revision (state.kept asOf)).bytes id ∧
      digest = (SnapshotState.mk state.revision (state.kept asOf)).digest id := by
  rw [encodeSnapshot, ite_error_eq_ok] at h
  obtain ⟨-, h⟩ := h
  simp only at h
  split at h
  · cases h
  · rename_i total hpayload
    rw [ite_error_eq_ok] at h
    obtain ⟨hsize, h⟩ := h
    obtain ⟨hstorable, hstrict, -, htotal⟩ :=
      snapshotPayload_eq_ok hpayload (state.kept_sorted asOf) (by simp)
    push Not at hsize
    simp only [Except.ok.injEq, Prod.mk.injEq] at h
    refine ⟨⟨hrevision, hstorable, hstrict, ?_⟩, h.1.symm, h.2.symm⟩
    rw [Nat.zero_add] at htotal
    rw [SnapshotState.payloadBytes, ← htotal]
    exact hsize.1

end GapDB
