import GapDB.Options
import GapDB.Storelib.Crc32
import GapDB.Storelib.Text

/-!
# What the storage formats share

The database identifier, the 64-byte sealed header that `IDENTITY` and the WAL both start
with, and the error constructors of `internal/persist`.
-/

namespace GapDB

open Storelib

def storageVersion : Nat := 1

structure DatabaseID where
  bytes : Bytes
  size : bytes.length = 16
deriving DecidableEq

namespace DatabaseID

/-- `copy(id[:], bs)` into a zero identifier. -/
def ofBytes (bs : Bytes) : DatabaseID :=
  ⟨(bs ++ List.replicate 16 0).take 16, by simp⟩

def isZero (id : DatabaseID) : Bool := allZero id.bytes

/-- `DatabaseID.String`: lowercase hexadecimal. -/
def string (id : DatabaseID) : Bytes := hexEncode id.bytes

@[simp] theorem ofBytes_bytes (id : DatabaseID) : ofBytes id.bytes = id := by
  obtain ⟨bytes, size⟩ := id
  simp [ofBytes, size]

theorem length_ones : (List.replicate 16 (1 : Byte)).length = 16 := rfl

end DatabaseID

/-- The identifier that the examples use. -/
def sampleID : DatabaseID := ⟨List.replicate 16 1, DatabaseID.length_ones⟩

/-- A range of 64-bit revisions. -/
structure RevisionRange where
  first : Nat
  end_ : Nat
  end_lt : end_ < 2 ^ 64
deriving DecidableEq

/-! ### Errors -/

def unknownStorageFormat (file : Bytes) (received : Nat) : Error :=
  { code := .unknownFormat, message := "Storage format is not supported.", retry := .never,
    receivedVersion := some received, supportedVersions := [storageVersion], file,
    safeActions := [.upgradeGapdb, .useCompatibleBinary, .abort] }

def revisionRangeError (end_ : Nat) (reason : String) (cause : Option StorageFault) : Error :=
  { code := .revisionRangeExhausted, message := "A safe revision range could not be reserved.",
    retry := .afterRestart, reason, reservedRevisionEnd := some end_,
    safeActions := [.verifyStorage, .restartAfterRecovery, .abort], cause }

def ioFailure (operation : String) (file : Bytes) (cause : StorageFault) : Error :=
  { code := .ioError, message := "A storage operation failed.", retry := .afterOperator,
    path := file, operation, osErrorCategory := some cause.category,
    safeActions := [.checkStorage, .verify, .abort], cause := some cause }

def ioFailureApplied (operation : String) (file : Bytes) (cause : StorageFault) : Error :=
  { ioFailure operation file cause with operationApplied := true }

def databaseIDMismatch (expected actual : DatabaseID) (file : Bytes) : Error :=
  { code := .databaseIDMismatch, message := "Database identity does not match.", retry := .never,
    expectedDatabaseID := expected.string, actualDatabaseID := actual.string, file,
    safeActions := [.selectCorrectDatabase, .abort] }

def identityFilename : Bytes := ascii "IDENTITY"

def corruptIdentity (reason : String) (cause : Option StorageFault) : Error :=
  { code := .corruptIdentity, message := "Identity file is corrupt.", retry := .afterOperator,
    reason, file := identityFilename,
    safeActions := [.inspectOffline, .restoreBackup, .abort], cause }

def corruptWAL (reason : String) (file : Bytes) (offset : Nat) (cause : Option StorageFault) :
    Error :=
  { code := .corruptWAL, message := "WAL is corrupt.", retry := .afterOperator, reason,
    offset := some offset, file := if file = [] then ascii "WAL" else file,
    safeActions := [.inspectOffline, .recoverPropose, .restoreBackup, .abort], cause }

def corruptSnapshot (reason : String) (file : Bytes) (offset : Nat)
    (cause : Option StorageFault) : Error :=
  { code := .corruptSnapshot, message := "Snapshot is corrupt.", retry := .afterOperator, reason,
    offset := some offset, file,
    safeActions := [.inspectOffline, .recoverPropose, .restoreBackup, .abort], cause }

/-! ### The sealed header -/

/-- Magic, version, length, identifier, two counters and sixteen reserved zero bytes. -/
def headerBody (magic : Bytes) (id : DatabaseID) (first second : Nat) : Bytes :=
  magic ++ (putUint 2 storageVersion ++ (putUint 2 64 ++ (id.bytes ++
    (putUint 8 first ++ (putUint 8 second ++ List.replicate 16 0)))))

/-- The body followed by its checksum. -/
def sealedHeader (magic : Bytes) (id : DatabaseID) (first second : Nat) : Bytes :=
  headerBody magic id first second ++ putUint 4 (crc32c (headerBody magic id first second))

/-- What a decoder reads from a 64-byte header. -/
structure HeaderFields (bs magic : Bytes) (id : DatabaseID) (first second : Nat) : Prop where
  length : bs.length = 64
  magic : slice bs 0 8 = magic
  version : uint (slice bs 8 10) = storageVersion
  size : uint (slice bs 10 12) = 64
  id : slice bs 12 28 = id.bytes
  first : uint (slice bs 28 36) = first
  second : uint (slice bs 36 44) = second
  reserved : allZero (slice bs 44 60)
  crc : crc32c (slice bs 0 60) = uint (slice bs 60 64)

section

variable {magic : Bytes} (hm : magic.length = 8) (id : DatabaseID) (first second : Nat)

include hm

theorem headerBody_length : (headerBody magic id first second).length = 60 := by
  simp [headerBody, hm, id.size]

theorem sealedHeader_length : (sealedHeader magic id first second).length = 64 := by
  simp [sealedHeader, headerBody_length hm]

theorem headerBody_prefix_iff {bs : Bytes} : headerBody magic id first second <+: bs ↔
    slice bs 0 8 = magic ∧ slice bs 8 10 = putUint 2 storageVersion ∧
      slice bs 10 12 = putUint 2 64 ∧ slice bs 12 28 = id.bytes ∧
      slice bs 28 36 = putUint 8 first ∧ slice bs 36 44 = putUint 8 second ∧
      slice bs 44 60 = List.replicate 16 0 := by
  have h := @carries_iff bs 0 [magic, putUint 2 storageVersion, putUint 2 64, id.bytes,
    putUint 8 first, putUint 8 second, List.replicate 16 0]
  simpa [Carries, headerBody, hm, id.size] using h.symm

/-- A decoder reads back what the encoder was given. -/
theorem sealedHeader_fields (hfirst : first < 2 ^ 64) (hsecond : second < 2 ^ 64) :
    HeaderFields (sealedHeader magic id first second) magic id first second := by
  have hbody := headerBody_length hm id first second
  have hlength := sealedHeader_length hm id first second
  have hsealed : Sealed (sealedHeader magic id first second) := sealed_append_crc _
  obtain ⟨hmagic, hversion, hsize, hid, hfirstAt, hsecondAt, hreserved⟩ :=
    (headerBody_prefix_iff hm id first second).mp
      (List.prefix_append _ (putUint 4 (crc32c (headerBody magic id first second))))
  rw [← sealedHeader] at *
  rw [Sealed, hlength] at hsealed
  refine ⟨hlength, hmagic, ?_, ?_, hid, ?_, ?_, ?_, hsealed⟩
  · rw [hversion, uint_putUint (by decide)]
  · rw [hsize, uint_putUint (by decide)]
  · rw [hfirstAt, uint_putUint hfirst]
  · rw [hsecondAt, uint_putUint hsecond]
  · rw [hreserved]
    decide

/-- A header whose fields are read is the header that is written for them. -/
theorem eq_sealedHeader_of_fields {bs : Bytes} (h : HeaderFields bs magic id first second) :
    bs = sealedHeader magic id first second := by
  have hlength := h.length
  have hbody := headerBody_length hm id first second
  have hreserved := eq_replicate_of_allZero h.reserved
  rw [slice_length _ _ _ (by omega)] at hreserved
  refine eq_append_crc ((headerBody_prefix_iff hm id first second).mpr
    ⟨h.magic, slice_eq_putUint (by omega) rfl h.version, slice_eq_putUint (by omega) rfl h.size,
      h.id, slice_eq_putUint (by omega) rfl h.first, slice_eq_putUint (by omega) rfl h.second,
      hreserved⟩) (by omega) ?_
  rw [Sealed, hlength]
  exact h.crc

end

end GapDB
