import GapDB.Persist.Install

/-!
# The identity file

`IDENTITY` holds the database identifier and the end of the revisions reserved so far
(`persist/identity.go`). A range of revisions is handed out only after the identity that
reserves it is durable.
-/

namespace GapDB

open Storelib

variable {disk : Disk}

structure Identity where
  databaseID : DatabaseID
  reservedRevisionEnd : Nat
  generation : Nat
deriving DecidableEq

/-! ### The codec -/

def identitySize : Nat := 64

def identityMagic : Bytes := ascii "GAPID001"

def Identity.bytes (identity : Identity) : Bytes :=
  sealedHeader identityMagic identity.databaseID identity.reservedRevisionEnd identity.generation

def encodeIdentity (identity : Identity) : Except Error Bytes :=
  if identity.databaseID.isZero then .error (corruptIdentity "database ID is zero" none)
  else if identity.generation = 0 then
    .error (corruptIdentity "generation must be greater than zero" none)
  else .ok identity.bytes

def identitySizeError (size : Nat) (cause : Option StorageFault) : Error :=
  corruptIdentity ("size is " ++ toString size ++ ", want " ++ toString identitySize) cause

def decodeIdentity (encoded : Bytes) : Except Error Identity :=
  let version := uint (slice encoded 8 10)
  let identity : Identity := ⟨DatabaseID.ofBytes (slice encoded 12 28),
    uint (slice encoded 28 36), uint (slice encoded 36 44)⟩
  if encoded.length ≠ identitySize then .error (identitySizeError encoded.length none)
  else if slice encoded 0 8 ≠ identityMagic then
    .error (corruptIdentity "magic does not match GAPID001" none)
  else if version ≠ storageVersion then .error (unknownStorageFormat identityFilename version)
  else if uint (slice encoded 10 12) ≠ identitySize then
    .error (corruptIdentity "header length is not 64" none)
  else if ¬ allZero (slice encoded 44 60) then
    .error (corruptIdentity "reserved bytes are nonzero" none)
  else if crc32c (slice encoded 0 60) ≠ uint (slice encoded 60 64) then
    .error (corruptIdentity "CRC32C mismatch" none)
  else if identity.databaseID.isZero ∨ identity.generation = 0 then
    .error (corruptIdentity "database ID and generation must be nonzero" none)
  else .ok identity

/-- An identity that `EncodeIdentity` accepts and 64-bit fields can hold. -/
structure Identity.Encodable (identity : Identity) : Prop where
  id : ¬ identity.databaseID.isZero
  reserved : identity.reservedRevisionEnd < 2 ^ 64
  generation : identity.generation ≠ 0 ∧ identity.generation < 2 ^ 64

theorem Identity.bytes_length (identity : Identity) : identity.bytes.length = 64 :=
  sealedHeader_length (by decide) _ _ _

variable {identity : Identity}

theorem decodeIdentity_bytes (h : identity.Encodable) :
    decodeIdentity identity.bytes = .ok identity := by
  have f := sealedHeader_fields (by decide : identityMagic.length = 8) identity.databaseID
    identity.reservedRevisionEnd identity.generation h.reserved h.generation.2
  have hid := h.id
  have hgeneration := h.generation.1
  simp [decodeIdentity, Identity.bytes, f.length, f.magic, f.version, f.size, f.id, f.first,
    f.second, f.reserved, f.crc, identitySize, hid, hgeneration]

/-! ### Reading -/

/-- What can go wrong when a file is read. -/
structure ReadFaults where
  opened : Option Fault := none
  read : Option OSErrorCategory := none

/-- Open a file and read it to the end. -/
def readFile (disk : Disk) (name : Bytes) (openOperation readOperation : String)
    (faults : ReadFaults) : Outcome Error Bytes :=
  match faults.opened with
  | some fault =>
    if fault.panics then .panic
    else .error (ioFailure openOperation name (fault.storageFault .openFile))
  | none =>
    match disk.live name with
    | none => .error (ioFailure openOperation name (.os .notExist))
    | some file =>
      match faults.read with
      | some category => .error (ioFailure readOperation name (.os category))
      | none => .ok file.bytes

theorem readFile_eq_ok {name : Bytes} {openOperation readOperation : String}
    {faults : ReadFaults} {bytes : Bytes}
    (h : readFile disk name openOperation readOperation faults = .ok bytes) :
    ∃ file, disk.live name = some file ∧ file.bytes = bytes := by
  unfold readFile at h
  split at h
  · split at h <;> cases h
  · split at h
    · cases h
    · next file hlive =>
      split at h
      · cases h
      · exact ⟨file, hlive, by simpa using h⟩

theorem readFile_of_live {name : Bytes} {file : File}
    (h : disk.live name = some file) (openOperation readOperation : String) :
    readFile disk name openOperation readOperation {} = .ok file.bytes := by
  simp [readFile, h]

/-- `ReadIdentity`: at most one byte beyond the expected size is looked at. -/
def readIdentity (disk : Disk) (faults : ReadFaults) : Outcome Error Identity :=
  (readFile disk identityFilename "open" "read" faults).bind fun encoded =>
    if encoded = [] then .error (ioFailure "read" identityFilename (.os .other))
    else if encoded.length ≠ identitySize then
      .error (identitySizeError (min encoded.length (identitySize + 1))
        (if encoded.length < identitySize then some (.os .other) else none))
    else Outcome.ofExcept (decodeIdentity encoded)

theorem readIdentity_eq_ok {faults : ReadFaults} (h : readIdentity disk faults = .ok identity) :
    ∃ file, disk.live identityFilename = some file ∧
      decodeIdentity file.bytes = .ok identity := by
  obtain ⟨encoded, hread, h⟩ := Outcome.bind_eq_ok.mp h
  obtain ⟨file, hlive, rfl⟩ := readFile_eq_ok hread
  refine ⟨file, hlive, ?_⟩
  split at h
  · cases h
  · split at h
    · cases h
    · exact Outcome.ofExcept_eq_ok.mp h

theorem readIdentity_of_live (h : identity.Encodable)
    (hlive : disk.live identityFilename = some (.stable identity.bytes)) :
    readIdentity disk {} = .ok identity := by
  have hlen := identity.bytes_length
  have hne : identity.bytes ≠ [] := List.ne_nil_of_length_pos (by omega)
  rw [readIdentity, readFile_of_live hlive]
  simp [Outcome.bind, File.stable, hne, hlen, identitySize, decodeIdentity_bytes h,
    Outcome.ofExcept]

/-! ### Installing -/

def identityWords : InstallWords where
  file := identityFilename
  operation
    | .create => "identity_temp_create"
    | .write => "identity_temp_write"
    | .sync => "identity_temp_sync"
    | .close => "identity_temp_close"
    | .rename => "identity_rename"
    | .syncDirectory => "identity_directory_sync"
  point
    | .create => some .identityTempCreate
    | .write => some .identityTempWrite
    | .sync => some .identityTempSync
    | .close => none
    | .rename => some .identityRename
    | .syncDirectory => some .identityDirectorySync

def installIdentity (encoded : Bytes) (faults : InstallFaults) (disk : Disk) :
    Outcome Error Unit × Disk :=
  identityWords.install identityFilename encoded faults disk

theorem installIdentity_cases (encoded : Bytes) (faults : InstallFaults) (disk : Disk) :
    Installed disk .identity encoded (installIdentity encoded faults disk).1
      (installIdentity encoded faults disk).2 :=
  identityWords.install_cases .identity encoded faults disk rfl

/-- `ReserveRevisions`. -/
def reserveRevisions (identity : Identity) (recovered rangeSize : Nat) (faults : InstallFaults)
    (disk : Disk) : Outcome Error (Identity × RevisionRange) × Disk :=
  let refuse (reason : String) : Outcome Error (Identity × RevisionRange) × Disk :=
    (.error (revisionRangeError identity.reservedRevisionEnd reason none), disk)
  if identity.reservedRevisionEnd < recovered then
    refuse "recovered revision exceeds the durable reservation"
  else if rangeSize = 0 then refuse "reservation size must be greater than zero"
  else if maxUint64 - rangeSize < identity.reservedRevisionEnd then
    refuse "revision reservation would overflow"
  else if identity.generation = maxUint64 then refuse "identity generation would overflow"
  else
    let updated : Identity :=
      { identity with reservedRevisionEnd := u64 (identity.reservedRevisionEnd + rangeSize),
                      generation := identity.generation + 1 }
    match encodeIdentity updated with
    | .error e => (.error e, disk)
    | .ok encoded =>
      match installIdentity encoded faults disk with
      | (.ok (), disk) =>
        (.ok (updated, ⟨u64 (identity.reservedRevisionEnd + 1), updated.reservedRevisionEnd,
          Nat.mod_lt _ (by decide)⟩), disk)
      | (.error e, disk) => (.error e, disk)
      | (.panic, disk) => (.panic, disk)

/-- What a reservation leaves: `identity` is the one it started from, and `range` is granted only
once the identity that reserves it is settled. -/
inductive Reserves (identity : Identity) (recovered : Nat) (disk : Disk) :
    Outcome Error (Identity × RevisionRange) → Disk → Prop where
  | refused (e : Error) : Reserves identity recovered disk (.error e) disk
  | failed (updated : Identity) (outcome : Outcome Error Unit)
      (reported : Outcome Error (Identity × RevisionRange)) (disk' : Disk)
      (ne : ∀ value, reported ≠ .ok value) (encodable : updated.Encodable)
      (same : updated.databaseID = identity.databaseID)
      (grows : identity.reservedRevisionEnd < updated.reservedRevisionEnd)
      (installed : Installed disk .identity updated.bytes outcome disk') :
      Reserves identity recovered disk reported disk'
  | granted (updated : Identity) (range : RevisionRange) (disk' : Disk)
      (encodable : updated.Encodable) (same : updated.databaseID = identity.databaseID)
      (first : range.first = identity.reservedRevisionEnd + 1)
      (end_ : range.end_ = updated.reservedRevisionEnd)
      (grows : identity.reservedRevisionEnd < updated.reservedRevisionEnd)
      (recovered_le : recovered ≤ identity.reservedRevisionEnd)
      (installed : Installed disk .identity updated.bytes (.ok ()) disk') :
      Reserves identity recovered disk (.ok (updated, range)) disk'

theorem reserveRevisions_cases (h : identity.Encodable) {rangeSize : Nat}
    (hrange : rangeSize < 2 ^ 64) (recovered : Nat) (faults : InstallFaults) (disk : Disk) :
    Reserves identity recovered disk (reserveRevisions identity recovered rangeSize faults disk).1
      (reserveRevisions identity recovered rangeSize faults disk).2 := by
  unfold reserveRevisions
  simp only
  split
  · exact .refused _
  next hrecovered =>
  split
  · exact .refused _
  next hsize =>
  split
  · exact .refused _
  next hoverflow =>
  split
  · exact .refused _
  next hgeneration =>
  simp only [maxUint64] at hoverflow hgeneration
  have hend : u64 (identity.reservedRevisionEnd + rangeSize)
      = identity.reservedRevisionEnd + rangeSize := Nat.mod_eq_of_lt (by omega)
  have hfirst : u64 (identity.reservedRevisionEnd + 1) = identity.reservedRevisionEnd + 1 :=
    Nat.mod_eq_of_lt (by omega)
  have hreserved := h.reserved
  have hbound := h.generation.2
  have hencodable : Identity.Encodable { identity with
      reservedRevisionEnd := u64 (identity.reservedRevisionEnd + rangeSize),
      generation := identity.generation + 1 } := ⟨h.id, by simp only [hend]; omega, by simp; omega⟩
  rw [encodeIdentity, if_neg h.id, if_neg (by simp)]
  simp only
  have hcases := installIdentity_cases (Identity.bytes { identity with
      reservedRevisionEnd := u64 (identity.reservedRevisionEnd + rangeSize),
      generation := identity.generation + 1 }) faults disk
  generalize installIdentity _ faults disk = result at hcases ⊢
  obtain ⟨outcome, disk'⟩ := result
  have hgrows : identity.reservedRevisionEnd < u64 (identity.reservedRevisionEnd + rangeSize) := by
    omega
  cases outcome with
  | ok u => exact .granted _ _ _ hencodable rfl hfirst rfl hgrows (by omega) hcases
  | error | panic => exact .failed _ _ _ _ (by simp) hencodable rfl hgrows hcases

/-- What can go wrong in `LoadOrCreateIdentity`. -/
structure CreateFaults where
  stat : Option Fault := none
  read : ReadFaults := {}
  /-- The sixteen random bytes. -/
  id : Except OSErrorCategory DatabaseID
  install : InstallFaults

/-- A new identifier is drawn only if there is no identity yet. -/
def loadOrCreateIdentity (faults : CreateFaults) (disk : Disk) :
    Outcome Error (Identity × Bool) × Disk :=
  match faults.stat with
  | some fault =>
    (if fault.panics then .panic
      else .error (ioFailure "stat" identityFilename (fault.storageFault .stat)), disk)
  | none =>
    if (disk.live identityFilename).isSome then
      ((readIdentity disk faults.read).bind fun identity => .ok (identity, false), disk)
    else
      match faults.id with
      | .error category =>
        (.error (ioFailure "generate_database_id" identityFilename (.os category)), disk)
      | .ok id =>
        if id.isZero then (.error (corruptIdentity "generated database ID is zero" none), disk)
        else
          let identity : Identity := ⟨id, 0, 1⟩
          match encodeIdentity identity with
          | .error e => (.error e, disk)
          | .ok encoded =>
            match installIdentity encoded faults.install disk with
            | (.ok (), disk) => (.ok (identity, true), disk)
            | (.error e, disk) => (.error e, disk)
            | (.panic, disk) => (.panic, disk)

/-- What `LoadOrCreateIdentity` leaves. -/
inductive Creates (disk : Disk) : Outcome Error (Identity × Bool) → Disk → Prop where
  | unchanged (reported : Outcome Error (Identity × Bool))
      (ne : ∀ identity, reported ≠ .ok (identity, true)) : Creates disk reported disk
  | failed (identity : Identity) (outcome : Outcome Error Unit)
      (reported : Outcome Error (Identity × Bool)) (disk' : Disk)
      (ne : ∀ value, reported ≠ .ok value)
      (encodable : identity.Encodable) (absent : disk.live identityFilename = none)
      (installed : Installed disk .identity identity.bytes outcome disk') :
      Creates disk reported disk'
  | created (identity : Identity) (disk' : Disk) (encodable : identity.Encodable)
      (new : identity.reservedRevisionEnd = 0) (absent : disk.live identityFilename = none)
      (installed : Installed disk .identity identity.bytes (.ok ()) disk') :
      Creates disk (.ok (identity, true)) disk'

theorem loadOrCreateIdentity_cases (faults : CreateFaults) (disk : Disk) :
    Creates disk (loadOrCreateIdentity faults disk).1 (loadOrCreateIdentity faults disk).2 := by
  unfold loadOrCreateIdentity
  split
  · exact .unchanged _ (by split <;> simp)
  split
  · refine .unchanged _ fun identity h => ?_
    obtain ⟨_, _, h⟩ := Outcome.bind_eq_ok.mp h
    simp at h
  next habsent =>
  split
  · exact .unchanged _ (by simp)
  next id _ =>
  split
  · exact .unchanged _ (by simp)
  next hid =>
  have hencodable : Identity.Encodable ⟨id, 0, 1⟩ := ⟨hid, by simp, by simp⟩
  have habsent' : disk.live identityFilename = none := by simpa using habsent
  have hencode : encodeIdentity ⟨id, 0, 1⟩ = .ok (Identity.bytes ⟨id, 0, 1⟩) := by
    simp [encodeIdentity, hid]
  simp only [hencode]
  have hcases := installIdentity_cases (Identity.bytes ⟨id, 0, 1⟩) faults.install disk
  generalize installIdentity _ faults.install disk = result at hcases ⊢
  obtain ⟨outcome, disk'⟩ := result
  cases outcome with
  | ok u => exact .created _ _ hencodable rfl habsent' hcases
  | error | panic => exact .failed _ _ _ _ (by simp) hencodable habsent' hcases

end GapDB
