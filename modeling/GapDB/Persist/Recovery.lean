import GapDB.Persist.OpenLog
import GapDB.Persist.Snapshot

/-!
# Recovery

`RecoverDatabase` of `persist/recovery.go`: the identity, the manifest, the snapshot and the WAL
are read and checked against each other, a torn tail is cut off, and a new range of revisions is
reserved.
-/

namespace GapDB

open Storelib

variable {disk : Disk} {manifest : Manifest} {limits : Limits} {state : SnapshotState}

/-! ### The snapshot -/

def withSnapshotFile (err : Error) (file : Bytes) : Error :=
  if err.code = .corruptSnapshot ∨ err.code = .unknownFormat ∨ err.code = .databaseIDMismatch then
    { err with file }
  else err

/-- `SnapshotFileStore.Load`. -/
def loadSnapshot (disk : Disk) (manifest : Manifest) (limits : Limits) (faults : ReadFaults) :
    Outcome Error SnapshotState :=
  let file := manifest.snapshotFile
  (readFile disk file "snapshot_open" "snapshot_read" faults).bind fun encoded =>
    if maxSnapshotBytes < encoded.length then
      .error (corruptSnapshot "snapshot exceeds the format size bound" file 0 none)
    else
      match hexDecode manifest.snapshotSHA256 with
      | none => .error (corruptSnapshot "manifest snapshot digest is invalid" file 0 none)
      | some digest =>
        if digest.length ≠ 32 then
          .error (corruptSnapshot "manifest snapshot digest is invalid" file 0 none)
        else
          match decodeSnapshot encoded manifest.databaseID digest limits with
          | .error e => .error (withSnapshotFile e file)
          | .ok state => .ok state

/-- The loop of `validateSnapshotState`; `seen` are the keys before, the latest first. -/
def validateSnapshotRecords (revision : Nat) (file : Bytes) :
    Nat → List Key → List Record → Except Error Unit
  | _, _, [] => .ok ()
  | index, seen, record :: records =>
    if record.key = [] ∨ ¬ validUtf8 record.key ∨ record.revision = 0 ∨
        revision < record.revision then
      .error (corruptSnapshot "snapshot record fields are invalid" file index none)
    else if seen.head?.any fun previous => record.key ≤ previous then
      .error (corruptSnapshot "snapshot records are not strictly key-sorted" file index none)
    else if record.key ∈ seen then
      .error (corruptSnapshot "snapshot contains duplicate keys" file index none)
    else validateSnapshotRecords revision file (index + 1) (record.key :: seen) records

def validateSnapshotState (snapshot : SnapshotState) (manifest : Manifest) : Except Error Unit :=
  if snapshot.revision ≠ manifest.snapshotRevision then
    .error (corruptSnapshot "snapshot revision does not match CURRENT" manifest.snapshotFile 0 none)
  else validateSnapshotRecords snapshot.revision manifest.snapshotFile 0 [] snapshot.records

/-! ### What is read -/

/-- What recovery has read when nothing is changed yet. -/
structure Loaded where
  identity : Identity
  manifest : Manifest
  snapshot : SnapshotState
  file : File
  replay : WALReplay

structure LoadFaults where
  identity : ReadFaults := {}
  manifest : ReadFaults := {}
  snapshot : ReadFaults := {}
  scan : ScanFaults := {}

/-- `scanWALFile`, and the check of the header against `CURRENT`. -/
def loadLog (disk : Disk) (identity : Identity) (manifest : Manifest) (limits : Limits)
    (faults : ScanFaults) : Outcome Error (File × WALReplay) :=
  (openAndScan disk manifest.walFile "wal_open" "wal_stat" identity.databaseID
    manifest.snapshotRevision identity.reservedRevisionEnd limits faults).bind fun (file, replay) =>
    let replay := { replay with
      tail := replay.tail.map fun tail => { tail with file := manifest.walFile } }
    if replay.header.generation ≠ manifest.generation ∨
        replay.header.firstRevision ≠ manifest.walStartRevision then
      .error (corruptWAL "WAL generation or start does not match CURRENT" manifest.walFile 0 none)
    else .ok (file, replay)

/-- `RecoverDatabase` up to where it starts to change anything. -/
def loadDatabase (disk : Disk) (limits : Limits) (faults : LoadFaults) : Outcome Error Loaded :=
  (readIdentity disk faults.identity).bind fun identity =>
  (readManifest disk identity.databaseID 1 faults.manifest).bind fun manifest =>
  (loadSnapshot disk manifest limits faults.snapshot).bind fun snapshot =>
  (Outcome.ofExcept (validateSnapshotState snapshot manifest)).bind fun _ =>
  (loadLog disk identity manifest limits faults.scan).bind fun (file, replay) =>
  .ok ⟨identity, manifest, snapshot, file, replay⟩

/-! ### The tail -/

/-- What can go wrong when a tail is cut off; a truncation may break off half-way. -/
structure TailFaults where
  truncate : Option Fault := none
  sync : Option Fault := none
  /-- The audit record of the truncation fails. -/
  audit : Option (Option StorageFault) := none

/-- `applyWALTail`: the outcome and the file it leaves. -/
def applyWALTail (name : Bytes) (file : File) (tail : Option TailTruncation) (faults : TailFaults) :
    Outcome Error Unit × File :=
  match tail with
  | none => (.ok (), file)
  | some tail =>
    match faults.truncate, faults.sync with
    | some fault, _ =>
      (if fault.panics then .panic
        else .error (ioFailureApplied "wal_tail_truncate" name
          (fault.storageFault .walTailTruncate)),
        if fault.mode = .after then file.truncate tail.newSize else file)
    | none, some fault =>
      (if fault.panics then .panic
        else .error (ioFailureApplied "wal_tail_sync" name (fault.storageFault .walTailSync)),
        if fault.mode = .after then (file.truncate tail.newSize).sync
          else file.truncate tail.newSize)
    | none, none => (.ok (), (file.truncate tail.newSize).sync)

def auditAfterApplyError (operation reason : String) (current : Nat)
    (cause : Option StorageFault) : Error :=
  { code := .auditFailedAfterApply, message := "Audit failed after a storage change was applied.",
    retry := .afterReconcile, reason, operation, currentRevision := some current,
    operationApplied := true,
    safeActions := [.status, .verify, .repairAuditStorage, .abort], cause }

def withRecoveryAppliedState (e : Error) (operationApplied : Bool) : Error :=
  if operationApplied then { e with operationApplied := true } else e

/-! ### Recovery -/

structure RecoveryFaults where
  load : LoadFaults := {}
  tail : TailFaults := {}
  readDir : Option Fault := none
  reserve : InstallFaults

structure RecoveryResult where
  identity : Identity
  manifest : Manifest
  snapshot : SnapshotState
  postSnapshotCommits : List CommitFrame
  currentRevision : Nat
  durableThroughRevision : Nat
  allocation : RevisionRange
  tail : Option TailTruncation

def defaultRevisionReservation : Nat := 2 ^ 20

/-- The steps after the tail was handled. -/
def reserveRecovered (loaded : Loaded) (faults : RecoveryFaults) (disk : Disk) :
    Outcome Error RecoveryResult × Disk :=
  let applied := loaded.replay.tail.isSome
  match faults.readDir with
  | some fault =>
    (if fault.panics then .panic
      else .error (withRecoveryAppliedState
        (ioFailure "read_directory" [] (fault.storageFault .readDir)) applied), disk)
  | none =>
    match reserveRevisions loaded.identity loaded.replay.recoveredRevision
        defaultRevisionReservation faults.reserve disk with
    | (.ok (identity, allocation), disk) =>
      (.ok ⟨identity, loaded.manifest, loaded.snapshot, loaded.replay.commits,
        loaded.replay.recoveredRevision, loaded.replay.recoveredRevision, allocation,
        loaded.replay.tail⟩, disk)
    | (.error e, disk) => (.error (withRecoveryAppliedState e applied), disk)
    | (.panic, disk) => (.panic, disk)

def recoverDatabase (limits : Limits) (faults : RecoveryFaults) (disk : Disk) :
    Outcome Error RecoveryResult × Disk :=
  match loadDatabase disk limits faults.load with
  | .error e => (.error e, disk)
  | .panic => (.panic, disk)
  | .ok loaded =>
    let name := loaded.manifest.walFile
    let (outcome, file) := applyWALTail name loaded.file loaded.replay.tail faults.tail
    let disk := disk.store name file
    match outcome with
    | .error e => (.error e, disk)
    | .panic => (.panic, disk)
    | .ok () =>
      match loaded.replay.tail, faults.tail.audit with
      | some _, some cause =>
        (.error (withRecoveryAppliedState (auditAfterApplyError "startup_tail_truncate"
          "tail audit failed" loaded.replay.recoveredRevision cause) true), disk)
      | _, _ => reserveRecovered loaded faults disk

/-! ### What a successful load has found -/

theorem loadSnapshot_eq_ok {faults : ReadFaults}
    (h : loadSnapshot disk manifest limits faults = .ok state) :
    ∃ file digest, disk.live manifest.snapshotFile = some file ∧
      file.bytes.length ≤ maxSnapshotBytes ∧ hexDecode manifest.snapshotSHA256 = some digest ∧
      digest.length = 32 ∧ decodeSnapshot file.bytes manifest.databaseID digest limits
        = .ok state := by
  obtain ⟨encoded, hread, h⟩ := Outcome.bind_eq_ok.mp h
  obtain ⟨file, hlive, rfl⟩ := readFile_eq_ok hread
  split at h
  · cases h
  next hsize =>
  split at h
  · cases h
  next digest hdigest =>
  split at h
  · cases h
  next hlength =>
  split at h
  · cases h
  next decoded hdecode =>
  rw [Outcome.ok.injEq] at h
  exact ⟨file, digest, hlive, not_lt.mp hsize, hdigest, not_not.mp hlength, h ▸ hdecode⟩

theorem loadSnapshot_of_live {file : File}
    {digest : Bytes} (hlive : disk.live manifest.snapshotFile = some file)
    (hsize : file.bytes.length ≤ maxSnapshotBytes)
    (hdigest : hexDecode manifest.snapshotSHA256 = some digest) (hlength : digest.length = 32)
    (hdecode : decodeSnapshot file.bytes manifest.databaseID digest limits = .ok state) :
    loadSnapshot disk manifest limits {} = .ok state := by
  simp only [loadSnapshot, readFile_of_live hlive, Outcome.bind]
  rw [if_neg (not_lt.mpr hsize), hdigest]
  simp only
  rw [if_neg (not_not.mpr hlength), hdecode]

/-- What the files on the disk say if they load. -/
structure Loads (disk : Disk) (limits : Limits) (loaded : Loaded) : Prop where
  identity : readIdentity disk {} = .ok loaded.identity
  manifest : readManifest disk loaded.identity.databaseID 1 {} = .ok loaded.manifest
  snapshot : loadSnapshot disk loaded.manifest limits {} = .ok loaded.snapshot
  valid : validateSnapshotState loaded.snapshot loaded.manifest = .ok ()
  live : disk.live loaded.manifest.walFile = some loaded.file
  scan : ∃ tail, scanWAL loaded.file.bytes loaded.identity.databaseID
      loaded.manifest.snapshotRevision loaded.identity.reservedRevisionEnd limits
        = .ok { loaded.replay with tail := tail } ∧
    loaded.replay.tail = tail.map fun tail => { tail with file := loaded.manifest.walFile }
  generation : loaded.replay.header.generation = loaded.manifest.generation
  start : loaded.replay.header.firstRevision = loaded.manifest.walStartRevision

/-- Without faults a file is read if it was read with some. -/
theorem readFile_without_faults {name : Bytes} {openOperation readOperation : String}
    {faults : ReadFaults} {bytes : Bytes}
    (h : readFile disk name openOperation readOperation faults = .ok bytes) :
    readFile disk name openOperation readOperation {} = .ok bytes := by
  obtain ⟨file, hlive, rfl⟩ := readFile_eq_ok h
  exact readFile_of_live hlive _ _

theorem loads_of_loadDatabase {faults : LoadFaults}
    {loaded : Loaded} (h : loadDatabase disk limits faults = .ok loaded) :
    Loads disk limits loaded := by
  obtain ⟨identity, hidentity, h⟩ := Outcome.bind_eq_ok.mp h
  obtain ⟨manifest, hmanifest, h⟩ := Outcome.bind_eq_ok.mp h
  obtain ⟨snapshot, hsnapshot, h⟩ := Outcome.bind_eq_ok.mp h
  obtain ⟨u, hvalid, h⟩ := Outcome.bind_eq_ok.mp h
  obtain ⟨⟨file, replay⟩, hlog, h⟩ := Outcome.bind_eq_ok.mp h
  rw [Outcome.ok.injEq] at h
  subst h
  obtain ⟨⟨file', replay'⟩, hscan, hlog⟩ := Outcome.bind_eq_ok.mp hlog
  obtain ⟨hlive, hscan⟩ := openAndScan_eq_ok hscan
  simp only at hlog
  split at hlog
  · cases hlog
  next hheader =>
  simp only [not_or, not_not] at hheader
  simp only [Outcome.ok.injEq, Prod.mk.injEq] at hlog
  obtain ⟨rfl, rfl⟩ := hlog
  refine ⟨?_, ?_, ?_, Outcome.ofExcept_eq_ok.mp hvalid, hlive, ⟨replay'.tail, hscan, rfl⟩,
    hheader.1, hheader.2⟩
  · obtain ⟨encoded, hread, h⟩ := Outcome.bind_eq_ok.mp hidentity
    exact Outcome.bind_eq_ok.mpr ⟨encoded, readFile_without_faults hread, h⟩
  · obtain ⟨encoded, hread, h⟩ := Outcome.bind_eq_ok.mp hmanifest
    exact Outcome.bind_eq_ok.mpr ⟨encoded, readFile_without_faults hread, h⟩
  · obtain ⟨encoded, hread, h⟩ := Outcome.bind_eq_ok.mp hsnapshot
    exact Outcome.bind_eq_ok.mpr ⟨encoded, readFile_without_faults hread, h⟩

/-! ### What a written generation loads as -/

/-- Every snapshot that can be written passes the second check too. -/
theorem validateSnapshotRecords_of_sorted {revision : Nat} {file : Bytes}
    (records : List Record) : ∀ (index : Nat) (seen : List Key),
    (∀ record ∈ records, record.Storable limits revision) →
    (records.map Record.key).Pairwise (· < ·) →
    (∀ key ∈ seen, ∀ record ∈ records, key < record.key) →
    validateSnapshotRecords revision file index seen records = .ok () := by
  induction records with
  | nil =>
    intro index seen _ _ _
    rfl
  | cons record records ih =>
    intro index seen hstorable hsorted hseen
    have hrecord := hstorable record List.mem_cons_self
    obtain ⟨hfirst, hrest⟩ := List.pairwise_cons.mp hsorted
    have hfields : ¬ (record.key = [] ∨ ¬ validUtf8 record.key ∨ record.revision = 0 ∨
        revision < record.revision) := by
      simp [hrecord.nonempty, hrecord.utf8, hrecord.assigned, hrecord.old]
    have hhead : ¬ (seen.head?.any fun previous => record.key ≤ previous) = true := by
      cases seen with
      | nil => simp
      | cons previous seen =>
        simpa using hseen previous List.mem_cons_self record List.mem_cons_self
    have hnew : record.key ∉ seen := fun hmem =>
      lt_irrefl _ (hseen record.key hmem record List.mem_cons_self)
    rw [validateSnapshotRecords, if_neg hfields, if_neg hhead, if_neg hnew]
    refine ih _ _ (fun r hr => hstorable r (List.mem_cons_of_mem _ hr)) hrest ?_
    intro key hkey r hr
    rcases List.mem_cons.mp hkey with rfl | hkey
    · exact hfirst r.key (List.mem_map_of_mem hr)
    · exact hseen key hkey r (List.mem_cons_of_mem _ hr)

/-- The files of one generation, as they were written, and a log that scans. -/
theorem loads_of_live {identity : Identity} {file : File} {replay : WALReplay}
    (hidentity : identity.Encodable)
    (hliveIdentity : disk.live identityFilename = some (.stable identity.bytes))
    (hmanifest : manifest.Encodable)
    (hliveManifest : disk.live manifestFilename = some (.stable manifest.bytes))
    (hid : manifest.databaseID = identity.databaseID) (hstate : state.Encodable limits)
    (hrevision : state.revision = manifest.snapshotRevision)
    (hdigest : manifest.snapshotSHA256 = hexEncode (state.digest identity.databaseID))
    (hliveSnapshot : disk.live manifest.snapshotFile
      = some (.stable (state.bytes identity.databaseID)))
    (hliveWAL : disk.live manifest.walFile = some file)
    (hscan : scanWAL file.bytes identity.databaseID manifest.snapshotRevision
      identity.reservedRevisionEnd limits = .ok replay)
    (hgeneration : replay.header.generation = manifest.generation)
    (hstart : replay.header.firstRevision = manifest.walStartRevision) :
    Loads disk limits ⟨identity, manifest, state, file,
      { replay with tail := replay.tail.map fun tail =>
        { tail with file := manifest.walFile } }⟩ where
  identity := readIdentity_of_live hidentity hliveIdentity
  manifest := by
    have hone : 1 ≤ manifest.generation := Nat.one_le_iff_ne_zero.mpr hmanifest.generation.1
    have hread := readManifest_of_live hmanifest hliveManifest hone
    rwa [hid] at hread
  snapshot := by
    have hdecode : hexDecode manifest.snapshotSHA256 = some (state.digest identity.databaseID) := by
      rw [hdigest, hexDecode_hexEncode]
    refine loadSnapshot_of_live hliveSnapshot ?_ hdecode (sha256_length _) ?_
    · have hsize := hstate.size
      simp only [File.stable, SnapshotState.bytes_length]
      simp only [snapshotHeaderSize, snapshotTrailer] at hsize
      omega
    · rw [hid]
      exact decodeSnapshot_bytes hstate _
  valid := by
    rw [validateSnapshotState, if_neg (not_not.mpr hrevision)]
    exact validateSnapshotRecords_of_sorted _ _ _ hstate.records hstate.sorted (by simp)
  live := hliveWAL
  scan := ⟨replay.tail, hscan, rfl⟩
  generation := hgeneration
  start := hstart

theorem loadDatabase_of_loads {loaded : Loaded}
    (h : Loads disk limits loaded) : loadDatabase disk limits {} = .ok loaded := by
  obtain ⟨tail, hscan, htail⟩ := h.scan
  have hlog : loadLog disk loaded.identity loaded.manifest limits {}
      = .ok (loaded.file, loaded.replay) := by
    rw [loadLog, openAndScan_of_live h.live hscan]
    simp only [Outcome.bind]
    rw [if_neg (by simp [h.generation, h.start]), ← htail]
  rw [loadDatabase, h.identity]
  simp only [Outcome.bind]
  rw [h.manifest]
  simp only
  rw [h.snapshot]
  simp only
  rw [h.valid, Outcome.ofExcept, hlog]

/-- The file a recovery leaves: cut off behind its last whole frame, if something was torn. -/
def Loaded.repaired (loaded : Loaded) : File :=
  match loaded.replay.tail with
  | none => loaded.file
  | some tail => (loaded.file.truncate tail.newSize).sync

/-- The only way in which recovery succeeds. -/
theorem recoverDatabase_eq_ok {faults : RecoveryFaults} {disk' : Disk}
    {result : RecoveryResult} (h : recoverDatabase limits faults disk = (.ok result, disk')) :
    ∃ loaded, loadDatabase disk limits faults.load = .ok loaded ∧
      reserveRevisions loaded.identity loaded.replay.recoveredRevision defaultRevisionReservation
        faults.reserve (disk.store loaded.manifest.walFile loaded.repaired)
          = (.ok (result.identity, result.allocation), disk') ∧
      result = ⟨result.identity, loaded.manifest, loaded.snapshot, loaded.replay.commits,
        loaded.replay.recoveredRevision, loaded.replay.recoveredRevision, result.allocation,
        loaded.replay.tail⟩ := by
  unfold recoverDatabase at h
  split at h
  · cases h
  · cases h
  next loaded hload =>
  refine ⟨loaded, hload, ?_⟩
  have hrest : reserveRecovered loaded faults (disk.store loaded.manifest.walFile loaded.repaired)
      = (.ok result, disk') := by
    simp only [Loaded.repaired]
    cases htail : loaded.replay.tail with
    | none =>
      simp only [applyWALTail, htail] at h
      exact h
    | some tail =>
      simp only [applyWALTail, htail] at h
      cases htruncate : faults.tail.truncate with
      | some fault =>
        simp only [htruncate] at h
        cases hpanics : fault.panics <;> simp [hpanics] at h
      | none =>
        cases hsync : faults.tail.sync with
        | some fault =>
          simp only [htruncate, hsync] at h
          cases hpanics : fault.panics <;> simp [hpanics] at h
        | none =>
          simp only [htruncate, hsync] at h
          split at h
          · cases h
          · exact h
  unfold reserveRecovered at hrest
  split at hrest
  · next fault _ => cases hpanics : fault.panics <;> simp [hpanics] at hrest
  generalize reserveRevisions loaded.identity loaded.replay.recoveredRevision
    defaultRevisionReservation faults.reserve (disk.store loaded.manifest.walFile loaded.repaired)
    = reserved at hrest ⊢
  obtain ⟨outcome, disk''⟩ := reserved
  cases outcome with
  | error | panic => simp at hrest
  | ok value =>
    obtain ⟨identity, allocation⟩ := value
    simp only [Prod.mk.injEq, Outcome.ok.injEq] at hrest
    obtain ⟨rfl, rfl⟩ := hrest
    exact ⟨rfl, rfl⟩

end GapDB
