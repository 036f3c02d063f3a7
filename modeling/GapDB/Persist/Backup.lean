import GapDB.Admin.Inspect
import GapDB.Persist.Compaction

/-!
# Backups

`CreateBackup`, `VerifyBackup` and `RestoreBackup` of `persist/backup.go`. A backup is a directory
of four copied files and `backup.json`, which lists their sizes and digests. The JSON codec and the
canonical form of a timestamp are parameters: the code trusts metadata only if encoding them again
gives the bytes that were read.
-/

namespace GapDB

open Storelib

structure BackupFile where
  name : Bytes
  size : Nat
  sha256 : Bytes
deriving DecidableEq

structure BackupMetadata where
  schemaVersion : Nat
  sourceDatabaseID : Bytes
  backupID : Bytes
  durableRevision : Nat
  createdAt : Bytes
  files : List BackupFile
  toolVersion : Bytes
deriving DecidableEq

/-- `json.Marshal` and the strict decoder for the metadata, and the check of the timestamp. -/
structure MetadataCodec where
  encode : BackupMetadata → Bytes
  decode : Bytes → Option BackupMetadata
  canonicalTime : Bytes → Bool

def backupMetadataFilename : Bytes := ascii "backup.json"

def backupInvalid (reason : String) (cause : Option StorageFault) : Error :=
  { code := .backupInvalid, message := "Backup verification failed.", retry := .afterOperator,
    reason, safeActions := [.verifyBackup, .chooseOtherBackup, .abort], cause }

def backupDestinationExists : Error :=
  { code := .backupDestinationExists, message := "Backup destination already exists.",
    retry := .never, safeActions := [.chooseNewDestination, .abort] }

/-! ### Verification -/

/-- What can go wrong when a backup is verified. -/
structure VerifyFaults where
  metadata : ReadFaults := {}
  readDir : Option Fault := none
  hash : Bytes → ReadFaults := fun _ => {}
  generation : LoadFaults := {}

/-- An error of a read, as the verification reports it. -/
def invalidated {α : Type} (reason : String) (outcome : Outcome Error α) : Outcome Error α :=
  match outcome with
  | .ok a => .ok a
  | .error e => .error (backupInvalid reason e.cause)
  | .panic => .panic

/-- `hashFile`. -/
def hashFile (directory : Disk) (name : Bytes) (faults : ReadFaults) :
    Outcome Error (Nat × Bytes) :=
  (readFile directory name "open" "read" faults).bind fun bytes =>
    .ok (bytes.length, hexEncode (sha256 bytes))

/-- The loop over the listed files; `allowed` are the names so far. -/
def verifyFiles (directory : Disk) (faults : VerifyFaults) :
    List Bytes → List BackupFile → Outcome Error (List Bytes)
  | allowed, [] => .ok allowed
  | allowed, file :: files =>
    if ¬ isBaseName file.name ∨ file.name ∈ allowed then
      .error (backupInvalid "backup file list is unsafe or duplicated" none)
    else
      (invalidated "backup file cannot be read"
        (hashFile directory file.name (faults.hash file.name))).bind fun (size, digest) =>
      if size ≠ file.size ∨ digest ≠ file.sha256 then
        .error (backupInvalid "backup file hash or size mismatch" none)
      else verifyFiles directory faults (file.name :: allowed) files

/-- The metadata in `backup.json`. -/
def readMetadata (codec : MetadataCodec) (directory : Disk) (faults : ReadFaults) :
    Outcome Error BackupMetadata :=
  (invalidated "backup metadata cannot be read"
    (readFile directory backupMetadataFilename "open" "read" faults)).bind fun encoded =>
  if 65536 < encoded.length then
    .error (backupInvalid "backup metadata cannot be read" none)
  else if encoded.getLast? ≠ some 10 then
    .error (backupInvalid "backup metadata is not newline-terminated canonical JSON" none)
  else
    match codec.decode encoded.dropLast with
    | none => .error (backupInvalid "backup metadata JSON is invalid" none)
    | some metadata =>
      if codec.encode metadata ≠ encoded.dropLast ∨ metadata.schemaVersion ≠ 1 ∨
          metadata.backupID = [] ∨ metadata.toolVersion = [] ∨
          ¬ codec.canonicalTime metadata.createdAt ∨ metadata.files.length ≠ 4 then
        .error (backupInvalid "backup metadata is noncanonical or incomplete" none)
      else .ok metadata

/-- `VerifyBackup`; `directories` are the entries of the backup that are directories. -/
def verifyBackup (codec : MetadataCodec) (directory : Disk) (directories : List Bytes)
    (limits : Limits) (faults : VerifyFaults) : Outcome Error BackupMetadata :=
  (readMetadata codec directory faults.metadata).bind fun metadata =>
  match parseDatabaseID metadata.sourceDatabaseID with
  | none => .error (backupInvalid "source database ID is invalid" none)
  | some id =>
    match faults.readDir with
    | some fault =>
      if fault.panics then .panic
      else .error (backupInvalid "backup directory cannot be listed"
        (some (fault.storageFault .readDir)))
    | none =>
      let entries := directory.readDir ++ directories
      (verifyFiles directory faults [backupMetadataFilename] metadata.files).bind fun allowed =>
      if ¬ (entries.all fun name => name ∉ directories ∧ name ∈ allowed) ∨ entries.length ≠ 5 then
        .error (backupInvalid "backup contains unexpected entries" none)
      else
        (invalidated "backup generation verification failed"
          (verifyGeneration directory id limits faults.generation)).bind fun (_, _, revision) =>
        if revision ≠ metadata.durableRevision then
          .error (backupInvalid "durable revision does not match backup metadata" none)
        else .ok metadata

/-! ### Copying -/

/-- Where the copy of a file breaks off. -/
inductive CopyStage where
  | openSource | create | read | copy | sync | close
deriving DecidableEq

def CopyStage.operation : CopyStage → String
  | .openSource | .read => "backup_source_read"
  | .create => "backup_file_create"
  | .copy => "backup_file_copy"
  | .sync => "backup_file_sync"
  | .close => "backup_file_close"

/-- `copyAndSync`: the bytes that were copied. A broken copy is removed with its directory. -/
def copyAndSync (source : Disk) (name : Bytes) (fault : Option (CopyStage × Fault)) :
    Outcome Error Bytes :=
  match fault with
  | some (stage, fault) =>
    if fault.panics then .panic
    else .error (ioFailure stage.operation name (fault.storageFault .backupFileCopy))
  | none =>
    match source.live name with
    | none => .error (ioFailure "backup_source_read" name (.os .notExist))
    | some file => .ok file.bytes

/-- The copies of the names, in their order, into a new directory. -/
def copyFiles (source : Disk) (fault : Bytes → Option (CopyStage × Fault)) :
    List Bytes → Disk → Outcome Error Disk
  | [], copied => .ok copied
  | name :: names, copied =>
    (copyAndSync source name (fault name)).bind fun bytes =>
      copyFiles source fault names (copied.store name (.stable bytes))

/-- How a directory was published; everything in it was synced before. -/
inductive Publication where
  | published
  | exists_
  | failed (fault : Fault)

/-- The last steps of a backup and of a restore: the sync of the directory and its rename. -/
structure PublishFaults where
  syncDirectory : Option Fault := none
  identity : Option OSErrorCategory := none
  publication : Publication := .published

/-- `words` are those of the failed sync, of the missing identity and of the failed rename. -/
def publish (words : String × String × String) (faults : PublishFaults) (directory : Disk)
    (metadata : BackupMetadata) : Outcome Error BackupMetadata × Option Disk :=
  match faults.syncDirectory, faults.identity, faults.publication with
  | some fault, _, _ =>
    (if fault.panics then .panic
      else .error (ioFailure words.1 [] (fault.storageFault .backupFileSync)), none)
  | none, some category, _ => (.error (ioFailure words.2.1 [] (.os category)), none)
  | none, none, .published => (.ok metadata, some directory)
  | none, none, .exists_ => (.error backupDestinationExists, none)
  | none, none, .failed fault =>
    if fault.mode = .after then
      (.error (ioFailureApplied words.2.2 [] (fault.storageFault .backupRename)), some directory)
    else (.error (ioFailure words.2.2 [] (fault.storageFault .backupRename)), none)

/-! ### Backup and restore -/

structure BackupOptions where
  expectedDatabaseID : DatabaseID
  expectedDurableRevision : Nat
  createdAt : Bytes
  backupID : Bytes
  toolVersion : Bytes

structure BackupFaults where
  /-- What the checks of the destination object to. -/
  destination : Option Error := none
  barrier : Option Error := none
  source : LoadFaults := {}
  temp : Option OSErrorCategory := none
  copy : Bytes → Option (CopyStage × Fault) := fun _ => none
  metadata : Option (CopyStage × Fault) := none
  verify : VerifyFaults := {}
  publish : PublishFaults := {}

def backupFileOf (directory : Disk) (name : Bytes) : BackupFile :=
  match directory.live name with
  | some file => ⟨name, file.bytes.length, hexEncode (sha256 file.bytes)⟩
  | none => ⟨name, 0, []⟩

/-- The four files that a generation consists of. -/
def authorityFiles (manifest : Manifest) : List Bytes :=
  [identityFilename, manifestFilename, manifest.snapshotFile, manifest.walFile]

/-- The metadata of a copied generation. -/
def backupMetadata (options : BackupOptions) (identity : Identity) (revision : Nat)
    (copied : Disk) (names : List Bytes) : BackupMetadata where
  schemaVersion := 1
  sourceDatabaseID := identity.databaseID.string
  backupID := options.backupID
  durableRevision := revision
  createdAt := options.createdAt
  files := (names.insertionSort (· ≤ ·)).map (backupFileOf copied)
  toolVersion := options.toolVersion

/-- The copied files, `backup.json` beside them, verified and published. -/
def writeBackup (codec : MetadataCodec) (limits : Limits) (metadata : BackupMetadata)
    (faults : BackupFaults) (copied : Disk) : Outcome Error BackupMetadata × Option Disk :=
  match faults.metadata with
  | some (stage, fault) =>
    (if fault.panics then .panic
      else .error (ioFailure stage.operation backupMetadataFilename
        (fault.storageFault .backupFileCopy)), none)
  | none =>
    let directory := copied.store backupMetadataFilename (.stable (codec.encode metadata ++ [10]))
    match verifyBackup codec directory [] limits faults.verify with
    | .error e => (.error e, none)
    | .panic => (.panic, none)
    | .ok _ =>
      publish ("backup_directory_sync", "backup_temp_identity", "backup_rename") faults.publish
        directory metadata

def createBackup (codec : MetadataCodec) (limits : Limits) (options : BackupOptions)
    (faults : BackupFaults) (source : Disk) : Outcome Error BackupMetadata × Option Disk :=
  match faults.destination, faults.barrier with
  | some e, _ => (.error e, none)
  | none, barrier =>
    if options.createdAt = [] ∨ options.backupID = [] ∨ options.toolVersion = [] then
      (.error (adminPrecondition "backup ID, creation time, and tool version are required"), none)
    else if options.expectedDatabaseID.isZero then
      (.error (adminPrecondition "backup identity and durability barrier are required"), none)
    else
      match barrier with
      | some e => (.error e, none)
      | none =>
        match verifyGeneration source options.expectedDatabaseID limits faults.source with
        | .error e => (.error e, none)
        | .panic => (.panic, none)
        | .ok (identity, manifest, revision) =>
          if identity.databaseID ≠ options.expectedDatabaseID ∨
              revision ≠ options.expectedDurableRevision then
            (.error (adminPrecondition "backup database ID or durable revision is stale"), none)
          else
            match faults.temp with
            | some category => (.error (ioFailure "backup_temp_create" [] (.os category)), none)
            | none =>
              match copyFiles source faults.copy (authorityFiles manifest) Directory.empty with
              | .error e => (.error e, none)
              | .panic => (.panic, none)
              | .ok copied =>
                writeBackup codec limits
                  (backupMetadata options identity revision copied (authorityFiles manifest)) faults
                  copied

structure RestoreFaults where
  destination : Option Error := none
  verify : VerifyFaults := {}
  temp : Option OSErrorCategory := none
  copy : Bytes → Option (CopyStage × Fault) := fun _ => none
  verifyCopy : VerifyFaults := {}
  publish : PublishFaults := {}

def restoreBackup (codec : MetadataCodec) (limits : Limits) (backup : Disk)
    (directories : List Bytes) (faults : RestoreFaults) :
    Outcome Error BackupMetadata × Option Disk :=
  match faults.destination with
  | some e => (.error e, none)
  | none =>
    match verifyBackup codec backup directories limits faults.verify with
    | .error e => (.error e, none)
    | .panic => (.panic, none)
    | .ok metadata =>
      match faults.temp with
      | some category => (.error (ioFailure "restore_temp_create" [] (.os category)), none)
      | none =>
        match copyFiles backup faults.copy
            (metadata.files.map BackupFile.name ++ [backupMetadataFilename]) Directory.empty with
        | .error e => (.error e, none)
        | .panic => (.panic, none)
        | .ok copied =>
          match verifyBackup codec copied [] limits faults.verifyCopy with
          | .error e => (.error e, none)
          | .panic => (.panic, none)
          | .ok _ =>
            publish ("restore_directory_sync", "restore_temp_identity", "restore_rename")
              faults.publish copied metadata

end GapDB
