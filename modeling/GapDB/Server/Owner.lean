import GapDB.Engine.Crash
import GapDB.Persist.Generation
import GapDB.Persist.Recovery

/-!
# Opening a database directory

`server/owner.go`: a directory without an identity is initialized, any other one is recovered. In
both cases an engine is built on the log that was opened, with an allocator over a range that was
reserved just before.
-/

namespace GapDB

open Storelib

/-- What an owner works on beside its engine: the directory, the identity that its reserve
function has captured and the manifest of its controller. -/
structure World where
  disk : Disk
  identity : Identity
  manifest : Manifest

/-- The closure of `runtimeAllocator`; the captured identity changes only on success. -/
def runtimeReserve (faults : InstallFaults) : ReserveFunc World := fun after world =>
  match reserveRevisions world.identity after defaultRevisionReservation faults world.disk with
  | (.ok (identity, range), disk) => (.ok range, { world with disk, identity })
  | (.error e, disk) => (.error e, { world with disk })
  | (.panic, disk) => (.panic, { world with disk })

/-- A range that the engine refuses leaves a nil allocator behind. -/
def runtimeAllocator (current : Nat) (allocation : RevisionRange) : Option RangeAllocator :=
  match newRangeAllocator current allocation with
  | .ok allocator => some allocator
  | .error _ => none

/-! ### Errors -/

/-- Most errors at startup are structured; creating the first snapshot reports those of the
operating system as they are. -/
inductive StartError where
  | structured (e : Error)
  | os (category : OSErrorCategory)
deriving DecidableEq

def permissionError (path : Bytes) (operation : String) (cause : StorageFault) : Error :=
  { code := .permissionDenied, message := "The owner cannot access the configured path.",
    retry := .afterOperator, path, operation, safeActions := [.fixPermissions, .abort],
    cause := some cause }

def artifactsWithoutIdentity : Error :=
  { code := .recoveryRequired,
    message := "Storage artifacts exist without database identity authority.",
    retry := .afterOperator, detectedCorruption := "identity_missing_with_existing_artifacts",
    proposalAvailable := some false, safeActions := [.recoverPropose, .restoreBackup, .abort] }

/-- A running owner, as it is opened. -/
structure OpenedRuntime where
  engine : DatabaseState
  identity : Identity
  manifest : Manifest

/-! ### A new database -/

/-- What can go wrong in `initializeRuntime`, in the order in which it can. -/
structure InitializeFaults where
  stat : Option OSErrorCategory := none
  readDir : Option OSErrorCategory := none
  create : CreateFaults
  reserve : InstallFaults
  snapshot : Option (CreateStage × Fault) := none
  closeSnapshot : Option OSErrorCategory := none
  wal : Option (CreateStage × Fault) := none
  manifest : InstallFaults

/-- `createSyncedFile`. -/
def createSyncedFile (name bytes : Bytes) (fault : Option (CreateStage × Fault))
    (close : Option OSErrorCategory) (disk : Disk) : Outcome StartError Unit × Disk :=
  match disk.create name bytes (fault.map fun fault => (fault.1, fault.2.mode)), fault, close with
  | (.done, disk), _, none => (.ok (), disk)
  | (.done, disk), _, some category => (.error (.os category), disk)
  | (.broke _ _, disk), some (_, fault), _ => (.error (.os fault.category), disk)
  | (.occupied, disk), _, _ | (.broke _ _, disk), none, _ => (.error (.os .alreadyExists), disk)

/-- Go on with the next step of a start. -/
def andStart {α β : Type} (first : Outcome StartError α × Disk)
    (next : α → Disk → Outcome StartError β × Disk) : Outcome StartError β × Disk :=
  match first with
  | (.ok a, disk) => next a disk
  | (.error e, disk) => (.error e, disk)
  | (.panic, disk) => (.panic, disk)

/-- The error of a storage step is passed on. -/
def structuredErrors {α : Type} (step : Outcome Error α × Disk) : Outcome StartError α × Disk :=
  match step with
  | (.ok a, disk) => (.ok a, disk)
  | (.error e, disk) => (.error (.structured e), disk)
  | (.panic, disk) => (.panic, disk)

/-- The manifest of the first generation. -/
def firstManifest (id : DatabaseID) (digest : Bytes) : Manifest where
  databaseID := id
  generation := 1
  snapshotFile := snapshotName 0
  snapshotRevision := 0
  snapshotSHA256 := hexEncode digest
  walFile := walName 1
  walStartRevision := 1

def initialConfig (limits : Limits) (queueCapacity : Int) (identity : Identity) (log : WAL)
    (allocation : RevisionRange) : Config where
  limits := limits
  queueCapacity := queueCapacity
  log := log
  allocator := runtimeAllocator 0 allocation
  databaseID := identity.databaseID
  reservedRevisionEnd := identity.reservedRevisionEnd
  activeWALStart := 1

/-- `owner.Open` on the configuration. -/
def openRuntime (config : Config) (identity : Identity) (manifest : Manifest) (disk : Disk) :
    Outcome StartError OpenedRuntime × Disk :=
  match newState config with
  | .error e => (.error (.structured e), disk)
  | .ok engine => (.ok ⟨engine, identity, manifest⟩, disk)

/-- The steps after the identity has reserved its first range. -/
def initializeGeneration (limits : Limits) (queueCapacity : Int) (faults : InitializeFaults)
    (identity : Identity) (allocation : RevisionRange) (disk : Disk) :
    Outcome StartError OpenedRuntime × Disk :=
  match encodeSnapshot identity.databaseID {} 0 limits with
  | .error e => (.error (.structured e), disk)
  | .ok (snapshot, digest) =>
    andStart (createSyncedFile (snapshotName 0) snapshot faults.snapshot faults.closeSnapshot disk)
      fun _ disk =>
    andStart (structuredErrors (createWAL (walName 1) ⟨identity.databaseID, 1, 1⟩ limits faults.wal
      disk)) fun log disk =>
    let manifest := firstManifest identity.databaseID digest
    andStart (structuredErrors (installManifest manifest 0 faults.manifest disk)) fun _ disk =>
    openRuntime (initialConfig limits queueCapacity identity log allocation) identity manifest disk

/-- `initializeRuntime`, for a directory in which the lock was just acquired. -/
def initializeRuntime (limits : Limits) (queueCapacity : Int) (faults : InitializeFaults)
    (disk : Disk) : Outcome StartError OpenedRuntime × Disk :=
  match faults.stat, faults.readDir with
  | some category, _ => (.error (.structured (permissionError [] "stat" (.os category))), disk)
  | none, some category =>
    (.error (.structured (permissionError [] "read_directory" (.os category))), disk)
  | none, none =>
    if disk.readDir ≠ [] then (.error (.structured artifactsWithoutIdentity), disk)
    else
      andStart (structuredErrors (loadOrCreateIdentity faults.create disk))
        fun (identity, created) disk =>
      -- without an error the caller goes on with a runtime that is nil
      if ¬ created then (.panic, disk)
      else
        andStart (structuredErrors (reserveRevisions identity 0 defaultRevisionReservation
          faults.reserve disk)) fun (identity, allocation) disk =>
        initializeGeneration limits queueCapacity faults identity allocation disk

/-! ### An existing database -/

structure RecoverFaults where
  recovery : RecoveryFaults
  opened : OpenLogFaults := {}
  /-- The order in which the map iteration visits the keys. -/
  order : List Key

/-- The keys that the snapshot or a commit mentions. -/
def mentionedKeys (snapshot : List Record) (commits : List CommitFrame) : List Key :=
  snapshot.map Record.key ++ commits.flatMap fun commit => commit.effects.map Effect.key

/-- Some iteration order over the keys; every order is that of a list `order`. -/
def iterate (order keys : List Key) : List Key :=
  (order.filter (· ∈ keys)).dedup ++ keys.dedup.filter (· ∉ order)

/-- `replayRecords`, with its final copy into a slice. -/
def replayedRecords (order : List Key) (snapshot : List Record) (commits : List CommitFrame) :
    List Record :=
  (iterate order (mentionedKeys snapshot commits)).filterMap (replayRecords snapshot commits)

def recoveredConfig (limits : Limits) (queueCapacity : Int) (recovered : RecoveryResult)
    (order : List Key) (log : WAL) : Config where
  limits := limits
  queueCapacity := queueCapacity
  log := log
  allocator := runtimeAllocator recovered.currentRevision recovered.allocation
  records := replayedRecords order recovered.snapshot.records recovered.postSnapshotCommits
  currentRevision := recovered.currentRevision
  durableThroughRevision := recovered.durableThroughRevision
  databaseID := recovered.identity.databaseID
  snapshotRevision := recovered.manifest.snapshotRevision
  recoveredCommits := recovered.postSnapshotCommits
  reservedRevisionEnd := recovered.identity.reservedRevisionEnd
  activeWALStart := recovered.manifest.walStartRevision

def recoverRuntime (limits : Limits) (queueCapacity : Int) (faults : RecoverFaults) (disk : Disk) :
    Outcome StartError OpenedRuntime × Disk :=
  andStart (structuredErrors (recoverDatabase limits faults.recovery disk)) fun recovered disk =>
  andStart (structuredErrors (openWALForAppend disk recovered.manifest.walFile
    ⟨recovered.identity.databaseID, recovered.manifest.walStartRevision,
      recovered.manifest.generation⟩ recovered.currentRevision recovered.durableThroughRevision
    limits faults.opened, disk)) fun log disk =>
  openRuntime (recoveredConfig limits queueCapacity recovered faults.order log) recovered.identity
    recovered.manifest disk

/-! ### Either of them -/

structure StartFaults where
  stat : Option OSErrorCategory := none
  creation : InitializeFaults
  recover : RecoverFaults

/-- The options are checked, and then the identity decides which way to go. -/
def start (limits : Limits) (queueCapacity : Int) (faults : StartFaults) (disk : Disk) :
    Outcome StartError OpenedRuntime × Disk :=
  match limits.validate, faults.stat with
  | .error e, _ => (.error (.structured e), disk)
  | .ok (), some category =>
    (.error (.structured (permissionError identityFilename "stat" (.os category))), disk)
  | .ok (), none =>
    if (disk.live identityFilename).isSome then
      recoverRuntime limits queueCapacity faults.recover disk
    else initializeRuntime limits queueCapacity faults.creation disk

end GapDB
