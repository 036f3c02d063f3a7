import GapDB.Admin.Audit
import GapDB.Engine.Lifetime
import GapDB.Persist.Compaction
import GapDB.Server.Owner

/-!
# A directory and its owners

The directory outlives the processes that own it. A machine is a directory with at most one owner;
an owner serves commands, installs snapshots, removes old generations, closes, is killed, or loses
power, and another one may start on what is left.
-/

namespace GapDB

open Storelib DatabaseState

/-! ### Snapshots of the controller -/

/-- `auditFailure`: the error of an operation that was applied, if the failure is recorded. -/
def auditFailure (original : Error) (audited : Bool) : Error :=
  if audited then original else auditFailedAfterApply

/-- The installer that `Controller.Snapshot` hands to the engine; `audited` says that the audit
record could be written. -/
def controllerInstall (limits : Limits) (expectedRevision : Nat) (faults : GenerationFaults)
    (audited : Bool) : SnapshotInstaller World := fun cut world =>
  if cut.revision ≠ expectedRevision then
    (.error (adminPreconditionError "snapshot revision changed"), world)
  else
    match installSnapshotGeneration world.manifest ⟨cut.revision, cut.records⟩ cut.asOf
      limits faults
        world.disk with
    | (.panic, disk) => (.panic, { world with disk })
    | (.error (e, next), disk) =>
      if e.operationApplied then
        (.error (auditFailure e audited), { world with disk, manifest := next.getD world.manifest })
      else (.error e, { world with disk })
    | (.ok (manifest, log), disk) =>
      (if audited then .ok (some log) else .error auditFailedAfterApply,
        { world with disk, manifest })

/-! ### Processes -/

/-- What the controller is busy with; it does one thing at a time. -/
inductive AdminTask where
  | idle
  /-- A snapshot is queued behind other commands. -/
  | snapshot (expectedRevision : Nat)
  /-- Files are removed beside the commands. -/
  | compaction (through : Nat) (removed : Bool) (remaining : List Bytes)

structure Process where
  engine : DatabaseState
  identity : Identity
  manifest : Manifest
  /-- The counter of the server, which requests compare with the generation of the manifest. -/
  generation : Nat
  task : AdminTask := .idle

/-- A command for the engine, with the storage failures that a reservation may meet. -/
inductive Work where
  | mutation (batch : Batch) (single : { single : SingleOperation // single ≠ .expiry })
      (reserve : InstallFaults) (faults : ExecuteFaults)
  | expiry (source : Time) (reserve : InstallFaults) (faults : ExecuteFaults)
  | register (queueDepth : Nat) (start : Bytes) (after : Nat)
  | unregister (id : Nat)
  | retire (id : Nat)
  | read (source : Time)
  /-- A backup reads the directory between two commands. -/
  | durableAdmin (result : Outcome Error Unit) (barrier : Option WAL.BarrierFault)
  | markAdminDegraded
  | drain

def Work.command : Work → Command World
  | .mutation batch single reserve faults =>
    .mutation (some (runtimeReserve reserve)) batch single faults
  | .expiry source reserve faults => .expiry (some (runtimeReserve reserve)) source faults
  | .register queueDepth start after => .register queueDepth start after
  | .unregister id => .unregister id
  | .retire id => .retire id
  | .read source => .read source
  | .durableAdmin result barrier => .durableAdmin (fun _ world => (result, world)) barrier
  | .markAdminDegraded => .markAdminDegraded
  | .drain => .drain

structure SnapshotRun where
  source : Time
  barrier : Option WAL.BarrierFault := none
  order : List Key
  generation : GenerationFaults
  audited : Bool := true

def SnapshotRun.faults (run : SnapshotRun) (s : DatabaseState) : SnapshotFaults :=
  ⟨run.source, run.barrier, iterate run.order s.orderedKeys.keys⟩

namespace Process

def world (p : Process) (disk : Disk) : World := ⟨disk, p.identity, p.manifest⟩

/-- The process and the directory after the engine was left in a state of this kind. -/
def leave (p : Process) (engine : DatabaseState) (world : World) : Process × Disk :=
  ({ p with engine, identity := world.identity, manifest := world.manifest },
    world.disk.store engine.log.path engine.log.storage.file)

def serve (p : Process) (disk : Disk) (work : Work) : Process × Disk :=
  let (_, engine, world) := work.command.run p.engine (p.world disk)
  p.leave engine world

/-- The check of the controller, for a request that has read the counter at some time. -/
def check (p : Process) (databaseID : Bytes) (generation revision : Nat) : Bool :=
  generation ≤ p.generation ∧ databaseID = p.manifest.databaseID.string ∧
    generation = p.manifest.generation ∧ revision = p.engine.current

/-- The engine executes the queued snapshot. The log is on disk before the files are installed. -/
def runSnapshot (limits : Limits) (p : Process) (disk : Disk) (expected : Nat) (run : SnapshotRun) :
    Process × Disk :=
  let barriered := (p.engine.log.barrier run.barrier).2
  let disk := disk.store p.engine.log.path barriered.storage.file
  let ((_, error), engine, world) := p.engine.executeSnapshot
    (controllerInstall limits expected run.generation run.audited) (p.world disk)
    (run.faults p.engine)
  let (p, disk) := p.leave engine world
  ({ p with task := .idle,
            generation := if error = none then p.generation + 1 else p.generation }, disk)

/-- The compaction has ended; an applied failure, a missing audit record and a panic degrade. -/
def endCompaction (p : Process) (outcome : Outcome Error Unit) (audited : Bool) : Process :=
  match outcome with
  | .ok () =>
    { p with task := .idle, engine := if audited then p.engine else p.engine.degrade }
  | .error e =>
    { p with task := .idle, engine := if e.operationApplied then p.engine.degrade else p.engine }
  | .panic => { p with task := .idle, engine := p.engine.degrade }

end Process

/-! ### Machines -/

structure Machine where
  disk : Disk
  process : Option Process := none

def Machine.initial : Machine := { disk := Directory.empty }

inductive MachineEvent where
  | start (faults : StartFaults)
  | work (work : Work)
  | submitSnapshot (databaseID : Bytes) (generation revision : Nat)
  | runSnapshot (run : SnapshotRun)
  | planCompaction (databaseID : Bytes) (generation revision through : Nat)
      (directories : List Bytes) (fault : Option Fault)
  | removeTarget (fault : Option Fault)
  | finishCompaction (fault : Option Fault) (audited : Bool)
  | close (barrier : Option WAL.BarrierFault)
  | kill
  /-- What was not synced is lost, name by name, as `pick` says. -/
  | powerLoss (pick : Bytes → Nat × Nat)
  /-- Somebody else puts or removes a file that is none of the database's. -/
  | foreign (name : Bytes) (file : Option File)

/-- The names that only an owner touches. -/
def isStorageName (name : Bytes) : Bool :=
  name = identityFilename ∨ name = manifestFilename ∨ (generationFileRevision name).isSome

section

variable (limits : Limits) (queueCapacity : Int)

namespace Process

/-- An event at a running owner. -/
def step (p : Process) (disk : Disk) : MachineEvent → Machine
  | .work work => let (p, disk) := p.serve disk work; ⟨disk, some p⟩
  | .submitSnapshot databaseID generation revision =>
    match p.task with
    | .idle =>
      if p.engine.lifecycle = .ready ∧ p.check databaseID generation revision then
        ⟨disk, some { p with task := .snapshot revision }⟩
      else ⟨disk, some p⟩
    | _ => ⟨disk, some p⟩
  | .runSnapshot run =>
    match p.task with
    | .snapshot expected => let (p, disk) := p.runSnapshot limits disk expected run; ⟨disk, some p⟩
    | _ => ⟨disk, some p⟩
  | .planCompaction databaseID generation revision through directories fault =>
    match p.task with
    | .idle =>
      if p.check databaseID generation revision then
        match planCompaction p.manifest p.manifest.databaseID through directories fault disk with
        | .ok plan => ⟨disk, some { p with task := .compaction through false plan.remove }⟩
        | .error _ => ⟨disk, some p⟩
        | .panic => ⟨disk, some { p with engine := p.engine.degrade }⟩
      else ⟨disk, some p⟩
    | _ => ⟨disk, some p⟩
  | .removeTarget fault =>
    match p.task with
    | .compaction through removed (name :: remaining) =>
      match removeTarget p.manifest through removed name fault disk with
      | (.ok (), disk) => ⟨disk, some { p with task := .compaction through true remaining }⟩
      | (outcome, disk) => ⟨disk, some (p.endCompaction outcome true)⟩
    | _ => ⟨disk, some p⟩
  | .finishCompaction fault audited =>
    match p.task with
    | .compaction _ removed [] =>
      let (outcome, disk) := finishCompaction removed fault disk
      ⟨disk, some (p.endCompaction outcome audited)⟩
    | _ => ⟨disk, some p⟩
  | .close barrier =>
    match p.task with
    | .idle =>
      let (_, engine) := p.engine.shutdown barrier
      ⟨disk.store engine.log.path engine.log.storage.file, none⟩
    | _ => ⟨disk, some p⟩
  | .kill => ⟨disk, none⟩
  | .powerLoss pick => ⟨disk.survive pick, none⟩
  | .foreign name file => ⟨if isStorageName name then disk else disk.link name file, some p⟩
  | .start _ => ⟨disk, some p⟩

end Process

namespace Machine

def step (m : Machine) (event : MachineEvent) : Machine :=
  match m.process with
  | some p => p.step limits m.disk event
  | none =>
    match event with
    | .start faults =>
      match start limits queueCapacity faults m.disk with
      | (.ok opened, disk) =>
        ⟨disk, some ⟨opened.engine, opened.identity, opened.manifest, opened.manifest.generation,
          .idle⟩⟩
      | (_, disk) => ⟨disk, none⟩
    | .powerLoss pick => ⟨m.disk.survive pick, none⟩
    | .foreign name file =>
      ⟨if isStorageName name then m.disk else m.disk.link name file, none⟩
    | _ => m

/-- The machine after the events, from left to right. -/
def run (m : Machine) (events : List MachineEvent) : Machine :=
  events.foldl (step limits queueCapacity) m

/-- The commit that an event hands to the log. -/
def frame (m : Machine) (event : MachineEvent) : Option CommitFrame :=
  match m.process, event with
  | some p, .work work => work.command.frame p.engine (p.world m.disk)
  | _, _ => none

/-- All commits that the events hand to the logs, in their order. -/
def frames (m : Machine) : List MachineEvent → List CommitFrame
  | [] => []
  | event :: events =>
    (m.frame event).toList ++ (m.step limits queueCapacity event).frames events

/-- The effective time as of which an event takes a snapshot. -/
def cut (m : Machine) (event : MachineEvent) : Option Time :=
  match m.process, event with
  | some p, .runSnapshot run =>
    match p.task with
    | .snapshot _ => some (p.engine.clock.now run.source).1
    | _ => none
  | _, _ => none

/-- The times as of which the events take snapshots. -/
def cuts (m : Machine) : List MachineEvent → List Time
  | [] => []
  | event :: events => (m.cut event).toList ++ (m.step limits queueCapacity event).cuts events

/-- The commit that an event reports as durable. -/
def acknowledged (m : Machine) (event : MachineEvent) : Option CommitFrame :=
  match m.process, event with
  | some p, .work work => (work.command.turn p.engine (p.world m.disk)).durable
  | _, _ => none

/-- All commits that the events report as durable, in their order. -/
def acknowledgements (m : Machine) : List MachineEvent → List CommitFrame
  | [] => []
  | event :: events =>
    (m.acknowledged event).toList ++ (m.step limits queueCapacity event).acknowledgements events

end Machine

end

end GapDB
