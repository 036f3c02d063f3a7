import GapDB.Persist.OpenLog
import GapDB.Persist.Snapshot

/-!
# Installing a snapshot generation

A generation is a snapshot, the WAL that continues it and the `CURRENT` that names both
(`InstallSnapshotGeneration` of `persist/snapshot.go`). The two files are settled before `CURRENT`
is replaced, so whichever `CURRENT` a power loss leaves names files that are there.
-/

namespace GapDB

open Storelib

variable {disk disk' : Disk} {name : StorageName}

/-- Beside the names in `touched` a reader finds what was there before, and a power loss brings
back nothing new. -/
def Keeps (disk disk' : Disk) (touched : List Bytes) : Prop :=
  ∀ name : StorageName, name.bytes ∉ touched → disk'.live name.bytes = disk.live name.bytes ∧
    ∀ v ∈ disk'.possible name.bytes, v ∈ disk.possible name.bytes

theorem Keeps.refl (disk : Disk) (touched : List Bytes) : Keeps disk disk touched :=
  fun _ _ => ⟨rfl, fun _ hv => hv⟩

theorem Keeps.mono {touched touched' : List Bytes} (h : Keeps disk disk' touched)
    (hsubset : ∀ name ∈ touched, name ∈ touched') : Keeps disk disk' touched' :=
  fun name hname => h name fun hmem => hname (hsubset _ hmem)

theorem Keeps.trans {disk'' : Disk} {touched : List Bytes}
    (h : Keeps disk disk' touched) (h' : Keeps disk' disk'' touched) :
    Keeps disk disk'' touched := by
  intro name hname
  obtain ⟨hlive, hpossible⟩ := h name hname
  obtain ⟨hlive', hpossible'⟩ := h' name hname
  exact ⟨hlive'.trans hlive, fun v hv => hpossible v (hpossible' v hv)⟩

theorem Installed.keeps {bytes : Bytes}
    {outcome : Outcome Error Unit} (h : Installed disk name bytes outcome disk') :
    Keeps disk disk' [name.bytes] := by
  intro other hother
  exact h.others other (by simpa using hother)

/-- Beside the names in `touched` nothing changes, and what was settled stays settled. -/
structure KeepsSettled (disk disk' : Disk) (touched : List Bytes) : Prop where
  keeps : Keeps disk disk' touched
  settled : ∀ name : StorageName, name.bytes ∉ touched → disk.older name.bytes = [] →
    disk'.older name.bytes = []

theorem KeepsSettled.refl (disk : Disk) (touched : List Bytes) : KeepsSettled disk disk touched :=
  ⟨.refl disk touched, fun _ _ h => h⟩

theorem KeepsSettled.mono {touched touched' : List Bytes} (h : KeepsSettled disk disk' touched)
    (hsubset : ∀ name ∈ touched, name ∈ touched') : KeepsSettled disk disk' touched' :=
  ⟨h.keeps.mono hsubset, fun name hname => h.settled name fun hmem => hname (hsubset _ hmem)⟩

theorem KeepsSettled.trans {disk'' : Disk} {touched : List Bytes}
    (h : KeepsSettled disk disk' touched) (h' : KeepsSettled disk' disk'' touched) :
    KeepsSettled disk disk'' touched :=
  ⟨h.keeps.trans h'.keeps, fun name hname hold => h'.settled name hname (h.settled name hname hold)⟩

theorem InstallWords.install_keeps (words : InstallWords) (name : StorageName) (bytes : Bytes)
    (faults : InstallFaults) (disk : Disk) (hpoint : (words.point .rename).isSome) :
    KeepsSettled disk (words.install name.bytes bytes faults disk).2 [name.bytes] := by
  refine ⟨(words.install_cases name bytes faults disk hpoint).keeps, ?_⟩
  intro other hother holder
  rw [List.mem_singleton] at hother
  unfold InstallWords.install
  cases faults.suffix with
  | error category => exact holder
  | ok suffix =>
    have htemp : other.bytes ≠ tempName name.bytes suffix := other.bytes_ne_tempName name suffix
    have hcases := disk.replace_cases (name.bytes_ne_tempName name suffix) bytes
      (faults.fault.map fun fault => (fault.1, fault.2.mode))
    simp only
    generalize disk.replace (tempName name.bytes suffix) name.bytes bytes
      (faults.fault.map fun fault => (fault.1, fault.2.mode)) = ended at hcases ⊢
    obtain ⟨end_, disk'⟩ := ended
    have hsettled : disk'.older other.bytes = [] := by
      cases hcases with
      | untouched ne unapplied agree => exact (agree _ htemp).2.trans holder
      | renamed applied live older agree => exact (agree _ htemp hother).2.trans holder
      | settled ended live others older => exact older _
    cases end_ <;> cases faults.fault <;> exact hsettled

/-- An installation that succeeded leaves nothing else under its name. -/
theorem Installed.possible_of_ok {bytes : Bytes} (h : Installed disk name bytes (.ok ()) disk') :
    ∀ v ∈ disk'.possible name.bytes, v = some (.stable bytes) := by
  intro v hv
  obtain ⟨hlive, holder⟩ := h.settled rfl
  rw [Directory.possible, hlive, holder, List.mem_singleton] at hv
  exact hv

/-! ### New files -/

/-- The destination of a new file must be free. -/
def statAbsent (disk : Disk) (name : Bytes) (existsOperation statOperation : String)
    (fault : Option Fault) : Outcome Error Unit :=
  match fault with
  | some fault =>
    if fault.panics then .panic
    else .error (ioFailure statOperation name (fault.storageFault .stat))
  | none =>
    if (disk.live name).isSome then .error (ioFailure existsOperation name (.os .alreadyExists))
    else .ok ()

theorem statAbsent_eq_ok {name : Bytes} {existsOperation statOperation : String}
    {fault : Option Fault} (h : statAbsent disk name existsOperation statOperation fault = .ok ()) :
    disk.live name = none := by
  unfold statAbsent at h
  split at h
  · split at h <;> cases h
  · split at h
    · cases h
    · next hnone => simpa using hnone

structure NewFileFaults extends InstallFaults where
  stat : Option Fault := none

def snapshotWords (name : Bytes) : InstallWords where
  file := name
  suffixOperation := "snapshot_temp_name"
  operation
    | .create => "snapshot_temp_create"
    | .write => "snapshot_temp_write"
    | .sync => "snapshot_temp_sync"
    | .close => "snapshot_temp_close"
    | .rename => "snapshot_rename"
    | .syncDirectory => "snapshot_directory_sync"
  point
    | .create => some .snapshotTempCreate
    | .write => some .snapshotTempWrite
    | .sync => some .snapshotTempSync
    | .close => none
    | .rename => some .snapshotRename
    | .syncDirectory => some .snapshotDirectorySync

def installSnapshotFile (name encoded : Bytes) (faults : NewFileFaults) (disk : Disk) :
    Outcome Error Unit × Disk :=
  match statAbsent disk name "snapshot_destination_exists" "snapshot_stat" faults.stat with
  | .ok () => (snapshotWords name).install name encoded faults.toInstallFaults disk
  | .error e => (.error e, disk)
  | .panic => (.panic, disk)

/-- The write has no fault point of its own. -/
def nextWALWords (name : Bytes) : InstallWords where
  file := name
  suffixOperation := "next_wal_temp_name"
  operation
    | .create => "next_wal_create"
    | .write => "next_wal_write"
    | .sync => "next_wal_sync"
    | .close => "next_wal_close"
    | .rename => "next_wal_rename"
    | .syncDirectory => "next_wal_directory_sync"
  point
    | .create => some .nextWALCreate
    | .write | .close => none
    | .sync | .syncDirectory => some .nextWALSync
    | .rename => some .nextWALRename

def installNextWAL (name : Bytes) (header : WALHeader) (faults : NewFileFaults) (disk : Disk) :
    Outcome Error Unit × Disk :=
  match statAbsent disk name "next_wal_destination_exists" "next_wal_stat" faults.stat with
  | .ok () =>
    match encodeWALHeader header with
    | .error e => (.error e, disk)
    | .ok encoded => (nextWALWords name).install name encoded faults.toInstallFaults disk
  | .error e => (.error e, disk)
  | .panic => (.panic, disk)

/-- A new file is refused without a trace, or installed under a name that was free. -/
def InstalledNew (disk : Disk) (name : StorageName) (bytes : Bytes) (outcome : Outcome Error Unit)
    (disk' : Disk) : Prop :=
  (∀ u, outcome ≠ .ok u) ∧ disk' = disk ∨
    disk.live name.bytes = none ∧ Installed disk name bytes outcome disk' ∧
      KeepsSettled disk disk' [name.bytes]

theorem installSnapshotFile_cases (revision : Nat) (encoded : Bytes) (faults : NewFileFaults)
    (disk : Disk) :
    InstalledNew disk (.snapshot revision) encoded
      (installSnapshotFile (snapshotName revision) encoded faults disk).1
      (installSnapshotFile (snapshotName revision) encoded faults disk).2 := by
  unfold installSnapshotFile
  split
  · next hstat =>
    exact .inr ⟨statAbsent_eq_ok hstat, (snapshotWords _).install_cases (.snapshot revision) encoded
      faults.toInstallFaults disk rfl, (snapshotWords _).install_keeps (.snapshot revision) encoded
      faults.toInstallFaults disk rfl⟩
  · exact .inl ⟨by simp, rfl⟩
  · exact .inl ⟨by simp, rfl⟩

theorem installNextWAL_cases (revision : Nat) {header : WALHeader} (h : header.Encodable)
    (faults : NewFileFaults) (disk : Disk) :
    InstalledNew disk (.wal revision) header.bytes
      (installNextWAL (walName revision) header faults disk).1
      (installNextWAL (walName revision) header faults disk).2 := by
  unfold installNextWAL
  rw [encodeWALHeader_bytes h]
  split
  · next hstat =>
    exact .inr ⟨statAbsent_eq_ok hstat, (nextWALWords _).install_cases (.wal revision) header.bytes
      faults.toInstallFaults disk rfl, (nextWALWords _).install_keeps (.wal revision) header.bytes
      faults.toInstallFaults disk rfl⟩
  · exact .inl ⟨by simp, rfl⟩
  · exact .inl ⟨by simp, rfl⟩

/-! ### The generation -/

/-- What can go wrong in an installation, in the order in which it can. -/
structure GenerationFaults where
  snapshot : NewFileFaults
  nextWAL : NewFileFaults
  opened : OpenLogFaults := {}
  manifest : InstallFaults

/-- Go on with the next step of an installation; an error so far comes without a manifest. -/
def andInstall {α : Type} (first : Outcome Error α × Disk)
    (next : α → Disk → Outcome (Error × Option Manifest) (Manifest × WAL) × Disk) :
    Outcome (Error × Option Manifest) (Manifest × WAL) × Disk :=
  match first with
  | (.ok a, disk) => next a disk
  | (.error e, disk) => (.error (e, none), disk)
  | (.panic, disk) => (.panic, disk)

/-- The last step: an error comes with the new manifest. -/
def installCurrent (manifest : Manifest) (previousGeneration : Nat) (faults : InstallFaults)
    (nextWAL : WAL) (disk : Disk) : Outcome (Error × Option Manifest) (Manifest × WAL) × Disk :=
  match installManifest manifest previousGeneration faults disk with
  | (.ok (), disk) => (.ok (manifest, nextWAL), disk)
  | (.error e, disk) => (.error (e, some manifest), disk)
  | (.panic, disk) => (.panic, disk)

namespace Manifest

/-- The header of the WAL that a manifest names. -/
def header (manifest : Manifest) : WALHeader :=
  ⟨manifest.databaseID, manifest.walStartRevision, manifest.generation⟩

theorem Encodable.header {manifest : Manifest} (h : manifest.Encodable) :
    manifest.header.Encodable := by
  have hrevision := h.revision
  have hstart := h.start
  have hgeneration := h.generation
  exact ⟨h.id, by simp only [Manifest.header]; omega, hgeneration⟩

end Manifest

/-- The files and then `CURRENT`, for a generation whose snapshot is `encoded`. -/
def installGeneration (manifest : Manifest) (previousGeneration : Nat) (encoded : Bytes)
    (limits : Limits) (faults : GenerationFaults) (disk : Disk) :
    Outcome (Error × Option Manifest) (Manifest × WAL) × Disk :=
  andInstall (installSnapshotFile manifest.snapshotFile encoded faults.snapshot disk) fun _ disk =>
  andInstall (installNextWAL manifest.walFile manifest.header faults.nextWAL disk) fun _ disk =>
  andInstall (openWALForAppend disk manifest.walFile manifest.header manifest.snapshotRevision
    manifest.snapshotRevision limits faults.opened, disk) fun nextWAL disk =>
  installCurrent manifest previousGeneration faults.manifest nextWAL disk

def installSnapshotGeneration (current : Manifest) (state : SnapshotState) (asOf : Time)
    (limits : Limits) (faults : GenerationFaults) (disk : Disk) :
    Outcome (Error × Option Manifest) (Manifest × WAL) × Disk :=
  if current.databaseID.isZero ∨ current.generation = maxUint64 ∨
      state.revision < current.snapshotRevision ∨ state.revision = maxUint64 then
    (.error (corruptSnapshot "snapshot installation options are invalid" noFile 0 none, none), disk)
  else
    match encodeSnapshot current.databaseID state asOf limits with
    | .error e => (.error (e, none), disk)
    | .ok (encoded, digest) =>
      installGeneration
        ⟨current.databaseID, current.generation + 1, snapshotName state.revision, state.revision,
          hexEncode digest, walName (state.revision + 1), state.revision + 1⟩
        current.generation encoded limits faults disk

namespace Manifest

/-- The log of a generation in which nothing has been committed yet. -/
def freshLog (manifest : Manifest) (limits : Limits) : WAL where
  path := manifest.walFile
  header := manifest.header
  limits := limits
  storage := ⟨.stable manifest.header.bytes, []⟩
  lastRevision := manifest.snapshotRevision
  durableThrough := manifest.snapshotRevision

/-- What a snapshot of `state` at `asOf` stores. -/
def stored (state : SnapshotState) (asOf : Time) : SnapshotState :=
  ⟨state.revision, state.kept asOf⟩

/-- The manifest of the generation after this one. -/
def next (current : Manifest) (state : SnapshotState) (asOf : Time) : Manifest where
  databaseID := current.databaseID
  generation := current.generation + 1
  snapshotFile := snapshotName state.revision
  snapshotRevision := state.revision
  snapshotSHA256 := hexEncode ((stored state asOf).digest current.databaseID)
  walFile := walName (state.revision + 1)
  walStartRevision := state.revision + 1

end Manifest

/-- What is reported when the installation of `CURRENT` ended with `outcome`. -/
def Outcome.withGeneration (outcome : Outcome Error Unit) (next : Manifest) (log : WAL) :
    Outcome (Error × Option Manifest) (Manifest × WAL) :=
  match outcome with
  | .ok () => .ok (next, log)
  | .error e => .error (e, some next)
  | .panic => .panic

section

variable {limits : Limits} {current next : Manifest} {state : SnapshotState} {asOf : Time}
  {encoded : Bytes}

/-- The two files that a generation creates. -/
def Manifest.files (manifest : Manifest) : List Bytes := [manifest.snapshotFile, manifest.walFile]

theorem Manifest.next_encodable (hid : ¬ current.databaseID.isZero)
    (hgeneration : current.generation + 1 < 2 ^ 64) (hrevision : state.revision + 1 < 2 ^ 64) :
    (current.next state asOf).Encodable := by
  refine ⟨hid, ⟨Nat.succ_ne_zero _, hgeneration⟩, hrevision, rfl, rfl, rfl, _, ?_, rfl⟩
  exact sha256_length _

/-- The log that is opened on a header that was just installed. -/
theorem openWALForAppend_fresh {faults : OpenLogFaults} {log : WAL}
    (hlive : disk.live next.walFile = some (.stable next.header.bytes))
    (h : openWALForAppend disk next.walFile next.header next.snapshotRevision next.snapshotRevision
      limits faults = .ok log) : log = next.freshLog limits := by
  obtain ⟨file, replay, hfile, _, _, _, _, rfl⟩ := openWALForAppend_eq_ok h
  rw [hlive, Option.some.injEq] at hfile
  rw [← hfile, Manifest.freshLog]

theorem installCurrent_eq (manifest : Manifest) (previousGeneration : Nat) (faults : InstallFaults)
    (log : WAL) (disk : Disk) :
    installCurrent manifest previousGeneration faults log disk
      = ((installManifest manifest previousGeneration faults disk).1.withGeneration manifest log,
          (installManifest manifest previousGeneration faults disk).2) := by
  unfold installCurrent
  generalize installManifest manifest previousGeneration faults disk = result
  obtain ⟨outcome, disk'⟩ := result
  cases outcome <;> rfl

theorem InstalledNew.keeps {bytes : Bytes}
    {outcome : Outcome Error Unit} (h : InstalledNew disk name bytes outcome disk') :
    KeepsSettled disk disk' [name.bytes] := by
  rcases h with ⟨_, rfl⟩ | ⟨_, _, h⟩
  · exact .refl _ _
  · exact h

theorem installManifest_keeps (manifest : Manifest) (previousGeneration : Nat)
    (faults : InstallFaults) (disk : Disk) : KeepsSettled disk
      (installManifest manifest previousGeneration faults disk).2 [manifestFilename] := by
  unfold installManifest
  split
  · exact .refl _ _
  split
  · exact .refl _ _
  split
  · exact .refl _ _
  · exact manifestWords.install_keeps .current _ faults disk rfl

end

end GapDB
