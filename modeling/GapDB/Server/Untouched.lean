import GapDB.Server.Machine

/-!
# What leaves the identity alone

Snapshots, manifests, logs and compaction share a directory with the identity. None of their steps
changes what a power loss could leave under its name.
-/

namespace GapDB

open Storelib DatabaseState

/-- Whatever identity a power loss can leave was possible before. -/
def KeepsIdentity (disk disk' : Disk) : Prop :=
  ∀ v ∈ disk'.possible identityFilename, v ∈ disk.possible identityFilename

namespace KeepsIdentity

variable {disk disk' disk'' : Disk}

theorem refl (disk : Disk) : KeepsIdentity disk disk := fun _ hv => hv

theorem trans (h : KeepsIdentity disk disk') (h' : KeepsIdentity disk' disk'') :
    KeepsIdentity disk disk'' := fun v hv => h v (h' v hv)

theorem of_keeps {touched : List Bytes} (h : Keeps disk disk' touched)
    (hne : identityFilename ∉ touched) : KeepsIdentity disk disk' := (h .identity hne).2

theorem of_agree (h : disk.Agree disk' identityFilename) : KeepsIdentity disk disk' := by
  intro v hv
  rwa [h.possible_eq] at hv

theorem store {name : Bytes} (hne : identityFilename ≠ name) (file : File) :
    KeepsIdentity disk (disk.store name file) := of_agree (disk.agree_store file hne)

theorem link {name : Bytes} (hne : identityFilename ≠ name) (file : Option File) :
    KeepsIdentity disk (disk.link name file) := of_agree (disk.agree_link file hne)

theorem sync (disk : Disk) : KeepsIdentity disk disk.sync := by
  intro v hv
  rw [Directory.possible_sync, List.mem_singleton] at hv
  rw [hv]
  exact disk.live_mem_possible _

end KeepsIdentity

theorem identityFilename_ne {name : StorageName} (h : StorageName.identity.shape ≠ name.shape) :
    identityFilename ≠ name.bytes := StorageName.bytes_ne_of_shape h

theorem identityFilename_ne_walName (revision : Nat) : identityFilename ≠ walName revision :=
  identityFilename_ne (show StorageName.identity.shape ≠ (StorageName.wal revision).shape by
    simp [StorageName.shape])

theorem identityFilename_ne_snapshotName (revision : Nat) :
    identityFilename ≠ snapshotName revision :=
  identityFilename_ne (show StorageName.identity.shape ≠ (StorageName.snapshot revision).shape by
    simp [StorageName.shape])

theorem identityFilename_ne_manifestFilename : identityFilename ≠ manifestFilename :=
  identityFilename_ne (show StorageName.identity.shape ≠ StorageName.current.shape by decide)

/-- Installing another file leaves the identity alone. -/
theorem InstallWords.install_keepsIdentity (words : InstallWords) (name : StorageName)
    (hname : identityFilename ≠ name.bytes) (hpoint : (words.point .rename).isSome) (bytes : Bytes)
    (faults : InstallFaults) (disk : Disk) :
    KeepsIdentity disk (words.install name.bytes bytes faults disk).2 :=
  .of_keeps (words.install_cases name bytes faults disk hpoint).keeps (by simpa using hname)

theorem installSnapshotFile_keepsIdentity (revision : Nat) (encoded : Bytes)
    (faults : NewFileFaults) (disk : Disk) :
    KeepsIdentity disk (installSnapshotFile (snapshotName revision) encoded faults disk).2 := by
  unfold installSnapshotFile
  split
  · exact InstallWords.install_keepsIdentity _ (.snapshot revision)
      (identityFilename_ne_snapshotName revision) rfl _ _ _
  · exact .refl disk
  · exact .refl disk

theorem installNextWAL_keepsIdentity (revision : Nat) (header : WALHeader) (faults : NewFileFaults)
    (disk : Disk) :
    KeepsIdentity disk (installNextWAL (walName revision) header faults disk).2 := by
  unfold installNextWAL
  split
  · split
    · exact .refl disk
    · exact InstallWords.install_keepsIdentity _ (.wal revision)
        (identityFilename_ne_walName revision) rfl _ _ _
  · exact .refl disk
  · exact .refl disk

theorem installManifest_keepsIdentity (manifest : Manifest) (previousGeneration : Nat)
    (faults : InstallFaults) (disk : Disk) :
    KeepsIdentity disk (installManifest manifest previousGeneration faults disk).2 := by
  unfold installManifest
  split
  · exact .refl disk
  split
  · exact .refl disk
  split
  · exact .refl disk
  · exact InstallWords.install_keepsIdentity _ .current identityFilename_ne_manifestFilename
      rfl _ _ _

theorem andInstall_keepsIdentity {α : Type} {disk : Disk} {first : Outcome Error α × Disk}
    {next : α → Disk → Outcome (Error × Option Manifest) (Manifest × WAL) × Disk}
    (hfirst : KeepsIdentity disk first.2)
    (hnext : ∀ a, KeepsIdentity first.2 (next a first.2).2) :
    KeepsIdentity disk (andInstall first next).2 := by
  obtain ⟨outcome, disk'⟩ := first
  cases outcome with
  | ok a => exact hfirst.trans (hnext a)
  | error | panic => exact hfirst

theorem installSnapshotGeneration_keepsIdentity (current : Manifest) (state : SnapshotState)
    (asOf : Time) (limits : Limits) (faults : GenerationFaults) (disk : Disk) :
    KeepsIdentity disk (installSnapshotGeneration current state asOf limits faults disk).2 := by
  unfold installSnapshotGeneration
  split
  · exact .refl disk
  split
  · exact .refl disk
  refine andInstall_keepsIdentity (installSnapshotFile_keepsIdentity _ _ _ _) fun _ => ?_
  refine andInstall_keepsIdentity (installNextWAL_keepsIdentity _ _ _ _) fun _ => ?_
  refine andInstall_keepsIdentity (.refl _) fun log => ?_
  rw [installCurrent_eq]
  exact installManifest_keepsIdentity _ _ _ _

theorem andInstall_eq_ok {α : Type} {first : Outcome Error α × Disk}
    {next : α → Disk → Outcome (Error × Option Manifest) (Manifest × WAL) × Disk}
    {result : Manifest × WAL} {disk' : Disk} (h : andInstall first next = (.ok result, disk')) :
    ∃ a, first.1 = .ok a ∧ next a first.2 = (.ok result, disk') := by
  obtain ⟨outcome, disk⟩ := first
  cases outcome with
  | ok a => exact ⟨a, rfl, h⟩
  | error e => cases h
  | panic => cases h

theorem withGeneration_eq_ok {outcome : Outcome Error Unit} {next manifest : Manifest}
    {log log' : WAL} (h : outcome.withGeneration next log = .ok (manifest, log')) : log' = log := by
  cases outcome with
  | error e => cases h
  | panic => cases h
  | ok u =>
    simp only [Outcome.withGeneration, Outcome.ok.injEq, Prod.mk.injEq] at h
    exact h.2.symm

/-- The log of a new generation is opened with the limits of the owner, under the name of a WAL. -/
theorem installSnapshotGeneration_log {current manifest : Manifest} {state : SnapshotState}
    {asOf : Time} {limits : Limits} {faults : GenerationFaults} {disk disk' : Disk} {log : WAL}
    (h : installSnapshotGeneration current state asOf limits faults disk
      = (.ok (manifest, log), disk')) :
    log.limits = limits ∧ ∃ revision, log.path = walName revision := by
  unfold installSnapshotGeneration at h
  split at h
  · cases h
  split at h
  · cases h
  obtain ⟨_, _, h⟩ := andInstall_eq_ok h
  obtain ⟨_, _, h⟩ := andInstall_eq_ok h
  obtain ⟨opened, hopen, h⟩ := andInstall_eq_ok h
  obtain ⟨file, replay, _, _, _, _, _, hopened⟩ := openWALForAppend_eq_ok hopen
  rw [installCurrent_eq] at h
  rw [withGeneration_eq_ok (Prod.mk.inj h).1, hopened]
  exact ⟨rfl, _, rfl⟩

theorem createSyncedFile_keepsIdentity (revision : Nat) (bytes : Bytes)
    (fault : Option (CreateStage × Fault)) (close : Option OSErrorCategory) (disk : Disk) :
    KeepsIdentity disk (createSyncedFile (snapshotName revision) bytes fault close disk).2 := by
  have hagree := disk.create_agree (snapshotName revision) bytes
    (fault.map fun fault => (fault.1, fault.2.mode)) (identityFilename_ne_snapshotName revision)
  unfold createSyncedFile
  generalize disk.create (snapshotName revision) bytes
    (fault.map fun fault => (fault.1, fault.2.mode)) = created at hagree
  obtain ⟨end_, disk'⟩ := created
  have hkeeps : KeepsIdentity disk disk' := .of_agree hagree
  cases end_ <;> cases fault <;> cases close <;> exact hkeeps

theorem createWAL_keepsIdentity (revision : Nat) (header : WALHeader) (limits : Limits)
    (fault : Option (CreateStage × Fault)) (disk : Disk) :
    KeepsIdentity disk (createWAL (walName revision) header limits fault disk).2 := by
  unfold createWAL
  split
  · exact .refl disk
  split
  · exact .refl disk
  next encoded _ =>
  have hagree := disk.create_agree (walName revision) encoded
    (fault.map fun fault => (fault.1, fault.2.mode)) (identityFilename_ne_walName revision)
  generalize disk.create (walName revision) encoded
    (fault.map fun fault => (fault.1, fault.2.mode)) = created at hagree
  obtain ⟨end_, disk'⟩ := created
  have hkeeps : KeepsIdentity disk disk' := .of_agree hagree
  cases end_ <;> cases fault <;> exact hkeeps

/-! ### Compaction -/

theorem removeTarget_keepsIdentity (active : Manifest) (through : Nat) (removed : Bool)
    (name : Bytes) (fault : Option Fault) (disk : Disk) :
    KeepsIdentity disk (removeTarget active through removed name fault disk).2 := by
  unfold removeTarget
  split
  · exact .refl disk
  next hsafe =>
  have hne : identityFilename ≠ name := by
    rintro rfl
    have hnone : generationFileRevision identityFilename = none := by decide +kernel
    simp [safeTarget, hnone] at hsafe
  have hlink : KeepsIdentity disk (disk.link name none) := .link hne none
  split
  · split
    · exact .refl disk
    · exact hlink
  · simp only
    split
    · split
      · exact hlink
      · exact .refl disk
    · split
      · exact hlink
      · exact .refl disk

theorem finishCompaction_keepsIdentity (removed : Bool) (fault : Option Fault) (disk : Disk) :
    KeepsIdentity disk (finishCompaction removed fault disk).2 := by
  unfold finishCompaction
  split
  · exact .refl disk
  split
  · exact .sync disk
  · simp only
    split
    · split
      · exact .sync disk
      · exact .refl disk
    · split
      · exact .sync disk
      · exact .refl disk

end GapDB
