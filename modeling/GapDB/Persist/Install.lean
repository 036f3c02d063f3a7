import GapDB.Faults
import GapDB.Persist.Common

/-!
# Names of storage files, and how they are installed

`IDENTITY`, `CURRENT`, snapshots and the next WAL are all installed in the same way: written under
a temporary name, synced, renamed, and made durable by a sync of the directory. They differ in the
words of their errors and in what they check first.
-/

namespace GapDB

open Storelib

abbrev Disk := Directory Bytes

def manifestFilename : Bytes := ascii "CURRENT"

/-- `fmt.Sprintf("%020d", revision)`. -/
def formatRevision (revision : Nat) : Bytes := paddedDecimal 20 revision

def leftPadRevision (revision : Nat) : Bytes :=
  let value := decimal revision
  List.replicate (20 - value.length) 48 ++ value

theorem leftPadRevision_eq (revision : Nat) : leftPadRevision revision = formatRevision revision :=
  replicate_append_decimal revision

def snapshotName (revision : Nat) : Bytes :=
  ascii "snapshot-" ++ leftPadRevision revision ++ ascii ".gdb"

def walName (revision : Nat) : Bytes := ascii "wal-" ++ leftPadRevision revision ++ ascii ".gdb"

/-- The temporary name beside `final`; the suffix is random. -/
def tempName (final suffix : Bytes) : Bytes := final ++ ascii ".tmp-" ++ hexEncode suffix

/-! ### The names do not clash -/

/-- The files that recovery reads. -/
inductive StorageName where
  | identity
  | current
  | snapshot (revision : Nat)
  | wal (revision : Nat)
deriving DecidableEq

namespace StorageName

def bytes : StorageName → Bytes
  | .identity => identityFilename
  | .current => manifestFilename
  | .snapshot revision => snapshotName revision
  | .wal revision => walName revision

@[simp] theorem bytes_identity : identity.bytes = identityFilename := rfl

@[simp] theorem bytes_current : current.bytes = manifestFilename := rfl

@[simp] theorem bytes_snapshot (revision : Nat) :
    (snapshot revision).bytes = snapshotName revision := rfl

@[simp] theorem bytes_wal (revision : Nat) : (wal revision).bytes = walName revision := rfl

/-- The first byte of a name tells its kind, and the kind its length. -/
def shape : StorageName → Byte × Nat
  | .identity => (73, 8)
  | .current => (67, 7)
  | .snapshot _ => (115, 33)
  | .wal _ => (119, 28)

theorem bytes_shape (name : StorageName) : ∃ rest,
    name.bytes = name.shape.1 :: rest ∧ rest.length + 1 = name.shape.2 := by
  cases name with
  | identity | current => exact ⟨_, rfl, rfl⟩
  | snapshot revision =>
    refine ⟨ascii "napshot-" ++ leftPadRevision revision ++ ascii ".gdb", rfl, ?_⟩
    simp only [leftPadRevision_eq, formatRevision, List.length_append, paddedDecimal_length]
    rfl
  | wal revision =>
    refine ⟨ascii "al-" ++ leftPadRevision revision ++ ascii ".gdb", rfl, ?_⟩
    simp only [leftPadRevision_eq, formatRevision, List.length_append, paddedDecimal_length]
    rfl

theorem shape_eq_of_first {name name' : StorageName} (h : name.shape.1 = name'.shape.1) :
    name.shape = name'.shape := by
  cases name <;> cases name' <;> first | rfl | (revert h; simp [shape])

/-- No temporary name is the name of a storage file. -/
theorem bytes_ne_tempName (name final : StorageName) (suffix : Bytes) :
    name.bytes ≠ tempName final.bytes suffix := by
  intro h
  obtain ⟨rest, hname, hlength⟩ := name.bytes_shape
  obtain ⟨rest', hfinal, hlength'⟩ := final.bytes_shape
  rw [tempName, hname, hfinal, List.cons_append, List.cons_append, List.cons.injEq] at h
  have hlong := congrArg List.length h.2
  rw [List.length_append, List.length_append, show (ascii ".tmp-").length = 5 from rfl] at hlong
  -- the same first byte means the same kind, but the temporary name is longer
  rw [shape_eq_of_first h.1] at hlength
  omega

theorem snapshotName_injective {r r' : Nat} (hr : r < 2 ^ 64) (hr' : r' < 2 ^ 64)
    (h : snapshotName r = snapshotName r') : r = r' := by
  rw [snapshotName, snapshotName, List.append_left_inj, List.append_right_inj, leftPadRevision_eq,
    leftPadRevision_eq] at h
  exact paddedDecimal_injective (hr.trans (by decide)) (hr'.trans (by decide)) h

theorem walName_injective {r r' : Nat} (hr : r < 2 ^ 64) (hr' : r' < 2 ^ 64)
    (h : walName r = walName r') : r = r' := by
  rw [walName, walName, List.append_left_inj, List.append_right_inj, leftPadRevision_eq,
    leftPadRevision_eq] at h
  exact paddedDecimal_injective (hr.trans (by decide)) (hr'.trans (by decide)) h

/-- Names of different kinds differ. -/
theorem bytes_ne_of_shape {name name' : StorageName} (h : name.shape ≠ name'.shape) :
    name.bytes ≠ name'.bytes := by
  intro heq
  obtain ⟨rest, hname, _⟩ := name.bytes_shape
  obtain ⟨rest', hname', _⟩ := name'.bytes_shape
  rw [hname, hname', List.cons.injEq] at heq
  exact h (shape_eq_of_first heq.1)

end StorageName

/-! ### Installation -/

/-- The operations of an installation as its errors name them, and the fault points it passes. -/
structure InstallWords where
  file : Bytes
  suffixOperation : String := "generate_temp_name"
  operation : ReplaceStage → String
  point : ReplaceStage → Option Point

/-- What can go wrong in an installation; each failure ends it. -/
structure InstallFaults where
  /-- The random suffix, or the failure of the source of randomness. -/
  suffix : Except OSErrorCategory Bytes
  fault : Option (ReplaceStage × Fault) := none

namespace InstallWords

def cause (words : InstallWords) (stage : ReplaceStage) (fault : Fault) : StorageFault :=
  match words.point stage with
  | some point => fault.storageFault point
  | none => .os fault.category

def failure (words : InstallWords) (stage : ReplaceStage) (cause : StorageFault) : Error :=
  match stage with
  | .rename =>
    if cause.failedAfter then ioFailureApplied (words.operation .rename) words.file cause
    else ioFailure (words.operation .rename) words.file cause
  | .syncDirectory => ioFailureApplied (words.operation .syncDirectory) words.file cause
  | .create | .write | .sync | .close => ioFailure (words.operation stage) words.file cause

/-- The common body of `installIdentity`, `InstallManifest`, `installSnapshotFile` and
`installNextWAL`. -/
def install (words : InstallWords) (final bytes : Bytes) (faults : InstallFaults) (disk : Disk) :
    Outcome Error Unit × Disk :=
  match faults.suffix with
  | .error category => (.error (ioFailure words.suffixOperation words.file (.os category)), disk)
  | .ok suffix =>
    let ended := disk.replace (tempName final suffix) final bytes
      (faults.fault.map fun fault => (fault.1, fault.2.mode))
    match ended, faults.fault with
    | (.done, disk), _ => (.ok (), disk)
    | (.broke stage _, disk), some (_, fault) =>
      (if fault.panics then .panic
        else .error (words.failure stage (words.cause stage fault)), disk)
    | (.occupied, disk), _ | (.broke _ _, disk), none =>
      (.error (ioFailure (words.operation .create) words.file (.os .alreadyExists)), disk)

end InstallWords

/-- The disk after an installation of `bytes` under `name` that ended with `outcome`. -/
structure Installed (disk : Disk) (name : StorageName) (bytes : Bytes)
    (outcome : Outcome Error Unit) (disk' : Disk) : Prop where
  /-- The file is the old one or the new one, also after a power loss. -/
  final : ∀ v ∈ disk'.possible name.bytes, v = some (.stable bytes) ∨ v ∈ disk.possible name.bytes
  live : disk'.live name.bytes = some (.stable bytes) ∨ disk.Agree disk' name.bytes
  others : ∀ other : StorageName, other.bytes ≠ name.bytes →
    disk'.live other.bytes = disk.live other.bytes ∧
      ∀ v ∈ disk'.possible other.bytes, v ∈ disk.possible other.bytes
  settled : outcome = .ok () → disk'.live name.bytes = some (.stable bytes) ∧
    ∀ n, disk'.older n = []
  untouched : ∀ err, outcome = .error err → err.operationApplied = false →
    ∀ other : StorageName, disk.Agree disk' other.bytes

/-- What is installed is what the replacement of the file leaves, if the outcome says how far
that got. -/
theorem Installed.of_replaced {disk disk' : Disk} {name : StorageName} {suffix bytes : Bytes}
    {outcome : Outcome Error Unit} {e : ReplaceEnd}
    (h : disk.Replaced (tempName name.bytes suffix) name.bytes bytes e disk')
    (hdone : outcome = .ok () → e = .done)
    (happlied : ∀ err, outcome = .error err → err.operationApplied = false →
      e ≠ .done ∧ ¬ e.Applied) : Installed disk name bytes outcome disk' := by
  have hne : ∀ other : StorageName, other.bytes ≠ tempName name.bytes suffix :=
    fun other => other.bytes_ne_tempName name suffix
  refine ⟨h.possible_final (hne name), ?_, fun other hother => h.possible_of_ne (hne other) hother,
    fun hok => ?_, fun err herr hunapplied other => ?_⟩
  · cases h with
    | untouched ne unapplied agree => exact .inr (agree _ (hne name))
    | renamed applied live | settled applied live => exact .inl live
  · obtain rfl := hdone hok
    exact ⟨h.of_done.1, h.of_done.2.2⟩
  · obtain ⟨hnot, hunapplied⟩ := happlied err herr hunapplied
    exact h.of_unapplied hnot hunapplied _ (hne other)

/-- An installation that fails before anything is written. -/
theorem Installed.of_error {disk : Disk} {name : StorageName} {bytes : Bytes} (e : Error) :
    Installed disk name bytes (.error e) disk :=
  ⟨fun _ hv => .inr hv, .inr (.refl disk _), fun _ _ => ⟨rfl, fun _ hv => hv⟩, by simp,
    fun _ _ _ _ => .refl disk _⟩

theorem InstallWords.failure_applied (words : InstallWords) (stage : ReplaceStage) (fault : Fault)
    (hpoint : (words.point .rename).isSome) :
    (words.failure stage (words.cause stage fault)).operationApplied = true ↔
      (ReplaceEnd.broke stage fault.mode).Applied := by
  obtain ⟨point, hpoint⟩ := Option.isSome_iff_exists.mp hpoint
  cases stage with
  | rename =>
    rw [InstallWords.failure, InstallWords.cause, hpoint]
    cases hmode : fault.mode <;>
      simp [Fault.storageFault, hmode, StorageFault.failedAfter, ioFailure, ioFailureApplied,
        ReplaceEnd.Applied]
  | syncDirectory => simp [InstallWords.failure, ioFailureApplied, ReplaceEnd.Applied]
  | create | write | sync | close =>
    simp [InstallWords.failure, ioFailure, ReplaceEnd.Applied]

/-- A replacement only breaks off where its fault says. -/
theorem fault_of_replace_broke {disk : Disk} {temp final bytes : Bytes}
    {fault : Option (ReplaceStage × Fault)} {stage : ReplaceStage} {mode : BreakMode}
    (h : (disk.replace temp final bytes (fault.map fun f => (f.1, f.2.mode))).1
      = .broke stage mode) : ∃ f, fault = some (stage, f) ∧ f.mode = mode := by
  cases fault with
  | none =>
    simp only [Option.map_none, Directory.replace] at h
    split at h
    · simp_all
    · split at h <;> simp_all
  | some fault =>
    obtain ⟨stage', fault⟩ := fault
    simp only [Option.map_some, Directory.replace] at h
    split at h
    · next hcreate =>
      simp only [Option.some.injEq, Prod.mk.injEq] at hcreate
      simp only [ReplaceEnd.broke.injEq] at h
      exact ⟨fault, by rw [hcreate.1, h.1], hcreate.2.trans h.2⟩
    · split at h
      · simp at h
      · simp only [ReplaceEnd.broke.injEq] at h
        exact ⟨fault, by rw [h.1], h.2⟩

theorem InstallWords.install_cases (words : InstallWords) (name : StorageName) (bytes : Bytes)
    (faults : InstallFaults) (disk : Disk) (hpoint : (words.point .rename).isSome) :
    Installed disk name bytes (words.install name.bytes bytes faults disk).1
      (words.install name.bytes bytes faults disk).2 := by
  unfold InstallWords.install
  cases hsuffix : faults.suffix with
  | error category => exact .of_error _
  | ok suffix =>
    have hcases := disk.replace_cases (name.bytes_ne_tempName name suffix) bytes
      (faults.fault.map fun fault => (fault.1, fault.2.mode))
    have hbroke := @fault_of_replace_broke disk (tempName name.bytes suffix) name.bytes bytes
      faults.fault
    simp only
    generalize disk.replace (tempName name.bytes suffix) name.bytes bytes
      (faults.fault.map fun fault => (fault.1, fault.2.mode)) = ended at hcases hbroke ⊢
    obtain ⟨e, disk'⟩ := ended
    cases e with
    | done => exact .of_replaced hcases (fun _ => rfl) (by simp)
    | occupied => exact .of_replaced hcases (by simp) (by simp [ReplaceEnd.Applied])
    | broke stage mode =>
      obtain ⟨fault, hfault, rfl⟩ := hbroke rfl
      simp only [hfault]
      refine .of_replaced hcases (by split <;> simp) fun err herr hunapplied => ?_
      refine ⟨by simp, fun happlied => ?_⟩
      split at herr
      · cases herr
      · rw [Outcome.error.injEq] at herr
        rw [← herr, (words.failure_applied stage fault hpoint).mpr happlied] at hunapplied
        cases hunapplied

end GapDB
