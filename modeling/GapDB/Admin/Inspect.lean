import GapDB.Persist.Authority
import GapDB.Persist.Recovery

/-!
# Offline inspection and quarantine

`inspectHeld` of `admin/verify.go` reads a directory the way a backup is verified, and a finding it
makes may authorize the quarantine of a file (`admin/recovery.go`). Startup recovery reads the same
files, but it accepts an incomplete final frame, and it uses the limits of the owner.
-/

namespace GapDB

open Storelib

/-! ### Verifying a generation -/

/-- `verifyGeneration` of `persist/backup.go`. -/
def verifyGeneration (disk : Disk) (expectedID : DatabaseID) (limits : Limits)
    (faults : LoadFaults) : Outcome Error (Identity × Manifest × Nat) :=
  let limits := if limits.maxKeyBytes = 0 then defaultLimits else limits
  (readIdentity disk faults.identity).bind fun identity =>
  if identity.databaseID ≠ expectedID then
    .error (databaseIDMismatch expectedID identity.databaseID identityFilename)
  else
    (readManifest disk expectedID 1 faults.manifest).bind fun manifest =>
    (loadSnapshot disk manifest limits faults.snapshot).bind fun _ =>
    (openAndScan disk manifest.walFile "backup_wal_open" "backup_wal_stat" expectedID
      manifest.snapshotRevision identity.reservedRevisionEnd limits faults.scan).bind
        fun (_, replay) =>
    if replay.header.generation ≠ manifest.generation ∨
        replay.header.firstRevision ≠ manifest.walStartRevision ∨ replay.tail.isSome then
      .error (corruptWAL "backup WAL is not a complete authoritative generation" manifest.walFile
        replay.completeOffset none)
    else .ok (identity, manifest, replay.recoveredRevision)

/-! ### Inspection -/

structure ArtifactEvidence where
  sha256 : Bytes
  size : Nat
  device : Nat
  inode : Nat
deriving DecidableEq

structure Inspection where
  databaseID : Bytes := []
  manifestGeneration : Nat := 0
  snapshotRevision : Nat := 0
  currentRevision : Nat := 0
  findingCode : Option ErrorCode := none
  findingFile : Bytes := []
  findingStage : String := ""
  evidence : Option ArtifactEvidence := none
  verified : Bool := false
deriving DecidableEq

/-- `filepath.Base(name) == name` for a name that is not empty. -/
def isBaseName (name : Bytes) : Bool := name ≠ [] ∧ (47 ∉ name ∨ name = [47])

/-- `artifactEvidenceFor`; `stat` gives the device and the inode of a file. -/
def artifactEvidenceFor (stat : Bytes → Nat × Nat) (disk : Disk) (name : Bytes) (fails : Bool) :
    Option ArtifactEvidence :=
  if isBaseName name ∧ ¬ fails then
    (disk.live name).map fun file =>
      ⟨hexEncode (sha256 file.bytes), file.bytes.length, (stat name).1, (stat name).2⟩
  else none

def Error.findingFile (e : Error) : Bytes := if e.file ≠ [] then e.file else e.path

theorem findingFile_corruptWAL {reason : String} {file : Bytes} {offset : Nat}
    {cause : Option StorageFault} (h : file ≠ []) :
    (corruptWAL reason file offset cause).findingFile = file := by
  simp [Error.findingFile, corruptWAL, h]

/-- `setEvidence` and then `inspectionError`. -/
def Inspection.withFinding (report : Inspection) (e : Error) (evidence : Option ArtifactEvidence) :
    Inspection :=
  { report with findingCode := some e.code, findingFile := e.findingFile,
                findingStage := e.failedStage, evidence }

/-- What can go wrong in an inspection: identity and manifest are read twice. -/
structure InspectFaults where
  identity : ReadFaults := {}
  manifest : ReadFaults := {}
  verify : LoadFaults := {}
  evidence : Bool := false

/-- Go on, or report the finding. -/
def orFinding {α : Type} (stat : Bytes → Nat × Nat) (disk : Disk) (faults : InspectFaults)
    (report : Inspection) (result : Outcome Error α)
    (next : α → Outcome (Inspection × Error) Inspection) :
    Outcome (Inspection × Error) Inspection :=
  match result with
  | .ok a => next a
  | .error e =>
    .error (report.withFinding e (artifactEvidenceFor stat disk e.findingFile faults.evidence), e)
  | .panic => .panic

/-- `inspectHeld`: the report, beside the error if there is one. -/
def inspectHeld (stat : Bytes → Nat × Nat) (disk : Disk) (limits : Limits)
    (faults : InspectFaults) : Outcome (Inspection × Error) Inspection :=
  orFinding stat disk faults {} (readIdentity disk faults.identity) fun identity =>
  let report : Inspection := { databaseID := identity.databaseID.string }
  orFinding stat disk faults report (readManifest disk identity.databaseID 1 faults.manifest)
    fun manifest =>
  let report := { report with manifestGeneration := manifest.generation,
                              snapshotRevision := manifest.snapshotRevision }
  orFinding stat disk faults report (verifyGeneration disk identity.databaseID limits faults.verify)
    fun (_, _, revision) => .ok { report with currentRevision := revision, verified := true }

def adminPreconditionError (reason : String) : Error :=
  { code := .adminPreconditionFailed, message := "Administrative preconditions did not match.",
    retry := .afterReconcile, reason, safeActions := [.status, .rebuildRequest, .abort] }

/-- `recoveryActions`: the safe actions of a code, if recovery is one of them. -/
def recoveryActions : ErrorCode → Option (List SafeAction)
  | .corruptManifest | .corruptSnapshot | .corruptWAL =>
    some [.inspectOffline, .recoverPropose, .restoreBackup, .abort]
  | .recoveryRequired => some [.recoverPropose, .restoreBackup, .abort]
  | .recoveryActionMismatch => some [.recoverPropose, .abort]
  | _ => none

/-! ### Reading with and without storage failures -/

/-- The outcome is this value, unless storage fails and says so. -/
def Outcome.Reads {α : Type} (outcome : Outcome Error α) (value : α) : Prop :=
  outcome = .ok value ∨ outcome = .panic ∨ ∃ e, outcome = .error e ∧ e.code = .ioError

theorem Outcome.Reads.bind {α β : Type} {outcome : Outcome Error α} {a : α} {b : β}
    {next : α → Outcome Error β} (h : outcome.Reads a) (hnext : (next a).Reads b) :
    (outcome.bind next).Reads b := by
  rcases h with rfl | rfl | ⟨e, rfl, hcode⟩
  · exact hnext
  · exact .inr (.inl rfl)
  · exact .inr (.inr ⟨e, rfl, hcode⟩)

section

variable {disk : Disk} {limits : Limits}

theorem readFile_reads {name bytes : Bytes} {openOperation readOperation : String}
    (h : readFile disk name openOperation readOperation {} = .ok bytes) (faults : ReadFaults) :
    (readFile disk name openOperation readOperation faults).Reads bytes := by
  obtain ⟨file, hlive, rfl⟩ := readFile_eq_ok h
  unfold readFile
  rw [hlive]
  cases faults.opened with
  | some fault =>
    simp only
    split
    · exact .inr (.inl rfl)
    · exact .inr (.inr ⟨_, rfl, rfl⟩)
  | none =>
    cases faults.read with
    | some category => exact .inr (.inr ⟨_, rfl, rfl⟩)
    | none => exact .inl rfl

theorem readIdentity_reads {identity : Identity} (h : readIdentity disk {} = .ok identity)
    (faults : ReadFaults) : (readIdentity disk faults).Reads identity := by
  obtain ⟨encoded, hread, h⟩ := Outcome.bind_eq_ok.mp h
  exact (readFile_reads hread faults).bind (.inl h)

theorem readManifest_reads {id : DatabaseID} {minimum : Nat} {manifest : Manifest}
    (h : readManifest disk id minimum {} = .ok manifest) (faults : ReadFaults) :
    (readManifest disk id minimum faults).Reads manifest := by
  obtain ⟨encoded, hread, h⟩ := Outcome.bind_eq_ok.mp h
  exact (readFile_reads hread faults).bind (.inl h)

theorem loadSnapshot_reads {manifest : Manifest} {state : SnapshotState}
    (h : loadSnapshot disk manifest limits {} = .ok state) (faults : ReadFaults) :
    (loadSnapshot disk manifest limits faults).Reads state := by
  obtain ⟨encoded, hread, h⟩ := Outcome.bind_eq_ok.mp h
  exact (readFile_reads hread faults).bind (.inl h)

/-- A failed read of the header of a WAL is reported as corruption, every other one as what
it is. -/
theorem openAndScan_reads {name : Bytes} {openOperation statOperation : String} {id : DatabaseID}
    {after reservedEnd : Nat} {file : File} {replay : WALReplay}
    (hlive : disk.live name = some file)
    (hscan : scanWAL file.bytes id after reservedEnd limits = .ok replay) {faults : ScanFaults}
    (hheader : ∀ category, faults.read ≠ some (.header, category)) :
    (openAndScan disk name openOperation statOperation id after reservedEnd limits faults).Reads
      (file, replay) := by
  unfold openAndScan
  rw [hlive]
  cases faults.opened with
  | some fault =>
    simp only
    split
    · exact .inr (.inl rfl)
    · exact .inr (.inr ⟨_, rfl, rfl⟩)
  | none =>
    cases faults.stat with
    | some category => exact .inr (.inr ⟨_, rfl, rfl⟩)
    | none =>
      cases hread : faults.read with
      | some failure =>
        obtain ⟨stage, category⟩ := failure
        cases stage with
        | header => exact absurd hread (hheader category)
        | frameHeader | frame => exact .inr (.inr ⟨_, rfl, rfl⟩)
      | none =>
        simp only [hscan]
        exact .inl rfl

/-- A generation that recovery accepts without cutting anything off verifies. -/
theorem verifyGeneration_reads {loaded : Loaded} (h : Loads disk limits loaded)
    (hlimits : limits.maxKeyBytes ≠ 0) (htail : loaded.replay.tail = none) {faults : LoadFaults}
    (hheader : ∀ category, faults.scan.read ≠ some (.header, category)) :
    (verifyGeneration disk loaded.identity.databaseID limits faults).Reads
      (loaded.identity, loaded.manifest, loaded.replay.recoveredRevision) := by
  obtain ⟨tail, hscan, hmap⟩ := h.scan
  have hnone : tail = none := by simpa [htail] using hmap.symm
  subst hnone
  have hcomplete : ¬ (loaded.replay.header.generation ≠ loaded.manifest.generation ∨
      loaded.replay.header.firstRevision ≠ loaded.manifest.walStartRevision ∨
      (none : Option TailTruncation).isSome) := by
    simp [h.generation, h.start]
  unfold verifyGeneration
  rw [if_neg hlimits]
  refine (readIdentity_reads h.identity _).bind ?_
  rw [if_neg (by simp)]
  refine (readManifest_reads h.manifest _).bind ?_
  refine (loadSnapshot_reads h.snapshot _).bind ?_
  refine (openAndScan_reads h.live hscan hheader).bind ?_
  simp only
  rw [if_neg hcomplete]
  exact .inl rfl

/-- What an inspection can say that authorizes nothing. -/
def Harmless (outcome : Outcome (Inspection × Error) Inspection) : Prop :=
  (∃ report : Inspection, outcome = .ok report ∧ report.findingCode = none) ∨ outcome = .panic ∨
    ∃ report e, outcome = .error (report, e) ∧ report.findingCode = some .ioError

theorem Outcome.Reads.harmless {α : Type} {result : Outcome Error α} {a : α} (h : result.Reads a)
    {stat : Bytes → Nat × Nat} {faults : InspectFaults} {report : Inspection}
    {next : α → Outcome (Inspection × Error) Inspection} (hnext : Harmless (next a)) :
    Harmless (orFinding stat disk faults report result next) := by
  rcases h with rfl | rfl | ⟨e, rfl, hcode⟩
  · exact hnext
  · exact .inr (.inl rfl)
  · refine .inr (.inr ⟨_, e, rfl, ?_⟩)
    rw [Inspection.withFinding, hcode]

theorem inspectHeld_harmless {loaded : Loaded} (h : Loads disk limits loaded)
    (hlimits : limits.maxKeyBytes ≠ 0) (htail : loaded.replay.tail = none)
    (stat : Bytes → Nat × Nat) {faults : InspectFaults}
    (hheader : ∀ category, faults.verify.scan.read ≠ some (.header, category)) :
    Harmless (inspectHeld stat disk limits faults) := by
  refine (readIdentity_reads h.identity _).harmless ?_
  refine (readManifest_reads h.manifest _).harmless ?_
  refine (verifyGeneration_reads h hlimits htail hheader).harmless ?_
  exact .inl ⟨_, rfl, rfl⟩

theorem Harmless.not_authorized {outcome : Outcome (Inspection × Error) Inspection}
    (h : Harmless outcome) {report : Inspection}
    (hreport : outcome = .ok report ∨ ∃ e, outcome = .error (report, e)) :
    report.findingCode.bind recoveryActions = none := by
  rcases h with ⟨_, hok, hnone⟩ | hpanic | ⟨_, _, herror, hcode⟩
  · rcases hreport with hsame | ⟨e, hsame⟩ <;> rw [hok] at hsame <;> cases hsame
    rw [hnone]
    rfl
  · rcases hreport with hsame | ⟨e, hsame⟩ <;> rw [hpanic] at hsame <;> cases hsame
  · rcases hreport with hsame | ⟨e, hsame⟩ <;> rw [herror] at hsame <;> cases hsame
    rw [hcode]
    rfl

/-- The generation of a log that ends in an incomplete frame does not verify. -/
theorem verifyGeneration_of_torn {loaded : Loaded} (h : Loads disk limits loaded)
    (hlimits : limits.maxKeyBytes ≠ 0) (htail : loaded.replay.tail.isSome) :
    verifyGeneration disk loaded.identity.databaseID limits {}
      = .error (corruptWAL "backup WAL is not a complete authoritative generation"
          loaded.manifest.walFile loaded.replay.completeOffset none) := by
  obtain ⟨tail, hscan, hmap⟩ := h.scan
  have hsome : tail.isSome := by simpa [hmap] using htail
  rw [verifyGeneration, if_neg hlimits, h.identity]
  simp only [Outcome.bind]
  rw [if_neg (by simp), h.manifest]
  simp only
  rw [h.snapshot]
  simp only
  rw [openAndScan_of_live h.live hscan]
  simp only
  rw [if_pos (.inr (.inr hsome))]

/-- The report on a generation that does not verify. -/
def Loaded.report (loaded : Loaded) (stat : Bytes → Nat × Nat) (disk : Disk) (e : Error) :
    Inspection :=
  let report : Inspection :=
    { databaseID := loaded.identity.databaseID.string,
      manifestGeneration := loaded.manifest.generation,
      snapshotRevision := loaded.manifest.snapshotRevision }
  report.withFinding e (artifactEvidenceFor stat disk e.findingFile false)

theorem inspectHeld_of_verify {loaded : Loaded} {e : Error} (h : Loads disk limits loaded)
    {limits' : Limits}
    (hverify : verifyGeneration disk loaded.identity.databaseID limits' {} = .error e)
    (stat : Bytes → Nat × Nat) :
    inspectHeld stat disk limits' {} = .error (loaded.report stat disk e, e) := by
  rw [inspectHeld, h.identity]
  simp only [orFinding]
  rw [h.manifest]
  simp only
  rw [hverify]
  rfl

end

def sampleIdentity : Identity := ⟨sampleID, 2 ^ 20, 1⟩

/-- A directory whose first generation has this log, beside other files. -/
def sampleDirectory (others : Disk) (wal : Bytes) : Disk :=
  (((others.store (walName 1) (.stable wal)).store (snapshotName 0)
    (.stable (({} : SnapshotState).bytes sampleID))).store manifestFilename
    (.stable sampleManifest.bytes)).store identityFilename (.stable sampleIdentity.bytes)

theorem sampleDirectory_loads {others : Disk} {wal : Bytes} {replay : WALReplay} {limits : Limits}
    (hscan : scanWAL wal sampleID 0 (2 ^ 20) limits = .ok replay)
    (hgeneration : replay.header.generation = 1) (hstart : replay.header.firstRevision = 1) :
    Loads (sampleDirectory others wal) limits ⟨sampleIdentity, sampleManifest, {}, .stable wal,
      { replay with tail := replay.tail.map fun tail => { tail with file := walName 1 } }⟩ := by
  have hnames : snapshotName 0 ≠ manifestFilename ∧ snapshotName 0 ≠ identityFilename ∧
      walName 1 ≠ snapshotName 0 ∧ walName 1 ≠ manifestFilename ∧ walName 1 ≠ identityFilename ∧
      manifestFilename ≠ identityFilename := by decide +kernel
  obtain ⟨h₁, h₂, h₃, h₄, h₅, h₆⟩ := hnames
  have hidentity : sampleIdentity.Encodable := ⟨by decide, by decide, by decide⟩
  have hstate : ({} : SnapshotState).Encodable limits :=
    ⟨by decide, by simp, by simp, by decide⟩
  have hdigest : sampleManifest.snapshotSHA256
      = hexEncode (({} : SnapshotState).digest sampleIdentity.databaseID) := by
    rw [sampleManifest, sampleIdentity]
  refine loads_of_live hidentity ?_ sampleManifest_encodable ?_ rfl hstate rfl hdigest ?_ ?_
    hscan hgeneration hstart
  · rw [sampleDirectory, Directory.live_store_self]
  · rw [sampleDirectory, Directory.live_store_of_ne _ _ h₆, Directory.live_store_self]
  · rw [sampleDirectory, sampleManifest, Directory.live_store_of_ne _ _ h₂,
      Directory.live_store_of_ne _ _ h₁, Directory.live_store_self]
    rfl
  · rw [sampleDirectory, sampleManifest, Directory.live_store_of_ne _ _ h₅,
      Directory.live_store_of_ne _ _ h₄, Directory.live_store_of_ne _ _ h₃,
      Directory.live_store_self]

theorem sampleDirectory_live {others : Disk} {wal name : Bytes} (h : name.head? = some 97) :
    (sampleDirectory others wal).live name = others.live name := by
  have hne : ∀ other : Bytes, other.head? ≠ some 97 → name ≠ other := by
    rintro other hother rfl
    exact hother h
  rw [sampleDirectory, Directory.live_store_of_ne _ _ (hne _ (by decide +kernel)),
    Directory.live_store_of_ne _ _ (hne _ (by decide +kernel)),
    Directory.live_store_of_ne _ _ (hne _ (by decide +kernel)),
    Directory.live_store_of_ne _ _ (hne _ (by decide +kernel))]

/-- A log that ends inside its second frame. -/
def sampleTorn : Bytes := (walBytes sampleHeader sampleCommits).take 150

def sampleTornReplay : WALReplay where
  header := sampleHeader
  commits := sampleCommits.take 1
  recoveredRevision := 1
  completeOffset := 118
  tail := some { oldSize := 150, newSize := 118, lastCompleteRevision := 1 }

theorem sampleTorn_scans : scanWAL sampleTorn sampleID 0 (2 ^ 20) defaultLimits
    = .ok sampleTornReplay := by decide +kernel

end GapDB
