import GapDB.Admin.Audit
import GapDB.Protocol.WireErrors

/-!
# Proposing and applying a quarantine

`ProposeQuarantine` and `ApplyRecovery` of `internal/admin/recovery.go`. Somebody may have edited a
proposal in between, so its codes, actions and sizes are any text and any number; the quarantine
directory has its own contents, the anchored rename can fail at each of its steps, and the audit
record of an application goes into the database directory.
-/

namespace GapDB

open Storelib

/-! ### Proposals -/

structure ProposalEvidence where
  databaseID : Bytes
  manifestGeneration : Nat
  action : String
  findingCode : String
  allowedActions : List String
  file : Bytes
  evidenceSHA256 : Bytes
  evidenceSize : Int
  evidenceDevice : Nat
  evidenceInode : Nat
deriving DecidableEq

structure RecoveryProposal where
  id : Bytes
  fields : ProposalEvidence
deriving DecidableEq

def recoveryMismatch (reason : String) : Error :=
  { code := .recoveryActionMismatch, message := "Recovery action no longer matches the evidence.",
    retry := .afterReconcile, reason, safeActions := [.recoverPropose, .abort] }

/-- `proposalID` is the digest of the canonical JSON of the fields. -/
def proposeQuarantine (proposalID : ProposalEvidence → Bytes) (report : Inspection) :
    Except Error RecoveryProposal :=
  match report.findingCode, report.evidence with
  | some code, some evidence =>
    if report.databaseID = [] ∨ report.manifestGeneration = 0 ∨ ¬ isBaseName report.findingFile ∨
        evidence.device = 0 ∨ evidence.inode = 0 then
      .error (recoveryMismatch "inspection evidence is incomplete")
    else
      match recoveryActions code with
      | none => .error (recoveryMismatch "finding does not authorize recovery proposal")
      | some actions =>
        let fields : ProposalEvidence :=
          ⟨report.databaseID, report.manifestGeneration, "quarantine", code.text,
            actions.map SafeAction.text, report.findingFile, evidence.sha256, evidence.size,
            evidence.device, evidence.inode⟩
        .ok ⟨proposalID fields, fields⟩
  | _, _ => .error (recoveryMismatch "inspection evidence is incomplete")

/-- `recoveryActions` on the text of a code. -/
def recoveryActionsOf (code : String) : Option (List String) :=
  ((ErrorCode.ofText code).bind recoveryActions).map fun actions => actions.map SafeAction.text

/-- `sameArtifactEvidence`. -/
def ProposalEvidence.sameArtifactEvidence (fields : ProposalEvidence) (actual : ArtifactEvidence) :
    Bool :=
  fields.evidenceSHA256 = actual.sha256 ∧ fields.evidenceSize = actual.size ∧
    fields.evidenceDevice = actual.device ∧ fields.evidenceInode = actual.inode

theorem ProposalEvidence.sameArtifactEvidence_iff {fields : ProposalEvidence}
    {actual : ArtifactEvidence} :
    fields.sameArtifactEvidence actual = true ↔
      fields.evidenceSHA256 = actual.sha256 ∧ fields.evidenceSize = actual.size ∧
        fields.evidenceDevice = actual.device ∧ fields.evidenceInode = actual.inode :=
  decide_eq_true_iff

/-- A report without evidence has the zero values in its place. -/
def Inspection.evidenceFields (report : Inspection) : ArtifactEvidence :=
  report.evidence.getD ⟨[], 0, 0, 0⟩

/-- The current finding is the one of the proposal. -/
def ProposalEvidence.sameFinding (fields : ProposalEvidence) (current : Inspection) : Bool :=
  current.findingCode.map ErrorCode.text = some fields.findingCode ∧
    current.findingFile = fields.file ∧
    current.databaseID = fields.databaseID ∧
    current.manifestGeneration = fields.manifestGeneration ∧
    fields.sameArtifactEvidence current.evidenceFields ∧
    some fields.allowedActions
      = (current.findingCode.bind recoveryActions).map fun actions => actions.map SafeAction.text

/-! ### The anchored rename -/

/-- The database directory and the quarantine directory, which may not be there. -/
structure Places where
  disk : Disk
  quarantine : Option (Bytes → Option File)

def Places.quarantined (places : Places) (name : Bytes) : Option File :=
  places.quarantine.bind fun files => files name

/-- `os.Mkdir`, unless the quarantine directory is there. -/
def Places.makeQuarantine (places : Places) : Places :=
  { places with quarantine := some places.quarantined }

/-- The steps of `PublishNoReplaceAnchored` that can fail, in their order. -/
inductive PublishStage where
  | openOld | openNew | statOld | statNew | beforeHook | parents | statSource | rename
  | verify | syncOld | syncNew | afterHook | verifyAgain | parentsAgain
deriving DecidableEq, Repr

/-- The stages after the rename. -/
def PublishStage.applied : PublishStage → Bool
  | .verify | .syncOld | .syncNew | .afterHook | .verifyAgain | .parentsAgain => true
  | _ => false

structure PublishFault where
  stage : PublishStage
  category : OSErrorCategory := .other
  panics : Bool := false

/-- The error of a stage: after the rename every one is reported as a hook that failed after it. -/
def PublishFault.storageFault (fault : PublishFault) : StorageFault :=
  if fault.stage.applied then .hook ⟨.backupRename, .after⟩ fault.category
  else if fault.stage = .beforeHook then .hook ⟨.backupRename, .before⟩ fault.category
  else .os fault.category

def PublishFault.outcome (fault : PublishFault) : Outcome StorageFault Unit :=
  if fault.panics then .panic else .error fault.storageFault

/-- The file has moved; the directory it left is synced from some stage on. -/
def Places.move (places : Places) (file : Bytes) (synced : Bool) : Places where
  disk := if synced then (places.disk.link file none).sync else places.disk.link file none
  quarantine := some (Function.update places.quarantined file (places.disk.live file))

def publishNoReplaceAnchored (stat : Bytes → Nat × Nat) (file : Bytes) (device inode : Nat)
    (fault : Option PublishFault) (places : Places) : Outcome StorageFault Unit × Places :=
  match fault.filter fun fault => ¬ fault.stage.applied with
  | some fault => (fault.outcome, places)
  | none =>
    if (places.disk.live file).isNone then (.error (.os .notExist), places)
    else if stat file ≠ (device, inode) then (.error (.os .other), places)
    else if (places.quarantined file).isSome then (.error (.os .alreadyExists), places)
    else
      match fault with
      | some fault =>
        (fault.outcome, places.move file (fault.stage ≠ .verify ∧ fault.stage ≠ .syncOld))
      | none => (.ok (), places.move file true)

/-! ### Applying -/

structure ApplyOptions where
  expectedDatabaseID : Bytes
  expectedManifestGeneration : Nat
  quarantineDirectory : Bytes
  /-- What the checks of the quarantine directory and of the destination object to. -/
  externalDirectory : Option String := none
  newDestination : Option String := none
  audit : AuditOptions := {}
  /-- The line that records the application, if its fields are complete. -/
  auditEntry : Option Bytes := none

structure ApplyFaults where
  /-- The owner lock is not acquired. -/
  acquire : Option Error := none
  inspect : InspectFaults := {}
  identity : ReadFaults := {}
  manifest : ReadFaults := {}
  evidence : Bool := false
  publish : Option PublishFault := none
  audit : AuditFaults := {}

def appliedIOError (stage : String) (cause : StorageFault) : Error :=
  { code := .ioError, message := "A recovery storage operation failed after applying the action.",
    retry := .afterOperator, operation := stage, osErrorCategory := some .other,
    operationApplied := true, safeActions := [.checkStorage, .verify, .abort], cause := some cause }

def adminStorageError (stage : String) (cause : StorageFault) (applied : Bool) : Error :=
  { code := .ioError, message := "An administrative storage operation failed.",
    retry := .afterOperator, operation := stage, osErrorCategory := some .other,
    operationApplied := applied, safeActions := [.checkStorage, .verify, .abort],
    cause := some cause }

section

variable (proposalID : ProposalEvidence → Bytes) (stat : Bytes → Nat × Nat)

/-- The second look at the files, between the inspection and the quarantine. -/
def recheck (fields : ProposalEvidence) (faults : ApplyFaults) (disk : Disk) :
    Outcome Error Unit :=
  (readIdentity disk faults.identity).bind fun identity =>
  if identity.databaseID.string ≠ fields.databaseID then
    .error (adminPreconditionError "database ID changed")
  else
    (readManifest disk identity.databaseID 1 faults.manifest).bind fun manifest =>
    if manifest.generation ≠ fields.manifestGeneration then
      .error (adminPreconditionError "manifest generation changed")
    else
      match artifactEvidenceFor stat disk fields.file faults.evidence with
      | none => .error (recoveryMismatch "artifact evidence changed")
      | some actual =>
        if ¬ fields.sameArtifactEvidence actual then
          .error (recoveryMismatch "artifact evidence changed")
        else .ok ()

/-- `ValidateExternalDirectory`, which makes the directory, and `ValidateNewDestination`. -/
def validateQuarantine (file : Bytes) (options : ApplyOptions) (places : Places) :
    Outcome Error Unit × Places :=
  if options.quarantineDirectory = [] then
    (.error (adminPreconditionError "quarantine directory is required"), places)
  else
    match options.externalDirectory with
    | some reason => (.error (adminPreconditionError reason), places)
    | none =>
      if (places.quarantined file).isSome then
        (.error (adminPreconditionError "destination entry already exists"), places.makeQuarantine)
      else
        match options.newDestination with
        | some reason => (.error (adminPreconditionError reason), places.makeQuarantine)
        | none => (.ok (), places.makeQuarantine)

/-- The rename into the quarantine and the audit record. -/
def publishQuarantine (fields : ProposalEvidence) (options : ApplyOptions) (faults : ApplyFaults)
    (places : Places) : Outcome Error Unit × Places :=
  match publishNoReplaceAnchored stat fields.file fields.evidenceDevice fields.evidenceInode
      faults.publish places with
  | (.panic, places) => (.panic, places)
  | (.error cause, places) =>
    if cause.failedAfter then
      (.error (appliedIOError "recovery_quarantine_rename" cause), places)
    else if cause.category = .alreadyExists then
      (.error (adminPreconditionError "quarantine destination exists"), places)
    else (.error (adminStorageError "recovery_quarantine_rename" cause false), places)
  | (.ok (), places) =>
    let (outcome, disk) :=
      appendAuditAfterApply options.auditEntry options.audit faults.audit places.disk
    (outcome, { places with disk })

def applyRecovery (proposal : RecoveryProposal) (options : ApplyOptions) (faults : ApplyFaults)
    (places : Places) : Outcome Error Unit × Places :=
  if options.expectedDatabaseID ≠ proposal.fields.databaseID ∨
      options.expectedManifestGeneration ≠ proposal.fields.manifestGeneration ∨
      proposal.fields.action ≠ "quarantine" then
    (.error (adminPreconditionError "proposal preconditions do not match"), places)
  else if proposalID proposal.fields ≠ proposal.id then
    (.error (recoveryMismatch "proposal ID does not match its evidence"), places)
  else if recoveryActionsOf proposal.fields.findingCode ≠ some proposal.fields.allowedActions then
    (.error (recoveryMismatch "proposal finding does not authorize its action"), places)
  else
    match faults.acquire with
    | some e => (.error e, places)
    | none =>
      match inspectHeld stat places.disk defaultLimits faults.inspect with
      | .panic => (.panic, places)
      | .ok _ =>
        (.error (recoveryMismatch "current inspection finding does not match proposal"), places)
      | .error (current, inspectErr) =>
        if (current.findingCode.bind recoveryActions).isNone then (.error inspectErr, places)
        else if ¬ proposal.fields.sameFinding current then
          (.error (recoveryMismatch "current finding no longer authorizes recovery"), places)
        else
          match recheck stat proposal.fields faults places.disk with
          | .panic => (.panic, places)
          | .error e => (.error e, places)
          | .ok () =>
            match validateQuarantine proposal.fields.file options places with
            | (.ok (), places) => publishQuarantine stat proposal.fields options faults places
            | failed => failed

/-! ### What moves a file -/

/-- The finding of a fresh inspection under the lock is still the one of the proposal, whose id is
that of its fields, and the finding authorizes recovery. -/
structure Authorized (proposal : RecoveryProposal) (faults : ApplyFaults) (places : Places) :
    Prop where
  locked : faults.acquire = none
  id : proposalID proposal.fields = proposal.id
  action : proposal.fields.action = "quarantine"
  finding : ∃ current e code actions evidence,
    inspectHeld stat places.disk defaultLimits faults.inspect = .error (current, e) ∧
    current.findingCode = some code ∧ code.text = proposal.fields.findingCode ∧
    recoveryActions code = some actions ∧ SafeAction.recoverPropose ∈ actions ∧
    current.findingFile = proposal.fields.file ∧
    current.databaseID = proposal.fields.databaseID ∧
    current.manifestGeneration = proposal.fields.manifestGeneration ∧
    current.evidence = some evidence ∧ evidence.sha256 = proposal.fields.evidenceSHA256 ∧
    evidence.size = proposal.fields.evidenceSize ∧
    evidence.device = proposal.fields.evidenceDevice ∧
    evidence.inode = proposal.fields.evidenceInode

/-- No file has changed; a quarantine directory may have been made. -/
structure Places.SameFiles (places after : Places) : Prop where
  disk : after.disk = places.disk
  quarantined : after.quarantined = places.quarantined

/-- One file has moved into a free place of the quarantine, and no other file has changed but those
of the audit. -/
structure Places.Moved (places after : Places) (name : Bytes) : Prop where
  free : places.quarantined name = none
  moved : ∃ file, places.disk.live name = some file ∧
    after.quarantine = some (Function.update places.quarantined name (some file))
  gone : (∀ generation, name ≠ auditName generation) → after.disk.live name = none
  others : ∀ other ≠ name, (∀ generation, other ≠ auditName generation) →
    after.disk.live other = places.disk.live other

variable {proposalID stat} {fields : ProposalEvidence} {proposal : RecoveryProposal}
  {options : ApplyOptions} {faults : ApplyFaults} {places : Places}

theorem Places.SameFiles.refl (places : Places) : places.SameFiles places := ⟨rfl, rfl⟩

theorem Places.makeQuarantine_sameFiles (places : Places) :
    places.SameFiles places.makeQuarantine := ⟨rfl, rfl⟩

theorem Places.Moved.of_sameFiles {before after : Places} {name : Bytes}
    (h : before.Moved after name) (hsame : places.SameFiles before) : places.Moved after name := by
  obtain ⟨hdisk, hquarantined⟩ := hsame
  obtain ⟨hfree, hmoved, hgone, hothers⟩ := h
  rw [hdisk] at hmoved hothers
  rw [hquarantined] at hfree hmoved
  exact ⟨hfree, hmoved, hgone, hothers⟩

theorem Places.move_moved {file : Bytes} (hlive : ¬ (places.disk.live file).isNone)
    (hfree : ¬ (places.quarantined file).isSome) (synced : Bool) :
    places.Moved (places.move file synced) file := by
  obtain ⟨f, hf⟩ := Option.ne_none_iff_exists'.mp (mt Option.isNone_iff_eq_none.mpr hlive)
  have hdisk : (places.move file synced).disk.live = (places.disk.link file none).live := by
    unfold move
    cases synced with
    | true => rfl
    | false => rfl
  refine ⟨by simpa using hfree, ⟨f, hf, by rw [← hf]; rfl⟩, fun _ => ?_, fun other hother _ => ?_⟩
  · rw [hdisk, Directory.live_link_self]
  · rw [hdisk]
    exact (places.disk.agree_link none hother).1

theorem Places.Moved.audited {after : Places} {name : Bytes} (h : places.Moved after name)
    {disk : Disk} (haudit : SameButAudit after.disk disk) :
    places.Moved { after with disk } name where
  free := h.free
  moved := h.moved
  gone hname := (haudit name hname).trans (h.gone hname)
  others other hother hname := (haudit other hname).trans (h.others other hother hname)

/-- The rename moves the file or leaves everything, and its error tells which. -/
theorem publishNoReplaceAnchored_cases (file : Bytes) (device inode : Nat)
    (fault : Option PublishFault) :
    ((publishNoReplaceAnchored stat file device inode fault places).2 = places ∧
      (publishNoReplaceAnchored stat file device inode fault places).1 ≠ .ok ()) ∨
    places.Moved (publishNoReplaceAnchored stat file device inode fault places).2 file ∧
      ∀ cause, (publishNoReplaceAnchored stat file device inode fault places).1 = .error cause →
        cause.failedAfter := by
  unfold publishNoReplaceAnchored
  split
  · next fault _ =>
    refine .inl ⟨rfl, ?_⟩
    unfold PublishFault.outcome
    split <;> simp
  · next hlate =>
    split
    · exact .inl ⟨rfl, by simp⟩
    split
    · exact .inl ⟨rfl, by simp⟩
    split
    · exact .inl ⟨rfl, by simp⟩
    next hlive _ hfree =>
    cases fault with
    | none => exact .inr ⟨places.move_moved hlive hfree true, by simp⟩
    | some fault =>
      refine .inr ⟨places.move_moved hlive hfree _, fun cause hcause => ?_⟩
      have happlied : fault.stage.applied = true := by simpa using hlate
      simp only [PublishFault.outcome, PublishFault.storageFault, happlied, if_true] at hcause
      split at hcause
      · cases hcause
      · cases hcause
        rfl

theorem publishQuarantine_cases :
    (publishQuarantine stat fields options faults places).2 = places ∨
    places.Moved (publishQuarantine stat fields options faults places).2 fields.file ∧
      ∀ e, (publishQuarantine stat fields options faults places).1 = .error e →
        e.operationApplied := by
  have hcases := @publishNoReplaceAnchored_cases stat places fields.file fields.evidenceDevice
    fields.evidenceInode faults.publish
  unfold publishQuarantine
  generalize publishNoReplaceAnchored stat fields.file fields.evidenceDevice fields.evidenceInode
    faults.publish places = result at hcases
  obtain ⟨outcome, after⟩ := result
  rcases hcases with ⟨rfl, hfailed⟩ | ⟨hmoved, hafter⟩
  · left
    cases outcome with
    | panic => rfl
    | ok u => exact absurd rfl hfailed
    | error cause =>
      simp only
      split
      · rfl
      · split <;> rfl
  · right
    cases outcome with
    | panic => exact ⟨hmoved, by simp⟩
    | ok u =>
      obtain ⟨haudit, happlied⟩ := @appendAuditAfterApply_spec options.auditEntry options.audit
        faults.audit after.disk
      exact ⟨hmoved.audited haudit, happlied⟩
    | error cause =>
      simp only [hafter cause rfl, if_true]
      refine ⟨hmoved, fun e he => ?_⟩
      cases he
      rfl

theorem validateQuarantine_sameFiles {file : Bytes} :
    places.SameFiles (validateQuarantine file options places).2 := by
  unfold validateQuarantine
  split
  · exact .refl places
  split
  · exact .refl places
  split
  · exact places.makeQuarantine_sameFiles
  split
  · exact places.makeQuarantine_sameFiles
  · exact places.makeQuarantine_sameFiles

/-- A recheck that lets the rename go on has found the evidence of the proposal in the directory. -/
theorem recheck_evidence (h : recheck stat fields faults places.disk = .ok ()) :
    ∃ actual, artifactEvidenceFor stat places.disk fields.file faults.evidence = some actual ∧
      fields.sameArtifactEvidence actual := by
  obtain ⟨identity, _, h⟩ := Outcome.bind_eq_ok.mp h
  split at h
  · cases h
  obtain ⟨manifest, _, h⟩ := Outcome.bind_eq_ok.mp h
  split at h
  · cases h
  split at h
  · cases h
  next actual hactual =>
  by_cases hsame : fields.sameArtifactEvidence actual = true
  · exact ⟨actual, hactual, hsame⟩
  · rw [if_pos hsame] at h
    cases h

theorem artifactEvidenceFor_sha256 {disk : Disk} {name : Bytes} {fails : Bool}
    {evidence : ArtifactEvidence} (h : artifactEvidenceFor stat disk name fails = some evidence) :
    evidence.sha256 ≠ [] := by
  unfold artifactEvidenceFor at h
  split at h
  · obtain ⟨file, _, rfl⟩ := Option.map_eq_some_iff.mp h
    intro hnil
    have hlength := congrArg List.length hnil
    simp [hexEncode_length] at hlength
  · cases h

/-- The digest of a proposal that passed the recheck is that of a file, so the evidence that the
inspection found is not missing. -/
theorem evidence_of_sameFinding {current : Inspection} (hsame : fields.sameFinding current)
    (hrecheck : recheck stat fields faults places.disk = .ok ()) :
    ∃ evidence, current.evidence = some evidence ∧ evidence.sha256 = fields.evidenceSHA256 ∧
      evidence.size = fields.evidenceSize ∧ evidence.device = fields.evidenceDevice ∧
      evidence.inode = fields.evidenceInode := by
  obtain ⟨actual, hactual, hmatch⟩ := recheck_evidence hrecheck
  rw [ProposalEvidence.sameArtifactEvidence_iff] at hmatch
  simp only [ProposalEvidence.sameFinding, decide_eq_true_eq] at hsame
  obtain ⟨_, _, _, _, hevidence, _⟩ := hsame
  obtain ⟨hsha, hsize, hdevice, hinode⟩ := ProposalEvidence.sameArtifactEvidence_iff.mp hevidence
  rw [Inspection.evidenceFields] at hsha hsize hdevice hinode
  cases hevidence : current.evidence with
  | none =>
    rw [hevidence] at hsha
    exact absurd (hmatch.1.symm.trans hsha) (artifactEvidenceFor_sha256 hactual)
  | some evidence =>
    rw [hevidence] at hsha hsize hdevice hinode
    exact ⟨evidence, rfl, hsha.symm, hsize.symm, hdevice.symm, hinode.symm⟩

theorem recoverPropose_mem_of_actions {code : ErrorCode} {actions : List SafeAction}
    (h : recoveryActions code = some actions) : SafeAction.recoverPropose ∈ actions := by
  cases code <;> simp_all [recoveryActions] <;> subst h <;> simp

/-- All the guards of an application that gets to the rename. -/
theorem applyRecovery_cases :
    places.SameFiles (applyRecovery proposalID stat proposal options faults places).2 ∨
    Authorized proposalID stat proposal faults places ∧ ∃ before, places.SameFiles before ∧
      applyRecovery proposalID stat proposal options faults places
        = publishQuarantine stat proposal.fields options faults before := by
  unfold applyRecovery
  split
  · exact .inl (.refl places)
  next hpreconditions =>
  split
  · exact .inl (.refl places)
  next hid =>
  split
  · exact .inl (.refl places)
  split
  · exact .inl (.refl places)
  next hacquire =>
  split
  · exact .inl (.refl places)
  · exact .inl (.refl places)
  next current e hinspect =>
  split
  · exact .inl (.refl places)
  next hauthorized =>
  split
  · exact .inl (.refl places)
  next hsame =>
  split
  · exact .inl (.refl places)
  · exact .inl (.refl places)
  next hrecheck =>
  have hplaces := @validateQuarantine_sameFiles options places proposal.fields.file
  split
  · next before hvalid =>
    rw [hvalid] at hplaces
    push Not at hpreconditions hid
    have hsame' : proposal.fields.sameFinding current = true := by simpa using hsame
    obtain ⟨evidence, hevidence⟩ := evidence_of_sameFinding hsame' hrecheck
    simp only [ProposalEvidence.sameFinding, decide_eq_true_eq] at hsame'
    obtain ⟨hcode, hfile, hdatabase, hgeneration, _, _⟩ := hsame'
    obtain ⟨code, hfinding, htext⟩ := Option.map_eq_some_iff.mp hcode
    rw [hfinding, Option.bind_some, Option.isNone_iff_eq_none] at hauthorized
    obtain ⟨actions, hactions⟩ := Option.ne_none_iff_exists'.mp hauthorized
    have hfinds : Authorized proposalID stat proposal faults places :=
      ⟨hacquire, hid, hpreconditions.2.2, current, e, code, actions, evidence, hinspect, hfinding,
        htext, hactions, recoverPropose_mem_of_actions hactions, hfile, hdatabase, hgeneration,
        hevidence⟩
    exact .inr ⟨hfinds, before, hplaces, rfl⟩
  · exact .inl hplaces

end

section

variable {proposalID : ProposalEvidence → Bytes} {stat : Bytes → Nat × Nat} {disk : Disk}
  {limits : Limits} {loaded : Loaded} {e : Error} {proposal : RecoveryProposal}
  {options : ApplyOptions}

theorem proposeQuarantine_eq_ok {report : Inspection}
    (h : proposeQuarantine proposalID report = .ok proposal) :
    ∃ code evidence actions, report.findingCode = some code ∧ report.evidence = some evidence ∧
      recoveryActions code = some actions ∧
      proposal.id = proposalID proposal.fields ∧
      proposal.fields = ⟨report.databaseID, report.manifestGeneration, "quarantine", code.text,
        actions.map SafeAction.text, report.findingFile, evidence.sha256, evidence.size,
        evidence.device, evidence.inode⟩ := by
  unfold proposeQuarantine at h
  split at h
  next code evidence hcode hevidence =>
    split at h
    · cases h
    · split at h
      · cases h
      next actions hactions =>
        cases h
        exact ⟨code, evidence, actions, hcode, hevidence, hactions, rfl, rfl⟩
  · cases h

theorem artifactEvidenceFor_eq_some {name : Bytes} {fails : Bool} {evidence : ArtifactEvidence}
    (h : artifactEvidenceFor stat disk name fails = some evidence) :
    (disk.live name).isSome ∧ stat name = (evidence.device, evidence.inode) := by
  unfold artifactEvidenceFor at h
  split at h
  · obtain ⟨file, hlive, rfl⟩ := Option.map_eq_some_iff.mp h
    exact ⟨by rw [hlive]; rfl, rfl⟩
  · cases h

theorem recoveryActionsOf_text {code : ErrorCode} {actions : List SafeAction}
    (h : recoveryActions code = some actions) :
    recoveryActionsOf code.text = some (actions.map SafeAction.text) := by
  have hcode : code = .corruptManifest ∨ code = .corruptSnapshot ∨ code = .corruptWAL ∨
      code = .recoveryRequired ∨ code = .recoveryActionMismatch := by
    cases code <;> simp_all [recoveryActions]
  have hofText : ErrorCode.ofText code.text = some code := by
    rcases hcode with rfl | rfl | rfl | rfl | rfl <;> decide +kernel
  rw [recoveryActionsOf, hofText, Option.bind_some, h, Option.map_some]

/-- A caller who carries out a proposal as it was made for this directory. -/
structure ApplyOptions.For (options : ApplyOptions) (loaded : Loaded) : Prop where
  database : options.expectedDatabaseID = loaded.identity.databaseID.string
  generation : options.expectedManifestGeneration = loaded.manifest.generation
  directory : options.quarantineDirectory ≠ []
  external : options.externalDirectory = none
  destination : options.newDestination = none

theorem applyRecovery_of_proposed (h : Loads disk limits loaded)
    (hverify : verifyGeneration disk loaded.identity.databaseID defaultLimits {} = .error e)
    (hpropose : proposeQuarantine proposalID (loaded.report stat disk e) = .ok proposal)
    (hoptions : options.For loaded) {places : Places} (hdisk : places.disk = disk)
    (hfree : places.quarantined proposal.fields.file = none) :
    applyRecovery proposalID stat proposal options {} places
      = ((appendAuditAfterApply options.auditEntry options.audit {}
            (disk.link proposal.fields.file none).sync).1,
          ⟨(appendAuditAfterApply options.auditEntry options.audit {}
            (disk.link proposal.fields.file none).sync).2,
            some (Function.update places.quarantined proposal.fields.file
              (disk.live proposal.fields.file))⟩) := by
  subst hdisk
  obtain ⟨code, evidence, actions, hcode, hevidence, hactions, hid, hfields⟩ :=
    proposeQuarantine_eq_ok hpropose
  have hactual : artifactEvidenceFor stat places.disk proposal.fields.file false
      = some evidence := by
    rw [hfields]
    exact hevidence
  obtain ⟨hlive, hstat⟩ := artifactEvidenceFor_eq_some hactual
  have hsameEvidence : proposal.fields.sameArtifactEvidence evidence = true := by
    rw [hfields, ProposalEvidence.sameArtifactEvidence_iff]
    exact ⟨rfl, rfl, rfl, rfl⟩
  have hfinding : proposal.fields.sameFinding (loaded.report stat places.disk e) = true := by
    rw [ProposalEvidence.sameFinding, Inspection.evidenceFields, hevidence, Option.getD_some,
      hsameEvidence, hcode, hfields]
    simp [hactions]
  have hallowed : recoveryActionsOf proposal.fields.findingCode
      = some proposal.fields.allowedActions := by
    rw [hfields]
    exact recoveryActionsOf_text hactions
  have hrecheck : recheck stat proposal.fields {} places.disk = .ok () := by
    rw [recheck, h.identity]
    simp only [Outcome.bind]
    rw [if_neg (by rw [hfields]; simp [Loaded.report, Inspection.withFinding]), h.manifest]
    simp only
    rw [if_neg (by rw [hfields]; simp [Loaded.report, Inspection.withFinding]), hactual]
    simp only
    rw [if_neg (not_not.mpr hsameEvidence)]
  have hvalid : validateQuarantine proposal.fields.file options places
      = (.ok (), places.makeQuarantine) := by
    rw [validateQuarantine, if_neg hoptions.directory, hoptions.external, hfree,
      hoptions.destination]
    rfl
  have hpublish : publishNoReplaceAnchored stat proposal.fields.file proposal.fields.evidenceDevice
      proposal.fields.evidenceInode none places.makeQuarantine
        = (.ok (), places.makeQuarantine.move proposal.fields.file true) := by
    rw [publishNoReplaceAnchored, Option.filter_none]
    simp only
    rw [if_neg (by simpa [Places.makeQuarantine, Option.isNone_iff_eq_none,
      Option.isSome_iff_ne_none] using hlive), if_neg (by rw [hstat, hfields]; simp),
      if_neg (by rw [← places.makeQuarantine_sameFiles.quarantined] at hfree; simp [hfree])]
  have hinspect := inspectHeld_of_verify h hverify stat
  rw [applyRecovery, if_neg (by
      rw [hoptions.database, hoptions.generation, hfields]
      simp [Loaded.report, Inspection.withFinding]), if_neg (not_not.mpr hid.symm),
    if_neg (not_not.mpr hallowed)]
  simp only
  rw [hinspect]
  simp only
  rw [if_neg (by simp [hcode, hactions]), if_neg (not_not.mpr hfinding), hrecheck]
  simp only
  rw [hvalid]
  simp only [publishQuarantine]
  rw [hpublish]
  rfl

/-- The finding on a generation that does not verify leads to a proposal. -/
theorem exists_proposal (h : Loads disk limits loaded) {actions : List SafeAction}
    (hactions : recoveryActions e.code = some actions) (hname : isBaseName e.findingFile)
    (hlive : (disk.live e.findingFile).isSome)
    (hstat : ∀ name, (stat name).1 ≠ 0 ∧ (stat name).2 ≠ 0) :
    ∃ proposal, proposeQuarantine proposalID (loaded.report stat disk e) = .ok proposal ∧
      proposal.fields.file = e.findingFile := by
  obtain ⟨file, hfile⟩ := Option.isSome_iff_exists.mp hlive
  have hid : loaded.identity.databaseID.string ≠ [] := by
    rw [← List.length_pos_iff, DatabaseID.string_length]
    decide
  have hgeneration : loaded.manifest.generation ≠ 0 := by
    obtain ⟨_, _, hdecode⟩ := readManifest_eq_ok h.manifest
    have hvalid := validateManifest_of_decode hdecode
    simp only [validateManifest, ite_error_eq_ok] at hvalid
    omega
  simp [proposeQuarantine, Loaded.report, Inspection.withFinding, artifactEvidenceFor, hname, hfile,
    hid, hgeneration, hactions, hstat]

end

def sampleFull : Bytes := List.replicate 65536 32

/-- A torn log in a directory whose audit file is full. -/
def sampleAudited : Disk :=
  sampleDirectory
    ((Directory.empty.store (auditName 1) (.stable (ascii "older"))).store auditFilename
      (.stable sampleFull)) sampleTorn

def sampleApply : ApplyOptions where
  expectedDatabaseID := sampleID.string
  expectedManifestGeneration := 1
  quarantineDirectory := ascii "/quarantine"
  audit := { maxFileBytes := 65536 }
  auditEntry := some (ascii "newer")

end GapDB
