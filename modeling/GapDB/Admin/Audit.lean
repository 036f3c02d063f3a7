import GapDB.Admin.Inspect

/-!
# The audit file

`AppendAudit` of `internal/admin/audit.go` adds a line to the audit file, which stands in the
database directory. A file that would get too long is renamed first, over the one that was renamed
before it.
-/

namespace GapDB

open Storelib

def auditFilename : Bytes := ascii "audit.jsonl"

/-- The file that is written, and those that were rotated away. -/
def auditName : Nat → Bytes
  | 0 => auditFilename
  | generation + 1 => auditFilename ++ ascii "." ++ decimal (generation + 1)

theorem auditName_head (generation : Nat) : (auditName generation).head? = some 97 := by
  cases generation with
  | zero => rfl
  | succ generation => rfl

theorem ne_auditName {name : Bytes} (h : name.head? ≠ some 97) (generation : Nat) :
    name ≠ auditName generation := by
  rintro rfl
  exact h (auditName_head generation)

theorem auditName_succ_ne (generation : Nat) : auditName (generation + 1) ≠ auditFilename := by
  intro h
  have hlength := congrArg List.length h
  simp only [auditName, List.length_append] at hlength
  have hdot : (ascii ".").length = 1 := rfl
  omega

structure AuditOptions where
  maxLineBytes : Int := 0
  maxFileBytes : Int := 0
  keepGenerations : Int := 0

/-- The options with the defaults of `AppendAudit`. -/
def AuditOptions.withDefaults (options : AuditOptions) : AuditOptions :=
  let maxLineBytes := if options.maxLineBytes ≤ 0 then 64 * 2 ^ 10 else options.maxLineBytes
  { maxLineBytes
    maxFileBytes := if options.maxFileBytes < maxLineBytes then 4 * 2 ^ 20 else options.maxFileBytes
    keepGenerations := if options.keepGenerations < 1 then 1 else options.keepGenerations }

/-- `encodeAudit`: the line of a complete entry, if it is short enough. -/
def encodeAudit (entry : Option Bytes) (maximum : Int) : Option Bytes :=
  entry.filter fun line => 0 < maximum ∧ line.length ≤ maximum

/-- What can go wrong; the two of a rotation are given for each generation. -/
structure AuditFaults where
  stat : Option Fault := none
  rotateStat : Nat → Option Fault := fun _ => none
  rotate : Nat → Option Fault := fun _ => none
  rotateSync : Option Fault := none
  opened : Option Fault := none
  /-- How much of the line was written before. -/
  append : Option (Nat × Fault) := none
  sync : Option Fault := none

def auditIOError (operation : String) (cause : Option StorageFault) : Error :=
  { code := .ioError, message := "An audit storage operation failed.", retry := .afterOperator,
    operation, path := auditFilename, osErrorCategory := some .other,
    safeActions := [.checkStorage, .verify, .abort], cause }

def Fault.auditFailure (fault : Fault) (operation : String) (point : Point) : Outcome Error Unit :=
  if fault.panics then .panic else .error (auditIOError operation (some (fault.storageFault point)))

/-- One turn of `rotateAudit`: a generation that is there takes the place of the next one. -/
def rotateGeneration (faults : AuditFaults) (generation : Nat) (disk : Disk) :
    Outcome Error Unit × Disk :=
  match faults.rotateStat generation, disk.live (auditName generation) with
  | some fault, _ =>
    (if fault.category = .notExist ∧ ¬ fault.panics then .ok ()
      else fault.auditFailure "audit_rotate_stat" .stat, disk)
  | none, none => (.ok (), disk)
  | none, some file =>
    let renamed := (disk.link (auditName (generation + 1)) (some file)).link (auditName generation)
      none
    match faults.rotate generation with
    | some fault =>
      (fault.auditFailure "audit_rotate" .auditAppend,
        if fault.mode = .after then renamed else disk)
    | none => (.ok (), renamed)

/-- The loop of `rotateAudit` from the oldest generation that is kept; the file that is written
comes last. -/
def rotateGenerations (faults : AuditFaults) : Nat → Disk → Outcome Error Unit × Disk
  | 0, disk => (.ok (), disk)
  | generation + 1, disk =>
    match rotateGeneration faults generation disk with
    | (.ok (), disk) => rotateGenerations faults generation disk
    | failed => failed

def rotateAudit (keep : Nat) (faults : AuditFaults) (disk : Disk) : Outcome Error Unit × Disk :=
  match rotateGenerations faults keep disk with
  | (.ok (), disk) =>
    match faults.rotateSync with
    | some fault =>
      (fault.auditFailure "audit_rotate_sync" .auditSync,
        if fault.mode = .after then disk.sync else disk)
    | none => (.ok (), disk.sync)
  | failed => failed

/-- Open the file, or create it, write the line and sync the file. -/
def writeAudit (line : Bytes) (faults : AuditFaults) (disk : Disk) : Outcome Error Unit × Disk :=
  let file := (disk.live auditFilename).getD (.volatile [])
  let opened :=
    if (disk.live auditFilename).isSome then disk else disk.link auditFilename (some file)
  match faults.opened, faults.append, faults.sync with
  | some fault, _, _ =>
    (fault.auditFailure "audit_open" .auditAppend, if fault.mode = .after then opened else disk)
  | none, some (taken, fault), _ =>
    (fault.auditFailure "audit_append" .auditAppend,
      opened.store auditFilename (file.append (line.take taken)))
  | none, none, some fault =>
    (fault.auditFailure "audit_sync" .auditSync, opened.store auditFilename
      (if fault.mode = .after then (file.append line).sync else file.append line))
  | none, none, none => (.ok (), opened.store auditFilename (file.append line).sync)

def appendAudit (entry : Option Bytes) (options : AuditOptions) (faults : AuditFaults)
    (disk : Disk) : Outcome Error Unit × Disk :=
  let options := options.withDefaults
  match encodeAudit entry options.maxLineBytes with
  | none => (.error (auditIOError "audit_encode" none), disk)
  | some line =>
    match faults.stat with
    | some fault =>
      if fault.category = .notExist ∧ ¬ fault.panics then writeAudit line faults disk
      else (fault.auditFailure "audit_stat" .stat, disk)
    | none =>
      if (disk.live auditFilename).any fun file =>
          options.maxFileBytes < file.bytes.length + line.length then
        match rotateAudit options.keepGenerations.toNat faults disk with
        | (.ok (), disk) => writeAudit line faults disk
        | failed => failed
      else writeAudit line faults disk

def auditFailedAfterApply : Error :=
  { code := .auditFailedAfterApply,
    message := "The operation applied but its audit record could not be made durable.",
    retry := .afterReconcile, operationApplied := true,
    safeActions := [.status, .verify, .repairAuditStorage, .abort] }

def appendAuditAfterApply (entry : Option Bytes) (options : AuditOptions) (faults : AuditFaults)
    (disk : Disk) : Outcome Error Unit × Disk :=
  match appendAudit entry options faults disk with
  | (.error _, disk) => (.error auditFailedAfterApply, disk)
  | applied => applied

/-! ### What an audit record leaves alone -/

/-- Every file but those of the audit is the same in both. -/
def SameButAudit (disk disk' : Disk) : Prop :=
  ∀ name, (∀ generation, name ≠ auditName generation) → disk'.live name = disk.live name

theorem SameButAudit.refl (disk : Disk) : SameButAudit disk disk := fun _ _ => rfl

theorem SameButAudit.trans {disk disk' disk'' : Disk} (h : SameButAudit disk disk')
    (h' : SameButAudit disk' disk'') : SameButAudit disk disk'' := fun name hname =>
  (h' name hname).trans (h name hname)

variable {entry : Option Bytes} {options : AuditOptions} {faults : AuditFaults} {disk : Disk}

theorem sameButAudit_link (generation : Nat) (file : Option File) :
    SameButAudit disk (disk.link (auditName generation) file) := fun _ hname =>
  (disk.agree_link file (hname generation)).1

theorem sameButAudit_store (file : File) : SameButAudit disk (disk.store auditFilename file) :=
  fun _ hname => disk.live_store_of_ne file (hname 0)

theorem rotateGeneration_same (generation : Nat) :
    SameButAudit disk (rotateGeneration faults generation disk).2 := by
  have hrenamed : ∀ file, SameButAudit disk
      ((disk.link (auditName (generation + 1)) file).link (auditName generation) none) :=
    fun file =>
    (sameButAudit_link _ _).trans (sameButAudit_link _ _)
  unfold rotateGeneration
  split
  · exact .refl disk
  · exact .refl disk
  next file _ =>
    split
    · simp only
      split
      · exact hrenamed _
      · exact .refl disk
    · exact hrenamed _

theorem rotateGenerations_same (generation : Nat) :
    SameButAudit disk (rotateGenerations faults generation disk).2 := by
  induction generation generalizing disk with
  | zero => exact .refl disk
  | succ generation ih =>
    have hstep := @rotateGeneration_same faults disk generation
    rw [rotateGenerations]
    split
    · next disk' heq =>
      rw [heq] at hstep
      exact hstep.trans ih
    · exact hstep

theorem rotateAudit_same (keep : Nat) : SameButAudit disk (rotateAudit keep faults disk).2 := by
  have hrotated := @rotateGenerations_same faults disk keep
  unfold rotateAudit
  split
  · next disk' heq =>
    rw [heq] at hrotated
    split
    · simp only
      split
      · exact hrotated
      · exact hrotated
    · exact hrotated
  · exact hrotated

theorem writeAudit_same (line : Bytes) : SameButAudit disk (writeAudit line faults disk).2 := by
  have hopened : SameButAudit disk
      (if (disk.live auditFilename).isSome then disk else
        disk.link auditFilename (some ((disk.live auditFilename).getD (.volatile [])))) := by
    split
    · exact .refl disk
    · exact sameButAudit_link 0 _
  unfold writeAudit
  simp only
  split
  · split
    · exact hopened
    · exact .refl disk
  · exact hopened.trans (sameButAudit_store _)
  · exact hopened.trans (sameButAudit_store _)
  · exact hopened.trans (sameButAudit_store _)

theorem appendAudit_same : SameButAudit disk (appendAudit entry options faults disk).2 := by
  unfold appendAudit
  simp only
  split
  · exact .refl disk
  next line _ =>
  split
  · split
    · exact writeAudit_same line
    · exact .refl disk
  · split
    · have hrotated := @rotateAudit_same faults disk options.withDefaults.keepGenerations.toNat
      split
      · next disk' heq =>
        rw [heq] at hrotated
        exact hrotated.trans (writeAudit_same line)
      · exact hrotated
    · exact writeAudit_same line

/-- A full audit file takes the place of the one before it, and the line goes into a new one. -/
theorem appendAudit_rotates {line : Bytes} {file : File}
    (hline : encodeAudit entry options.withDefaults.maxLineBytes = some line)
    (hkeep : options.withDefaults.keepGenerations = 1) (hlive : disk.live auditFilename = some file)
    (hfull : options.withDefaults.maxFileBytes < file.bytes.length + line.length) :
    ∃ after, appendAudit entry options {} disk = (.ok (), after) ∧
      after.live (auditName 1) = some file ∧ after.live auditFilename = some (.stable line) := by
  have hrotate : rotateAudit 1 {} disk
      = (.ok (), ((disk.link (auditName 1) (some file)).link auditFilename none).sync) := by
    rw [rotateAudit, rotateGenerations, rotateGeneration, show auditName 0 = auditFilename from rfl,
      hlive]
    rfl
  have hgone : ((disk.link (auditName 1) (some file)).link auditFilename none).sync.live
      auditFilename = none := by
    rw [Directory.live_sync, Directory.live_link_self]
  have hold : ((disk.link (auditName 1) (some file)).link auditFilename none).sync.live
      (auditName 1) = some file := by
    rw [Directory.live_sync, (Directory.agree_link _ none (auditName_succ_ne 0)).1,
      Directory.live_link_self]
  have happend : appendAudit entry options {} disk = writeAudit line {}
      ((disk.link (auditName 1) (some file)).link auditFilename none).sync := by
    unfold appendAudit
    simp only [hline, hlive, hkeep, Option.any_some, decide_eq_true hfull, if_true]
    rw [show (1 : Int).toNat = 1 from rfl, hrotate]
  rw [happend, writeAudit, hgone]
  refine ⟨_, rfl, ?_, ?_⟩
  · rw [Directory.live_store_of_ne _ _ (auditName_succ_ne 0)]
    exact ((Directory.agree_link _ _ (auditName_succ_ne 0)).1).trans hold
  · exact Directory.live_store_self _ _

/-- Whatever goes wrong with the record of an operation that was applied: its error says that the
operation was applied, and only audit files have changed. -/
theorem appendAuditAfterApply_spec :
    SameButAudit disk (appendAuditAfterApply entry options faults disk).2 ∧
      ∀ e, (appendAuditAfterApply entry options faults disk).1 = .error e →
        e.operationApplied = true := by
  have hsame := @appendAudit_same entry options faults disk
  unfold appendAuditAfterApply
  split
  · next heq =>
    rw [heq] at hsame
    refine ⟨hsame, fun e he => ?_⟩
    cases he
    rfl
  · next hno =>
    exact ⟨hsame, fun e he => (hno e _ (Prod.ext he rfl)).elim⟩

end GapDB
