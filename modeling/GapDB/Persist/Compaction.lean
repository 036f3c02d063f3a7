import GapDB.Persist.Generation

/-!
# Compaction

`PlanCompaction` and `RunCompaction` of `persist/compaction.go`. The removals are given one by one,
because commits go on beside them.
-/

namespace GapDB

open Storelib

/-- `generationFileRevision`: the number in the name of a snapshot or of a WAL. -/
def generationFileRevision (name : Bytes) : Option Nat :=
  let body :=
    if (ascii "snapshot-").isPrefixOf name then some (name.drop 9)
    else if (ascii "wal-").isPrefixOf name then some (name.drop 4)
    else none
  body.bind fun body =>
    let value := body.take 20
    if body.length = 24 ∧ body.drop 20 = ascii ".gdb" ∧ (value.all fun b => 48 ≤ b ∧ b ≤ 57) ∧
        decimalValue value < 2 ^ 64 ∧ formatRevision (decimalValue value) = value then
      some (decimalValue value)
    else none

/-- `isProtectedStorageName`. -/
def isProtectedStorageName (name : Bytes) : Bool :=
  name = identityFilename ∨ name = manifestFilename ∨ name = ascii "LOCK" ∨
    name = ascii "audit.jsonl" ∨ (ascii "audit.jsonl.").isPrefixOf name ∨
    (ascii ".sock").isSuffixOf name ∨ name.tails.any (ascii ".tmp-").isPrefixOf

def adminPrecondition (reason : String) : Error :=
  { code := .adminPreconditionFailed, message := "Administrative preconditions did not match.",
    retry := .afterReconcile, reason, safeActions := [.status, .rebuildRequest, .abort] }

def compactionNotSafe : Error :=
  { code := .compactionNotSafe, message := "Compaction is not safe at the requested revision.",
    retry := .afterReconcile, reason := "through_revision exceeds the active snapshot revision",
    safeActions := [.status, .createSnapshot, .abort] }

structure CompactionPlan where
  databaseID : DatabaseID
  generation : Nat
  through : Nat
  remove : List Bytes
  skipped : List Bytes
deriving DecidableEq

/-- Whether the plan removes a name; `directories` are the entries that are directories. -/
def removes (active : Manifest) (through : Nat) (directories : List Bytes) (name : Bytes) : Bool :=
  ¬ (name ∈ directories ∨ name = active.snapshotFile ∨ name = active.walFile ∨
    isProtectedStorageName name) ∧
  (generationFileRevision name).any (· ≤ through)

def planCompaction (active : Manifest) (expectedID : DatabaseID) (through : Nat)
    (directories : List Bytes) (fault : Option Fault) (disk : Disk) :
    Outcome Error CompactionPlan :=
  if expectedID.isZero ∨ expectedID ≠ active.databaseID then
    .error (adminPrecondition "database ID does not match active authority")
  else if active.snapshotRevision < through then .error compactionNotSafe
  else
    match fault with
    | some fault =>
      if fault.panics then .panic
      else .error (ioFailure "compaction_list" [] (fault.storageFault .readDir))
    | none =>
      let names := disk.readDir.insertionSort (· ≤ ·)
      .ok ⟨expectedID, active.generation, through,
        names.filter (removes active through directories),
        names.filter fun name => ¬ removes active through directories name⟩

/-- The check of a target right before its removal. -/
def safeTarget (active : Manifest) (through : Nat) (name : Bytes) : Bool :=
  (generationFileRevision name).any (· ≤ through) ∧ name ≠ active.snapshotFile ∧
    name ≠ active.walFile ∧ 47 ∉ name

/-- One removal of `RunCompaction`; `removed` says that something was removed before. -/
def removeTarget (active : Manifest) (through : Nat) (removed : Bool) (name : Bytes)
    (fault : Option Fault) (disk : Disk) : Outcome Error Unit × Disk :=
  if ¬ safeTarget active through name then
    (.error (adminPrecondition "compaction plan contains an unsafe target"), disk)
  else
    match fault with
    | none =>
      match disk.live name with
      | none =>
        (.error { ioFailure "compaction_remove" name (.os .notExist) with
          operationApplied := removed }, disk)
      | some _ => (.ok (), disk.link name none)
    | some fault =>
      let disk' := if fault.mode = .after then disk.link name none else disk
      if fault.panics then (.panic, disk')
      else
        (.error { ioFailure "compaction_remove" name (fault.storageFault .compactionRemove) with
          operationApplied := removed ∨ fault.mode = .after }, disk')

/-- The last step; the directory is synced if something was removed. -/
def finishCompaction (removed : Bool) (fault : Option Fault) (disk : Disk) :
    Outcome Error Unit × Disk :=
  if ¬ removed then (.ok (), disk)
  else
    match fault with
    | none => (.ok (), disk.sync)
    | some fault =>
      let disk' := if fault.mode = .after then disk.sync else disk
      if fault.panics then (.panic, disk')
      else
        (.error (ioFailureApplied "compaction_directory_sync" []
          (fault.storageFault .compactionDirectorySync)), disk')

end GapDB
