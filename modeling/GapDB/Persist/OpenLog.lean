import GapDB.Persist.Identity
import GapDB.Persist.Wal

/-!
# Opening a WAL

A WAL is created with nothing but its header, or opened again after a scan has confirmed where it
ends (`CreateWAL`, `OpenWALForAppend` and `scanWALFile` of `internal/persist`).
-/

namespace GapDB

open Storelib

/-- `revision - 1` in 64 bits. -/
def previousRevision (revision : Nat) : Nat := if revision = 0 then maxUint64 else revision - 1

/-! ### Scanning a file -/

/-- Where reading a WAL breaks off. -/
inductive ScanStage where
  | header | frameHeader | frame
deriving DecidableEq

def ScanStage.failure (stage : ScanStage) (cause : StorageFault) : Error :=
  match stage with
  | .header => corruptWAL "WAL header is incomplete" (ascii "WAL") 0 (some cause)
  | .frameHeader => ioFailure "wal_read_frame_header" (ascii "WAL") cause
  | .frame => ioFailure "wal_read_frame" (ascii "WAL") cause

/-- What can go wrong when a WAL is opened and scanned. -/
structure ScanFaults where
  opened : Option Fault := none
  stat : Option OSErrorCategory := none
  read : Option (ScanStage × OSErrorCategory) := none

/-- The common start of `scanWALFile` and `OpenWALForAppend`. -/
def openAndScan (disk : Disk) (name : Bytes) (openOperation statOperation : String)
    (expectedID : DatabaseID) (afterRevision reservedEnd : Nat) (limits : Limits)
    (faults : ScanFaults) : Outcome Error (File × WALReplay) :=
  match faults.opened with
  | some fault =>
    if fault.panics then .panic
    else .error (ioFailure openOperation name (fault.storageFault .openFile))
  | none =>
    match disk.live name with
    | none => .error (ioFailure openOperation name (.os .notExist))
    | some file =>
      match faults.stat, faults.read with
      | some category, _ => .error (ioFailure statOperation name (.os category))
      | none, some (stage, category) =>
        .error (withWALContext (stage.failure (.os category)) name 0)
      | none, none =>
        match scanWAL file.bytes expectedID afterRevision reservedEnd limits with
        | .error e => .error (withWALContext e name 0)
        | .ok replay => .ok (file, replay)

theorem openAndScan_eq_ok {disk : Disk} {name : Bytes} {openOperation statOperation : String}
    {expectedID : DatabaseID} {afterRevision reservedEnd : Nat} {limits : Limits}
    {faults : ScanFaults} {file : File} {replay : WALReplay}
    (h : openAndScan disk name openOperation statOperation expectedID afterRevision reservedEnd
      limits faults = .ok (file, replay)) :
    disk.live name = some file ∧
      scanWAL file.bytes expectedID afterRevision reservedEnd limits = .ok replay := by
  unfold openAndScan at h
  split at h
  · split at h <;> cases h
  split at h
  · cases h
  next file' hlive =>
  split at h
  · cases h
  · cases h
  split at h
  · cases h
  next replay' hscan =>
  simp only [Outcome.ok.injEq, Prod.mk.injEq] at h
  obtain ⟨rfl, rfl⟩ := h
  exact ⟨hlive, hscan⟩

theorem openAndScan_of_live {disk : Disk} {name : Bytes} {file : File} {expectedID : DatabaseID}
    {afterRevision reservedEnd : Nat} {limits : Limits} {replay : WALReplay}
    (hlive : disk.live name = some file)
    (hscan : scanWAL file.bytes expectedID afterRevision reservedEnd limits = .ok replay)
    (openOperation statOperation : String) :
    openAndScan disk name openOperation statOperation expectedID afterRevision reservedEnd limits {}
      = .ok (file, replay) := by
  simp [openAndScan, hlive, hscan]

/-! ### Opening for appends -/

structure OpenLogFaults extends ScanFaults where
  seek : Option OSErrorCategory := none

def openWALForAppend (disk : Disk) (name : Bytes) (expected : WALHeader)
    (lastRevision durableThrough : Nat) (limits : Limits) (faults : OpenLogFaults) :
    Outcome Error WAL :=
  let start := previousRevision expected.firstRevision
  if lastRevision < start ∨ lastRevision < durableThrough then
    .error (corruptWAL "recovered WAL append state is invalid" name 0 none)
  else
    (openAndScan disk name "wal_open_append" "wal_stat_append" expected.databaseID start
      lastRevision limits faults.toScanFaults).bind fun (file, replay) =>
    if replay.tail.isSome ∨ replay.header ≠ expected ∨ replay.recoveredRevision ≠ lastRevision then
      .error (corruptWAL "WAL append state does not match recovered authority" name 0 none)
    else
      match faults.seek with
      | some category => .error (ioFailure "wal_seek_append" name (.os category))
      | none =>
        .ok { path := name, header := expected, limits, storage := ⟨file, []⟩, lastRevision,
              durableThrough }

/-- An opened log is the file as it stands, with nothing buffered. -/
theorem openWALForAppend_eq_ok {disk : Disk} {name : Bytes} {expected : WALHeader}
    {lastRevision durableThrough : Nat} {limits : Limits} {faults : OpenLogFaults} {log : WAL}
    (h : openWALForAppend disk name expected lastRevision durableThrough limits faults = .ok log) :
    ∃ file replay, disk.live name = some file ∧
      scanWAL file.bytes expected.databaseID (previousRevision expected.firstRevision) lastRevision
        limits = .ok replay ∧
      replay.tail = none ∧ replay.header = expected ∧ replay.recoveredRevision = lastRevision ∧
      log = { path := name, header := expected, limits, storage := ⟨file, []⟩, lastRevision,
              durableThrough } := by
  unfold openWALForAppend at h
  simp only at h
  split at h
  · cases h
  obtain ⟨⟨file, replay⟩, hopen, h⟩ := Outcome.bind_eq_ok.mp h
  obtain ⟨hlive, hscan⟩ := openAndScan_eq_ok hopen
  simp only at h
  split at h
  · cases h
  next hmatch =>
  split at h
  · cases h
  rw [Outcome.ok.injEq] at h
  simp only [not_or, not_not, Option.isSome_iff_ne_none, ne_eq] at hmatch
  exact ⟨file, replay, hlive, hscan, hmatch.1, hmatch.2.1, hmatch.2.2, h.symm⟩

/-! ### Creating -/

/-- How `CreateWAL` names its steps. -/
def createOperation : CreateStage → String × Point
  | .create => ("wal_header_create", .walHeaderCreate)
  | .write => ("wal_header_write", .walHeaderWrite)
  | .sync => ("wal_header_sync", .walFileSync)

def createWAL (name : Bytes) (header : WALHeader) (limits : Limits)
    (fault : Option (CreateStage × Fault)) (disk : Disk) : Outcome Error WAL × Disk :=
  if name ≠ ascii "wal-" ++ formatRevision header.firstRevision ++ ascii ".gdb" then
    (.error (corruptWAL "WAL filename does not match its first revision" name 0 none), disk)
  else
    match encodeWALHeader header with
    | .error e => (.error e, disk)
    | .ok encoded =>
      match disk.create name encoded (fault.map fun fault => (fault.1, fault.2.mode)), fault with
      | (.done, disk), _ =>
        (.ok { path := name, header, limits, storage := ⟨.stable encoded, []⟩,
               lastRevision := previousRevision header.firstRevision, durableThrough := 0 }, disk)
      | (.broke stage _, disk), some (_, fault) =>
        (if fault.panics then .panic
          else .error (ioFailure (createOperation stage).1 name
            (fault.storageFault (createOperation stage).2)), disk)
      | (.occupied, disk), _ | (.broke _ _, disk), none =>
        (.error (ioFailure "wal_header_create" name (.os .alreadyExists)), disk)

end GapDB
