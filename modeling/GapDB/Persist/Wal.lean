import GapDB.Faults
import GapDB.Persist.Scan
import GapDB.Storelib.BufferedFile

/-!
# The write-ahead log

`WAL` of `persist/wal.go` in front of its buffered file. `Append` accepts the bytes of one
frame, `Barrier` flushes and syncs, and a failure of either disables the log for good.
-/

namespace GapDB

open Storelib

/-- One call of `Write`: how much it accepts, how much the buffer then emits, how it ends. -/
structure WriteCall where
  accepted : Nat
  emitted : Nat
  fault : Option Fault := none

/-- `writeFull`; calls beyond the listed ones accept everything. -/
def writeFull (point : Point) : List WriteCall → BufferedFile → Bytes →
    Outcome StorageFault Unit × BufferedFile
  | [], storage, value => (.ok (), storage.accept value)
  | call :: calls, storage, value =>
    let written := (storage.accept (value.take call.accepted)).emit call.emitted
    if value = [] then (.ok (), storage)
    else
      match call.fault with
      | some fault => (fault.outcome point, if fault.mode = .before then storage else written)
      | none =>
        if (value.take call.accepted).length = 0 then (.error errShortWrite, written)
        else writeFull point calls written (value.drop call.accepted)

/-- What a write of `value` that ended in `result` has appended. -/
structure Wrote (point : Point) (storage : BufferedFile) (value : Bytes)
    (result : Outcome StorageFault Unit × BufferedFile) (accepted : Bytes) : Prop where
  isPrefix : accepted <+: value
  stream : result.2.stream = storage.stream ++ accepted
  synced : result.2.file.synced = storage.file.synced
  full : result.1 = .ok () → accepted = value
  proper : ∀ category, result.1 = .error (.hook ⟨point, .before⟩ category) → accepted ≠ value

theorem Fault.outcome_ne_ok {α : Type} (fault : Fault) (point : Point) (a : α) :
    fault.outcome point ≠ .ok a := by
  unfold Fault.outcome
  split <;> simp

theorem Fault.mode_of_outcome {fault : Fault} {point : Point} {category : OSErrorCategory}
    (h : (fault.outcome point : Outcome StorageFault Unit)
      = .error (.hook ⟨point, .before⟩ category)) : fault.mode = .before := by
  unfold Fault.outcome Fault.storageFault at h
  split at h
  · cases h
  · split at h <;> simp_all

/-- A write appends a prefix of its value, all of it on success, and not all of it if the
first thing that went wrong came before a write. -/
theorem writeFull_wrote (point : Point) (calls : List WriteCall) (storage : BufferedFile)
    (value : Bytes) :
    ∃ accepted, Wrote point storage value (writeFull point calls storage value) accepted := by
  induction calls generalizing storage value with
  | nil =>
    exact ⟨value, List.prefix_rfl, by simp [writeFull], rfl, fun _ => rfl, by simp [writeFull]⟩
  | cons call calls ih =>
    by_cases hnil : value = []
    · subst hnil
      exact ⟨[], by simp, by simp [writeFull], by simp [writeFull], fun _ => rfl,
        by simp [writeFull]⟩
    have htake := List.take_prefix call.accepted value
    cases hfault : call.fault with
    | some fault =>
      simp only [writeFull, hnil, if_false, hfault]
      by_cases hmode : fault.mode = .before
      · rw [if_pos hmode]
        exact ⟨[], by simp, by simp, rfl, fun h => absurd h (fault.outcome_ne_ok _ _),
          fun _ _ h => hnil h.symm⟩
      · rw [if_neg hmode]
        exact ⟨_, htake, by simp, rfl, fun h => absurd h (fault.outcome_ne_ok _ _),
          fun _ h => absurd (Fault.mode_of_outcome h) hmode⟩
    | none =>
      simp only [writeFull, hnil, if_false, hfault]
      by_cases hzero : (value.take call.accepted).length = 0
      · rw [if_pos hzero]
        exact ⟨_, htake, by simp, rfl, by simp, by simp [errShortWrite]⟩
      · rw [if_neg hzero]
        -- the rest of the value follows what this call accepted
        obtain ⟨rest, h⟩ := ih ((storage.accept (value.take call.accepted)).emit call.emitted)
          (value.drop call.accepted)
        have hsplit := List.take_append_drop call.accepted value
        refine ⟨value.take call.accepted ++ rest, ?_, ?_, h.synced, ?_, ?_⟩
        · have := (List.prefix_append_right_inj (value.take call.accepted)).mpr h.isPrefix
          rwa [hsplit] at this
        · simpa using h.stream
        · intro hok
          rw [h.full hok, hsplit]
        · intro category herr heq
          exact h.proper category herr (List.append_cancel_left (heq.trans hsplit.symm))

/-- The call accepts something and reports no error. -/
def WriteCall.Works (call : WriteCall) : Prop := call.fault = none ∧ 0 < call.accepted

theorem writeFull_ok (point : Point) {calls : List WriteCall} (h : ∀ call ∈ calls, call.Works)
    (storage : BufferedFile) (value : Bytes) :
    ∃ storage', writeFull point calls storage value = (.ok (), storage') := by
  induction calls generalizing storage value with
  | nil => exact ⟨_, rfl⟩
  | cons call calls ih =>
    obtain ⟨hfault, haccepted⟩ := h call (by simp)
    by_cases hnil : value = []
    · exact ⟨storage, by simp [writeFull, hnil]⟩
    · have hlen : (value.take call.accepted).length ≠ 0 := by
        have := List.length_pos_of_ne_nil hnil
        rw [List.length_take]
        omega
      simp only [writeFull, hnil, if_false, hfault, hlen]
      exact ih (fun c hc => h c (by simp [hc])) _ _

/-! ### The log -/

structure WAL where
  path : Bytes
  header : WALHeader
  limits : Limits
  storage : BufferedFile
  lastRevision : Nat
  durableThrough : Nat
  pending : Bool := false
  failed : Bool := false

def storageDegraded (stage : String) (current durable : Nat) (operationApplied : Bool)
    (cause : Option StorageFault) : Error :=
  { code := .storageDegraded, message := "Storage can no longer accept mutations safely.",
    retry := .afterRestart, failedStage := stage, currentRevision := some current,
    durableThroughRevision := some durable, operationApplied,
    safeActions := [.status, .verify, .restartAfterRecovery, .abort], cause }

namespace WAL

def append (wal : WAL) (commit : CommitFrame) (calls : List WriteCall) :
    Outcome Error Unit × WAL :=
  if wal.failed then
    (.error (storageDegraded "wal_unavailable" wal.lastRevision wal.durableThrough false none), wal)
  else if commit.revision < wal.header.firstRevision ∨ commit.revision ≤ wal.lastRevision then
    (.error (corruptWAL "commit revision is below the WAL start or not increasing" wal.path 0 none),
      wal)
  else
    match encodeCommitFrame commit wal.limits with
    | .error e => (.error e, wal)
    | .ok encoded =>
      match writeFull .walFrameWrite calls wal.storage encoded with
      | (.panic, storage) => (.panic, { wal with storage })
      | (.error cause, storage) =>
        (.error (storageDegraded "wal_frame_write" wal.lastRevision wal.durableThrough false
          (some cause)), { wal with storage, failed := true })
      | (.ok (), storage) =>
        (.ok (), { wal with storage, lastRevision := commit.revision, pending := true })

inductive BarrierStage where
  | flush | sync
deriving DecidableEq

/-- Where a barrier breaks off. -/
structure BarrierFault where
  stage : BarrierStage
  fault : Fault
deriving DecidableEq

/-- The physical effect of a flush that breaks off. -/
def flushed (storage : BufferedFile) (fault : Fault) : BufferedFile :=
  match fault.mode with
  | .before => storage
  | .during emitted => storage.emit emitted
  | .after => storage.flush

/-- A sync that is reported as failed by the system guarantees nothing. -/
def synced (storage : BufferedFile) (fault : Fault) : BufferedFile :=
  match fault.mode with
  | .before | .during _ => storage
  | .after => storage.sync

def barrierFailure (wal : WAL) (stage : String) (point : Point) (fault : Fault)
    (storage : BufferedFile) : Outcome Error Unit × WAL :=
  if fault.panics then (.panic, { wal with storage })
  else
    (.error (storageDegraded stage wal.lastRevision wal.durableThrough false
      (some (fault.storageFault point))), { wal with storage, failed := true })

def barrier (wal : WAL) (fault : Option BarrierFault) : Outcome Error Unit × WAL :=
  if wal.failed then
    (.error (storageDegraded "wal_unavailable" wal.lastRevision wal.durableThrough false none), wal)
  else
    match fault with
    | some ⟨.flush, fault⟩ =>
      wal.barrierFailure "wal_buffer_flush" .walBufferFlush fault (flushed wal.storage fault)
    | some ⟨.sync, fault⟩ =>
      wal.barrierFailure "wal_file_sync" .walFileSync fault (synced wal.storage.flush fault)
    | none =>
      (.ok (), { wal with
        storage := wal.storage.flush.sync
        durableThrough := wal.lastRevision
        pending := false })

/-! ### What the operations can do -/

/-- The bytes accepted so far. -/
def stream (wal : WAL) : Bytes := wal.storage.stream

/-- The conditions under which `Append` starts to write. -/
structure Accepts (wal : WAL) (commit : CommitFrame) : Prop where
  ready : wal.failed = false
  first : wal.header.firstRevision ≤ commit.revision
  increasing : wal.lastRevision < commit.revision
  valid : commit.Valid wal.limits
  size : commit.size ≤ wal.limits.maxBatchBytes

/-- `Append` refuses without touching the log, breaks off inside the frame, or appends it. -/
inductive Appended (wal : WAL) (commit : CommitFrame) : Outcome Error Unit → WAL → Prop where
  | refused (e : Error) : Appended wal commit (.error e) wal
  | broke (accepts : wal.Accepts commit) (cause : StorageFault) (storage : BufferedFile)
      (accepted : Bytes)
      (wrote : Wrote .walFrameWrite wal.storage commit.bytes (.error cause, storage) accepted) :
      Appended wal commit
        (.error (storageDegraded "wal_frame_write" wal.lastRevision wal.durableThrough false
          (some cause))) { wal with storage, failed := true }
  | panicked (accepts : wal.Accepts commit) (storage : BufferedFile) (accepted : Bytes)
      (wrote : Wrote .walFrameWrite wal.storage commit.bytes (.panic, storage) accepted) :
      Appended wal commit .panic { wal with storage }
  | done (accepts : wal.Accepts commit) (storage : BufferedFile)
      (wrote : Wrote .walFrameWrite wal.storage commit.bytes (.ok (), storage) commit.bytes) :
      Appended wal commit (.ok ())
        { wal with storage, lastRevision := commit.revision, pending := true }

theorem append_cases (wal : WAL) (hl : wal.limits.Valid) (commit : CommitFrame)
    (calls : List WriteCall) :
    Appended wal commit (wal.append commit calls).1 (wal.append commit calls).2 := by
  unfold append
  split
  · exact .refused _
  next hready =>
  split
  · exact .refused _
  next hrevision =>
  cases hencode : encodeCommitFrame commit wal.limits with
  | error e => exact .refused e
  | ok encoded =>
    obtain ⟨hvalid, hsize, rfl⟩ := (encodeCommitFrame_eq_ok hl).mp hencode
    have haccepts : wal.Accepts commit :=
      ⟨by simpa using hready, by omega, by omega, hvalid, hsize⟩
    obtain ⟨accepted, hwrote⟩ := writeFull_wrote .walFrameWrite calls wal.storage commit.bytes
    simp only
    generalize writeFull .walFrameWrite calls wal.storage commit.bytes = result at hwrote ⊢
    obtain ⟨outcome, storage⟩ := result
    cases outcome with
    | ok u => exact .done haccepts storage (hwrote.full rfl ▸ hwrote)
    | error cause => exact .broke haccepts cause storage accepted hwrote
    | panic => exact .panicked haccepts storage accepted hwrote

/-- A log that is not disabled takes every admissible commit if no write fails. -/
theorem append_ok {wal : WAL} (hl : wal.limits.Valid) {commit : CommitFrame}
    (h : wal.Accepts commit) {calls : List WriteCall} (hcalls : ∀ call ∈ calls, call.Works) :
    ∃ storage, wal.append commit calls
      = (.ok (), { wal with storage, lastRevision := commit.revision, pending := true }) := by
  have hencode := (encodeCommitFrame_eq_ok hl).mpr ⟨h.valid, h.size, rfl⟩
  obtain ⟨storage, hwrite⟩ := writeFull_ok .walFrameWrite hcalls wal.storage commit.bytes
  refine ⟨storage, ?_⟩
  simp [append, h.ready, not_lt.mpr h.first, not_le.mpr h.increasing, hencode, hwrite]

/-- `Barrier` never changes the stream; it makes it durable or is reported as failed. -/
inductive Barriered (wal : WAL) : Outcome Error Unit → WAL → Prop where
  | refused (e : Error) (failed : wal.failed) : Barriered wal (.error e) wal
  | broke (e : Error) (storage : BufferedFile) (stream : storage.stream = wal.storage.stream)
      (synced : wal.storage.file.synced ≤ storage.file.synced) :
      Barriered wal (.error e) { wal with storage, failed := true }
  | panicked (storage : BufferedFile) (stream : storage.stream = wal.storage.stream)
      (synced : wal.storage.file.synced ≤ storage.file.synced) :
      Barriered wal .panic { wal with storage }
  | done (ready : wal.failed = false) : Barriered wal (.ok ())
      { wal with storage := wal.storage.flush.sync, durableThrough := wal.lastRevision,
                 pending := false }

theorem barrierFailure_cases (wal : WAL) (stage : String) (point : Point) (fault : Fault)
    {storage : BufferedFile} (hstream : storage.stream = wal.storage.stream)
    (hsynced : wal.storage.file.synced ≤ storage.file.synced) :
    Barriered wal (wal.barrierFailure stage point fault storage).1
      (wal.barrierFailure stage point fault storage).2 := by
  unfold barrierFailure
  split
  · exact .panicked storage hstream hsynced
  · exact .broke _ storage hstream hsynced

theorem barrier_cases (wal : WAL) (fault : Option BarrierFault) :
    Barriered wal (wal.barrier fault).1 (wal.barrier fault).2 := by
  unfold barrier
  split
  · next hfailed => exact .refused _ hfailed
  next hfailed =>
  split
  · next fault =>
    apply barrierFailure_cases <;> unfold flushed <;> split <;> simp [BufferedFile.flush]
  · next fault =>
    have hflush := wal.storage.flush.synced_le_sync
    rw [show wal.storage.flush.file.synced = wal.storage.file.synced from rfl] at hflush
    apply barrierFailure_cases <;> unfold synced <;> split <;> simp [BufferedFile.flush] at hflush ⊢
    exact hflush
  · exact .done (by simpa using hfailed)

end WAL

end GapDB
