import GapDB.Errors
import GapDB.Storelib.Checks

/-!
# Limits

`gapdb/options.go`: the configured bounds, their hard ceilings and their validation.
-/

namespace GapDB

open Storelib

def minimumMaxFrameBytes : Nat := 2048

structure Limits where
  maxKeyBytes : Nat
  maxValueBytes : Nat
  maxFrameBytes : Nat
  maxBatchBytes : Nat
  maxBatchOperations : Nat
  maxScanRecords : Nat
  maxScanBytes : Nat
  watchBufferEvents : Nat
  maxWatchClients : Nat
  maxConcurrentClients : Nat
  maxHistoryEvents : Nat
  maxHistoryBytes : Nat
deriving DecidableEq, Repr

def hardCeilings : Limits where
  maxKeyBytes := 65536
  maxValueBytes := 67108864
  maxFrameBytes := 67108864
  maxBatchBytes := 67108864
  maxBatchOperations := 65536
  maxScanRecords := 10000
  maxScanBytes := 67108864
  watchBufferEvents := 8192
  maxWatchClients := 4096
  maxConcurrentClients := 4096
  maxHistoryEvents := 1000000
  maxHistoryBytes := 1073741824

def defaultLimits : Limits where
  maxKeyBytes := 4096
  maxValueBytes := 8388608
  maxFrameBytes := 16777216
  maxBatchBytes := 16777216
  maxBatchOperations := 1024
  maxScanRecords := 1000
  maxScanBytes := 16777216
  watchBufferEvents := 256
  maxWatchClients := 256
  maxConcurrentClients := 256
  maxHistoryEvents := 100000
  maxHistoryBytes := 67108864

/-- Each bound with its name and ceiling, in the order `Options.Validate` checks them. -/
def Limits.checks (l : Limits) : List (String × Nat × Nat) :=
  [("limits.max_key_bytes", l.maxKeyBytes, hardCeilings.maxKeyBytes),
   ("limits.max_value_bytes", l.maxValueBytes, hardCeilings.maxValueBytes),
   ("limits.max_frame_bytes", l.maxFrameBytes, hardCeilings.maxFrameBytes),
   ("limits.max_batch_bytes", l.maxBatchBytes, hardCeilings.maxBatchBytes),
   ("limits.max_batch_operations", l.maxBatchOperations, hardCeilings.maxBatchOperations),
   ("limits.max_scan_records", l.maxScanRecords, hardCeilings.maxScanRecords),
   ("limits.max_scan_bytes", l.maxScanBytes, hardCeilings.maxScanBytes),
   ("limits.watch_buffer_events", l.watchBufferEvents, hardCeilings.watchBufferEvents),
   ("limits.max_watch_clients", l.maxWatchClients, hardCeilings.maxWatchClients),
   ("limits.max_concurrent_clients", l.maxConcurrentClients, hardCeilings.maxConcurrentClients),
   ("limits.max_history_events", l.maxHistoryEvents, hardCeilings.maxHistoryEvents),
   ("limits.max_history_bytes", l.maxHistoryBytes, hardCeilings.maxHistoryBytes)]

def checkBound : String × Nat × Nat → Except Error Unit
  | (name, value, ceiling) =>
    if value = 0 ∨ ceiling < value then
      .error (invalidField name ("must be between 1 and " ++ toString ceiling))
    else .ok ()

def Limits.validate (l : Limits) : Except Error Unit :=
  andThen (checkAll checkBound l.checks) <|
  if l.maxFrameBytes < minimumMaxFrameBytes then
    .error (invalidField "limits.max_frame_bytes" ("must be at least "
      ++ toString minimumMaxFrameBytes ++ " bytes so correlated protocol errors always fit"))
  else if l.maxFrameBytes < l.maxBatchBytes then
    .error (invalidField "limits.max_batch_bytes" "must not exceed max_frame_bytes")
  else if l.maxFrameBytes < l.maxScanBytes then
    .error (invalidField "limits.max_scan_bytes" "must not exceed max_frame_bytes")
  else if l.maxHistoryEvents < l.watchBufferEvents then
    .error (invalidField "limits.max_history_events" "must be at least watch_buffer_events")
  else if l.maxConcurrentClients < l.maxWatchClients then
    .error (invalidField "limits.max_watch_clients" "must not exceed max_concurrent_clients")
  else .ok ()

/-- The smaller of the batch and the frame limit bounds a commit frame. -/
def Limits.commitBytes (l : Limits) : Nat :=
  if l.maxFrameBytes < l.maxBatchBytes then l.maxFrameBytes else l.maxBatchBytes

theorem checkBound_eq_ok {c : String × Nat × Nat} :
    checkBound c = .ok () ↔ 0 < c.2.1 ∧ c.2.1 ≤ c.2.2 := by
  obtain ⟨name, value, ceiling⟩ := c
  simp only [checkBound, ite_error_eq_ok, and_true]
  omega

/-- What validation guarantees about the bounds the storage code relies on. -/
structure Limits.Valid (l : Limits) : Prop where
  keyBytes : 0 < l.maxKeyBytes ∧ l.maxKeyBytes ≤ 65536
  valueBytes : 0 < l.maxValueBytes ∧ l.maxValueBytes ≤ 67108864
  frameBytes : 2048 ≤ l.maxFrameBytes ∧ l.maxFrameBytes ≤ 67108864
  batchBytes : 0 < l.maxBatchBytes ∧ l.maxBatchBytes ≤ l.maxFrameBytes
  operations : 0 < l.maxBatchOperations ∧ l.maxBatchOperations ≤ 65536
  watchEvents : 0 < l.watchBufferEvents ∧ l.watchBufferEvents ≤ 8192
  watchClients : 0 < l.maxWatchClients
  historyEvents : l.watchBufferEvents ≤ l.maxHistoryEvents
  historyBytes : 0 < l.maxHistoryBytes

theorem Limits.valid_of_validate {l : Limits} (h : l.validate = .ok ()) : l.Valid := by
  simp only [Limits.validate, andThen_eq_ok, checkAll_eq_ok, checkBound_eq_ok, ite_error_eq_ok,
    Limits.checks, hardCeilings, List.mem_cons, List.not_mem_nil, or_false, forall_eq_or_imp,
    forall_eq, and_true] at h
  simp only [minimumMaxFrameBytes] at h
  constructor <;> omega

theorem Limits.Valid.commitBytes_eq {l : Limits} (h : l.Valid) :
    l.commitBytes = l.maxBatchBytes := by
  have := h.batchBytes
  simp only [Limits.commitBytes]
  split <;> omega

example : defaultLimits.validate = .ok () := by rfl

end GapDB
