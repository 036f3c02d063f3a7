import GapDB.Engine.Writer

/-!
# Opening the engine

`engine.New`: the configuration is checked, the initial records are taken over one by one, and
history is rebuilt from the commits that recovery found after the snapshot.
-/

namespace GapDB

open Storelib

structure Config where
  limits : Limits
  queueCapacity : Int := 0
  log : WAL
  /-- The interface value is never nil; the pointer in it may be. -/
  allocator : Option RangeAllocator
  records : List Record := []
  currentRevision : Nat := 0
  durableThroughRevision : Nat := 0
  databaseID : DatabaseID
  snapshotRevision : Nat := 0
  recoveredCommits : List CommitFrame := []
  reservedRevisionEnd : Nat := 0
  activeWALStart : Nat := 0

def zeroLimits : Limits := ⟨0, 0, 0, 0, 0, 0, 0, 0, 0, 0, 0, 0⟩

def Config.effectiveLimits (config : Config) : Limits :=
  if config.limits = zeroLimits then defaultLimits else config.limits

def initialRecord (e : Error) : Error := { e with message := "initial record: " ++ e.message }

/-- The checks on one initial record. -/
def checkInitial (limits : Limits) (current : Nat) (m : RecordMap) (record : Record) :
    Except Error Unit :=
  match validateKey record.key limits with
  | .error e => .error (initialRecord e)
  | .ok () =>
    if record.revision = 0 ∨ current < record.revision then
      .error (invalidField "records.revision" "must be nonzero and not exceed current_revision")
    else if limits.maxValueBytes < record.value.length then
      .error (valueTooLarge record.value.length limits.maxValueBytes)
    else if record.expiresAt.isSome ∧ limits.commitBytes < 32 + 20 + record.key.length then
      .error (batchBytesError (32 + 20 + record.key.length) limits.commitBytes)
    else if (m record.key).isSome then .error (invalidField "records.key" "must be unique")
    else .ok ()

/-- The loop over the initial records. -/
def takeRecords (limits : Limits) (current : Nat) :
    List Record → RecordMap → ExpirySchedule → Except Error (RecordMap × ExpirySchedule)
  | [], m, schedule => .ok (m, schedule)
  | record :: records, m, schedule =>
    match checkInitial limits current m record with
    | .error e => .error e
    | .ok () =>
      takeRecords limits current records (Function.update m record.key (some record))
        (schedule.scheduleRecordExpiry record)

/-- `New`, up to the start of the writer goroutine. -/
def newState (config : Config) : Except Error DatabaseState :=
  let limits := config.effectiveLimits
  match limits.validate with
  | .error e => .error e
  | .ok () =>
    if config.queueCapacity < 0 then
      .error (invalidField "queue_capacity" "must be greater than zero")
    else if config.currentRevision < config.durableThroughRevision then
      .error (invalidField "durable_through_revision" "must not exceed current_revision")
    else if config.currentRevision < config.snapshotRevision then
      .error (invalidField "snapshot_revision" "must not exceed current_revision")
    else
      match takeRecords limits config.currentRevision config.records (fun _ => none) {} with
      | .error e => .error e
      | .ok (records, schedule) =>
        match (HistoryLog.initialized limits config.snapshotRevision).rebuild
            config.recoveredCommits config.currentRevision with
        | .error e => .error e
        | .ok history =>
          .ok
            { records
              orderedKeys := ⟨(config.records.map Record.key).insertionSort (· ≤ ·),
                config.records.length⟩
              current := config.currentRevision
              durableThrough := config.durableThroughRevision
              lifecycle := .ready
              limits
              clock := {}
              log := config.log
              allocator := config.allocator
              databaseID := config.databaseID
              snapshotRevision := config.snapshotRevision
              reservedRevisionEnd := config.reservedRevisionEnd
              activeWALStart := config.activeWALStart
              schedule
              history
              watchers := {} }

/-! ### What an opened engine looks like -/

theorem takeRecords_eq_ok {limits : Limits} {current : Nat} {records : List Record}
    {m m' : RecordMap} {schedule schedule' : ExpirySchedule}
    (h : takeRecords limits current records m schedule = .ok (m', schedule')) :
    m' = records.foldl (fun (m : RecordMap) record => Function.update m record.key (some record))
      m := by
  induction records generalizing m schedule with
  | nil =>
    simp only [takeRecords, Except.ok.injEq, Prod.mk.injEq] at h
    exact h.1.symm
  | cons record records ih =>
    rw [takeRecords] at h
    split at h
    · cases h
    · exact ih h

/-- The state `New` returns. -/
structure Opened (config : Config) (s : DatabaseState) : Prop where
  limitsValid : s.limits.Valid
  limits : s.limits = config.effectiveLimits
  records : s.records = recordsOf config.records
  current : s.current = config.currentRevision
  durableThrough : s.durableThrough = config.durableThroughRevision
  known : config.durableThroughRevision ≤ config.currentRevision
  lifecycle : s.lifecycle = .ready
  clock : s.clock = {}
  log : s.log = config.log
  allocator : s.allocator = config.allocator
  databaseID : s.databaseID = config.databaseID
  snapshotRevision : s.snapshotRevision = config.snapshotRevision
  history : (HistoryLog.initialized config.effectiveLimits config.snapshotRevision).rebuild
    config.recoveredCommits config.currentRevision = .ok s.history

/-- The only way in which `New` succeeds. -/
theorem newState_eq_ok {config : Config} {s : DatabaseState} (h : newState config = .ok s) :
    config.effectiveLimits.validate = .ok () ∧
      config.durableThroughRevision ≤ config.currentRevision ∧
      ∃ records schedule history,
        takeRecords config.effectiveLimits config.currentRevision config.records (fun _ => none) {}
          = .ok (records, schedule) ∧
        (HistoryLog.initialized config.effectiveLimits config.snapshotRevision).rebuild
          config.recoveredCommits config.currentRevision = .ok history ∧
        s =
          { records
            orderedKeys := ⟨(config.records.map Record.key).insertionSort (· ≤ ·),
              config.records.length⟩
            current := config.currentRevision
            durableThrough := config.durableThroughRevision
            lifecycle := .ready
            limits := config.effectiveLimits
            clock := {}
            log := config.log
            allocator := config.allocator
            databaseID := config.databaseID
            snapshotRevision := config.snapshotRevision
            reservedRevisionEnd := config.reservedRevisionEnd
            activeWALStart := config.activeWALStart
            schedule
            history
            watchers := {} } := by
  unfold newState at h
  simp only at h
  cases hvalidate : config.effectiveLimits.validate with
  | error e => simp [hvalidate] at h
  | ok u =>
    rw [hvalidate] at h
    simp only [ite_error_eq_ok] at h
    obtain ⟨_, hknown, _, h⟩ := h
    cases htake : takeRecords config.effectiveLimits config.currentRevision config.records
        (fun _ => none) {} with
    | error e => simp [htake] at h
    | ok taken =>
      obtain ⟨records, schedule⟩ := taken
      rw [htake] at h
      simp only at h
      split at h
      · cases h
      next history hhistory =>
      rw [Except.ok.injEq] at h
      exact ⟨rfl, by omega, records, schedule, history, rfl, hhistory, h.symm⟩

theorem opened_of_newState {config : Config} {s : DatabaseState} (h : newState config = .ok s) :
    Opened config s := by
  obtain ⟨hvalidate, hknown, records, schedule, history, htake, hhistory, rfl⟩ := newState_eq_ok h
  exact ⟨Limits.valid_of_validate hvalidate, rfl, takeRecords_eq_ok htake, rfl, rfl, hknown, rfl,
    rfl, rfl, rfl, rfl, rfl, hhistory⟩

end GapDB
