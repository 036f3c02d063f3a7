import GapDB.Engine.Readers

/-!
# Expired records stay expired

Reads and commands of one process overlap in any way. Each reads the one clock of the process at
some moment after it starts and looks at the records at some moment after that; the reads need not
hold the lock while they read the clock. A version of a record that one of them finds expired is
expired for every other that starts after the first has read the clock.
-/

namespace GapDB

open Storelib DatabaseState

variable {s : DatabaseState}

/-! ### Operations that overlap -/

inductive Task (σ : Type) where
  | get (key : Key)
  | readMany (marshal : ReadManyResult → Option Nat) (keys : List Key)
  | scan (start : Bytes) (limit : Int) (cursor : Bytes)
  | recoverySnapshot (request : RecoverySnapshotRequest)
  /-- A turn of the writer. -/
  | write (r : Request σ)

inductive Answer where
  | get (result : Except Error Record)
  | readMany (result : Except ReadError ReadManyResult)
  | scan (result : Except Error ScanPage)
  | recoverySnapshot (result : Except Error RecoverySnapshotResult)
  | write (reply : Reply)

/-- The records that a reader is given. -/
def Answer.records : Answer → List Record
  | .get (.ok record) => [record]
  | .readMany (.ok result) => result.entries.filterMap ReadManyEntry.record
  | .scan (.ok page) => page.records
  | .recoverySnapshot (.ok result) => result.records
  | _ => []

/-- How often the writer reads the clock in a turn. -/
def Request.readings {σ : Type} : Request σ → Nat
  | .command (.mutation _ _ _ _) | .command (.read _) | .snapshot _ _ => 1
  | .command (.expiry _ _ _) => 2
  | _ => 0

/-- The turn that has read `times` from the clock. -/
def Request.withReadings {σ : Type} (times : List Time) : Request σ → Request σ
  | .command (.mutation reserve batch single faults) =>
    .command (.mutation reserve batch single { faults with source := times.headD 0 })
  | .command (.expiry reserve _ faults) =>
    .command (.expiry reserve (times.headD 0) { faults with source := times.getD 1 0 })
  | .command (.read _) => .command (.read (times.headD 0))
  | .snapshot install faults => .snapshot install { faults with source := times.headD 0 }
  | r => r

namespace Task

variable {σ : Type}

def readings : Task σ → Nat
  | .write r => r.readings
  | _ => 1

/-- A scan that goes on from a cursor keeps the time of its first page. -/
def continues : Task σ → Bool
  | .scan _ _ cursor => cursor ≠ []
  | _ => false

/-- What the operation does once it has read `times` from the clock. -/
def perform (times : List Time) (s : DatabaseState) (world : σ) :
    Task σ → Answer × DatabaseState × σ
  | .get key => (.get (s.get key (times.headD 0)), s, world)
  | .readMany marshal keys => (.readMany (s.readMany marshal keys (times.headD 0)), s, world)
  | .scan start limit cursor =>
    (.scan (match s.openScan start limit cursor with
      | .error e => .error e
      | .ok cursor => s.scanAt start limit (times.headD 0) cursor), s, world)
  | .recoverySnapshot request =>
    (.recoverySnapshot (s.readRecoverySnapshot request (times.headD 0)), s, world)
  | .write r =>
    -- The readings are already in order, so a fresh clock gives them back as they are.
    let (reply, s', world) := (r.withReadings times).run { s with clock := {} } world
    (.write reply, { s' with clock := s.clock }, world)

end Task

/-- An operation under way, with its readings of the clock and the steps they were made in. -/
structure Ticket (σ : Type) where
  task : Task σ
  started : Nat
  readings : List (Nat × Time) := []

/-- An operation looked at the records of `state` at the time `now`. -/
structure Look (σ : Type) where
  task : Task σ
  started : Nat
  sampled : Nat
  now : Time
  state : DatabaseState
  answer : Answer

inductive TaskEvent (σ : Type) where
  | start (id : Nat) (task : Task σ)
  | sample (id : Nat) (source : Time)
  | finish (id : Nat)

/-- A process: the engine, the operations under way, and what has been seen so far. -/
structure Workload (σ : Type) where
  engine : DatabaseState
  world : σ
  tick : Nat := 0
  tickets : Nat → Option (Ticket σ) := fun _ => none
  readings : List (Nat × Time) := []
  looks : List (Look σ) := []

namespace Workload

variable {σ : Type}

def start (f : Workload σ) (id : Nat) (task : Task σ) : Workload σ :=
  { f with tickets := Function.update f.tickets id (some ⟨task, f.tick, []⟩) }

def sample (f : Workload σ) (id : Nat) (ticket : Ticket σ) (source : Time) : Workload σ :=
  let (now, clock) := f.engine.clock.now source
  { f with
    engine := { f.engine with clock }
    tickets := Function.update f.tickets id
      (some { ticket with readings := ticket.readings ++ [(f.tick, now)] })
    readings := f.readings ++ [(f.tick, now)] }

def looksOf (f : Workload σ) (ticket : Ticket σ) : List (Look σ) :=
  if ticket.task.continues then []
  else
    ticket.readings.map fun (sampled, now) =>
      ⟨ticket.task, ticket.started, sampled, now, f.engine,
        (ticket.task.perform (ticket.readings.map Prod.snd) f.engine f.world).1⟩

def finish (f : Workload σ) (id : Nat) (ticket : Ticket σ) : Workload σ :=
  let (_, engine, world) := ticket.task.perform (ticket.readings.map Prod.snd) f.engine f.world
  { f with engine, world, tickets := Function.update f.tickets id none,
           looks := f.looks ++ f.looksOf ticket }

def act (f : Workload σ) : TaskEvent σ → Workload σ
  | .start id task => if (f.tickets id).isNone then f.start id task else f
  | .sample id source =>
    match f.tickets id with
    | none => f
    | some ticket =>
      if ticket.readings.length < ticket.task.readings then f.sample id ticket source else f
  | .finish id =>
    match f.tickets id with
    | none => f
    | some ticket =>
      if ticket.readings.length = ticket.task.readings then f.finish id ticket else f

def step (f : Workload σ) (e : TaskEvent σ) : Workload σ :=
  { f.act e with tick := f.tick + 1 }

def run (f : Workload σ) (events : List (TaskEvent σ)) : Workload σ := events.foldl step f

end Workload

/-! ### Operations under way -/

/-- Every record in an answer is live at the time of the reader. -/
theorem Task.perform_visible {σ : Type} (h : s.Indexed) (world : σ)
    (times : List Time) {task : Task σ} (hfirst : task.continues = false) :
    ∀ record ∈ (task.perform times s world).1.records,
      s.records.visible (times.headD 0) record.key = some record := by
  intro record hrecord
  cases task with
  | get key =>
    cases hget : s.get key (times.headD 0) with
    | error e => simp only [Task.perform, hget, Answer.records, List.not_mem_nil] at hrecord
    | ok found =>
      simp only [Task.perform, hget, Answer.records, List.mem_singleton] at hrecord
      exact hrecord ▸ get_visible h hget
  | readMany marshal keys =>
    cases hread : s.readMany marshal keys (times.headD 0) with
    | error e => simp only [Task.perform, hread, Answer.records, List.not_mem_nil] at hrecord
    | ok result =>
      simp only [Task.perform, hread, Answer.records] at hrecord
      exact readMany_visible h hread record hrecord
  | scan start limit cursor =>
    have hnil : cursor = [] := by simpa [Task.continues] using hfirst
    subst hnil
    cases hopen : s.openScan start limit [] with
    | error e => simp only [Task.perform, hopen, Answer.records, List.not_mem_nil] at hrecord
    | ok cursor =>
      obtain rfl := openScan_nil hopen
      cases hpage : s.scanAt start limit (times.headD 0) none with
      | error e =>
        simp only [Task.perform, hopen, hpage, Answer.records, List.not_mem_nil] at hrecord
      | ok page =>
        simp only [Task.perform, hopen, hpage, Answer.records] at hrecord
        exact firstPage_visible h (limit_of_openScan hopen) hpage record hrecord
  | recoverySnapshot request =>
    cases hread : s.readRecoverySnapshot request (times.headD 0) with
    | error e => simp only [Task.perform, hread, Answer.records, List.not_mem_nil] at hrecord
    | ok result =>
      simp only [Task.perform, hread, Answer.records] at hrecord
      exact readRecoverySnapshot_visible h hread record hrecord
  | write r => simp [Task.perform, Answer.records] at hrecord

/-! ### Commands -/

/-- A command that succeeds has found its conditions to hold at its time. -/
theorem holds_of_executeSafely {σ : Type} {reserve : Option (ReserveFunc σ)}
    (hlimits : s.limits.Valid) {world : σ} {batch : Batch} {single : SingleOperation}
    {faults : ExecuteFaults} {result : CommitResult}
    (hok : (s.executeSafely reserve world batch single faults).1.1 = .ok result) :
    (∀ a ∈ batch.assertions, a.condition.Holds s.records (s.clock.now faults.source).1 a.key) ∧
      ∀ m ∈ batch.mutations, m.Holds s.records (s.clock.now faults.source).1 single := by
  simp only [executeSafely, execute, prepare] at hok
  by_cases hlifecycle : s.lifecycle ≠ .ready ∧ s.lifecycle ≠ .draining
  · simp only [if_pos hlifecycle, recovered] at hok
    cases hok
  simp only [if_neg hlifecycle] at hok
  cases hvalidated : validateBatchAt batch s.limits (s.clock.now faults.source).1 with
  | error e =>
    simp only [hvalidated, recovered] at hok
    cases hok
  | ok u =>
    simp only [hvalidated] at hok
    cases hphase : predicatePhase { s with clock := (s.clock.now faults.source).2 } batch single
        (s.clock.now faults.source).1 faults with
    | error | panic =>
      simp only [hphase, recovered] at hok
      cases hok
    | ok u =>
      have hvalid := (validateBatchAt_eq_ok hlimits).mp hvalidated
      have hholds := holds_of_predicatePhase (fun a ha => (hvalid.assertions a ha).notAny) hphase
      exact hholds

/-! ### Versions -/

/-- What `s'` holds is in `s` already, or newer than all of `s`. -/
structure DatabaseState.Older (s s' : DatabaseState) : Prop where
  current : s.current ≤ s'.current
  records : ∀ key record, s'.records key = some record →
    s.records key = some record ∨ s.current < record.revision

theorem DatabaseState.Older.trans {a b c : DatabaseState} (h : a.Older b) (h' : b.Older c) :
    a.Older c := by
  refine ⟨h.current.trans h'.current, fun key record hrecord => ?_⟩
  rcases h'.records key record hrecord with hold | hnew
  · exact h.records key record hold
  · exact .inr (h.current.trans_lt hnew)

theorem DatabaseState.Shows.older {s' : DatabaseState} (h : s.Indexed) {frames : List CommitFrame}
    (hshows : s.Shows s' frames) : s.Older s' := by
  cases hshows with
  | nothing same keys =>
    exact ⟨same.current.ge, fun key record hrecord => .inl (same.records ▸ hrecord)⟩
  | commit batch single revision now active valid publishes =>
    have hplanned := planned_of_valid ((validateBatchAt_eq_ok h.limits).mp valid)
    refine ⟨by rw [publishes.current]; exact publishes.increasing.le, fun key record hrecord => ?_⟩
    rw [publishes.records] at hrecord
    rcases replayCommit_cases s.records hplanned single revision key with
      ⟨mutation, -, -, heq⟩ | ⟨-, heq⟩
    · obtain rfl := record_eq_some (heq.symm.trans hrecord)
      exact .inr publishes.increasing
    · exact .inl (heq ▸ hrecord)

/-- A key and a revision name one record. -/
theorem DatabaseState.Older.version {s' : DatabaseState} (h : s.Older s') (hindexed : s.Indexed)
    {key : Key} {record record' : Record} (hrecord : s.records key = some record)
    (hrecord' : s'.records key = some record') (hrevision : record'.revision = record.revision) :
    record' = record := by
  rcases h.records key record' hrecord' with hold | hnew
  · exact Option.some.inj (hold.symm.trans hrecord)
  · have hle := hindexed.revision hrecord
    omega

/-! ### The invariant of a process -/

theorem Nondecreasing.now_latest (clock : Nondecreasing) (source : Time) :
    (clock.now source).2.latest = some (clock.now source).1 := by
  unfold Nondecreasing.now
  cases hlatest : clock.latest with
  | none => rfl
  | some latest =>
    by_cases hlt : latest < source
    · simp only [if_pos hlt]
    · simp only [if_neg hlt, hlatest]

theorem Nondecreasing.le_now {clock : Nondecreasing} {latest : Time}
    (h : clock.latest = some latest) (source : Time) : latest ≤ (clock.now source).1 := by
  unfold Nondecreasing.now
  rw [h]
  by_cases hlt : latest < source
  · simp only [if_pos hlt]
    exact hlt.le
  · simp only [if_neg hlt]
    exact le_refl latest

/-- What is known of an operation that has looked at the records. -/
structure Look.Sound {σ : Type} (look : Look σ) : Prop where
  indexed : look.state.Indexed
  started : look.started < look.sampled
  records : ∀ record ∈ look.answer.records,
    look.state.records.visible look.now record.key = some record
  conditions : ∀ reserve batch single faults result,
    look.task = .write (.command (.mutation reserve batch single faults)) →
    look.answer = .write (.commit (.ok result)) →
    (∀ a ∈ batch.assertions, a.condition.Holds look.state.records look.now a.key) ∧
      ∀ m ∈ batch.mutations, m.Holds look.state.records look.now single

namespace Workload

variable {σ : Type}

structure Sound (f : Workload σ) : Prop where
  indexed : f.engine.Indexed
  past : ∀ reading ∈ f.readings, reading.1 < f.tick ∧
    ∃ latest, f.engine.clock.latest = some latest ∧ reading.2 ≤ latest
  ordered : ∀ a ∈ f.readings, ∀ b ∈ f.readings, a.1 < b.1 → a.2 ≤ b.2
  tickets : ∀ id ticket, f.tickets id = some ticket → ticket.started < f.tick ∧
    ∀ reading ∈ ticket.readings, reading ∈ f.readings ∧ ticket.started < reading.1
  looks : ∀ look ∈ f.looks, look.Sound ∧ (look.sampled, look.now) ∈ f.readings ∧
    look.state.Older f.engine
  history : ∀ v ∈ f.looks, ∀ w ∈ f.looks, v.state.Older w.state ∨ w.state.Older v.state

theorem sound_begin (h : s.Indexed) (world : σ) :
    Sound (⟨s, world, 0, fun _ => none, [], []⟩ : Workload σ) where
  indexed := h
  past := by simp
  ordered := by simp
  tickets := by simp
  looks := by simp
  history := by simp

/-- Time goes on. -/
theorem Sound.tick {f : Workload σ} (h : f.Sound) : Sound { f with tick := f.tick + 1 } where
  indexed := h.indexed
  past := fun reading hreading =>
    ⟨(h.past reading hreading).1.trans (Nat.lt_succ_self _), (h.past reading hreading).2⟩
  ordered := h.ordered
  tickets := fun id ticket hticket =>
    ⟨(h.tickets id ticket hticket).1.trans (Nat.lt_succ_self _), (h.tickets id ticket hticket).2⟩
  looks := h.looks
  history := h.history

theorem Sound.start {f : Workload σ} (h : f.Sound) (id : Nat) (task : Task σ) :
    Sound { f.start id task with tick := f.tick + 1 } := by
  refine { h.tick with tickets := ?_ }
  intro id' ticket hticket
  by_cases hid : id' = id
  · subst hid
    have heq : ticket = ⟨task, f.tick, []⟩ := by
      simpa [Workload.start, eq_comm] using hticket
    subst heq
    exact ⟨Nat.lt_succ_self _, by simp⟩
  · refine h.tick.tickets id' ticket ?_
    simpa [Workload.start, Function.update_of_ne hid] using hticket

theorem Sound.sample {f : Workload σ} (h : f.Sound) {id : Nat} {ticket : Ticket σ}
    (hid : f.tickets id = some ticket) (source : Time) :
    Sound { f.sample id ticket source with tick := f.tick + 1 } := by
  have hlatest := f.engine.clock.now_latest source
  have hle : ∀ reading ∈ f.readings, reading.2 ≤ (f.engine.clock.now source).1 := by
    intro reading hreading
    obtain ⟨-, latest, hclock, hle⟩ := h.past reading hreading
    exact hle.trans (Nondecreasing.le_now hclock source)
  refine
    { indexed := ?_
      past := ?_
      ordered := ?_
      tickets := ?_
      looks := ?_
      history := h.history }
  · exact h.indexed.same ⟨rfl, rfl, rfl, rfl, rfl⟩ rfl
  · intro reading hreading
    refine ⟨?_, _, hlatest, ?_⟩
    · rcases List.mem_append.mp hreading with hold | hnew
      · exact (h.past reading hold).1.trans (Nat.lt_succ_self _)
      · rw [List.mem_singleton.mp hnew]
        exact Nat.lt_succ_self _
    · rcases List.mem_append.mp hreading with hold | hnew
      · exact hle reading hold
      · rw [List.mem_singleton.mp hnew]
        exact le_refl _
  · intro a ha b hb hlt
    rcases List.mem_append.mp hb with hb | hb
    · rcases List.mem_append.mp ha with ha | ha
      · exact h.ordered a ha b hb hlt
      · rw [List.mem_singleton.mp ha] at hlt
        exact absurd hlt (h.past b hb).1.not_gt
    · rw [List.mem_singleton.mp hb] at hlt ⊢
      rcases List.mem_append.mp ha with ha | ha
      · exact hle a ha
      · rw [List.mem_singleton.mp ha]
  · intro id' ticket' hticket
    by_cases heq : id' = id
    · subst heq
      obtain ⟨hstarted, hreadings⟩ := h.tickets id' ticket hid
      have heq : ticket' = { ticket with
          readings := ticket.readings ++ [(f.tick, (f.engine.clock.now source).1)] } := by
        simpa [Workload.sample, eq_comm] using hticket
      subst heq
      refine ⟨hstarted.trans (Nat.lt_succ_self _), fun reading hreading => ?_⟩
      rcases List.mem_append.mp hreading with hold | hnew
      · exact ⟨List.mem_append_left _ (hreadings reading hold).1, (hreadings reading hold).2⟩
      · rw [List.mem_singleton.mp hnew]
        exact ⟨List.mem_append_right _ List.mem_cons_self, hstarted⟩
    · have hticket' : f.tickets id' = some ticket' := by
        simpa [Workload.sample, Function.update_of_ne heq] using hticket
      obtain ⟨hstarted, hreadings⟩ := h.tickets id' ticket' hticket'
      exact ⟨hstarted.trans (Nat.lt_succ_self _), fun reading hreading =>
        ⟨List.mem_append_left _ (hreadings reading hreading).1, (hreadings reading hreading).2⟩⟩
  · intro look hlook
    obtain ⟨hsound, hmem, holder⟩ := h.looks look hlook
    exact ⟨hsound, List.mem_append_left _ hmem, holder.current, holder.records⟩

theorem perform_engine (h : s.Indexed) (world : σ) (times : List Time) (task : Task σ) :
    (task.perform times s world).2.1.Indexed ∧ s.Older (task.perform times s world).2.1 ∧
      (task.perform times s world).2.1.clock = s.clock := by
  have hself : s.Older s := ⟨le_refl _, fun _ _ hrecord => .inl hrecord⟩
  cases task with
  | get | readMany | scan | recoverySnapshot => exact ⟨h, hself, rfl⟩
  | write r =>
    have hfresh : { s with clock := {} }.Indexed := h.same ⟨rfl, rfl, rfl, rfl, rfl⟩ rfl
    have hrun := hfresh.run world (r.withReadings times)
    have holder := ((r.withReadings times).shows _ world).1.older hfresh
    exact ⟨hrun.same ⟨rfl, rfl, rfl, rfl, rfl⟩ rfl, ⟨holder.current, holder.records⟩, rfl⟩

theorem Sound.look {f : Workload σ} (h : f.Sound) {id : Nat} {ticket : Ticket σ}
    (hid : f.tickets id = some ticket) (hread : ticket.readings.length = ticket.task.readings) :
    ∀ look ∈ f.looksOf ticket,
      look.Sound ∧ (look.sampled, look.now) ∈ f.readings ∧ look.state = f.engine := by
  intro look hlook
  have hreadings := (h.tickets id ticket hid).2
  obtain ⟨task, started, readings⟩ := ticket
  unfold looksOf at hlook
  simp only at hlook hread hreadings
  by_cases hfirst : task.continues = true
  · simp [hfirst] at hlook
  rw [if_neg hfirst] at hlook
  obtain ⟨⟨sampled, now⟩, hmem, rfl⟩ := List.mem_map.mp hlook
  -- an operation with one reading looks at the time it has read
  have hone : task.readings = 1 → readings = [(sampled, now)] := by
    intro hone
    obtain ⟨reading, heq⟩ := List.length_eq_one_iff.mp (hread.trans hone)
    rw [heq, List.mem_singleton] at hmem
    rw [heq, hmem]
  have hvisible := task.perform_visible h.indexed f.world (readings.map Prod.snd)
    (by simpa using hfirst)
  refine ⟨⟨h.indexed, (hreadings _ hmem).2, ?_, ?_⟩, (hreadings _ hmem).1, rfl⟩
  · cases task with
    | get | readMany | scan | recoverySnapshot =>
      rw [hone rfl] at hvisible ⊢
      exact hvisible
    | write r => simp [Task.perform, Answer.records]
  · intro reserve batch single faults result htask hanswer
    have htask : task = .write (.command (.mutation reserve batch single faults)) := htask
    subst htask
    rw [hone rfl] at hanswer
    have hfresh : { f.engine with clock := {} }.limits.Valid := h.indexed.limits
    have hok : ({ f.engine with clock := {} }.executeSafely reserve f.world batch single
        { faults with source := now }).1.1 = .ok result := by
      simpa only [Task.perform, Request.withReadings, Request.run, Command.run, Answer.write.injEq,
        Reply.commit.injEq, List.map_cons, List.map_nil, List.headD_cons] using hanswer
    have hholds := holds_of_executeSafely hfresh hok
    exact hholds

theorem Sound.finish {f : Workload σ} (h : f.Sound) {id : Nat} {ticket : Ticket σ}
    (hid : f.tickets id = some ticket) (hread : ticket.readings.length = ticket.task.readings) :
    (f.finish id ticket).Sound := by
  obtain ⟨hindexed, holder, hclock⟩ :=
    perform_engine h.indexed f.world (ticket.readings.map Prod.snd) ticket.task
  have hlooks := h.look hid hread
  refine
    { indexed := hindexed
      past := ?_
      ordered := h.ordered
      tickets := ?_
      looks := ?_
      history := ?_ }
  · intro reading hreading
    obtain ⟨hlt, latest, hlatest, hle⟩ := h.past reading hreading
    exact ⟨hlt, latest, hclock ▸ hlatest, hle⟩
  · intro id' ticket' hticket
    by_cases heq : id' = id
    · subst heq
      simp [Workload.finish] at hticket
    · exact h.tickets id' ticket' (by
        simpa [Workload.finish, Function.update_of_ne heq] using hticket)
  · intro look hlook
    rcases List.mem_append.mp hlook with hold | hnew
    · obtain ⟨hsound, hmem, hpast⟩ := h.looks look hold
      exact ⟨hsound, hmem, hpast.trans holder⟩
    · obtain ⟨hsound, hmem, hstate⟩ := hlooks look hnew
      exact ⟨hsound, hmem, hstate ▸ holder⟩
  · have hself : f.engine.Older f.engine := ⟨le_refl _, fun _ _ hrecord => .inl hrecord⟩
    intro v hv w hw
    rcases List.mem_append.mp hv with hv | hv
    · rcases List.mem_append.mp hw with hw | hw
      · exact h.history v hv w hw
      · rw [(hlooks w hw).2.2]
        exact .inl (h.looks v hv).2.2
    · rw [(hlooks v hv).2.2]
      rcases List.mem_append.mp hw with hw | hw
      · exact .inr (h.looks w hw).2.2
      · rw [(hlooks w hw).2.2]
        exact .inl hself

/-- What an event can do. -/
theorem act_cases (f : Workload σ) (e : TaskEvent σ) :
    f.act e = f ∨ (∃ id task, f.act e = f.start id task) ∨
      (∃ id ticket source, f.tickets id = some ticket ∧ f.act e = f.sample id ticket source) ∨
      ∃ id ticket, f.tickets id = some ticket ∧ ticket.readings.length = ticket.task.readings ∧
        f.act e = f.finish id ticket := by
  cases e with
  | start id task =>
    by_cases hnone : (f.tickets id).isNone
    · exact .inr (.inl ⟨id, task, if_pos hnone⟩)
    · exact .inl (if_neg hnone)
  | sample id source =>
    simp only [act]
    cases hid : f.tickets id with
    | none => exact .inl rfl
    | some ticket =>
      by_cases hlt : ticket.readings.length < ticket.task.readings
      · exact .inr (.inr (.inl ⟨id, ticket, source, hid, if_pos hlt⟩))
      · exact .inl (if_neg hlt)
  | finish id =>
    simp only [act]
    cases hid : f.tickets id with
    | none => exact .inl rfl
    | some ticket =>
      by_cases hread : ticket.readings.length = ticket.task.readings
      · exact .inr (.inr (.inr ⟨id, ticket, hid, hread, if_pos hread⟩))
      · exact .inl (if_neg hread)

theorem Sound.step {f : Workload σ} (h : f.Sound) (e : TaskEvent σ) : (f.step e).Sound := by
  unfold Workload.step
  rcases f.act_cases e with hact | ⟨id, task, hact⟩ | ⟨id, ticket, source, hid, hact⟩ |
    ⟨id, ticket, hid, hread, hact⟩
  · rw [hact]
    exact h.tick
  · rw [hact]
    exact h.start id task
  · rw [hact]
    exact h.sample hid source
  · rw [hact]
    exact (h.finish hid hread).tick

theorem Sound.run {f : Workload σ} (h : f.Sound) (events : List (TaskEvent σ)) :
    (f.run events).Sound := by
  induction events generalizing f with
  | nil => exact h
  | cons e events ih => exact ih (h.step e)

/-- Two looks at one version see the same record. -/
theorem Sound.version {f : Workload σ} (h : f.Sound) {v w : Look σ} (hv : v ∈ f.looks)
    (hw : w ∈ f.looks) {key : Key} {record record' : Record}
    (hrecord : v.state.records key = some record) (hrecord' : w.state.records key = some record')
    (hrevision : record'.revision = record.revision) : record' = record := by
  rcases h.history v hv w hw with hvw | hwv
  · exact hvw.version (h.looks v hv).1.indexed hrecord hrecord' hrevision
  · exact (hwv.version (h.looks w hw).1.indexed hrecord' hrecord hrevision.symm).symm

/-- A record is put with an expiry, found expired, and asked for again by a clock that has gone
back. -/
def sampleAging : List (TaskEvent Unit) :=
  [.start 0 (.write (.command (.mutation none
      ⟨.memory, [], [newPutMutation [97] [1] ⟨.any, 0⟩ (some 60)]⟩ .put { source := 0 }))),
    .sample 0 5, .finish 0,
    .start 1 (.get [97]), .sample 1 100, .finish 1,
    .start 2 (.get [97]), .sample 2 10, .finish 2]

def sampleAged : Workload Unit := run ⟨sampleEngine, (), 0, fun _ => none, [], []⟩ sampleAging

end Workload

end GapDB
