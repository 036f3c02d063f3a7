import GapDB.Engine.Delivery
import GapDB.Engine.Index
import GapDB.Engine.Scheduled
import Mathlib.Data.Finset.Card

/-!
# Expiry cleanup

In every reachable engine that is not degraded the schedule holds exactly the dated records, and
each of them fits into a cleanup of its own. A cleanup therefore never collects a record in vain,
its batch passes every check of the commit step, and what it collects is gone afterwards unless
storage fails, which degrades the engine. Repeated at one instant, cleanups run out of work.

The one thing that could separate schedule and records is a hook of the predicate phase that
refuses a cleanup after its candidates were popped; `Unhooked` rules that out.
-/

namespace GapDB

open Storelib DatabaseState

variable {now : Time} {key : Key}

variable {σ : Type} {source : Time} {faults : ExecuteFaults}

/-- The predicate phase of a cleanup is not interfered with. -/
def Request.Unhooked {σ : Type} : Request σ → Prop
  | .command (.expiry _ _ faults) => faults.Unhooked
  | _ => True

namespace DatabaseState

variable {s s' : DatabaseState} {batch : Batch} {single : SingleOperation} {revision : Nat}

/-! ### The commit step and the schedule -/

/-- The commit is published, and the schedule follows it. -/
structure Follows (s : DatabaseState) (batch : Batch) (single : SingleOperation) (revision : Nat)
    (s' : DatabaseState) : Prop where
  increasing : s.current < revision
  records : s'.records = (s.records.applyAll revision single 0 batch.mutations).1
  schedule : s'.schedule
    = s.schedule.afterCommit (s.records.applyAll revision single 0 batch.mutations).2
  limits : s'.limits = s.limits
  clock : s'.clock = s.clock
  lifecycle : s'.lifecycle = s.lifecycle

section

variable (faults : ExecuteFaults) (id : String)

theorem mapApply_follows (hrevision : s.current < revision) (durableThrough : Nat) :
    (recovered (s.mapApply batch single revision durableThrough faults) id).2.Degraded ∨
      s.Follows batch single revision
        (recovered (s.mapApply batch single revision durableThrough faults) id).2 := by
  unfold mapApply
  cases checkpoint faults.mapApplyBefore .mapApply .before with
  | panic | error => exact .inl rfl
  | ok u =>
    simp only
    cases checkpoint faults.mapApplyAfter .mapApply .after with
    | panic | error => exact .inl rfl
    | ok u => exact .inr ⟨hrevision, rfl, rfl, rfl, rfl, rfl⟩

theorem Follows.of_log {log : WAL} (h : { s with log }.Follows batch single revision s') :
    s.Follows batch single revision s' :=
  ⟨h.increasing, h.records, h.schedule, h.limits, h.clock, h.lifecycle⟩

theorem makeDurable_follows (hrevision : s.current < revision) :
    (recovered (s.makeDurable batch single revision faults) id).2.Degraded ∨
      s.Follows batch single revision
        (recovered (s.makeDurable batch single revision faults) id).2 := by
  unfold makeDurable
  simp only
  split
  · exact .inl rfl
  split
  · generalize s.log.barrier faults.barrier = result
    obtain ⟨outcome, log⟩ := result
    cases outcome with
    | panic | error => exact .inl rfl
    | ok u =>
      simp only
      split
      · exact .inl rfl
      · have hcurrent : { s with log }.current < revision := hrevision
        exact (mapApply_follows faults id hcurrent log.durableThrough).imp_right Follows.of_log
  · exact mapApply_follows faults id hrevision _

/-- A commit either degrades the engine or is published. -/
theorem commit_follows (s : DatabaseState) (batch : Batch) (single : SingleOperation)
    (revision : Nat) :
    (recovered (s.commit batch single revision faults) id).2.Degraded ∨
      s.Follows batch single revision
        (recovered (s.commit batch single revision faults) id).2 := by
  unfold commit
  split
  · exact .inl rfl
  next hrevision =>
  generalize s.log.append (commitFrame batch single revision) faults.writes = result
  obtain ⟨outcome, log⟩ := result
  cases outcome with
  | panic | error => exact .inl rfl
  | ok u =>
    have hcurrent : { s with log }.current < revision := by
      simp only
      omega
    exact (makeDurable_follows faults id hcurrent).imp_right Follows.of_log

end

/-- Neither the records nor the schedule have changed. -/
structure Rests (s s' : DatabaseState) : Prop where
  records : s'.records = s.records
  schedule : s'.schedule = s.schedule
  limits : s'.limits = s.limits
  lifecycle : s'.lifecycle = s.lifecycle

/-- How the commit step ends, as far as the schedule is concerned. -/
inductive Concludes (s : DatabaseState) (batch : Batch) (single : SingleOperation)
    (faults : ExecuteFaults) (s' : DatabaseState) : Prop where
  | refused (rests : s.Rests s')
      (reason : s.lifecycle ≠ .ready ∧ s.lifecycle ≠ .draining ∨
        validateBatchAt batch s.limits (s.clock.now faults.source).1 ≠ .ok () ∨
        predicatePhase { s with clock := (s.clock.now faults.source).2 } batch single
          (s.clock.now faults.source).1 faults ≠ .ok ())
  | degraded (degraded : s'.Degraded)
  | committed (revision : Nat)
      (valid : validateBatchAt batch s.limits (s.clock.now faults.source).1 = .ok ())
      (follows : { s with clock := (s.clock.now faults.source).2 }.Follows batch single revision s')

theorem execute_concludes (reserve : Option (ReserveFunc σ)) (s : DatabaseState)
    (world : σ) (batch : Batch) (single : SingleOperation) (faults : ExecuteFaults) (id : String) :
    s.Concludes batch single faults
      (recovered (s.execute reserve world batch single faults).1 id).2 := by
  unfold execute prepare
  by_cases hlifecycle : s.lifecycle ≠ .ready ∧ s.lifecycle ≠ .draining
  · simp only [if_pos hlifecycle]
    exact .refused ⟨rfl, rfl, rfl, rfl⟩ (.inl hlifecycle)
  simp only [if_neg hlifecycle]
  cases hvalid : validateBatchAt batch s.limits (s.clock.now faults.source).1 with
  | error e => exact .refused ⟨rfl, rfl, rfl, rfl⟩ (.inr (.inl (by simp [hvalid])))
  | ok u =>
  cases hphase : predicatePhase { s with clock := (s.clock.now faults.source).2 } batch single
      (s.clock.now faults.source).1 faults with
  | error e => exact .refused ⟨rfl, rfl, rfl, rfl⟩ (.inr (.inr (by simp [hphase])))
  | panic => exact .degraded rfl
  | ok u =>
    simp only
    rw [allocate_clock, s.allocate_state reserve world]
    generalize s.allocate reserve world = result
    obtain ⟨outcome, s₁, world'⟩ := result
    simp only
    cases outcome with
    | error | panic => exact .degraded rfl
    | ok revision =>
      simp only
      rcases commit_follows faults id _ batch single revision with hdegraded | hfollows
      · exact .degraded hdegraded
      · exact .committed revision hvalid ⟨hfollows.increasing, hfollows.records,
          hfollows.schedule, hfollows.limits, hfollows.clock, hfollows.lifecycle⟩

/-! ### The invariant -/

/-- The schedule holds the dated records, and each of them can be cleaned up. -/
structure Cleanable (s : DatabaseState) : Prop where
  active : s.lifecycle = .ready ∨ s.lifecycle = .draining
  schedule : s.schedule.Holds s.records.agenda
  revision : ∀ key record, s.records key = some record → record.revision ≠ 0
  fits : ∀ key t revision, s.records.agenda key = some (t, revision) →
    32 + 20 + key.length ≤ s.limits.commitBytes

theorem Cleanable.rests (h : s.Cleanable) (hrests : s.Rests s') : s'.Cleanable where
  active := by rw [hrests.lifecycle]; exact h.active
  schedule := by rw [hrests.schedule, hrests.records]; exact h.schedule
  revision := by rw [hrests.records]; exact h.revision
  fits := by rw [hrests.records, hrests.limits]; exact h.fits

theorem Follows.records_cases (h : s.Follows batch single revision s')
    (valid : batch.Valid s.limits now) (key : Key) :
    (∃ mutation ∈ batch.mutations, mutation.key = key ∧
        s'.records key = mutation.record revision) ∨
      (∀ mutation ∈ batch.mutations, mutation.key ≠ key) ∧ s'.records key = s.records key := by
  have hrecords : s'.records = replayCommit s.records (commitFrame batch single revision) := by
    rw [h.records, applyAll_eq]
    rfl
  rw [hrecords]
  exact replayCommit_cases s.records (planned_of_valid valid) single revision key

/-- A commit keeps the invariant, also if its keys were taken off the schedule before. -/
theorem Cleanable.follows {s₀ : DatabaseState} {agenda : Agenda}
    (h : s₀.Cleanable) (hlimits : s.limits.Valid) (hrecords : s.records = s₀.records)
    (hsame : s.limits = s₀.limits ∧ s.lifecycle = s₀.lifecycle)
    (hholds : s.schedule.Holds agenda)
    (hagenda : ∀ key, agenda key = s.records.agenda key ∨
      key ∈ batch.mutations.map Mutation.key)
    (valid : batch.Valid s.limits now) (follows : s.Follows batch single revision s') :
    s'.Cleanable := by
  have hcases := follows.records_cases valid
  refine ⟨?_, ?_, ?_, ?_⟩
  · rw [follows.lifecycle, hsame.2]
    exact h.active
  · rw [follows.schedule, follows.records]
    exact hholds.afterCommit hagenda
  · intro key record hrecord
    rcases hcases key with ⟨mutation, -, -, heq⟩ | ⟨-, heq⟩
    · obtain rfl := record_eq_some (heq.symm.trans hrecord)
      have hpositive := follows.increasing
      show revision ≠ 0
      omega
    · rw [heq, hrecords] at hrecord
      exact h.revision key record hrecord
  · intro key t rev hentry
    rw [follows.limits]
    obtain ⟨record, hrecord, hrev, hdate⟩ := ExpirySchedule.agenda_eq_some hentry
    rcases hcases key with ⟨mutation, hmutation, rfl, heq⟩ | ⟨-, heq⟩
    · -- the batch that wrote the record was at least as large as its cleanup
      have hbytes := valid.bytes
      have hone : mutation.bytes ≤ (batch.mutations.map Mutation.bytes).sum :=
        List.single_le_sum (fun _ _ => Nat.zero_le _) _ (List.mem_map_of_mem hmutation)
      have hsize : mutation.bytes
          = 20 + mutation.key.length + mutation.valueBytes.length := rfl
      rw [hlimits.commitBytes_eq]
      omega
    · rw [hsame.1]
      refine h.fits key t rev ?_
      rw [heq, hrecords] at hrecord
      simp [RecordMap.agenda, hrecord, hdate, hrev]

/-! ### One cleanup -/

/-- What the collector gathers in one cleanup, before it is sorted. -/
def collected (s : DatabaseState) (source : Time) : ExpirySchedule × List ExpiryCandidate :=
  s.schedule.collectDue s.limits s.records (s.clock.now source).1 [] 32 s.schedule.expiries.length

theorem due_perm (s : DatabaseState) (source : Time) :
    (s.due source).Perm (s.collected source).2 :=
  List.perm_insertionSort _ _

theorem due_eq_nil_iff (s : DatabaseState) (source : Time) :
    s.due source = [] ↔ (s.collected source).2 = [] := by
  have hperm := due_perm s source
  constructor
  · intro hnil
    rw [hnil] at hperm
    exact hperm.symm.eq_nil
  · intro hnil
    rw [hnil] at hperm
    exact hperm.eq_nil

/-- The batch of a cleanup: distinct keys, expired records of the scheduled revision, in bounds. -/
theorem due_collected (s : DatabaseState) (source : Time) :
    ExpirySchedule.Collected s.limits s.records (s.clock.now source).1 (s.due source) := by
  have hempty : ExpirySchedule.Collected s.limits s.records (s.clock.now source).1 [] :=
    ⟨by simp, by simp, by simp, by simp⟩
  have h : ExpirySchedule.Collected s.limits s.records (s.clock.now source).1
      (s.collected source).2 :=
    ExpirySchedule.collectDue_collected _ _ hempty (by simp)
  have hperm := due_perm s source
  refine ⟨(hperm.map _).nodup_iff.mpr h.distinct, fun c hc => h.current c (hperm.mem_iff.mp hc),
    hperm.length_eq ▸ h.operations, fun hne => ?_⟩
  rw [(hperm.map _).sum_eq]
  exact h.bytes fun hnil => hne ((due_eq_nil_iff s source).mpr hnil)

/-- The engine inside a cleanup, when its commit step begins. -/
def cleaning (s : DatabaseState) (source : Time) : DatabaseState :=
  { s with clock := (s.clock.now source).2, schedule := (s.collected source).1 }

theorem executeDueExpiriesSafely_eq (reserve : Option (ReserveFunc σ))
    (s : DatabaseState) (world : σ) (source : Time) (faults : ExecuteFaults) :
    s.executeDueExpiriesSafely reserve world source faults
      = if s.due source = [] then ((.ok emptyResult, s.cleaning source), world)
        else (recovered ((s.cleaning source).execute reserve world
          (expiryBatch (s.due source)) .expiry faults).1 "engine-expiry-panic",
          ((s.cleaning source).execute reserve world (expiryBatch (s.due source)) .expiry
            faults).2) := by
  unfold executeDueExpiriesSafely executeDueExpiries
  by_cases hdue : s.due source = []
  · have hdue' := hdue
    unfold due at hdue'
    simp only [hdue', hdue, if_true]
    rfl
  · have hdue' := hdue
    unfold due at hdue'
    simp only [hdue', hdue, if_false]
    rfl

theorem keys_expiryBatch (due : List ExpiryCandidate) :
    (expiryBatch due).mutations.map Mutation.key = due.map ExpiryCandidate.key := by
  simp [expiryBatch, newDeleteMutation]

theorem Cleanable.batch_valid (h : s.Cleanable) (hindexed : s.Indexed)
    (hdue : s.due source ≠ []) (now : Time) :
    (expiryBatch (s.due source)).Valid s.limits now := by
  have hcollected := due_collected s source
  have hmutation : ∀ m ∈ (expiryBatch (s.due source)).mutations,
      ∃ c ∈ s.due source, newDeleteMutation c.key c.revision = m := fun m hm => List.mem_map.mp hm
  refine ⟨?_, ?_, ?_, ?_, ?_, ?_, ?_, ?_⟩
  · simp [expiryBatch]
  · simpa [expiryBatch] using hdue
  · simpa [expiryBatch] using hcollected.operations
  · rw [keys_expiryBatch]
    exact hcollected.distinct
  · intro a ha
    cases ha
  · intro m hm
    obtain ⟨c, hc, rfl⟩ := hmutation m hm
    obtain ⟨record, hrecord, hrevision, -⟩ := hcollected.current c hc
    refine ⟨hindexed.valid hrecord, ?_, ⟨rfl, rfl, rfl⟩⟩
    show c.revision ≠ 0
    rw [← hrevision]
    exact h.revision _ record hrecord
  · have hbytes := hcollected.bytes hdue
    rw [hindexed.limits.commitBytes_eq] at hbytes
    have hsum : (expiryBatch (s.due source)).mutations.map Mutation.bytes
        = (s.due source).map fun c => 20 + c.key.length := by
      simp [expiryBatch, newDeleteMutation, Mutation.bytes, Mutation.valueBytes]
    rw [hsum]
    simpa [expiryBatch] using hbytes
  · intro m hm t ht
    obtain ⟨c, -, rfl⟩ := hmutation m hm
    cases ht

theorem predicatePhase_expiryBatch {clock : Nondecreasing} (hfaults : faults.Unhooked) :
    predicatePhase { s.cleaning source with clock } (expiryBatch (s.due source)) .expiry now faults
      = .ok () := by
  refine predicatePhase_eq_ok ?_ hfaults ?_ ?_
  · intro a ha
    cases ha
  · intro a ha
    cases ha
  · intro m hm
    obtain ⟨c, hc, rfl⟩ := List.mem_map.mp hm
    obtain ⟨record, hrecord, hrevision, -⟩ := (due_collected s source).current c hc
    refine .inr ⟨rfl, rfl, ?_⟩
    show revisionOf (s.records c.key) = c.revision
    rw [hrecord]
    exact hrevision

/-- The result of a cleanup on an engine that stays up. -/
structure Cleaned (s : DatabaseState) (source : Time) (faults : ExecuteFaults)
    (s' : DatabaseState) : Prop where
  cleanable : s'.Cleanable
  records : ∀ key, s'.records key
    = if key ∈ (s.due source).map ExpiryCandidate.key then none else s.records key
  clock : s'.clock = (s.clock.now source).2 ∨
    s'.clock = ((s.clock.now source).2.now faults.source).2

theorem Cleanable.cleanup (h : s.Cleanable) (hindexed : s.Indexed)
    (reserve : Option (ReserveFunc σ)) (world : σ) (source : Time) (hfaults : faults.Unhooked) :
    (s.executeDueExpiriesSafely reserve world source faults).1.2.Degraded ∨
      s.Cleaned source faults (s.executeDueExpiriesSafely reserve world source faults).1.2 := by
  have hstart : s.schedule.Holds (ExpirySchedule.remaining s.records []) := by
    rw [ExpirySchedule.remaining_nil]
    exact h.schedule
  have hholds : (s.collected source).1.Holds
      (ExpirySchedule.remaining s.records (s.collected source).2) :=
    ExpirySchedule.collectDue_holds _ hstart
  have hkeys : ∀ key, key ∈ (s.collected source).2.map ExpiryCandidate.key ↔
      key ∈ (s.due source).map ExpiryCandidate.key := fun key =>
    ((due_perm s source).map _).mem_iff.symm
  rw [executeDueExpiriesSafely_eq]
  by_cases hdue : s.due source = []
  · -- nothing was collected, so the schedule still holds everything
    rw [if_pos hdue]
    rw [(due_eq_nil_iff s source).mp hdue, ExpirySchedule.remaining_nil] at hholds
    refine .inr ⟨⟨h.active, hholds, h.revision, h.fits⟩, fun key => ?_, .inl rfl⟩
    rw [hdue]
    rfl
  · rw [if_neg hdue]
    have hvalid := h.batch_valid hindexed hdue
      ((s.cleaning source).clock.now faults.source).1
    have hconcludes := execute_concludes reserve (s.cleaning source) world
      (expiryBatch (s.due source)) .expiry faults "engine-expiry-panic"
    cases hconcludes with
    | degraded hdegraded => exact .inl hdegraded
    | refused rests reason =>
      -- the batch passes every check
      exfalso
      rcases reason with hlifecycle | hinvalid | hphase
      · exact h.active.elim hlifecycle.1 hlifecycle.2
      · exact hinvalid ((validateBatchAt_eq_ok hindexed.limits).mpr hvalid)
      · exact hphase (predicatePhase_expiryBatch hfaults)
    | committed revision valid follows =>
      have hcases := follows.records_cases hvalid
      refine .inr ⟨?_, fun key => ?_, .inr follows.clock⟩
      · refine h.follows (s := { s.cleaning source with
            clock := ((s.cleaning source).clock.now faults.source).2 }) hindexed.limits rfl
          ⟨rfl, rfl⟩ hholds (fun key => ?_) hvalid follows
        by_cases hkey : key ∈ (s.collected source).2.map ExpiryCandidate.key
        · rw [keys_expiryBatch]
          exact .inr ((hkeys key).mp hkey)
        · exact .inl (if_neg hkey)
      · rcases hcases key with ⟨mutation, hmutation, rfl, heq⟩ | ⟨hother, heq⟩
        · have hin : mutation.key ∈ (s.due source).map ExpiryCandidate.key := by
            rw [← keys_expiryBatch]
            exact List.mem_map_of_mem hmutation
          obtain ⟨c, -, rfl⟩ := List.mem_map.mp hmutation
          rw [heq, if_pos hin]
          rfl
        · rw [heq, if_neg]
          · rfl
          · rw [← keys_expiryBatch]
            intro hin
            obtain ⟨mutation, hmutation, hkey⟩ := List.mem_map.mp hin
            exact hother mutation hmutation hkey

/-- Every step of storage succeeds in a cleanup: a revision is allocated, the frame is appended and
made durable with matching evidence, and the map is applied. -/
structure StorageWorks {σ : Type} (s : DatabaseState) (reserve : Option (ReserveFunc σ)) (world : σ)
    (source : Time) (faults : ExecuteFaults) (revision : Nat) (log log' : WAL) : Prop where
  allocated : (s.allocate reserve world).1 = .ok revision
  increasing : s.current < revision
  appended : s.log.append (commitFrame (expiryBatch (s.due source)) .expiry revision) faults.writes
    = (.ok (), log)
  evident : s.durableThrough ≤ log.durableThrough ∧ log.durableThrough ≤ revision
  barriered : log.barrier faults.barrier = (.ok (), log')
  durable : log'.durableThrough = revision
  applied : faults.mapApplyBefore = none ∧ faults.mapApplyAfter = none

/-- Working storage leaves the engine as it is. -/
theorem Cleanable.lifecycle_of_works (h : s.Cleanable) (hindexed : s.Indexed)
    {reserve : Option (ReserveFunc σ)} {world : σ}
    (hfaults : faults.Unhooked) {revision : Nat} {log log' : WAL}
    (hworks : s.StorageWorks reserve world source faults revision log log') :
    (s.executeDueExpiriesSafely reserve world source faults).1.2.lifecycle = s.lifecycle := by
  rw [executeDueExpiriesSafely_eq]
  by_cases hdue : s.due source = []
  · rw [if_pos hdue]
    rfl
  · rw [if_neg hdue]
    have hactive : ¬ ((s.cleaning source).lifecycle ≠ .ready ∧
        (s.cleaning source).lifecycle ≠ .draining) := by
      rintro ⟨hready, hdraining⟩
      exact h.active.elim hready hdraining
    have hvalid : validateBatchAt (expiryBatch (s.due source)) (s.cleaning source).limits
        ((s.cleaning source).clock.now faults.source).1 = .ok () :=
      (validateBatchAt_eq_ok hindexed.limits).mpr (h.batch_valid hindexed hdue _)
    have hallocated : ((s.cleaning source).allocate reserve world).1 = .ok revision := by
      have hsame : (s.cleaning source).allocator = s.allocator := rfl
      have hallocated := hworks.allocated
      unfold allocate at hallocated ⊢
      rw [hsame]
      cases hallocator : s.allocator with
      | none => simp [hallocator] at hallocated
      | some allocator =>
        rw [hallocator] at hallocated
        exact hallocated
    unfold execute prepare
    simp only [if_neg hactive, hvalid, predicatePhase_expiryBatch hfaults]
    rw [allocate_clock, (s.cleaning source).allocate_state reserve world]
    generalize (s.cleaning source).allocate reserve world = result at hallocated ⊢
    obtain ⟨outcome, s₁, world'⟩ := result
    simp only at hallocated
    subst hallocated
    have hincreasing : ¬ (revision = 0 ∨ revision ≤ s.current) := by
      have hlt := hworks.increasing
      omega
    have hevident : ¬ (log.durableThrough < s.durableThrough ∨ revision < log.durableThrough) := by
      have hbetween := hworks.evident
      omega
    have hack : (expiryBatch (s.due source)).ack = .durable := rfl
    simp only [commit, cleaning, if_neg hincreasing, hworks.appended, makeDurable,
      if_neg hevident, if_pos hack, hworks.barriered, hworks.durable, ne_eq, not_true_eq_false,
      if_false, mapApply, hworks.applied.1, hworks.applied.2]
    rfl

/-- If a record is expired, the cleanup collects something. -/
theorem Cleanable.due_ne_nil (h : s.Cleanable) (hindexed : s.Indexed)
    {record : Record} (hrecord : s.records key = some record)
    (hexpired : recordExpired record (s.clock.now source).1 = true) : s.due source ≠ [] := by
  cases hdate : record.expiresAt with
  | none => simp [recordExpired, hdate] at hexpired
  | some t =>
    have hentry : s.records.agenda key = some (t, record.revision) := by
      simp [RecordMap.agenda, hrecord, hdate]
    have hdue : t ≤ (s.clock.now source).1 := by
      simpa [recordExpired, hdate, isExpired] using hexpired
    have hstart : s.schedule.Holds (ExpirySchedule.remaining s.records []) := by
      rw [ExpirySchedule.remaining_nil]
      exact h.schedule
    have hne := ExpirySchedule.collectDue_ne_nil hindexed.limits.operations.1 hstart h.fits hentry
      hdue
    exact fun hnil => hne ((due_eq_nil_iff s source).mp hnil)

/-! ### Runs -/

theorem executeSnapshot_rests (install : SnapshotInstaller σ) (s : DatabaseState)
    (world : σ) (faults : SnapshotFaults) :
    (s.executeSnapshot install world faults).2.1.Degraded ∨
      s.Rests (s.executeSnapshot install world faults).2.1 := by
  have hcases := executeSnapshot_cases install s world faults
  generalize s.executeSnapshot install world faults = result at hcases ⊢
  obtain ⟨⟨result, error⟩, s', world'⟩ := result
  cases hcases with
  | unbarriered | unevident | broken => exact .inl rfl
  | refused | switched => exact .inr ⟨rfl, rfl, rfl, rfl⟩

theorem executeDurableAdmin_rests (operation : DurableAdminOperation σ)
    (s : DatabaseState) (world : σ) (barrier : Option WAL.BarrierFault) :
    (s.executeDurableAdmin operation world barrier).2.1.Degraded ∨
      s.Rests (s.executeDurableAdmin operation world barrier).2.1 := by
  unfold executeDurableAdmin
  split
  · exact .inl rfl
  · exact .inl rfl
  · simp only
    split
    · exact .inl rfl
    · split
      · exact .inl rfl
      · exact .inr ⟨rfl, rfl, rfl, rfl⟩
      · exact .inr ⟨rfl, rfl, rfl, rfl⟩

theorem shutdown_rests (s : DatabaseState) (barrier : Option WAL.BarrierFault) :
    (s.shutdown barrier).2.Degraded ∨ s.Rests (s.shutdown barrier).2 := by
  unfold shutdown
  simp only
  split
  · exact .inr ⟨rfl, rfl, rfl, rfl⟩
  · exact .inl rfl
  · exact .inr ⟨rfl, rfl, rfl, rfl⟩

theorem Cleanable.executeSafely (h : s.Cleanable) (hindexed : s.Indexed)
    (reserve : Option (ReserveFunc σ)) (world : σ) (batch : Batch) (single : SingleOperation)
    (faults : ExecuteFaults) :
    (s.executeSafely reserve world batch single faults).1.2.Degraded ∨
      (s.executeSafely reserve world batch single faults).1.2.Cleanable := by
  have hconcludes := execute_concludes reserve s world batch single faults "engine-writer-panic"
  unfold DatabaseState.executeSafely
  cases hconcludes with
  | refused rests => exact .inr (h.rests rests)
  | degraded hdegraded => exact .inl hdegraded
  | committed revision valid follows =>
    exact .inr (h.follows (s := { s with clock := (s.clock.now faults.source).2 }) hindexed.limits
      rfl ⟨rfl, rfl⟩ h.schedule (fun _ => .inl rfl)
      ((validateBatchAt_eq_ok hindexed.limits).mp valid) follows)

/-- Whatever is asked of it, the engine keeps the invariant or is degraded. -/
theorem Cleanable.run (h : s.Cleanable) (hindexed : s.Indexed) (world : σ)
    {r : Request σ} (hr : r.Unhooked) :
    (r.run s world).2.1.Degraded ∨ (r.run s world).2.1.Cleanable := by
  cases r with
  | snapshot install faults =>
    exact (executeSnapshot_rests install s world faults).imp_right h.rests
  | shutdown barrier => exact (shutdown_rests s barrier).imp_right h.rests
  | command c =>
    cases c with
    | mutation reserve batch single faults =>
      exact h.executeSafely hindexed reserve world batch single faults
    | expiry reserve source faults =>
      exact (h.cleanup hindexed reserve world source hr).imp_right Cleaned.cleanable
    | durableAdmin operation barrier =>
      exact (executeDurableAdmin_rests operation s world barrier).imp_right h.rests
    | markAdminDegraded => exact .inl rfl
    | drain =>
      refine .inr ?_
      simp only [Request.run, Command.run]
      split
      · exact ⟨.inr rfl, h.schedule, h.revision, h.fits⟩
      · exact h
    | register | unregister | retire | read => exact .inr (h.rests ⟨rfl, rfl, rfl, rfl⟩)

theorem Cleanable.live (h : s.Degraded ∨ s.Cleanable) (hindexed : s.Indexed) (world : σ)
    {rs : List (Request σ)} (hrs : ∀ r ∈ rs, r.Unhooked) :
    (live s world rs).2.1.Degraded ∨ (live s world rs).2.1.Cleanable := by
  induction rs generalizing s world with
  | nil => exact h
  | cons r rs ih =>
    refine ih ?_ (hindexed.run world r) _ fun q hq => hrs q (List.mem_cons_of_mem _ hq)
    rcases h with hdegraded | hcleanable
    · exact .inl (r.degraded_run hdegraded world)
    · exact hcleanable.run hindexed world (hrs r List.mem_cons_self)

/-! ### The opened engine -/

theorem takeRecords_holds {limits : Limits} {current : Nat} {records : List Record}
    {m m' : RecordMap} {schedule schedule' : ExpirySchedule}
    (h : takeRecords limits current records m schedule = .ok (m', schedule'))
    (hholds : schedule.Holds m.agenda)
    (hfits : ∀ key t revision, m.agenda key = some (t, revision) →
      32 + 20 + key.length ≤ limits.commitBytes) :
    schedule'.Holds m'.agenda ∧ ∀ key t revision, m'.agenda key = some (t, revision) →
      32 + 20 + key.length ≤ limits.commitBytes := by
  induction records generalizing m schedule with
  | nil =>
    simp only [takeRecords, Except.ok.injEq, Prod.mk.injEq] at h
    rw [← h.1, ← h.2]
    exact ⟨hholds, hfits⟩
  | cons record records ih =>
    rw [takeRecords] at h
    split at h
    · cases h
    next hcheck =>
    have hbound : ¬ (record.expiresAt.isSome ∧
        limits.commitBytes < 32 + 20 + record.key.length) := by
      unfold checkInitial at hcheck
      split at hcheck
      · cases hcheck
      · simp only [ite_error_eq_ok] at hcheck
        exact hcheck.2.2.1
    refine ih h ?_ ?_
    · rw [RecordMap.agenda_update]
      exact hholds.scheduleRecordExpiry record
    · intro key t revision hentry
      rw [RecordMap.agenda_update] at hentry
      by_cases hkey : key = record.key
      · subst hkey
        rw [Function.update_self] at hentry
        cases hdate : record.expiresAt with
        | none => simp [hdate] at hentry
        | some at_ =>
          rw [hdate] at hbound
          by_contra hlarge
          exact hbound ⟨rfl, not_le.mp hlarge⟩
      · rw [Function.update_of_ne hkey] at hentry
        exact hfits key t revision hentry

theorem cleanable_of_newState {config : Config} (h : newState config = .ok s) : s.Cleanable := by
  obtain ⟨-, -, records, schedule, history, htake, -, rfl⟩ := newState_eq_ok h
  obtain ⟨-, hvalid, -, -⟩ := takeRecords_spec htake
  obtain ⟨hholds, hfits⟩ := takeRecords_holds htake ExpirySchedule.holds_empty (by
    intro key t revision hentry
    cases hentry)
  exact ⟨.inl rfl, hholds,
    fun key record hrecord => (hvalid record (takeRecords_mem htake hrecord).1).2.1, hfits⟩

/-! ### The schedule of a reachable engine -/

/-- After any requests, whether they succeeded or failed, the schedule of an engine that is not
degraded is exact, unless a hook of the predicate phase interfered with a cleanup. -/
theorem expiry_schedule_exact {σ : Type} {config : Config} {s₀ : DatabaseState}
    (hopen : newState config = .ok s₀) (hcurrent : config.currentRevision < 2 ^ 64) (world : σ)
    {rs : List (Request σ)} (hrs : ∀ r ∈ rs, r.Unhooked)
    (hactive : ¬ (live s₀ world rs).2.1.Degraded) :
    (live s₀ world rs).2.1.schedule.Exact (live s₀ world rs).2.1.records := by
  have hlive := Cleanable.live (.inr (cleanable_of_newState hopen))
    (indexed_of_newState hopen hcurrent) world hrs
  exact (hlive.resolve_left hactive).schedule.exact

/-! ### Repeated cleanups -/

/-- What the map still holds that is expired at an instant. -/
def HasExpired (s : DatabaseState) (now : Time) (key : Key) : Prop :=
  ∃ record, s.records key = some record ∧ recordExpired record now = true

/-- Cleanups one after another, each with its own reservation and faults. -/
def cleanups {σ : Type} (source : Time)
    (runs : Nat → Option (ReserveFunc σ) × ExecuteFaults) (s : DatabaseState) (world : σ) :
    Nat → DatabaseState × σ
  | 0 => (s, world)
  | n + 1 =>
    let (s, world) := cleanups source runs s world n
    ((Command.expiry (runs n).1 source (runs n).2).run s world).2

/-- Without time passing, the clock reads the same again. -/
theorem now_now (clock : Nondecreasing) (source : Time) :
    (clock.now source).2.now source = clock.now source := by
  unfold Nondecreasing.now
  cases hlatest : clock.latest with
  | none => simp
  | some latest => by_cases h : latest < source <;> simp [h, hlatest]

theorem Cleaned.now_eq (h : s.Cleaned source faults s') (hsource : faults.source = source) :
    s'.clock.now source = s.clock.now source := by
  rcases h.clock with hclock | hclock
  · rw [hclock, now_now]
  · rw [hclock, hsource, now_now, now_now]

/-- A cleanup leaves no record behind that it collected, and touches no other. -/
theorem Cleaned.hasExpired (h : s.Cleaned source faults s') : s'.HasExpired now key ↔
      key ∉ (s.due source).map ExpiryCandidate.key ∧ s.HasExpired now key := by
  unfold HasExpired
  rw [h.records]
  by_cases hkey : key ∈ (s.due source).map ExpiryCandidate.key
  · simp [hkey]
  · simp [hkey]

theorem due_hasExpired (hkey : key ∈ (s.due source).map ExpiryCandidate.key) :
    s.HasExpired (s.clock.now source).1 key := by
  obtain ⟨c, hc, rfl⟩ := List.mem_map.mp hkey
  obtain ⟨record, hrecord, -, hexpired⟩ := (due_collected s source).current c hc
  exact ⟨record, hrecord, hexpired⟩

/-- As long as something is expired, a cleanup that does not degrade the engine removes a record. -/
theorem Cleaned.removes (h : s.Cleaned source faults s')
    (hcleanable : s.Cleanable) (hindexed : s.Indexed)
    (hexpired : s.HasExpired (s.clock.now source).1 key) :
    ∃ key ∈ (s.due source).map ExpiryCandidate.key,
      s.HasExpired (s.clock.now source).1 key ∧ s'.records key = none := by
  obtain ⟨record, hrecord, hexpired⟩ := hexpired
  have hdue := hcleanable.due_ne_nil hindexed hrecord hexpired
  obtain ⟨c, hc⟩ := List.exists_mem_of_ne_nil _ hdue
  have hkey : c.key ∈ (s.due source).map ExpiryCandidate.key := List.mem_map_of_mem hc
  refine ⟨c.key, hkey, due_hasExpired hkey, ?_⟩
  rw [h.records, if_pos hkey]

/-- The keys in the heap. -/
def scheduledKeys (s : DatabaseState) : Finset Key :=
  (s.schedule.expiries.map fun p => (s.schedule.candidates p).key).toFinset

theorem Cleanable.mem_scheduledKeys (h : s.Cleanable)
    (hexpired : s.HasExpired now key) : key ∈ s.scheduledKeys := by
  obtain ⟨record, hrecord, hexpired⟩ := hexpired
  cases hdate : record.expiresAt with
  | none => simp [recordExpired, hdate] at hexpired
  | some t =>
    have hentry : s.records.agenda key = some (t, record.revision) := by
      simp [RecordMap.agenda, hrecord, hdate]
    rw [h.schedule.entries] at hentry
    obtain ⟨p, hfiled, -⟩ := Option.map_eq_some_iff.mp hentry
    obtain ⟨hp, rfl⟩ := (h.schedule.byKey key p).mp hfiled
    exact List.mem_toFinset.mpr (List.mem_map_of_mem hp)

section

variable {runs : Nat → Option (ReserveFunc σ) × ExecuteFaults} {world : σ}

/-- The states that repeated cleanups pass through. -/
structure Drained (s s' : DatabaseState) (source : Time) : Prop where
  indexed : s'.Indexed
  cleanable : s'.Cleanable
  now_eq : s'.clock.now source = s.clock.now source
  older : ∀ key, s'.HasExpired (s.clock.now source).1 key → s.HasExpired (s.clock.now source).1 key

theorem cleanups_step (hruns : ∀ n, (runs n).2.Unhooked ∧ (runs n).2.source = source)
    (hstays : ∀ n, ¬ (cleanups source runs s world n).1.Degraded) {n : Nat}
    (h : s.Drained (cleanups source runs s world n).1 source) :
    (cleanups source runs s world n).1.Cleaned source (runs n).2
      (cleanups source runs s world (n + 1)).1 := by
  have hcleaned := h.cleanable.cleanup h.indexed (runs n).1 (cleanups source runs s world n).2
    source (hruns n).1
  exact hcleaned.resolve_left (hstays (n + 1))

theorem cleanups_drained (hcleanable : s.Cleanable) (hindexed : s.Indexed)
    (hruns : ∀ n, (runs n).2.Unhooked ∧ (runs n).2.source = source)
    (hstays : ∀ n, ¬ (cleanups source runs s world n).1.Degraded) (n : Nat) :
    s.Drained (cleanups source runs s world n).1 source := by
  induction n with
  | zero => exact ⟨hindexed, hcleanable, rfl, fun _ h => h⟩
  | succ n ih =>
    have hcleaned := cleanups_step hruns hstays ih
    refine ⟨?_, hcleaned.cleanable, (hcleaned.now_eq (hruns n).2).trans ih.now_eq, fun key h => ?_⟩
    · exact ih.indexed.run _ (.command (.expiry (runs n).1 source (runs n).2))
    · exact ih.older key (hcleaned.hasExpired.mp h).2

/-- Repeated at one instant on an engine that stays up, cleanups leave no expired record. -/
theorem cleanups_drain (hcleanable : s.Cleanable) (hindexed : s.Indexed)
    (hruns : ∀ n, (runs n).2.Unhooked ∧ (runs n).2.source = source)
    (hstays : ∀ n, ¬ (cleanups source runs s world n).1.Degraded) :
    ∃ n, ∀ key, ¬ (cleanups source runs s world n).1.HasExpired (s.clock.now source).1 key := by
  classical
  by_contra hnever
  have hnever : ∀ n, ∃ key,
      (cleanups source runs s world n).1.HasExpired (s.clock.now source).1 key := by
    intro n
    by_contra hnone
    exact hnever ⟨n, fun key hkey => hnone ⟨key, hkey⟩⟩
  let left (n : Nat) : Finset Key := s.scheduledKeys.filter fun key =>
    (cleanups source runs s world n).1.HasExpired (s.clock.now source).1 key
  -- every cleanup makes this set smaller, which cannot go on forever
  have hshrinks : ∀ n, left (n + 1) ⊂ left n := by
    intro n
    have hdrained := cleanups_drained hcleanable hindexed hruns hstays n
    have hcleaned := cleanups_step hruns hstays hdrained
    obtain ⟨key, hkey⟩ := hnever n
    rw [← hdrained.now_eq] at hkey
    obtain ⟨gone, hdue, hexpired, -⟩ :=
      hcleaned.removes hdrained.cleanable hdrained.indexed hkey
    rw [hdrained.now_eq] at hexpired
    rw [Finset.ssubset_iff_of_subset]
    · refine ⟨gone, Finset.mem_filter.mpr ⟨?_, hexpired⟩, fun hmem => ?_⟩
      · exact hcleanable.mem_scheduledKeys (hdrained.older gone hexpired)
      · exact (hcleaned.hasExpired.mp (Finset.mem_filter.mp hmem).2).1 hdue
    · intro other hother
      obtain ⟨hscheduled, hlater⟩ := Finset.mem_filter.mp hother
      exact Finset.mem_filter.mpr ⟨hscheduled, (hcleaned.hasExpired.mp hlater).2⟩
  have hcount : ∀ n, (left n).card + n ≤ (left 0).card := by
    intro n
    induction n with
    | zero => exact le_refl _
    | succ n ih =>
      have hless := Finset.card_lt_card (hshrinks n)
      omega
  have hlast := hcount ((left 0).card + 1)
  omega

end

end DatabaseState

/-- A cleanup publishes only the expiry of records it collected. -/
theorem Command.expiry_published {s : DatabaseState} {world : σ} {reserve : Option (ReserveFunc σ)}
    {frame : CommitFrame}
    (h : frame ∈ ((Command.expiry reserve source faults).turn s world).published) :
    ∀ effect ∈ frame.effects, effect.kind = .expire ∧
      effect.key ∈ (s.due source).map ExpiryCandidate.key := by
  have hframe : (Command.expiry reserve source faults).frame s world = some frame := by
    unfold Turn.published at h
    split at h
    · cases h
    · exact Option.mem_toList.mp h
  unfold Command.frame at hframe
  split at hframe
  next batch single revision hbatch hassigned =>
    simp only [Command.batch] at hbatch
    split at hbatch
    · cases hbatch
    · obtain ⟨rfl, rfl⟩ := Prod.mk.inj (Option.some.inj hbatch)
      obtain rfl := Option.some.inj hframe
      intro effect heffect
      obtain ⟨mutation, hmutation, rfl⟩ := List.mem_map.mp heffect
      obtain ⟨c, hc, rfl⟩ := List.mem_map.mp hmutation
      exact ⟨rfl, List.mem_map_of_mem hc⟩
  · cases hframe

/-- Expiry cleanup is sound, stays within the limits, makes progress and drains.

The engine was opened and has served any requests, in none of which a hook of the predicate phase
interfered with a cleanup, and it is ready. A cleanup whose storage works does not degrade the
engine; progress and draining only need that. -/
theorem cleanup_sound_and_drains {σ : Type} {config : Config} {s₀ s : DatabaseState}
    (hopen : newState config = .ok s₀) (hcurrent : config.currentRevision < 2 ^ 64)
    {world₀ world : σ} {rs : List (Request σ)} (hrs : ∀ r ∈ rs, r.Unhooked)
    (hreached : (live s₀ world₀ rs).2 = (s, world)) (hready : s.lifecycle = .ready)
    (source : Time) :
    (∀ reserve faults, ∀ frame ∈ ((Command.expiry reserve source faults).turn s world).published,
      ∀ effect ∈ frame.effects, effect.kind = .expire ∧
        s.HasExpired (s.clock.now source).1 effect.key) ∧
    (∀ m ∈ (expiryBatch (s.due source)).mutations, ∃ record, s.records m.key = some record ∧
      record.revision = m.condition.expectedRevision ∧
      recordExpired record (s.clock.now source).1 = true) ∧
    ((expiryBatch (s.due source)).mutations.length ≤ s.limits.maxBatchOperations ∧
      (s.due source ≠ [] →
        32 + ((expiryBatch (s.due source)).mutations.map Mutation.bytes).sum
          ≤ s.limits.commitBytes)) ∧
    (∀ reserve faults revision log log', faults.Unhooked →
      s.StorageWorks reserve world source faults revision log log' →
      ¬ ((Command.expiry reserve source faults).run s world).2.1.Degraded) ∧
    (∀ reserve faults, faults.Unhooked →
      ¬ ((Command.expiry reserve source faults).run s world).2.1.Degraded →
      (∃ key, s.HasExpired (s.clock.now source).1 key) →
      ∃ key, s.HasExpired (s.clock.now source).1 key ∧
        ((Command.expiry reserve source faults).run s world).2.1.records key = none) ∧
    ∀ runs : Nat → Option (ReserveFunc σ) × ExecuteFaults,
      (∀ n, (runs n).2.Unhooked ∧ (runs n).2.source = source) →
      (∀ n, ¬ (cleanups source runs s world n).1.Degraded) →
      ∃ n, ∀ key, ¬ (cleanups source runs s world n).1.HasExpired (s.clock.now source).1 key := by
  have hindexed₀ := indexed_of_newState hopen hcurrent
  have hindexed : s.Indexed := by
    have h := hindexed₀.live world₀ rs
    rwa [hreached] at h
  have hcleanable : s.Cleanable := by
    have h := Cleanable.live (.inr (cleanable_of_newState hopen)) hindexed₀ world₀ hrs
    rw [hreached] at h
    refine h.resolve_left fun hdegraded => ?_
    rw [Degraded, hready] at hdegraded
    cases hdegraded
  have hcollected := due_collected s source
  refine ⟨?_, ?_, ⟨?_, ?_⟩, ?_, ?_, ?_⟩
  · intro reserve faults frame hframe effect heffect
    obtain ⟨hkind, hkey⟩ := Command.expiry_published hframe effect heffect
    exact ⟨hkind, due_hasExpired hkey⟩
  · intro m hm
    obtain ⟨c, hc, rfl⟩ := List.mem_map.mp hm
    exact hcollected.current c hc
  · simpa [expiryBatch] using hcollected.operations
  · intro hdue
    have hvalid := hcleanable.batch_valid hindexed hdue 0
    have hbytes := hvalid.bytes
    rw [hindexed.limits.commitBytes_eq]
    omega
  · intro reserve faults revision log log' hfaults hworks hdegraded
    have hlifecycle := hcleanable.lifecycle_of_works hindexed hfaults hworks
    rw [hready] at hlifecycle
    exact absurd (hlifecycle.symm.trans hdegraded) (by decide)
  · rintro reserve faults hfaults hstays ⟨key, hexpired⟩
    have hcleaned := (hcleanable.cleanup hindexed reserve world source hfaults).resolve_left hstays
    obtain ⟨gone, -, hgone, hnone⟩ := hcleaned.removes hcleanable hindexed hexpired
    exact ⟨gone, hgone, hnone⟩
  · intro runs hruns hstays
    exact cleanups_drain hcleanable hindexed hruns hstays

/-- A new database in which three records were put, of which two expire at 5 and 7; the third one is
then put again and expires at 20. -/
def sampleDatedPuts : List (Request Unit) :=
  [.command (.mutation none
    ⟨.durable, [], [newPutMutation [97] [1] ⟨.any, 0⟩ none,
      newPutMutation [98] [2] ⟨.any, 0⟩ (some 5), newPutMutation [99] [3] ⟨.any, 0⟩ (some 7)]⟩
    .batch { source := 0 }),
  .command (.mutation none
    ⟨.memory, [], [newPutMutation [97] [4] ⟨.revision, 1⟩ (some 20)]⟩ .put { source := 1 })]

def sampleDated : DatabaseState := (live sampleEngine () sampleDatedPuts).2.1

theorem sampleDatedPuts_unhooked : ∀ r ∈ sampleDatedPuts, r.Unhooked := by
  simp [sampleDatedPuts, Request.Unhooked]

theorem expiry_schedule_exact_sampleDated :
    ¬ sampleDated.Degraded ∧ sampleDated.schedule.Exact sampleDated.records ∧
      sampleDated.schedule.expiries.length = 3 ∧ (sampleDated.schedule.item 0).at_ = 5 := by
  have hactive : ¬ sampleDated.Degraded := by
    have hready : sampleDated.lifecycle = .ready := rfl
    rw [Degraded, hready]
    decide
  exact ⟨hactive,
    expiry_schedule_exact sampleEngine_opens (by decide) () sampleDatedPuts_unhooked hactive,
    by decide +kernel, by decide +kernel⟩

/-- A cleanup at 10 removes one of the two records that have expired, and nothing else. -/
theorem cleanup_sound_and_drains_sampleDated :
    sampleDated.HasExpired 10 [98] ∧ sampleDated.HasExpired 10 [99] ∧
      ¬ sampleDated.HasExpired 10 [97] ∧
      (∀ frame ∈ ((Command.expiry none 10 { source := 10 }).turn sampleDated ()).published,
        ∀ effect ∈ frame.effects, effect.kind = .expire ∧ sampleDated.HasExpired 10 effect.key) ∧
      ∃ key, sampleDated.HasExpired 10 key ∧
        ((Command.expiry none 10 { source := 10 }).run sampleDated ()).2.1.records key = none := by
  have hreached : (live sampleEngine () sampleDatedPuts).2 = (sampleDated, ()) := rfl
  have hexpired : sampleDated.HasExpired 10 [98] := ⟨⟨[98], [2], 1, some 5⟩, rfl, rfl⟩
  have hstays : ¬ ((Command.expiry none 10 { source := 10 }).run sampleDated ()).2.1.Degraded := by
    have hready : ((Command.expiry none 10 { source := 10 }).run sampleDated ()).2.1.lifecycle
        = .ready := by decide +kernel
    rw [Degraded, hready]
    decide
  have hlive : ¬ sampleDated.HasExpired 10 [97] := by
    rintro ⟨record, hrecord, hgone⟩
    obtain rfl : ⟨[97], [4], 2, some 20⟩ = record := Option.some.inj hrecord
    cases hgone
  obtain ⟨hsound, -, -, -, hprogress, -⟩ :=
    cleanup_sound_and_drains sampleEngine_opens (by decide) sampleDatedPuts_unhooked hreached rfl 10
  exact ⟨hexpired, ⟨⟨[99], [3], 1, some 7⟩, rfl, rfl⟩, hlive, hsound none { source := 10 },
    hprogress none { source := 10 } ⟨rfl, rfl, rfl, rfl⟩ hstays ⟨[98], hexpired⟩⟩

end GapDB
