import GapDB.Engine.Cleanup
import GapDB.Engine.Lifetime

/-!
# The books of the engine and its log

The engine and its log both keep a current and a durable revision. The engine compares them after
every append, barrier and switch of logs (`writer.go`, `snapshot.go`, `admin.go`). The two agree as
long as every commit in the log was published, and only a commit that was interrupted in between
can set them apart.
-/

namespace GapDB

open Storelib DatabaseState

variable {s' : DatabaseState} {result : Except Error CommitResult}

/-! ### The checks -/

namespace DatabaseState

/-- One of the two checks in `execute` fails. -/
def commitEvidenceFails (s : DatabaseState) (batch : Batch) (single : SingleOperation)
    (revision : Nat) (faults : ExecuteFaults) : Bool :=
  if revision = 0 ∨ revision ≤ s.current then false
  else
    match s.log.append (commitFrame batch single revision) faults.writes with
    | (.ok (), log) =>
      if log.durableThrough < s.durableThrough ∨ revision < log.durableThrough then true
      else if batch.ack = .durable then
        match log.barrier faults.barrier with
        | (.ok (), log) => log.durableThrough ≠ revision
        | _ => false
      else false
    | _ => false

def executeEvidenceFails {σ : Type} (reserve : Option (ReserveFunc σ)) (s : DatabaseState)
    (world : σ) (batch : Batch) (single : SingleOperation) (faults : ExecuteFaults) : Bool :=
  match s.prepare reserve world batch single faults with
  | (⟨.ok revision, _, s⟩, _) => s.commitEvidenceFails batch single revision faults
  | _ => false

/-- One of the two checks in `executeSnapshot` fails. -/
def snapshotEvidenceFails {σ : Type} (install : SnapshotInstaller σ) (s : DatabaseState) (world : σ)
    (faults : SnapshotFaults) : Bool :=
  match s.log.barrier faults.barrier with
  | (.ok (), log) =>
    if log.durableThrough ≠ s.current then true
    else
      match install (s.snapshotCut faults) world with
      | (.ok (some next), _) => next.durableThrough ≠ s.current
      | _ => false
  | _ => false

/-- The check in `executeDurableAdmin` fails. -/
def adminEvidenceFails (s : DatabaseState) (barrier : Option WAL.BarrierFault) : Bool :=
  match s.log.barrier barrier with
  | (.ok (), log) => log.durableThrough ≠ s.current
  | _ => false

section

variable {σ : Type} {s : DatabaseState} {world : σ}

/-- A commit whose evidence fails says so and takes the engine out of service. -/
theorem commit_of_evidenceFails {batch : Batch} {single : SingleOperation} {revision : Nat}
    {faults : ExecuteFaults} (h : s.commitEvidenceFails batch single revision faults = true) :
    ∃ stage ∈ ["wal_durability_evidence", "wal_barrier_evidence"], ∃ log,
      s.commit batch single revision faults = { s with log }.failWith
        (storageDegraded stage s.current s.durableThrough true none) true := by
  unfold commitEvidenceFails at h
  unfold commit makeDurable
  split at h
  · cases h
  next hrevision =>
  rw [if_neg hrevision]
  generalize s.log.append (commitFrame batch single revision) faults.writes = appended at h ⊢
  obtain ⟨outcome, log⟩ := appended
  cases outcome with
  | panic | error e => cases h
  | ok u =>
    simp only at h ⊢
    split at h
    · next hclaims => exact ⟨_, List.mem_cons_self, log, if_pos hclaims⟩
    next hclaims =>
    split at h
    · next hack =>
      rw [if_neg hclaims, if_pos hack]
      generalize log.barrier faults.barrier = barriered at h ⊢
      obtain ⟨outcome, log'⟩ := barriered
      cases outcome with
      | panic | error e => cases h
      | ok u => exact ⟨_, by simp, log', if_pos (by simpa using h)⟩
    · cases h

theorem executeSnapshot_of_evidenceFails {install : SnapshotInstaller σ} {faults : SnapshotFaults}
    (h : s.snapshotEvidenceFails install world faults = true) :
    ∃ stage ∈ ["snapshot_wal_barrier_evidence", "snapshot_new_wal_evidence"], ∃ durable applied,
      (s.executeSnapshot install world faults).1
          = ({}, some (storageDegraded stage s.current durable applied none)) ∧
        (s.executeSnapshot install world faults).2.1.Degraded := by
  unfold snapshotEvidenceFails at h
  unfold executeSnapshot
  generalize s.log.barrier faults.barrier = barriered at h ⊢
  obtain ⟨outcome, log⟩ := barriered
  cases outcome with
  | panic | error e => cases h
  | ok u =>
    simp only at h ⊢
    split at h
    · next hbehind => exact ⟨_, List.mem_cons_self, _, _, by rw [if_pos hbehind]; exact ⟨rfl, rfl⟩⟩
    next hlevel =>
    split at h
    · next next world' hinstall =>
      unfold snapshotCut at hinstall
      rw [if_neg hlevel, hinstall]
      simp only
      rw [if_pos (by simpa using h)]
      exact ⟨_, by simp, _, _, rfl, rfl⟩
    · cases h

theorem executeDurableAdmin_of_evidenceFails (operation : DurableAdminOperation σ)
    {barrier : Option WAL.BarrierFault} (h : s.adminEvidenceFails barrier = true) :
    ∃ durable, (s.executeDurableAdmin operation world barrier).1
        = some (storageDegraded "admin_wal_barrier_evidence" s.current durable false none) ∧
      (s.executeDurableAdmin operation world barrier).2.1.Degraded := by
  unfold adminEvidenceFails at h
  unfold executeDurableAdmin
  generalize s.log.barrier barrier = barriered at h ⊢
  obtain ⟨outcome, log⟩ := barriered
  cases outcome with
  | panic | error e => cases h
  | ok u =>
    simp only at h ⊢
    rw [if_pos (by simpa using h)]
    exact ⟨_, rfl, rfl⟩

end

end DatabaseState

namespace Request

variable {σ : Type}

/-- A check of the durability evidence fails while the writer serves the request. -/
def evidenceFails (s : DatabaseState) (world : σ) : Request σ → Bool
  | .command (.mutation reserve batch single faults) =>
    s.executeEvidenceFails reserve world batch single faults
  | .command (.expiry reserve source faults) =>
    if s.due source = [] then false
    else (s.cleaning source).executeEvidenceFails reserve world (expiryBatch (s.due source)) .expiry
      faults
  | .command (.durableAdmin _ barrier) => s.adminEvidenceFails barrier
  | .snapshot install faults => s.snapshotEvidenceFails install world faults
  | _ => false

/-- Storage fails under the commit of the request, or its map apply is interrupted. -/
def interrupts : Request σ → Prop
  | .command (.mutation _ _ _ faults) | .command (.expiry _ _ faults) => ¬ faults.Stores
  | _ => False

end Request

theorem DatabaseState.execute_of_evidenceFails {σ : Type} {reserve : Option (ReserveFunc σ)}
    {s : DatabaseState} {world : σ} {batch : Batch} {single : SingleOperation}
    {faults : ExecuteFaults} (h : s.executeEvidenceFails reserve world batch single faults = true)
    (id : String) : (recovered (s.execute reserve world batch single faults).1 id).2.Degraded := by
  unfold executeEvidenceFails at h
  unfold execute
  split at h
  · next revision applied s₁ world' hprepare =>
    obtain ⟨stage, -, log, hcommit⟩ := commit_of_evidenceFails h
    simp only [hprepare, hcommit]
    rfl
  · cases h

/-- A request whose evidence fails leaves an engine that takes no more commits. -/
theorem Request.degraded_of_evidenceFails {σ : Type} {s : DatabaseState} {world : σ}
    {r : Request σ} (h : r.evidenceFails s world = true) : (r.run s world).2.1.Degraded := by
  cases r with
  | shutdown => cases h
  | snapshot =>
    obtain ⟨_, _, _, _, _, hdegraded⟩ := executeSnapshot_of_evidenceFails h
    exact hdegraded
  | command c =>
    cases c with
    | mutation => exact execute_of_evidenceFails h _
    | expiry reserve source faults =>
      simp only [evidenceFails] at h
      split at h
      · cases h
      next hdue =>
      simp only [run, Command.run]
      rw [executeDueExpiriesSafely_eq, if_neg hdue]
      exact execute_of_evidenceFails h _
    | durableAdmin operation =>
      obtain ⟨_, _, hdegraded⟩ := executeDurableAdmin_of_evidenceFails operation h
      exact hdegraded
    | register | unregister | retire | read | markAdminDegraded | drain => cases h

/-! ### What a request does to the books -/

/-- What an acknowledgement says about durability. -/
def MutationResult.Vouched (result : MutationResult) : Prop :=
  (result.ack = .memory → result.durableThroughRevision ≤ result.revision) ∧
    (result.ack = .durable → result.durableThroughRevision = result.revision)

namespace DatabaseState

/-- The books after a request that may have brought a commit. -/
structure Settles (s : DatabaseState) (interrupted : Prop) (frame : Option CommitFrame)
    (reply : Reply) (s' : DatabaseState) : Prop where
  tip : s.log.lastRevision = s.current → s'.log.lastRevision = s'.current ∨
    interrupted ∧ ∃ f, frame = some f ∧ s'.current < f.revision
  durable : ¬ s'.Degraded → s.durableThrough ≤ s'.durableThrough
  vouched : ∀ result, reply = .commit (.ok result) → result.result.Vouched

section

variable {s s' : DatabaseState} {interrupted : Prop} {frame : Option CommitFrame} {reply : Reply}

/-- A request that leaves the end of the log and the current revision where they are. -/
theorem Settles.of_quiet (h : s.Moves s' .quiet)
    (hdurable : ¬ s'.Degraded → s.durableThrough ≤ s'.durableThrough)
    (hreply : ∀ result, reply ≠ .commit (.ok result)) : s.Settles interrupted frame reply s' := by
  refine ⟨fun htip => .inl ?_, hdurable, fun result heq => absurd heq (hreply result)⟩
  cases h with
  | quiet same ages advances extends_ lastRevision healthy => rw [lastRevision, htip, same.current]

theorem Settles.of_eq {s₀ : DatabaseState} (h : s.Settles interrupted frame reply s')
    (hlog : s.log = s₀.log) (hcurrent : s.current = s₀.current)
    (hdurable : s.durableThrough = s₀.durableThrough) :
    s₀.Settles interrupted frame reply s' :=
  ⟨hlog ▸ hcurrent ▸ h.tip, hdurable ▸ h.durable, h.vouched⟩

end

/-! ### The commit step -/

section

variable {s s' : DatabaseState} {batch : Batch} {single : SingleOperation} {revision : Nat}
  {faults : ExecuteFaults}

/-- A log that has the commit and does not claim to be further is evidence enough. -/
theorem not_evidenceFails (h : s.Healthy) (hl : s.log.limits.Valid) :
    s.commitEvidenceFails batch single revision faults = false := by
  unfold commitEvidenceFails
  split
  · rfl
  next hrevision =>
  have hcases := s.log.append_cases hl (commitFrame batch single revision) faults.writes
  generalize s.log.append (commitFrame batch single revision) faults.writes = result at hcases ⊢
  obtain ⟨outcome, log⟩ := result
  cases hcases with
  | refused | broke | panicked => rfl
  | done accepts storage wrote =>
    have hknown := h.known
    have hle := h.le
    simp only
    rw [if_neg (by omega)]
    split
    · have hbarrier := WAL.barrier_cases
        { s.log with storage, lastRevision := revision, pending := true } faults.barrier
      simp only [commitFrame] at hbarrier ⊢
      generalize WAL.barrier { s.log with storage, lastRevision := revision, pending := true }
        faults.barrier = barriered at hbarrier ⊢
      obtain ⟨outcome, log⟩ := barriered
      cases hbarrier with
      | refused | broke | panicked => rfl
      | done => simp
    · rfl

theorem commit_of_stores (h : s.Healthy) (hl : s.log.limits.Valid) (hfaults : faults.Stores)
    (hrevision : s.current < revision)
    (haccepts : s.log.Accepts (commitFrame batch single revision)) (id : String) :
    ∃ result, (recovered (s.commit batch single revision faults) id).1 = .ok result := by
  obtain ⟨result, hok⟩ := commit_ok h hl hfaults hrevision haccepts
  exact ⟨result, by rw [recovered, hok]⟩

/-- A commit that got into the log is published unless it was interrupted. -/
theorem Commits.settles {result : Except Error CommitResult}
    (hcommits : Commits s batch single revision result s') (h : s.Healthy)
    (hstores : faults.Stores → s.current < revision →
      s.log.Accepts (commitFrame batch single revision) → ∃ r, result = .ok r) :
    s.Settles (¬ faults.Stores) (some (commitFrame batch single revision)) (.commit result) s' := by
  cases hcommits with
  | refused e => exact ⟨.inl, fun hd => absurd rfl hd, fun r hr => by cases hr⟩
  | torn e log accepted accepts =>
    have hlt : s.current < revision := h.tip ▸ accepts.increasing
    refine ⟨fun _ => .inr ⟨fun hs => ?_, _, rfl, hlt⟩, fun hd => absurd rfl hd,
      fun r hr => by cases hr⟩
    obtain ⟨r, hr⟩ := hstores hs hlt accepts
    cases hr
  | unpublished e log applied logged =>
    refine ⟨fun _ => .inr ⟨fun hs => ?_, _, rfl, logged.increasing⟩, fun hd => absurd rfl hd,
      fun r hr => by cases hr⟩
    obtain ⟨r, hr⟩ := hstores hs logged.increasing logged.accepts
    cases hr
  | unacknowledged e log durableThrough applied logged evident =>
    rw [publish_eq]
    exact ⟨fun _ => .inl logged.lastRevision, fun hd => absurd rfl hd, fun r hr => by cases hr⟩
  | committed log durableThrough logged evident events published =>
    rw [publish_eq]
    refine ⟨fun _ => .inl logged.lastRevision, fun _ => le_max_left _ _, fun r hr => ?_⟩
    cases hr
    exact ⟨fun _ => evident.le, fun hack => (evident.durable hack).2⟩

end

/-- Up to the allocation of a revision the books stay as they are. -/
structure Prepares (s : DatabaseState) (outcome : Outcome Error Nat) (s' : DatabaseState) :
    Prop where
  log : s'.log = s.log
  current : s'.current = s.current
  durableThrough : s'.durableThrough = s.durableThrough
  active : ∀ revision, outcome = .ok revision → ¬ s.Degraded

theorem prepare_prepares {σ : Type} (reserve : Option (ReserveFunc σ)) (s : DatabaseState)
    (world : σ) (batch : Batch) (single : SingleOperation) (faults : ExecuteFaults) :
    s.Prepares (s.prepare reserve world batch single faults).1.outcome
      (s.prepare reserve world batch single faults).1.state := by
  unfold prepare
  by_cases hlifecycle : s.lifecycle ≠ .ready ∧ s.lifecycle ≠ .draining
  · rw [if_pos hlifecycle]
    exact ⟨rfl, rfl, rfl, fun revision h => by cases h⟩
  have hactive : ¬ s.Degraded := by
    intro hd
    refine hlifecycle ⟨?_, ?_⟩ <;> rw [hd] <;> decide
  rw [if_neg hlifecycle]
  simp only
  cases validateBatchAt batch s.limits (s.clock.now faults.source).1 with
  | error e => exact ⟨rfl, rfl, rfl, fun revision h => by cases h⟩
  | ok u =>
  simp only
  cases predicatePhase { s with clock := (s.clock.now faults.source).2 } batch single
      (s.clock.now faults.source).1 faults with
  | error | panic => exact ⟨rfl, rfl, rfl, fun revision h => by cases h⟩
  | ok u =>
    simp only
    rw [allocate_clock]
    have hstate := s.allocate_state reserve world
    generalize s.allocate reserve world = result at hstate
    obtain ⟨outcome, s₁, world'⟩ := result
    simp only at hstate ⊢
    rw [hstate]
    cases outcome with
    | error | panic => exact ⟨rfl, rfl, rfl, fun revision h => by cases h⟩
    | ok revision => exact ⟨rfl, rfl, rfl, fun _ _ => hactive⟩

theorem execute_settles {σ : Type} (reserve : Option (ReserveFunc σ)) {s : DatabaseState}
    (hl : s.log.limits.Valid) (hhealthy : ¬ s.Degraded → s.Healthy) (world : σ) (batch : Batch)
    (single : SingleOperation) (faults : ExecuteFaults) (id : String) :
    s.executeEvidenceFails reserve world batch single faults = false ∧
      s.Settles (¬ faults.Stores)
        ((s.assignedRevision reserve world batch single faults).map (commitFrame batch single))
        (.commit (recovered (s.execute reserve world batch single faults).1 id).1)
        (recovered (s.execute reserve world batch single faults).1 id).2 := by
  have hprepares := prepare_prepares reserve s world batch single faults
  unfold executeEvidenceFails assignedRevision execute
  generalize s.prepare reserve world batch single faults = prepared at hprepares ⊢
  obtain ⟨⟨outcome, applied, s₁⟩, world'⟩ := prepared
  obtain ⟨hlog, hcurrent, hdurable, hactive⟩ := hprepares
  simp only at hlog hcurrent hdurable hactive
  cases outcome with
  | error e | panic =>
    refine ⟨rfl, fun htip => .inl ?_, fun _ => hdurable.ge, fun r hr => by cases hr⟩
    exact (congrArg WAL.lastRevision hlog).trans (htip.trans hcurrent.symm)
  | ok revision =>
    have h := hhealthy (hactive revision rfl)
    have h₁ : s₁.Healthy :=
      ⟨hlog ▸ h.ready, by rw [hlog, hcurrent, h.tip], by rw [hlog, hdurable]; exact h.known,
        by rw [hlog, hcurrent]; exact h.le⟩
    have hl₁ : s₁.log.limits.Valid := hlog ▸ hl
    refine ⟨not_evidenceFails h₁ hl₁, .of_eq ?_ hlog hcurrent hdurable⟩
    exact (commit_cases faults id hl₁).settles h₁ fun hstores hlt haccepts =>
      commit_of_stores h₁ hl₁ hstores hlt haccepts id

/-! ### Snapshots and administration -/

/-- Administration that leaves the engine in service has made everything durable. -/
theorem executeDurableAdmin_durable {σ : Type} (operation : DurableAdminOperation σ)
    (s : DatabaseState) (world : σ) (barrier : Option WAL.BarrierFault)
    (hactive : ¬ (s.executeDurableAdmin operation world barrier).2.1.Degraded) :
    (s.executeDurableAdmin operation world barrier).2.1.durableThrough = s.current := by
  unfold executeDurableAdmin at hactive ⊢
  generalize s.log.barrier barrier = result at hactive ⊢
  obtain ⟨outcome, log⟩ := result
  cases outcome with
  | panic | error e => exact absurd rfl hactive
  | ok u =>
    simp only at hactive ⊢
    split at hactive
    · exact absurd rfl hactive
    next hevident =>
    rw [not_not] at hevident
    rw [if_neg (not_not.mpr hevident)]
    split at hactive
    · exact absurd rfl hactive
    · exact hevident
    · exact hevident

/-- So has a snapshot. -/
theorem Snapshots.durable {σ : Type} {install : SnapshotInstaller σ} {s s' : DatabaseState}
    {world world' : σ} {faults : SnapshotFaults} {error : Option Error}
    (h : Snapshots install s world faults error s' world') (hactive : ¬ s'.Degraded) :
    s'.durableThrough = s.current := by
  cases h with
  | unbarriered | unevident | broken => exact absurd rfl hactive
  | refused e log world' h evident | switched log next world' h evident => exact evident

end DatabaseState

/-- A barrier that succeeds makes everything in the log durable. -/
theorem WAL.Barriered.through_eq {wal wal' : WAL} (h : wal.Barriered (.ok ()) wal') :
    wal'.durableThrough = wal.lastRevision :=
  h.stable.1.durableThrough.trans h.lastRevision

/-! ### Requests -/

/-- The books before and after a request. -/
structure Request.Books {σ : Type} (r : Request σ) (s : DatabaseState) (world : σ) : Prop where
  evidence : r.evidenceFails s world = true → s.log.lastRevision ≠ s.current
  settles : s.Settles r.interrupts (r.turn s world).frame (r.run s world).1 (r.run s world).2.1

section

variable {σ : Type} {s : DatabaseState} {world : σ} {r : Request σ}

/-- Nothing that the books depend on has changed. -/
theorem Request.Books.of_same (hevidence : r.evidenceFails s world = false)
    (hlog : (r.run s world).2.1.log = s.log)
    (hcurrent : (r.run s world).2.1.current = s.current)
    (hdurable : (r.run s world).2.1.durableThrough = s.durableThrough)
    (hreply : ∀ result, (r.run s world).1 ≠ .commit (.ok result)) : r.Books s world := by
  refine ⟨by simp [hevidence], fun htip => .inl ?_, fun _ => hdurable.ge,
    fun result heq => absurd heq (hreply result)⟩
  rw [hlog, hcurrent, htip]

theorem DatabaseState.Healthy.durable_le (h : s.Healthy) : s.durableThrough ≤ s.current :=
  h.known.trans h.le

theorem Request.durableAdmin_books (hhealthy : ¬ s.Degraded → s.Healthy)
    (operation : DurableAdminOperation σ) (barrier : Option WAL.BarrierFault) :
    (Request.command (.durableAdmin operation barrier)).Books s world := by
  have hmoves := executeDurableAdmin_moves operation s world barrier
  refine ⟨fun hfails => ?_, .of_quiet hmoves (fun hd => ?_) fun result heq => by cases heq⟩
  · have hbarrier := s.log.barrier_cases barrier
    simp only [Request.evidenceFails, adminEvidenceFails] at hfails
    generalize s.log.barrier barrier = result at hbarrier hfails
    obtain ⟨outcome, log⟩ := result
    cases outcome with
    | panic | error e => cases hfails
    | ok u =>
      rw [← hbarrier.through_eq]
      simpa using hfails
  · have hbefore : ¬ s.Degraded := mt hmoves.degraded hd
    have hthrough := executeDurableAdmin_durable operation s world _ hd
    exact (hhealthy hbefore).durable_le.trans hthrough.ge

theorem Request.snapshot_books (hhealthy : ¬ s.Degraded → s.Healthy)
    {install : SnapshotInstaller σ} {faults : SnapshotFaults}
    (hfresh : (Request.snapshot install faults).Fresh s.limits) :
    (Request.snapshot install faults).Books s world := by
  have hcases := executeSnapshot_cases install s world faults
  have hmoved : (s.log.lastRevision = s.current →
      (s.executeSnapshot install world faults).2.1.log.lastRevision
        = (s.executeSnapshot install world faults).2.1.current) ∧
      s.Ages (s.executeSnapshot install world faults).2.1 := by
    rcases hcases.moves (hfresh _ _) with ⟨_, hmoves⟩ | ⟨_, hmoves⟩
    · cases hmoves with
      | quiet same ages advances extends_ lastRevision =>
        exact ⟨fun htip => lastRevision.trans (htip.trans same.current.symm), ages⟩
    · cases hmoves with
      | switched same ages advances fresh =>
        exact ⟨fun _ => fresh.lastRevision.trans same.current.symm, ages⟩
  refine ⟨fun hfails hlast => ?_, fun htip => .inl ?_, fun hd => ?_, fun result heq => by cases heq⟩
  · have hbarrier := s.log.barrier_cases faults.barrier
    simp only [Request.evidenceFails, snapshotEvidenceFails] at hfails
    generalize s.log.barrier faults.barrier = result at hbarrier hfails
    obtain ⟨outcome, log⟩ := result
    cases outcome with
    | panic | error e => cases hfails
    | ok u =>
      simp only at hfails
      rw [if_neg (by rw [hbarrier.through_eq, hlast]; simp)] at hfails
      split at hfails
      · next next world' hinstall =>
        have hthrough : next.durableThrough = s.current :=
          (hfresh _ _ next world' hinstall).durableThrough
        simp [hthrough] at hfails
      · cases hfails
  · exact hmoved.1 htip
  · exact (hhealthy (mt hmoved.2.degraded hd)).durable_le.trans (hcases.durable hd).ge

theorem Request.shutdown_books (barrier : Option WAL.BarrierFault) :
    (Request.shutdown barrier).Books s world := by
  refine ⟨(fun h => by cases h), .of_quiet (s.shutdown_moves barrier) (fun _ => ?_)
    fun result heq => by cases heq⟩
  change s.durableThrough ≤ (s.shutdown barrier).2.durableThrough
  unfold DatabaseState.shutdown
  simp only
  split <;> exact le_rfl

/-- The books after an expiry cleanup, which commits only if anything is due. -/
theorem Request.expiry_books (hl : s.log.limits.Valid) (hhealthy : ¬ s.Degraded → s.Healthy)
    (reserve : Option (ReserveFunc σ)) (source : Time) (faults : ExecuteFaults) :
    (Request.command (.expiry reserve source faults)).Books s world := by
  by_cases hdue : s.due source = []
  · have hrun : (Request.command (.expiry reserve source faults)).run s world
        = (.commit (.ok emptyResult), s.cleaning source, world) := by
      simp only [Request.run, Command.run]
      rw [executeDueExpiriesSafely_eq, if_pos hdue]
    refine ⟨by simp [Request.evidenceFails, hdue], ?_⟩
    rw [hrun]
    refine ⟨.inl, fun _ => le_rfl, fun result heq => ?_⟩
    cases heq
    simp [MutationResult.Vouched, emptyResult]
  · have hbatch : (Command.expiry reserve source faults).batch s
        = some (expiryBatch (s.due source), .expiry) := by
      simp [Command.batch, hdue]
    have hhealthy' : ¬ (s.cleaning source).Degraded → (s.cleaning source).Healthy := fun hd =>
      have hs := hhealthy hd
      ⟨hs.ready, hs.tip, hs.known, hs.le⟩
    have hl' : (s.cleaning source).log.limits.Valid := hl
    obtain ⟨hevidence, hsettles⟩ := execute_settles reserve hl' hhealthy' world
      (expiryBatch (s.due source)) .expiry faults "engine-expiry-panic"
    have hassigned : (Command.expiry reserve source faults).assigned s world
        = (s.cleaning source).assignedRevision reserve world (expiryBatch (s.due source)) .expiry
            faults := by
      have hne := hdue
      simp only [due] at hne
      simp only [Command.assigned, assignedExpiry, hne, if_false]
      rfl
    refine ⟨by simp [Request.evidenceFails, hdue, hevidence], ?_⟩
    have hframe : ((Request.command (.expiry reserve source faults)).turn s world).frame = _ :=
      Command.frame_of_batch hbatch
    rw [hframe, hassigned]
    simp only [Request.run, Command.run]
    rw [executeDueExpiriesSafely_eq, if_neg hdue]
    exact hsettles.of_eq rfl rfl rfl

/-- Every request keeps the books, and a check fails only if the log is ahead of the engine. -/
theorem Request.books {reserved : Nat} {frames left : List CommitFrame} {tail : Bytes}
    (h : s.Tracks reserved frames left tail) (world : σ) (r : Request σ)
    (hfresh : r.Fresh s.limits) : r.Books s world := by
  have hl : s.log.limits.Valid := h.logLimits ▸ h.limits
  have hhealthy : ¬ s.Degraded → s.Healthy := h.healthy.resolve_left
  cases r with
  | snapshot install faults => exact Request.snapshot_books hhealthy hfresh
  | shutdown barrier => exact Request.shutdown_books barrier
  | command c =>
    cases c with
    | mutation reserve batch single faults =>
      obtain ⟨hevidence, hsettles⟩ := execute_settles reserve hl hhealthy world batch single faults
        "engine-writer-panic"
      have hframe : (Request.turn s world (.command (.mutation reserve batch single faults))).frame
          = _ := Command.frame_of_batch rfl
      refine ⟨fun hfails => absurd (hevidence.symm.trans hfails) (by simp), ?_⟩
      rw [hframe]
      exact hsettles
    | expiry reserve source faults => exact Request.expiry_books hl hhealthy reserve source faults
    | durableAdmin operation barrier => exact Request.durableAdmin_books hhealthy operation barrier
    | register | unregister | retire | read | markAdminDegraded =>
      exact .of_same rfl rfl rfl rfl fun result heq => by cases heq
    | drain =>
      refine .of_same rfl ?_ ?_ ?_ fun result heq => by cases heq
      all_goals
        simp only [Request.run, Command.run]
        split <;> rfl

end

end GapDB
