import GapDB.Server.Recovers
import GapDB.Server.Removal
import GapDB.Server.Snapshots

/-!
# A database over its owners

Once a database has come into being its directory holds a ledger, through every command, snapshot,
compaction, shutdown, crash and power loss, and through every start of a new owner. A commit enters
the ledger when it is written to the log, and only the start of an owner can find that it is gone.
-/

namespace GapDB

open Storelib DatabaseState

/-- The machine holds the ledger: in memory while there is an owner, and in its directory. -/
def Machine.Settled (limits : Limits) (ledger : Ledger) (m : Machine) : Prop :=
  match m.process with
  | some p => ∃ active view,
    Runs limits ledger m.disk p active view
  | none => Sound limits ledger m.disk

/-- What becomes of a ledger while snapshots are taken as of the times and the commits are written:
commits are added, and others may turn out to be gone, but none that was reported as durable. -/
structure Ledger.Leads (ledger : Ledger) (times : List Time) (written durable : List CommitFrame)
    (ledger' : Ledger) : Prop where
  databaseID : ledger'.databaseID = ledger.databaseID
  cuts : ledger'.cuts ⊆ ledger.cuts ++ times
  all : ledger'.all.Sublist (ledger.all ++ written)
  safe : (ledger.safe ++ durable).Sublist ledger'.safe

theorem Ledger.Leads.trans {ledger ledger' ledger'' : Ledger} {times times' : List Time}
    {written written' durable durable' : List CommitFrame}
    (h : ledger.Leads times written durable ledger')
    (h' : ledger'.Leads times' written' durable' ledger'') :
    ledger.Leads (times ++ times') (written ++ written') (durable ++ durable') ledger'' where
  databaseID := h'.databaseID.trans h.databaseID
  cuts := by
    rw [← List.append_assoc]
    exact List.Subset.trans h'.cuts (List.append_subset.mpr
      ⟨List.subset_append_of_subset_left _ h.cuts, List.subset_append_right _ _⟩)
  all := by
    rw [← List.append_assoc]
    exact h'.all.trans (h.all.append_right _)
  safe := by
    rw [← List.append_assoc]
    exact (h.safe.append_right _).trans h'.safe

/-- What becomes of a ledger with an event. -/
def Ledger.Steps (ledger : Ledger) (m : Machine) (event : MachineEvent) (ledger' : Ledger) : Prop :=
  ledger.Leads (m.cut event).toList (m.frame event).toList (m.acknowledged event).toList ledger'

theorem Ledger.safe_sublist {ledger ledger' : Ledger} {durable : Option CommitFrame}
    (hnone : durable = none) (h : ledger'.safe = ledger.safe) :
    (ledger.safe ++ durable.toList).Sublist ledger'.safe := by
  rw [h, hnone, Option.toList_none, List.append_nil]

theorem Ledger.Steps.refl {m : Machine} {event : MachineEvent} (hnone : m.acknowledged event = none)
    (ledger : Ledger) : ledger.Steps m event ledger :=
  ⟨rfl, List.subset_append_left _ _, List.sublist_append_left _ _, Ledger.safe_sublist hnone rfl⟩

/-- Before it is reported as durable, a commit was published and the log synced. -/
theorem Turn.Moved.of_durable {t : Turn} {move : Move} {frame : CommitFrame} (h : t.Moved move)
    (hdurable : t.durable = some frame) :
    move = .published frame ∧ ¬ t.after.Degraded ∧ t.after.log.Stable := by
  unfold Turn.durable at hdurable
  split at hdurable
  · next result hreply =>
    split at hdurable
    · next hack =>
      rcases h.answers with ⟨_, hnone, _⟩ | ⟨batch, single, assigned, result', _, hreply', hframe,
        hanswers⟩
      · cases hnone.symm.trans hdurable
      · rw [hreply, Reply.commit.injEq] at hreply'
        subst hreply'
        cases hanswers with
        | committed revision durableThrough events durable active admitted =>
          cases hframe.symm.trans hdurable
          exact ⟨rfl, active, durable hack⟩
    · cases hdurable
  · cases hdurable

section

variable {limits : Limits} {queueCapacity : Int} {ledger : Ledger} {disk disk' : Disk}
  {p p' : Process} {active : Manifest} {view : View} {last : Nat}

/-! ### Commands -/

/-- A commit that is written follows the others, since an owner that left one unpublished writes no
more. -/
theorem Holds.all_after {t : Turn} {move : Move} (reserved : Nat)
    (h : Holds limits ledger t.before active view) (hmoved : t.Moved move) :
    (ledger.after move reserved).all <+: ledger.all ++ t.frame.toList := by
  have hmoves := hmoved.moves
  have hpending : ¬ t.before.Degraded → ledger.all = ledger.commits := by
    intro hactive
    rw [Ledger.all, h.clean.resolve_left hactive, List.append_nil]
  cases hmoves with
  | quiet => exact List.prefix_append _ _
  | switched => exact List.nil_prefix
  | torn frame accepted active =>
    rw [hpending active, hmoved.frame_of_torn]
    show ledger.commits ++ (if accepted = frame.bytes then [frame] else []) <+: _ ++ [frame]
    rw [List.prefix_append_right_inj]
    split
    · exact List.prefix_rfl
    · exact List.nil_prefix
  | published frame active =>
    rw [hpending active, hmoved.frame_of_published]
    show (ledger.commits ++ [frame]) ++ [] <+: ledger.commits ++ [frame]
    rw [List.append_nil]

theorem DatabaseState.Move.prefix_frames {move : Move} (h : move ≠ .switched)
    (commits : List CommitFrame) : commits <+: move.frames commits := by
  cases move with
  | published frame => exact List.prefix_append _ _
  | quiet | torn => exact List.prefix_rfl
  | switched => exact absurd rfl h

theorem through_le_of_planCompaction {expectedID : DatabaseID} {through : Nat}
    {directories : List Bytes} {fault : Option Fault} {plan : CompactionPlan}
    (h : planCompaction active expectedID through directories fault disk = .ok plan) :
    through ≤ active.snapshotRevision := by
  unfold planCompaction at h
  split at h
  · cases h
  split at h
  · cases h
  · next hle => exact not_lt.mp hle

section

variable (h : Runs limits ledger disk p active view)

include h

theorem Runs.served (howned : p.engine.Owning (p.world disk) last)
    (work : Work) :
    ∃ ledger', Machine.Settled limits ledger' (p.step limits disk (.work work)) ∧
      ledger.Steps ⟨disk, some p⟩ (.work work) ledger' := by
  obtain ⟨move, hmoved, hswitched, hruns⟩ := h.serve howned work
  have hall :=
    (h.holds.all_after (p.serve disk work).1.identity.reservedRevisionEnd hmoved).sublist
  cases hdurable : (work.command.turn p.engine (p.world disk)).durable with
  | none =>
    refine ⟨_, ⟨_, _, hruns⟩, rfl, List.subset_append_left _ _, hall,
      Ledger.safe_sublist hdurable ?_⟩
    obtain ⟨rest, hrest⟩ := Move.prefix_frames hswitched ledger.commits
    rw [Ledger.safe, Ledger.after, ← hrest, List.take_append_of_le_length h.holds.safe]
    rfl
  | some frame =>
    obtain ⟨rfl, hactive, hstable⟩ := hmoved.of_durable hdurable
    refine ⟨_, ⟨_, _, hruns.harden hactive hstable⟩, rfl,
      List.subset_append_left _ _, hall, ?_⟩
    rw [show Machine.acknowledged ⟨disk, some p⟩ (.work work) = some frame from hdurable,
      Ledger.safe, Ledger.safe, List.take_length]
    exact (List.take_sublist _ _).append_right _

/-! ### Shutdown -/

theorem Runs.closed (howned : p.engine.Owning (p.world disk) last)
    (barrier : Option WAL.BarrierFault) :
    Sound limits ledger (disk.store (p.engine.shutdown barrier).2.log.path
      (p.engine.shutdown barrier).2.log.storage.file) := by
  have hkin := shutdown_kin p.engine barrier
  have hmoves := shutdown_moves p.engine barrier
  have hindexed : (p.engine.shutdown barrier).2.Indexed := h.indexed.run () (.shutdown barrier)
  have hruns := h.stored { p with engine := (p.engine.shutdown barrier).2 } hmoves (by simp) le_rfl
    (fun a ha => (h.holds.tracks.allocator a (hkin.allocator ▸ ha)).2) hindexed h.logs.older
    (fun _ hv => hv)
    (fun v hv => (h.others v hv).imp_right fun hother => ⟨hmoves.degraded hother.1, hother.2⟩)
    h.databaseID h.reserved ⟨h.steers.manifest.imp_right fun ⟨htask, hgeneration, hdegraded⟩ =>
      ⟨htask, hgeneration, hmoves.degraded hdegraded⟩, h.steers.compaction⟩
  refine hruns.sound (howned.reserved.keeps ?_)
  rw [hkin.path]
  exact howned.store _

/-! ### Tasks of the controller -/

/-- A request that passes the check of the controller has seen the active manifest. -/
theorem Runs.manifest_of_check {databaseID : Bytes} {generation revision : Nat}
    (hcheck : p.check databaseID generation revision) :
    p.manifest = active ∧ p.generation ≤ active.generation := by
  refine h.steers.manifest.resolve_right ?_
  rintro ⟨_, hlt, _⟩
  simp only [Process.check, decide_eq_true_eq] at hcheck
  omega

theorem Runs.compacting (hspares : Spares disk disk' active)
    (hmanifest : p.manifest = active ∧ p.generation ≤ active.generation) {through : Nat}
    (hthrough : through ≤ active.snapshotRevision) (removed : Bool) (remaining : List Bytes) :
    Runs limits ledger disk' { p with task := .compaction through removed remaining } active
      view := by
  refine h.spares hspares (.inl rfl) rfl (by simp) ⟨.inl hmanifest, ?_⟩
  rintro _ _ _ ⟨⟩
  exact hthrough

theorem Runs.removeTarget {through : Nat} {removed : Bool} {name : Bytes} {remaining : List Bytes}
    (htask : p.task = .compaction through removed (name :: remaining)) (fault : Option Fault) :
    (p.step limits disk (.removeTarget fault)).Settled limits ledger := by
  obtain ⟨hmanifest, hthrough⟩ := h.active_of_compaction htask
  have hspares : Spares disk (GapDB.removeTarget p.manifest through removed name fault disk).2
      active := by
    rw [hmanifest.1]
    exact removeTarget_spares h.covers.encodable hthrough removed name fault disk
  simp only [Process.step, htask]
  generalize GapDB.removeTarget p.manifest through removed name fault disk = result at hspares
  obtain ⟨outcome, disk'⟩ := result
  cases outcome with
  | ok u => exact ⟨_, _, h.compacting hspares hmanifest hthrough true remaining⟩
  | error | panic => exact ⟨_, _, h.endCompaction htask hspares _ _⟩

/-- Whatever happens to a running owner, no commit is lost. -/
theorem Runs.step (howned : p.engine.Owning (p.world disk) last) (event : MachineEvent) :
    ∃ ledger', (p.step limits disk event).Settled limits ledger' ∧
      ledger.Steps ⟨disk, some p⟩ event ledger' := by
  have hkept : ∀ (event : MachineEvent) (m : Machine), m.Settled limits ledger →
      Machine.acknowledged ⟨disk, some p⟩ event = none → ∃ ledger', m.Settled limits ledger' ∧
        ledger.Steps ⟨disk, some p⟩ event ledger' :=
    fun _ _ hm hnone => ⟨ledger, hm, .refl hnone ledger⟩
  have hsame : Machine.Settled limits ledger ⟨disk, some p⟩ := ⟨_, _, h⟩
  cases event with
  | work work => exact h.served howned work
  | start faults => exact hkept _ _ hsame rfl
  | submitSnapshot databaseID generation revision =>
    simp only [Process.step]
    repeat' split
    · next hready =>
      have hactive : ¬ p.engine.Degraded := by simp [Degraded, hready.1]
      exact hkept _ _ ⟨_, _, h.spares (.refl disk active) (.inl rfl) rfl (fun _ _ => .inr hactive)
        ⟨.inl (h.steers.manifest.resolve_right fun hother => hactive hother.2.2), by simp⟩⟩ rfl
    all_goals exact hkept _ _ hsame rfl
  | runSnapshot run =>
    simp only [Process.step]
    split
    · next expected htask =>
      exact ⟨_, h.runSnapshot htask run, rfl, by simp [Ledger.asOf, Machine.cut, htask],
        List.sublist_append_left _ _, Ledger.safe_sublist rfl rfl⟩
    · exact hkept _ _ hsame rfl
  | planCompaction databaseID generation revision through directories fault =>
    simp only [Process.step]
    split
    · next hidle =>
      split
      · next hcheck =>
        have hmanifest := h.manifest_of_check hcheck
        split
        · next plan hplan =>
          rw [hmanifest.1] at hplan
          exact hkept _ _ ⟨_, _, h.compacting (.refl disk active) hmanifest
            (through_le_of_planCompaction hplan) false plan.remove⟩ rfl
        · exact hkept _ _ hsame rfl
        · refine hkept _ _ ⟨_, _, h.spares (.refl disk active) (.inr rfl) rfl ?_
            ⟨.inl hmanifest, h.steers.compaction⟩⟩ rfl
          exact fun _ htask => .inl htask
      · exact hkept _ _ hsame rfl
    · exact hkept _ _ hsame rfl
  | removeTarget fault =>
    by_cases htask : ∃ through removed name remaining,
        p.task = .compaction through removed (name :: remaining)
    · obtain ⟨through, removed, name, remaining, htask⟩ := htask
      exact hkept _ _ (h.removeTarget htask fault) rfl
    · simp only [Process.step]
      split
      · next through removed name remaining heq => exact absurd ⟨_, _, _, _, heq⟩ htask
      · exact hkept _ _ hsame rfl
  | finishCompaction fault audited =>
    simp only [Process.step]
    split
    · next removed htask =>
      exact hkept _ _ ⟨_, _,
        h.endCompaction htask (finishCompaction_spares removed fault disk) _ _⟩ rfl
    · exact hkept _ _ hsame rfl
  | close barrier =>
    simp only [Process.step]
    split
    · exact hkept _ _ (h.closed howned barrier) rfl
    · exact hkept _ _ hsame rfl
  | kill => exact hkept _ _ (h.sound howned.reserved) rfl
  | powerLoss pick => exact hkept _ _ ((h.sound howned.reserved).survive pick) rfl
  | foreign name file =>
    simp only [Process.step]
    split
    · exact hkept _ _ hsame rfl
    · next hname =>
      exact hkept _ _ ⟨_, _, h.spares (foreign_spares h.covers.encodable hname file)
        (.inl rfl) rfl (fun _ htask => .inl htask) h.steers⟩ rfl

end

/-! ### Starts -/

theorem Sound.foreign (h : Sound limits ledger disk) {name : Bytes} (hname : ¬ isStorageName name)
    (file : Option File) : Sound limits ledger (disk.link name file) := by
  have hnames := hname
  simp only [isStorageName, decide_eq_true_eq, not_or] at hnames
  refine h.weaken (.of_agree (disk.agree_link file (Ne.symm hnames.1)))
    (.of_agree (disk.agree_link file (Ne.symm hnames.2.1))) fun manifest _ _ _ hcovers _ => ?_
  have hspares : Spares disk (disk.link name file) manifest :=
    foreign_spares hcovers.encodable hname file
  exact hspares.files manifest hcovers.encodable (.inl rfl)

theorem andStart_snd {α β : Type} (first : Outcome StartError α × Disk)
    {next : α → Disk → Outcome StartError β × Disk} (h : ∀ a disk, (next a disk).2 = disk) :
    (andStart first next).2 = first.2 := by
  obtain ⟨outcome, disk⟩ := first
  cases outcome with
  | ok a => exact h a disk
  | error e => rfl
  | panic => rfl

/-- After the recovery of the database nothing more is written. -/
theorem recoverRuntime_snd (limits : Limits) (queueCapacity : Int) (faults : RecoverFaults)
    (disk : Disk) : (recoverRuntime limits queueCapacity faults disk).2
      = (recoverDatabase limits faults.recovery disk).2 := by
  unfold recoverRuntime
  rw [andStart_snd, structuredErrors_snd]
  intro recovered disk
  rw [andStart_snd, structuredErrors_snd]
  intro log disk
  unfold openRuntime
  split <;> rfl

/-- A start finds first commits of the ledger, or leaves all as it is. -/
theorem Sound.start (h : Sound limits ledger disk) (faults : StartFaults) :
    ∃ ledger', Machine.Settled limits ledger'
        (Machine.step limits queueCapacity ⟨disk, none⟩ (.start faults)) ∧
      ledger.Steps ⟨disk, none⟩ (.start faults) ledger' := by
  have hsame : Machine.Settled limits ledger ⟨disk, none⟩ := h
  obtain ⟨stored, _, hlive, _, _⟩ := h.identity _ (disk.live_mem_possible identityFilename)
  simp only [Machine.step, GapDB.start]
  cases hvalidate : limits.validate with
  | error e => exact ⟨ledger, hsame, .refl rfl ledger⟩
  | ok u =>
  cases faults.stat with
  | some category => exact ⟨ledger, hsame, .refl rfl ledger⟩
  | none =>
  have hvalid := Limits.valid_of_validate hvalidate
  rw [if_pos (by rw [hlive]; rfl)]
  have hfailed := h.recoverDatabase faults.recover.recovery
  rw [← recoverRuntime_snd limits queueCapacity] at hfailed
  generalize hresult : recoverRuntime limits queueCapacity faults.recover disk = result at hfailed
  obtain ⟨outcome, disk'⟩ := result
  cases outcome with
  | error | panic => exact ⟨ledger, hfailed, .refl rfl ledger⟩
  | ok opened =>
    obtain ⟨commits, reserved, view, hinits, hlength, _, hruns⟩ :=
      h.sync.recovers hvalid h.identity hresult
    refine ⟨_, ⟨_, _, hruns⟩, rfl, List.subset_append_left _ _, ?_,
      Ledger.safe_sublist rfl (ledger.take_eq_safe h.safe hinits hlength)⟩
    simpa [Ledger.recovered, Ledger.all, Machine.frame] using hinits.sublist

/-! ### Runs -/

/-- One event: the ledger gets the commit that is written, and only a start can shorten it. -/
theorem Machine.step_settled {m : Machine} (howned : m.Owned limits last)
    (h : m.Settled limits ledger) (event : MachineEvent) :
    ∃ ledger', (m.step limits queueCapacity event).Settled limits ledger' ∧
      ledger.Steps m event ledger' := by
  obtain ⟨disk, process⟩ := m
  cases process with
  | none =>
    have hkept : ∀ m : Machine, m.Settled limits ledger → ∃ ledger', m.Settled limits ledger' ∧
        ledger.Steps ⟨disk, none⟩ event ledger' := fun m hm => ⟨ledger, hm, .refl rfl ledger⟩
    change Sound limits ledger disk at h
    cases event with
    | start faults => exact h.start faults
    | powerLoss pick => exact hkept _ (h.survive pick)
    | foreign name file =>
      simp only [Machine.step]
      split
      · exact hkept _ h
      · next hname => exact hkept _ (h.foreign hname file)
    | work | submitSnapshot | runSnapshot | planCompaction | removeTarget | finishCompaction | close
      | kill => exact hkept _ h
  | some p =>
    obtain ⟨_, hp⟩ := howned
    obtain ⟨active, view, hruns⟩ := h
    exact hruns.step hp event

/-- Any events. -/
theorem Machine.run_settled {m : Machine} (howned : m.Owned limits last)
    (h : m.Settled limits ledger) (events : List MachineEvent) :
    ∃ ledger', (m.run limits queueCapacity events).Settled limits ledger' ∧
      ledger.Leads (m.cuts limits queueCapacity events) (m.frames limits queueCapacity events)
        (m.acknowledgements limits queueCapacity events) ledger' := by
  induction events generalizing m last ledger with
  | nil =>
    exact ⟨ledger, h, rfl, List.subset_append_left _ _, List.sublist_append_left _ _,
      (List.append_nil ledger.safe).symm ▸ .refl _⟩
  | cons event events ih =>
    obtain ⟨ledger₁, hstep, hsteps⟩ :=
      @Machine.step_settled limits queueCapacity ledger last m howned h event
    obtain ⟨hnext, _⟩ := @Machine.step_owned limits queueCapacity last m howned event
    obtain ⟨ledger₂, hrun, hleads⟩ := ih hnext hstep
    exact ⟨ledger₂, hrun, hsteps.trans hleads⟩

end

end GapDB
