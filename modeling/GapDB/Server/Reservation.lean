import GapDB.Server.Untouched

/-!
# Reservations of an owner

The identity on disk promises that no revision above its end was ever handed out. An owner hands
out revisions from the range it has reserved last, which ends with the identity it has captured, and
every identity that a power loss could leave is at least that one.
-/

namespace GapDB

open Storelib DatabaseState

variable {world : World} {last : Nat} {s : DatabaseState}

/-! ### Reserving -/

/-- Every identity that a power loss could leave continues the one that was captured. -/
structure World.Reserved (world : World) : Prop where
  encodable : world.identity.Encodable
  stored : ∀ v ∈ world.disk.possible identityFilename, ∃ stored : Identity, stored.Encodable ∧
    v = some (.stable stored.bytes) ∧ stored.databaseID = world.identity.databaseID ∧
    world.identity.reservedRevisionEnd ≤ stored.reservedRevisionEnd

theorem World.Reserved.keeps (h : world.Reserved) {disk' : Disk}
    (hkeeps : KeepsIdentity world.disk disk') {manifest' : Manifest} :
    World.Reserved ⟨disk', world.identity, manifest'⟩ :=
  ⟨h.encodable, fun v hv => h.stored v (hkeeps v hv)⟩

/-- A reservation takes exactly the range it was asked for. -/
theorem reserveRevisions_eq_ok {identity updated : Identity} {recovered rangeSize : Nat}
    {faults : InstallFaults} {disk disk' : Disk} {range : RevisionRange}
    (h : reserveRevisions identity recovered rangeSize faults disk
      = (.ok (updated, range), disk')) :
    updated.reservedRevisionEnd = u64 (identity.reservedRevisionEnd + rangeSize) := by
  unfold reserveRevisions at h
  simp only at h
  split at h
  · cases h
  split at h
  · cases h
  split at h
  · cases h
  split at h
  · cases h
  split at h
  · cases h
  split at h
  · simp only [Prod.mk.injEq, Outcome.ok.injEq] at h
    rw [← h.1.1]
  · cases h
  · cases h

/-- What the installation of a larger identity leaves, whatever became of it. -/
theorem World.Reserved.installed (h : world.Reserved) {updated : Identity}
    {outcome : Outcome Error Unit} {disk' : Disk} (hencodable : updated.Encodable)
    (hsame : updated.databaseID = world.identity.databaseID)
    (hgrows : world.identity.reservedRevisionEnd < updated.reservedRevisionEnd)
    (hinstalled : Installed world.disk .identity updated.bytes outcome disk') :
    World.Reserved { world with disk := disk' } := by
  refine ⟨h.encodable, fun v hv => ?_⟩
  rcases hinstalled.final v hv with rfl | hold
  · exact ⟨updated, hencodable, rfl, hsame, hgrows.le⟩
  · exact h.stored v hold

/-- The range that `runtimeReserve` grants starts right behind the captured identity and ends with
the new one, which is then the only one that a power loss can leave. -/
theorem runtimeReserve_spec (h : world.Reserved) (faults : InstallFaults) (after : Nat) :
    (runtimeReserve faults after world).2.Reserved ∧
      (∀ range, (runtimeReserve faults after world).1 = .ok range →
        range.first = world.identity.reservedRevisionEnd + 1 ∧
        range.end_ = (runtimeReserve faults after world).2.identity.reservedRevisionEnd ∧
        range.end_ = world.identity.reservedRevisionEnd + defaultRevisionReservation) ∧
      ((∀ range, (runtimeReserve faults after world).1 ≠ .ok range) →
        (runtimeReserve faults after world).2.identity = world.identity) := by
  have hrange : defaultRevisionReservation < 2 ^ 64 := by decide
  have hcases := reserveRevisions_cases h.encodable hrange after faults world.disk
  unfold runtimeReserve
  generalize hreserve : reserveRevisions world.identity after defaultRevisionReservation faults
    world.disk = result at hcases
  obtain ⟨outcome, disk'⟩ := result
  cases hcases with
  | refused e => exact ⟨h, by simp, fun _ => rfl⟩
  | failed updated installed reported _ ne encodable same grows hinstalled =>
    have hreserved := h.installed encodable same grows hinstalled
    cases outcome with
    | ok value => exact absurd rfl (ne value)
    | error | panic => exact ⟨hreserved, by simp, fun _ => rfl⟩
  | granted updated range _ encodable same first end_ grows recovered_le hinstalled =>
    have hexact := reserveRevisions_eq_ok hreserve
    refine ⟨⟨encodable, fun v hv => ?_⟩, ?_, fun hne => absurd rfl (hne range)⟩
    · exact ⟨updated, encodable, hinstalled.possible_of_ok v hv, rfl, le_rfl⟩
    · intro range' hrange'
      obtain rfl : range = range' := by simpa using hrange'
      refine ⟨first, end_, ?_⟩
      have hend := range.end_lt
      rw [end_, hexact]
      have hbound := encodable.reserved
      rw [hexact] at grows
      simp only [u64, defaultRevisionReservation] at grows ⊢
      have hreserved := h.encodable.reserved
      omega

/-! ### Handing out revisions -/

/-- The allocator works through the range that the captured identity has reserved last. -/
structure RangeAllocator.Within (allocator : RangeAllocator) (last end_ : Nat) : Prop where
  above : allocator.Above last
  ends : allocator.end_ = end_
  latest : allocator.exhausted = false → end_ < allocator.next + defaultRevisionReservation

/-- A revision that was handed out from the latest range. -/
structure Latest (revision last end_ : Nat) : Prop where
  new : last < revision
  le : revision ≤ end_
  latest : end_ < revision + defaultRevisionReservation

theorem RangeAllocator.Within.take {allocator : RangeAllocator} {end_ : Nat}
    (h : allocator.Within last end_) (hexhausted : allocator.exhausted = false)
    (hle : allocator.next ≤ allocator.end_) :
    Latest allocator.take.1 last end_ ∧ allocator.take.2.Within allocator.take.1 end_ := by
  have hspec := allocator.take_spec h.above hexhausted hle
  have hlatest := h.latest hexhausted
  refine ⟨⟨hspec.1, h.ends ▸ hle, hlatest⟩, hspec.2.1, hspec.2.2.trans h.ends, fun _ => ?_⟩
  unfold RangeAllocator.take at *
  split
  · exact hlatest
  · simp only
    omega

/-- One step of the allocator of an owner. -/
theorem nextRevision_spec (h : world.Reserved) {allocator : RangeAllocator}
    (hwithin : allocator.Within last world.identity.reservedRevisionEnd) (faults : InstallFaults) :
    let result := allocator.nextRevision (some (runtimeReserve faults)) world
    result.2.2.Reserved ∧
      ((∀ revision, result.1 ≠ .ok revision) → result.2.1 = allocator ∧
        result.2.2.identity = world.identity) ∧
      ∀ revision, result.1 = .ok revision →
        Latest revision last result.2.2.identity.reservedRevisionEnd ∧
        result.2.1.Within revision result.2.2.identity.reservedRevisionEnd := by
  unfold RangeAllocator.nextRevision
  by_cases hexhausted : allocator.exhausted = true
  · simp [hexhausted, h]
  replace hexhausted : allocator.exhausted = false := by simpa using hexhausted
  by_cases hle : allocator.next ≤ allocator.end_
  · simp only [hexhausted, Bool.false_eq_true, if_false, if_pos hle]
    refine ⟨h, by simp, fun revision hrevision => ?_⟩
    obtain rfl := Outcome.ok.inj hrevision
    exact hwithin.take hexhausted hle
  · simp only [hexhausted, Bool.false_eq_true, if_false, if_neg hle]
    obtain ⟨hreserved, hgranted, hfailed⟩ := runtimeReserve_spec h faults allocator.end_
    generalize runtimeReserve faults allocator.end_ world = result at hreserved hgranted hfailed
    obtain ⟨outcome, world'⟩ := result
    cases outcome with
    | error | panic => exact ⟨hreserved, fun _ => ⟨rfl, hfailed (by simp)⟩, by simp⟩
    | ok range =>
      obtain ⟨hfirst, hend, hsize⟩ := hgranted range rfl
      simp only at hend
      have habove := hwithin.above.1
      have hends := hwithin.ends
      -- the new range starts behind the old one, so the allocator accepts it
      have hvalid : validRange range allocator.end_ := by
        simp only [validRange, defaultRevisionReservation] at hsize ⊢
        omega
      simp only [dif_pos hvalid]
      refine ⟨hreserved, by simp, fun revision hrevision => ?_⟩
      obtain rfl := Outcome.ok.inj hrevision
      refine RangeAllocator.Within.take ⟨⟨?_, fun _ => ?_⟩, hend, fun _ => ?_⟩ rfl ?_
      · simp only
        omega
      · simp only
        omega
      · simp only
        omega
      · simp only [defaultRevisionReservation] at hsize ⊢
        omega

/-! ### An owner's commands -/

namespace DatabaseState

/-- An engine whose revisions so far are at most `last`, in the hands of an owner. -/
structure Owning (s : DatabaseState) (world : World) (last : Nat) : Prop where
  limits : s.limits.Valid
  logLimits : s.log.limits.Valid
  path : ∃ revision, s.log.path = walName revision
  reserved : world.Reserved
  allocator : ∀ a, s.allocator = some a → a.Within last world.identity.reservedRevisionEnd
  last_le : last ≤ world.identity.reservedRevisionEnd

/-- Nothing has changed that reservations depend on. -/
structure Kin (s s' : DatabaseState) : Prop where
  limits : s'.limits = s.limits
  logLimits : s'.log.limits = s.log.limits
  path : s'.log.path = s.log.path
  allocator : s'.allocator = s.allocator

variable {s' : DatabaseState} {world' : World}

theorem Kin.of_extends {log : WAL} {added : Bytes} (h : s.log.Extends log added)
    (hlimits : s'.limits = s.limits) (hlog : s'.log = log)
    (hallocator : s'.allocator = s.allocator) : s.Kin s' :=
  ⟨hlimits, hlog ▸ h.limits, hlog ▸ h.path, hallocator⟩

theorem Owning.kin (h : s.Owning world last) (hkin : s.Kin s') : s'.Owning world last :=
  ⟨hkin.limits ▸ h.limits, hkin.logLimits ▸ h.logLimits, hkin.path ▸ h.path, h.reserved,
    hkin.allocator ▸ h.allocator, h.last_le⟩

theorem Commits.kin {batch : Batch} {single : SingleOperation} {revision : Nat}
    {result : Except Error CommitResult} (h : Commits s batch single revision result s') :
    s.Kin s' := by
  cases h with
  | refused e => exact ⟨rfl, rfl, rfl, rfl⟩
  | torn e log accepted accepts extends_ => exact .of_extends extends_ rfl rfl rfl
  | unpublished e log applied logged | unacknowledged e log durableThrough applied logged
  | committed log durableThrough logged => exact .of_extends logged.extends_ rfl rfl rfl

/-- What an owner holds after it has asked for a revision. -/
theorem Owning.allocate (h : s.Owning world last) (faults : InstallFaults) :
    let result := s.allocate (some (runtimeReserve faults)) world
    result.2.2.Reserved ∧
      ((∀ revision, result.1 ≠ .ok revision) → result.2.1.allocator = s.allocator ∧
        result.2.2.identity = world.identity) ∧
      ∀ revision, result.1 = .ok revision →
        Latest revision last result.2.2.identity.reservedRevisionEnd ∧
        ∀ a, result.2.1.allocator = some a →
          a.Within revision result.2.2.identity.reservedRevisionEnd := by
  unfold DatabaseState.allocate
  cases hs : s.allocator with
  | none => exact ⟨h.reserved, fun _ => ⟨hs, rfl⟩, by simp⟩
  | some a =>
    obtain ⟨hreserved, hfailed, hok⟩ := nextRevision_spec h.reserved (h.allocator a hs) faults
    refine ⟨hreserved, fun hne => ?_, fun revision hrevision => ?_⟩
    · obtain ⟨hallocator, hidentity⟩ := hfailed hne
      exact ⟨congrArg some hallocator, hidentity⟩
    · obtain ⟨hlatest, hwithin⟩ := hok revision hrevision
      refine ⟨hlatest, fun a' ha' => ?_⟩
      obtain rfl := Option.some.inj ha'
      exact hwithin

theorem Executes.owning {faults : InstallFaults} {batch : Batch} {single : SingleOperation}
    {source : Time} {assigned : Option Nat} {result : Except Error CommitResult}
    (h : Executes (some (runtimeReserve faults)) s world batch single source assigned result
      s' world')
    (hs : s.Owning world last) :
    s'.Owning world' (assigned.getD last) ∧
      ∀ revision, assigned = some revision →
        Latest revision last world'.identity.reservedRevisionEnd := by
  obtain ⟨hreserved, hfailed, hok⟩ := hs.allocate faults
  cases h with
  | unavailable lifecycle => exact ⟨hs, by simp⟩
  | rejected | panicked => exact ⟨hs.kin ⟨rfl, rfl, rfl, rfl⟩, by simp⟩
  | unallocated e allocator _ admitted ne allocated stored =>
    obtain ⟨hallocator, hidentity⟩ := hfailed ne
    rw [stored] at hreserved hidentity
    rw [allocated] at hallocator
    refine ⟨⟨hs.limits, hs.logLimits, hs.path, hreserved, ?_, hidentity ▸ hs.last_le⟩, by simp⟩
    rw [hidentity]
    exact hallocator ▸ hs.allocator
  | committed revision allocator _ admitted allocated _ _ commits =>
    obtain ⟨hrevision, hallocator, hworld⟩ := allocated
    obtain ⟨hlatest, hwithin⟩ := hok revision hrevision
    rw [hworld] at hreserved hlatest hwithin
    rw [hallocator] at hwithin
    refine ⟨?_, fun _ h => by rwa [← Option.some.inj h]⟩
    have hnext : DatabaseState.Owning { s with clock := (s.clock.now source).2, allocator } world'
        revision := ⟨hs.limits, hs.logLimits, hs.path, hreserved, hwithin, hlatest.le⟩
    exact hnext.kin commits.kin

end DatabaseState

/-- The last revision that was handed out, after a command that handed out `frame`. -/
def lastAssigned (last : Nat) (frame : Option CommitFrame) : Nat :=
  (frame.map CommitFrame.revision).getD last

/-- The frame of a command carries the revision that was assigned to it. -/
theorem owning_of_assigned {end_ : Nat}
    {assigned : Option Nat} (batch : Batch) (single : SingleOperation)
    (h : s.Owning world (assigned.getD last) ∧
      ∀ revision, assigned = some revision → Latest revision last end_) :
    s.Owning world (lastAssigned last (assigned.map (commitFrame batch single))) ∧
      ∀ frame, assigned.map (commitFrame batch single) = some frame →
        Latest frame.revision last end_ := by
  cases assigned with
  | none => exact ⟨h.1, by simp⟩
  | some revision =>
    refine ⟨h.1, fun frame hframe => ?_⟩
    obtain rfl := Option.some.inj hframe
    exact h.2 revision rfl

/-- A command that is given no revision. -/
theorem Command.owning_of_kin
    (h : s.Owning world last) {c : Command World} (hworld : (c.run s world).2.2 = world)
    (hkin : s.Kin (c.run s world).2.1) (hframe : c.frame s world = none) :
    (c.run s world).2.1.Owning (c.run s world).2.2 (lastAssigned last (c.frame s world)) ∧
      ∀ frame, c.frame s world = some frame →
        Latest frame.revision last (c.run s world).2.2.identity.reservedRevisionEnd := by
  rw [hframe, hworld]
  exact ⟨h.kin hkin, by simp⟩

/-- The world of a durable operation that changes nothing in it. -/
theorem executeDurableAdmin_kin (s : DatabaseState) (world : World) (result : Outcome Error Unit)
    (barrier : Option WAL.BarrierFault) :
    (s.executeDurableAdmin (fun _ world => (result, world)) world barrier).2.2 = world ∧
      s.Kin (s.executeDurableAdmin (fun _ world => (result, world)) world barrier).2.1 := by
  have hbarrier := s.log.barrier_cases barrier
  unfold executeDurableAdmin
  generalize s.log.barrier barrier = barriered at hbarrier
  obtain ⟨outcome, log⟩ := barriered
  have hkin : ∀ s' : DatabaseState, s'.limits = s.limits → s'.log = log →
      s'.allocator = s.allocator → s.Kin s' := fun s' => Kin.of_extends hbarrier.extends
  cases outcome with
  | panic | error => exact ⟨rfl, hkin _ rfl rfl rfl⟩
  | ok u =>
    simp only
    split
    · exact ⟨rfl, hkin _ rfl rfl rfl⟩
    · cases result with
      | panic | error | ok => exact ⟨rfl, hkin _ rfl rfl rfl⟩

theorem shutdown_kin (s : DatabaseState) (barrier : Option WAL.BarrierFault) :
    s.Kin (s.shutdown barrier).2 := by
  have hbarrier := s.log.barrier_cases barrier
  unfold DatabaseState.shutdown
  simp only
  generalize s.log.barrier barrier = barriered at hbarrier
  obtain ⟨outcome, log⟩ := barriered
  have hkin : ∀ s' : DatabaseState, s'.limits = s.limits → s'.log = log →
      s'.allocator = s.allocator → s.Kin s' := fun s' => Kin.of_extends hbarrier.extends
  cases outcome with
  | ok | error | panic => exact hkin _ rfl rfl rfl

theorem executeDueExpiriesSafely_owning
    (h : s.Owning world last) (source : Time) (reserve : InstallFaults) (faults : ExecuteFaults) :
    let c : Command World := .expiry (some (runtimeReserve reserve)) source faults
    (c.run s world).2.1.Owning (c.run s world).2.2 (lastAssigned last (c.frame s world)) ∧
      ∀ frame, c.frame s world = some frame →
        Latest frame.revision last (c.run s world).2.2.identity.reservedRevisionEnd := by
  intro c
  by_cases hdue : s.due source = []
  · have hframe : c.frame s world = none := by simp [c, Command.frame, Command.batch, hdue]
    have hrun : c.run s world = (.commit (.ok emptyResult), { s with
        clock := (s.clock.now source).2,
        schedule := (s.schedule.dueExpiries s.limits s.records (s.clock.now source).1).1 },
          world) := by
      simp only [DatabaseState.due] at hdue
      simp only [c, Command.run, executeDueExpiriesSafely, executeDueExpiries, if_pos hdue,
        recovered]
    refine Command.owning_of_kin h (by rw [hrun]) ?_ hframe
    rw [hrun]
    exact ⟨rfl, rfl, rfl, rfl⟩
  · have hbatch : c.batch s = some (expiryBatch (s.due source), .expiry) := by
      simp [c, Command.batch, hdue]
    rw [Command.frame_of_batch hbatch]
    refine owning_of_assigned _ _ ?_
    have hs : DatabaseState.Owning { s with
        clock := (s.clock.now source).2,
        schedule := (s.schedule.dueExpiries s.limits s.records (s.clock.now source).1).1 } world
        last := h.kin ⟨rfl, rfl, rfl, rfl⟩
    have hcases := (execute_cases (some (runtimeReserve reserve)) _ hs.limits hs.logLimits world
      (expiryBatch (s.due source)) .expiry faults "engine-expiry-panic").owning hs
    simp only [DatabaseState.due] at hdue hcases
    simpa only [c, Command.run, Command.assigned, executeDueExpiriesSafely, executeDueExpiries,
      assignedExpiry, if_neg hdue] using hcases

theorem Work.owning (h : s.Owning world last) (work : Work) :
    (work.command.run s world).2.1.Owning (work.command.run s world).2.2
        (lastAssigned last (work.command.frame s world)) ∧
      ∀ frame, work.command.frame s world = some frame →
        Latest frame.revision last
          (work.command.run s world).2.2.identity.reservedRevisionEnd := by
  cases work with
  | mutation batch single reserve faults =>
    have hcases := (executeSafely_cases (some (runtimeReserve reserve)) s h.limits
      h.logLimits world batch single faults).owning h
    have hframe : (Work.mutation batch single reserve faults).command.frame s world
        = (s.assignedRevision (some (runtimeReserve reserve)) world batch single faults).map
          (commitFrame batch single) := Command.frame_of_batch rfl
    rw [hframe]
    exact owning_of_assigned _ _ hcases
  | expiry source reserve faults => exact executeDueExpiriesSafely_owning h source reserve faults
  | register | unregister | retire | read | markAdminDegraded =>
    exact Command.owning_of_kin h rfl ⟨rfl, rfl, rfl, rfl⟩ rfl
  | durableAdmin result barrier =>
    obtain ⟨hworld, hkin⟩ := executeDurableAdmin_kin s world result barrier
    exact Command.owning_of_kin h hworld hkin rfl
  | drain =>
    refine Command.owning_of_kin h rfl ?_ rfl
    simp only [Work.command, Command.run]
    split <;> exact ⟨rfl, rfl, rfl, rfl⟩

/-! ### Snapshots -/

/-- What the installer of the controller does to the world, and the log it may return. -/
theorem controllerInstall_spec (limits : Limits) (expectedRevision : Nat)
    (faults : GenerationFaults) (audited : Bool) (cut : SnapshotCut) (world : World) :
    let result := controllerInstall limits expectedRevision faults audited cut world
    result.2.identity = world.identity ∧ KeepsIdentity world.disk result.2.disk ∧
      ∀ log, result.1 = .ok (some log) →
        log.limits = limits ∧ ∃ revision, log.path = walName revision := by
  unfold controllerInstall
  split
  · exact ⟨rfl, .refl _, by simp⟩
  have hkeeps := installSnapshotGeneration_keepsIdentity world.manifest ⟨cut.revision, cut.records⟩
    cut.asOf limits faults world.disk
  generalize hinstall : installSnapshotGeneration world.manifest ⟨cut.revision, cut.records⟩
    cut.asOf limits faults world.disk = installed at hkeeps
  obtain ⟨outcome, disk'⟩ := installed
  cases outcome with
  | panic => exact ⟨rfl, hkeeps, by simp⟩
  | error value =>
    obtain ⟨e, next⟩ := value
    simp only
    split <;> exact ⟨rfl, hkeeps, by simp⟩
  | ok value =>
    obtain ⟨manifest, log⟩ := value
    refine ⟨rfl, hkeeps, fun log' hlog => ?_⟩
    cases audited with
    | false => cases hlog
    | true =>
      obtain rfl : log = log' := by simpa using hlog
      exact installSnapshotGeneration_log hinstall

theorem executeSnapshot_owning
    (h : s.Owning world last) {limits : Limits} (hlimits : limits.Valid) (expected : Nat)
    (generation : GenerationFaults) (audited : Bool) (faults : SnapshotFaults) :
    let result := s.executeSnapshot (controllerInstall limits expected generation audited)
      world faults
    result.2.1.Owning result.2.2 last := by
  intro result
  have hcases := executeSnapshot_cases (controllerInstall limits expected generation
    audited) s world faults
  obtain ⟨hidentity, hkeeps, hlog⟩ := controllerInstall_spec limits expected generation audited
    (s.snapshotCut faults) world
  -- the world after the installer has acted
  have hinstalled : ∀ world', (controllerInstall limits expected generation audited
      (s.snapshotCut faults) world).2 = world' → s.Owning world' last := by
    rintro world' rfl
    refine ⟨h.limits, h.logLimits, h.path, ?_, ?_, ?_⟩
    · exact ⟨hidentity ▸ h.reserved.encodable, fun v hv =>
        hidentity ▸ h.reserved.stored v (hkeeps v hv)⟩
    · rw [hidentity]
      exact h.allocator
    · rw [hidentity]
      exact h.last_le
  change DatabaseState.Owning (s.executeSnapshot _ world faults).2.1
    (s.executeSnapshot _ world faults).2.2 last
  generalize (s.executeSnapshot (controllerInstall limits expected generation audited) world
    faults).1.2 = error at hcases
  generalize (s.executeSnapshot (controllerInstall limits expected generation audited) world
    faults).2.1 = s' at hcases ⊢
  generalize (s.executeSnapshot (controllerInstall limits expected generation audited) world
    faults).2.2 = world' at hcases ⊢
  cases hcases with
  | unbarriered e outcome log ne hbarrier | unevident e log hbarrier =>
    exact h.kin (Kin.of_extends hbarrier.extends rfl rfl rfl)
  | refused e log _ hbarrier evident installed applied =>
    exact (hinstalled _ (congrArg Prod.snd installed)).kin
      (Kin.of_extends hbarrier.extends rfl rfl rfl)
  | broken e log _ hbarrier evident installed applied =>
    exact (hinstalled _ installed).kin (Kin.of_extends hbarrier.extends rfl rfl rfl)
  | switched log next _ hbarrier evident installed durable =>
    have hs := hinstalled _ (congrArg Prod.snd installed)
    obtain ⟨hnext, hpath⟩ := hlog next (congrArg Prod.fst installed)
    exact ⟨hs.limits, hnext ▸ hlimits, hpath, hs.reserved, hs.allocator, hs.last_le⟩

end GapDB
