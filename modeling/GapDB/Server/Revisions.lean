import GapDB.Server.Starts

/-!
# Revisions over the life of a directory

Owners come and go, fail to reserve, are killed and lose power. Over all of them together no
revision is handed out twice.
-/

namespace GapDB

open Storelib DatabaseState

variable {world : World}

/-- A machine whose revisions so far are at most `last`. -/
def Machine.Owned (limits : Limits) (m : Machine) (last : Nat) : Prop :=
  match m.process with
  | some p => limits.Valid ∧ p.engine.Owning (p.world m.disk) last
  | none => Vacant m.disk last

section

variable {limits : Limits} {queueCapacity : Int} {last : Nat}

theorem Machine.owned_initial : Machine.initial.Owned limits 0 := by
  intro v hv
  obtain rfl := List.mem_singleton.mp hv
  exact .inl ⟨rfl, rfl⟩

theorem DatabaseState.Owning.keeps {s : DatabaseState} (h : s.Owning world last)
    {disk' : Disk} (hkeeps : KeepsIdentity world.disk disk') {manifest' : Manifest} :
    s.Owning ⟨disk', world.identity, manifest'⟩ last :=
  ⟨h.limits, h.logLimits, h.path, h.reserved.keeps hkeeps, h.allocator, h.last_le⟩

theorem DatabaseState.Owning.vacant {s : DatabaseState} (h : s.Owning world last) :
    Vacant world.disk last := h.reserved.vacant h.last_le

/-- The log of an engine is no identity. -/
theorem DatabaseState.Owning.store {s : DatabaseState} (h : s.Owning world last)
    (file : File) : KeepsIdentity world.disk (world.disk.store s.log.path file) := by
  obtain ⟨revision, hpath⟩ := h.path
  rw [hpath]
  exact .store (identityFilename_ne_walName revision) file

namespace Process

variable {p : Process} {disk : Disk}

theorem leave_owning (p : Process) {engine : DatabaseState} (h : engine.Owning world last) :
    (p.leave engine world).1.engine.Owning
      ((p.leave engine world).1.world (p.leave engine world).2) last :=
  h.keeps (h.store _)

theorem runSnapshot_owning (hlimits : limits.Valid) (h : p.engine.Owning (p.world disk) last)
    (expected : Nat) (run : SnapshotRun) :
    (p.runSnapshot limits disk expected run).1.engine.Owning
      ((p.runSnapshot limits disk expected run).1.world (p.runSnapshot limits disk expected run).2)
      last := by
  have hstored : p.engine.Owning (p.world (disk.store p.engine.log.path
      (p.engine.log.barrier run.barrier).2.storage.file)) last := h.keeps (h.store _)
  have hsnapshot := executeSnapshot_owning hstored hlimits expected run.generation run.audited
    (run.faults p.engine)
  exact leave_owning p hsnapshot

theorem endCompaction_owning (h : p.engine.Owning (p.world disk) last)
    (outcome : Outcome Error Unit) (audited : Bool) :
    (p.endCompaction outcome audited).engine.Owning ((p.endCompaction outcome audited).world disk)
      last := by
  have hdegrade : p.engine.degrade.Owning (p.world disk) last := h.kin ⟨rfl, rfl, rfl, rfl⟩
  unfold endCompaction
  cases outcome with
  | panic => exact hdegrade
  | ok u => cases audited with
    | true => exact h
    | false => exact hdegrade
  | error e =>
    simp only
    split
    · exact hdegrade
    · exact h

/-- Whatever happens to a running owner, other than a commit. -/
theorem step_owned (hlimits : limits.Valid) (h : p.engine.Owning (p.world disk) last)
    {event : MachineEvent} (hevent : ∀ work, event ≠ .work work) :
    (p.step limits disk event).Owned limits last := by
  have hsame : Machine.Owned limits ⟨disk, some p⟩ last := ⟨hlimits, h⟩
  cases event with
  | work work => exact absurd rfl (hevent work)
  | start faults => exact hsame
  | submitSnapshot databaseID generation revision =>
    simp only [step]
    split
    · split
      · exact ⟨hlimits, h⟩
      · exact hsame
    · exact hsame
  | runSnapshot run =>
    simp only [step]
    split
    · exact ⟨hlimits, runSnapshot_owning hlimits h _ run⟩
    · exact hsame
  | planCompaction databaseID generation revision through directories fault =>
    simp only [step]
    split
    · split
      · split
        · exact ⟨hlimits, h⟩
        · exact hsame
        · exact ⟨hlimits, h.kin ⟨rfl, rfl, rfl, rfl⟩⟩
      · exact hsame
    · exact hsame
  | removeTarget fault =>
    simp only [step]
    split
    · next through removed name remaining _ =>
      have hkeeps := removeTarget_keepsIdentity p.manifest through removed name fault disk
      generalize removeTarget p.manifest through removed name fault disk = result at hkeeps
      obtain ⟨outcome, disk'⟩ := result
      have howning : p.engine.Owning (p.world disk') last := h.keeps hkeeps
      cases outcome with
      | ok u => exact ⟨hlimits, howning⟩
      | error | panic => exact ⟨hlimits, endCompaction_owning howning _ _⟩
    · exact hsame
  | finishCompaction fault audited =>
    simp only [step]
    split
    · next removed _ =>
      exact ⟨hlimits, endCompaction_owning
        (h.keeps (finishCompaction_keepsIdentity removed fault disk)) _ _⟩
    · exact hsame
  | close barrier =>
    simp only [step]
    split
    · obtain ⟨revision, hpath⟩ := h.path
      have hclosed : (p.engine.shutdown barrier).2.log.path = p.engine.log.path :=
        (shutdown_kin p.engine barrier).path
      refine h.vacant.keeps ?_
      rw [hclosed]
      exact h.store _
    · exact hsame
  | kill => exact h.vacant
  | powerLoss pick => exact h.vacant.survive pick
  | foreign name file =>
    simp only [step]
    split
    · exact hsame
    · next hname =>
      refine ⟨hlimits, h.keeps (.link ?_ file)⟩
      rintro rfl
      simp [isStorageName] at hname

end Process

theorem valid_of_start {faults : StartFaults} {disk disk' : Disk} {opened : OpenedRuntime}
    (h : start limits queueCapacity faults disk = (.ok opened, disk')) : limits.Valid := by
  unfold start at h
  split at h
  · cases h
  · cases h
  next hvalidate _ => exact Limits.valid_of_validate hvalidate

/-- The commit of an event carries a new revision, from the range that the owner has reserved. -/
structure Machine.Hands (m' : Machine) (frame : CommitFrame) (last : Nat) (p' : Process) :
    Prop where
  process : m'.process = some p'
  latest : Latest frame.revision last p'.identity.reservedRevisionEnd
  reserved : (p'.world m'.disk).Reserved

theorem Machine.step_owned {m : Machine} (h : m.Owned limits last) (event : MachineEvent) :
    (m.step limits queueCapacity event).Owned limits (lastAssigned last (m.frame event)) ∧
      ∀ frame, m.frame event = some frame →
        ∃ p', (m.step limits queueCapacity event).Hands frame last p' := by
  obtain ⟨disk, process⟩ := m
  cases process with
  | none =>
    refine ⟨?_, by simp [Machine.frame]⟩
    change Vacant disk last at h
    cases event with
    | start faults =>
      have hstart := start_startsWell h limits queueCapacity faults
      simp only [Machine.step]
      generalize hresult : start limits queueCapacity faults disk = result at hstart
      obtain ⟨outcome, disk'⟩ := result
      cases outcome with
      | error | panic => exact hstart.1
      | ok opened => exact ⟨valid_of_start hresult, hstart.2 opened rfl⟩
    | powerLoss pick => exact h.survive pick
    | foreign name file =>
      simp only [Machine.step]
      split
      · exact h
      · next hname =>
        refine h.keeps (.link ?_ file)
        rintro rfl
        simp [isStorageName] at hname
    | work | submitSnapshot | runSnapshot | planCompaction | removeTarget | finishCompaction | close
      | kill => exact h
  | some p =>
    obtain ⟨hlimits, hp⟩ := h
    by_cases hwork : ∃ work, event = .work work
    · obtain ⟨work, rfl⟩ := hwork
      obtain ⟨howning, hlatest⟩ := Work.owning hp work
      have hleft := Process.leave_owning p howning
      exact ⟨⟨hlimits, hleft⟩, fun frame hframe => ⟨_, rfl, hlatest frame hframe, hleft.reserved⟩⟩
    · have hframe : Machine.frame ⟨disk, some p⟩ event = none := by
        cases event with
        | work work => exact absurd ⟨work, rfl⟩ hwork
        | _ => rfl
      rw [hframe]
      exact ⟨p.step_owned hlimits hp fun work heq => hwork ⟨work, heq⟩, by simp⟩

/-- Every revision of a run is above those before it. -/
theorem Machine.frames_increasing {m : Machine} (h : m.Owned limits last)
    (events : List MachineEvent) :
    (last :: (m.frames limits queueCapacity events).map CommitFrame.revision).Pairwise (· < ·) := by
  induction events generalizing m last with
  | nil => exact List.pairwise_singleton _ _
  | cons event events ih =>
    obtain ⟨hnext, hhands⟩ := @Machine.step_owned limits queueCapacity last m h event
    have hrest := ih hnext
    rw [Machine.frames]
    cases hframe : m.frame event with
    | none =>
      rw [hframe] at hrest
      exact hrest
    | some frame =>
      obtain ⟨p', hp'⟩ := hhands frame hframe
      rw [hframe] at hrest
      simp only [lastAssigned, Option.map_some, Option.getD_some] at hrest
      simp only [Option.toList_some, List.singleton_append, List.map_cons]
      refine List.pairwise_cons.mpr ⟨?_, hrest⟩
      intro revision hmem
      rcases List.mem_cons.mp hmem with rfl | hmem
      · exact hp'.latest.new
      · exact hp'.latest.new.trans ((List.pairwise_cons.mp hrest).1 revision hmem)

theorem Machine.run_owned {m : Machine} (h : m.Owned limits last) (events : List MachineEvent) :
    ∃ last', last ≤ last' ∧ (m.run limits queueCapacity events).Owned limits last' := by
  induction events generalizing m last with
  | nil => exact ⟨last, le_rfl, h⟩
  | cons event events ih =>
    obtain ⟨hnext, hhands⟩ := @Machine.step_owned limits queueCapacity last m h event
    obtain ⟨last', hle, hrun⟩ := ih hnext
    refine ⟨last', le_trans ?_ hle, hrun⟩
    cases hframe : m.frame event with
    | none => exact le_rfl
    | some frame =>
      obtain ⟨p', hp'⟩ := hhands frame hframe
      exact hp'.latest.new.le

end

/-- Over any number of owners of a directory, with failures and crashes anywhere, the revisions of
the commits increase strictly and fit into 64 bits, and each of them lies in the last range that the
owner reserved, up to which every identity that a power loss could leave reserves too. -/
theorem revisions_never_reused (limits : Limits) (queueCapacity : Int)
    (events : List MachineEvent) :
    ((Machine.initial.frames limits queueCapacity events).map CommitFrame.revision).Pairwise
      (· < ·) ∧
    ∀ before event after frame, events = before ++ event :: after →
      (Machine.initial.run limits queueCapacity before).frame event = some frame →
      0 < frame.revision ∧ frame.revision < 2 ^ 64 ∧
      ∃ p', ((Machine.initial.run limits queueCapacity before).step limits queueCapacity
            event).process = some p' ∧
        p'.identity.reservedRevisionEnd < frame.revision + defaultRevisionReservation ∧
        frame.revision ≤ p'.identity.reservedRevisionEnd ∧
        ∀ v ∈ ((Machine.initial.run limits queueCapacity before).step limits queueCapacity
            event).disk.possible identityFilename,
          ∃ file stored, v = some file ∧ decodeIdentity file.bytes = .ok stored ∧
            p'.identity.reservedRevisionEnd ≤ stored.reservedRevisionEnd := by
  constructor
  · exact (List.pairwise_cons.mp (Machine.frames_increasing Machine.owned_initial events)).2
  · intro before event after frame _ hframe
    obtain ⟨last, _, howned⟩ :=
      @Machine.run_owned limits queueCapacity 0 Machine.initial Machine.owned_initial before
    obtain ⟨p', hp'⟩ := (Machine.step_owned howned event).2 frame hframe
    have hbound := hp'.reserved.encodable.reserved
    have hlatest := hp'.latest
    refine ⟨hlatest.new.pos, lt_of_le_of_lt hlatest.le hbound, p', hp'.process, hlatest.latest,
      hlatest.le, fun v hv => ?_⟩
    obtain ⟨stored, hencodable, hstored, _, hle⟩ := hp'.reserved.stored v hv
    exact ⟨_, stored, hstored, decodeIdentity_bytes hencodable, hle⟩

end GapDB
