import GapDB.Server.Ledger

/-!
# What a command does to the directory

A command of the engine may reserve further revisions. It touches no other file but the log of its
own engine.
-/

namespace GapDB

open Storelib DatabaseState

variable {world : World}

/-- At most the identity was replaced, by one that reserves more. -/
structure World.Widens (world world' : World) : Prop where
  keeps : KeepsSettled world.disk world'.disk [identityFilename]
  manifest : world'.manifest = world.manifest
  databaseID : world'.identity.databaseID = world.identity.databaseID
  le : world.identity.reservedRevisionEnd ≤ world'.identity.reservedRevisionEnd

theorem World.Widens.refl (world : World) : world.Widens world :=
  ⟨.refl _ _, rfl, rfl, le_rfl⟩

theorem reserveRevisions_keeps (identity : Identity) (recovered rangeSize : Nat)
    (faults : InstallFaults) (disk : Disk) : KeepsSettled disk
      (reserveRevisions identity recovered rangeSize faults disk).2 [identityFilename] := by
  unfold reserveRevisions
  simp only
  repeat (split; · exact .refl _ _)
  next encoded _ =>
  have hkeeps : KeepsSettled disk (installIdentity encoded faults disk).2 [identityFilename] :=
    identityWords.install_keeps .identity encoded faults disk rfl
  generalize installIdentity encoded faults disk = result at hkeeps ⊢
  obtain ⟨outcome, disk'⟩ := result
  cases outcome <;> exact hkeeps

theorem runtimeReserve_widens (h : world.identity.Encodable) (faults : InstallFaults)
    (after : Nat) : world.Widens (runtimeReserve faults after world).2 := by
  have hkeeps := reserveRevisions_keeps world.identity after defaultRevisionReservation faults
    world.disk
  have hcases := reserveRevisions_cases h (show defaultRevisionReservation < 2 ^ 64 by decide) after
    faults world.disk
  unfold runtimeReserve
  generalize reserveRevisions world.identity after defaultRevisionReservation faults world.disk
    = result at hkeeps hcases ⊢
  obtain ⟨outcome, disk'⟩ := result
  cases outcome with
  | ok value =>
    cases hcases with
    | failed _ _ _ _ ne => exact absurd rfl (ne _)
    | granted updated range disk' encodable same first end_ grows =>
      exact ⟨hkeeps, rfl, same, grows.le⟩
  | error | panic => exact ⟨hkeeps, rfl, rfl, le_rfl⟩

/-- The world is as it was, or further revisions were reserved in it, or should have been. -/
def World.Reserving (world world' : World) : Prop :=
  world' = world ∨ ∃ faults after, world' = (runtimeReserve faults after world).2

theorem nextRevision_reserving (allocator : RangeAllocator) (faults : InstallFaults) :
    world.Reserving (allocator.nextRevision (some (runtimeReserve faults)) world).2.2 := by
  unfold RangeAllocator.nextRevision
  split
  · exact .inl rfl
  split
  · exact .inl rfl
  refine .inr ⟨faults, allocator.end_, ?_⟩
  simp only
  generalize runtimeReserve faults allocator.end_ world = result
  obtain ⟨outcome, world'⟩ := result
  cases outcome with
  | ok allocation =>
    simp only
    split <;> rfl
  | error | panic => rfl

theorem allocate_reserving (s : DatabaseState) (faults : InstallFaults) :
    world.Reserving (s.allocate (some (runtimeReserve faults)) world).2.2 := by
  unfold DatabaseState.allocate
  cases s.allocator with
  | none => exact .inl rfl
  | some allocator => exact nextRevision_reserving allocator faults

theorem DatabaseState.Executes.reserving {faults : InstallFaults} {s s' : DatabaseState}
    {world' : World} {batch : Batch} {single : SingleOperation} {source : Time}
    {assigned : Option Nat} {result : Except Error CommitResult}
    (h : Executes (some (runtimeReserve faults)) s world batch single source assigned result s'
      world') : world.Reserving world' := by
  cases h with
  | unavailable | rejected | panicked => exact .inl rfl
  | unallocated e allocator world' admitted ne allocated stored =>
    exact stored ▸ allocate_reserving s faults
  | committed revision allocator world' admitted allocated result s' commits =>
    exact allocated.2.2 ▸ allocate_reserving s faults

theorem Work.widens {s : DatabaseState} {last : Nat} (h : s.Owning world last)
    (work : Work) : world.Widens (work.command.run s world).2.2 := by
  have hreserving : world.Reserving (work.command.run s world).2.2 := by
    cases work with
    | mutation batch single reserve faults =>
      exact (executeSafely_cases (some (runtimeReserve reserve)) s h.limits h.logLimits world batch
        single faults).reserving
    | expiry source reserve faults =>
      by_cases hdue : s.due source = []
      · simp only [DatabaseState.due] at hdue
        simp only [Work.command, Command.run, executeDueExpiriesSafely, executeDueExpiries,
          if_pos hdue, recovered]
        exact .inl rfl
      · have hs : DatabaseState.Owning { s with
            clock := (s.clock.now source).2,
            schedule := (s.schedule.dueExpiries s.limits s.records (s.clock.now source).1).1 } world
            last := h.kin ⟨rfl, rfl, rfl, rfl⟩
        have hcases := (execute_cases (some (runtimeReserve reserve)) _ hs.limits hs.logLimits world
          (expiryBatch (s.due source)) .expiry faults "engine-expiry-panic").reserving
        simp only [DatabaseState.due] at hdue hcases
        simpa only [Work.command, Command.run, executeDueExpiriesSafely, executeDueExpiries,
          if_neg hdue] using hcases
    | durableAdmin result barrier => exact .inl (executeDurableAdmin_kin s world result barrier).1
    | drain | register | unregister | retire | read | markAdminDegraded => exact .inl rfl
  obtain heq | ⟨faults, after, heq⟩ := hreserving
  · rw [heq]
    exact .refl world
  · rw [heq]
    exact runtimeReserve_widens h.reserved.encodable faults after

end GapDB
