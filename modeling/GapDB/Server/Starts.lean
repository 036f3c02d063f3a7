import GapDB.Server.Reservation

/-!
# Starts on a directory without an owner

Whatever a start does to the directory and however it ends, no identity that a power loss could
leave falls behind the revisions that were handed out; an owner that comes up begins above them.
-/

namespace GapDB

open Storelib DatabaseState

variable {disk : Disk} {last : Nat} {identity : Identity} {limits : Limits}

/-- Every identity that a power loss could leave is past `last`. -/
def Vacant (disk : Disk) (last : Nat) : Prop :=
  ∀ v ∈ disk.possible identityFilename, v = none ∧ last = 0 ∨
    ∃ stored : Identity, stored.Encodable ∧ v = some (.stable stored.bytes) ∧
      last ≤ stored.reservedRevisionEnd

theorem Vacant.keeps {disk' : Disk} (h : Vacant disk last)
    (hkeeps : KeepsIdentity disk disk') : Vacant disk' last := fun v hv => h v (hkeeps v hv)

theorem World.Reserved.vacant {world : World} (h : world.Reserved)
    (hlast : last ≤ world.identity.reservedRevisionEnd) : Vacant world.disk last := by
  intro v hv
  obtain ⟨stored, hencodable, hv, _, hle⟩ := h.stored v hv
  exact .inr ⟨stored, hencodable, hv, hlast.trans hle⟩

theorem Vacant.survive (h : Vacant disk last)
    (pick : Bytes → Nat × Nat) : Vacant (disk.survive pick) last := by
  intro v hv
  rw [Directory.possible_survive, List.mem_singleton] at hv
  obtain ⟨w, hw, hlive⟩ := disk.exists_survive pick identityFilename
  rw [hlive] at hv
  rcases h w hw with ⟨rfl, hlast⟩ | ⟨stored, hencodable, rfl, hle⟩
  · exact .inl ⟨hv, hlast⟩
  · refine .inr ⟨stored, hencodable, ?_, hle⟩
    rw [hv]
    simp [File.cut, File.stable]

/-- The identity that a reader finds. -/
theorem Vacant.of_readIdentity (h : Vacant disk last)
    {faults : ReadFaults} (hread : readIdentity disk faults = .ok identity) :
    identity.Encodable ∧ last ≤ identity.reservedRevisionEnd := by
  obtain ⟨file, hlive, hdecode⟩ := readIdentity_eq_ok hread
  rcases h _ (disk.live_mem_possible _) with ⟨hnone, _⟩ | ⟨stored, hencodable, hstored, hle⟩
  · rw [hlive] at hnone
    cases hnone
  · rw [hlive, Option.some.injEq] at hstored
    rw [hstored, File.stable] at hdecode
    simp only [decodeIdentity_bytes hencodable, Except.ok.injEq] at hdecode
    subst hdecode
    exact ⟨hencodable, hle⟩

/-! ### Starting -/

/-- What a reservation on a directory without an owner leaves. -/
theorem Vacant.reserve (h : Vacant disk last)
    (hencodable : identity.Encodable) (hlast : last ≤ identity.reservedRevisionEnd)
    (recovered : Nat) (faults : InstallFaults) :
    let result := reserveRevisions identity recovered defaultRevisionReservation faults disk
    Vacant result.2 last ∧ ∀ updated range, result.1 = .ok (updated, range) →
      (∀ manifest, World.Reserved ⟨result.2, updated, manifest⟩) ∧
      range.first = identity.reservedRevisionEnd + 1 ∧
      range.end_ = updated.reservedRevisionEnd ∧
      range.end_ = identity.reservedRevisionEnd + defaultRevisionReservation := by
  have hrange : defaultRevisionReservation < 2 ^ 64 := by decide
  have hcases := reserveRevisions_cases hencodable hrange recovered faults disk
  intro result
  change Reserves identity recovered disk result.1 result.2 at hcases
  generalize hresult : result = reserved at hcases ⊢
  obtain ⟨outcome, disk'⟩ := reserved
  -- an identity that was installed or not is past everything that was handed out
  have hinstalled : ∀ {updated : Identity} {outcome : Outcome Error Unit},
      updated.Encodable → identity.reservedRevisionEnd < updated.reservedRevisionEnd →
      Installed disk .identity updated.bytes outcome disk' → Vacant disk' last := by
    intro updated outcome hupdated hgrows hinstalled v hv
    rcases hinstalled.final v hv with rfl | hold
    · exact .inr ⟨updated, hupdated, rfl, hlast.trans hgrows.le⟩
    · exact h v hold
  cases hcases with
  | refused e => exact ⟨h, by simp⟩
  | failed updated installed reported _ ne encodable same grows hdisk =>
    exact ⟨hinstalled encodable grows hdisk, fun updated range heq => absurd heq (ne _)⟩
  | granted updated range _ encodable same first end_ grows recovered_le hdisk =>
    refine ⟨hinstalled encodable grows hdisk, ?_⟩
    intro updated' range' heq
    obtain ⟨rfl, rfl⟩ : updated = updated' ∧ range = range' := by simpa using heq
    have hexact := reserveRevisions_eq_ok hresult
    refine ⟨fun manifest => ⟨encodable, fun v hv => ?_⟩, first, end_, ?_⟩
    · exact ⟨updated, encodable, hdisk.possible_of_ok v hv, rfl, le_rfl⟩
    · have hbound := hencodable.reserved
      rw [hexact] at grows
      rw [end_, hexact]
      simp only [u64, defaultRevisionReservation] at grows ⊢
      omega

/-- The allocator over a range that was just granted. -/
theorem runtimeAllocator_within {updated : Identity} {range : RevisionRange} {current : Nat}
    (hlast : last ≤ identity.reservedRevisionEnd)
    (hfirst : range.first = identity.reservedRevisionEnd + 1)
    (hend : range.end_ = updated.reservedRevisionEnd)
    (hsize : range.end_ = identity.reservedRevisionEnd + defaultRevisionReservation)
    {a : RangeAllocator} (ha : runtimeAllocator current range = some a) :
    a.Within last updated.reservedRevisionEnd := by
  unfold runtimeAllocator newRangeAllocator at ha
  split at ha
  · next hnew =>
    split at hnew
    · obtain rfl := Option.some.inj ha
      obtain rfl := Except.ok.inj hnew
      refine ⟨⟨?_, fun _ => ?_⟩, hend, fun _ => ?_⟩
      · simp only
        omega
      · simp only
        omega
      · simp only
        omega
    · cases hnew
  · cases ha

/-- What a start leaves: an owner, or a directory that is still vacant. -/
def StartsWell (last : Nat) (result : Outcome StartError OpenedRuntime × Disk) : Prop :=
  Vacant result.2 last ∧ ∀ opened, result.1 = .ok opened →
    opened.engine.Owning ⟨result.2, opened.identity, opened.manifest⟩ last

theorem StartsWell.of_error (h : Vacant disk last)
    {outcome : Outcome StartError OpenedRuntime} (hne : ∀ opened, outcome ≠ .ok opened) :
    StartsWell last (outcome, disk) := ⟨h, fun opened heq => absurd heq (hne opened)⟩

theorem StartsWell.andStart {α : Type} {first : Outcome StartError α × Disk}
    {next : α → Disk → Outcome StartError OpenedRuntime × Disk} (h : Vacant first.2 last)
    (hnext : ∀ a, first.1 = .ok a → StartsWell last (next a first.2)) :
    StartsWell last (andStart first next) := by
  obtain ⟨outcome, disk⟩ := first
  cases outcome with
  | ok a => exact hnext a rfl
  | error | panic => exact .of_error h (by simp)

theorem structuredErrors_snd {α : Type} (step : Outcome Error α × Disk) :
    (structuredErrors step).2 = step.2 := by
  obtain ⟨outcome, disk⟩ := step
  cases outcome <;> rfl

theorem structuredErrors_eq_ok {α : Type} {step : Outcome Error α × Disk} {a : α}
    (h : (structuredErrors step).1 = .ok a) : step.1 = .ok a := by
  obtain ⟨outcome, disk⟩ := step
  cases outcome with
  | ok b => exact congrArg Outcome.ok (Outcome.ok.inj h)
  | error e => cases h
  | panic => cases h

theorem openRuntime_startsWell {config : Config} {manifest : Manifest}
    (hlast : last ≤ identity.reservedRevisionEnd)
    (hreserved : World.Reserved ⟨disk, identity, manifest⟩) (hlimits : config.log.limits.Valid)
    (hpath : ∃ revision, config.log.path = walName revision)
    (hallocator : ∀ a, config.allocator = some a → a.Within last identity.reservedRevisionEnd) :
    StartsWell last (openRuntime config identity manifest disk) := by
  unfold openRuntime
  split
  · exact .of_error (hreserved.vacant hlast) (by simp)
  next engine hnew =>
  refine ⟨hreserved.vacant hlast, fun opened heq => ?_⟩
  obtain rfl := Outcome.ok.inj heq
  have ho := opened_of_newState hnew
  exact ⟨ho.limitsValid, ho.log ▸ hlimits, ho.log ▸ hpath, hreserved,
    ho.allocator ▸ hallocator, hlast⟩

/-- A recovery that fails has touched the log and the identity at most. -/
theorem recoverDatabase_vacant (h : Vacant disk last) (limits : Limits)
    (faults : RecoveryFaults) : Vacant (recoverDatabase limits faults disk).2 last := by
  unfold recoverDatabase
  split
  · exact h
  · exact h
  next loaded hload =>
  have hloads := loads_of_loadDatabase hload
  obtain ⟨hencodable, hlast⟩ := h.of_readIdentity hloads.identity
  have hstore : ∀ file, Vacant (disk.store loaded.manifest.walFile file) last := by
    intro file
    refine h.keeps (.store ?_ file)
    rw [walFile_of_readManifest hloads.manifest]
    exact identityFilename_ne_walName _
  simp only
  generalize applyWALTail loaded.manifest.walFile loaded.file loaded.replay.tail faults.tail
    = applied
  obtain ⟨outcome, file⟩ := applied
  cases outcome with
  | error | panic => exact hstore file
  | ok u =>
    simp only
    split
    · exact hstore file
    · unfold reserveRecovered
      split
      · exact hstore file
      · have hreserve := ((hstore file).reserve hencodable hlast loaded.replay.recoveredRevision
          faults.reserve).1
        revert hreserve
        generalize reserveRevisions loaded.identity loaded.replay.recoveredRevision
          defaultRevisionReservation faults.reserve (disk.store loaded.manifest.walFile file)
            = reserved
        obtain ⟨outcome, disk'⟩ := reserved
        intro hreserve
        cases outcome <;> exact hreserve

theorem recoverRuntime_startsWell (h : Vacant disk last)
    (hlimits : limits.Valid) (queueCapacity : Int) (faults : RecoverFaults) :
    StartsWell last (recoverRuntime limits queueCapacity faults disk) := by
  have hvacant := recoverDatabase_vacant h limits faults.recovery
  refine StartsWell.andStart (by rwa [structuredErrors_snd]) fun recovered hrecovered => ?_
  rw [structuredErrors_snd]
  have hok : recoverDatabase limits faults.recovery disk
      = (.ok recovered, (recoverDatabase limits faults.recovery disk).2) :=
    Prod.ext (structuredErrors_eq_ok hrecovered) rfl
  obtain ⟨loaded, hload, hreserve, hresult⟩ := recoverDatabase_eq_ok hok
  have hloads := loads_of_loadDatabase hload
  obtain ⟨hencodable, hlast⟩ := h.of_readIdentity hloads.identity
  have hwal := walFile_of_readManifest hloads.manifest
  have hstore : Vacant (disk.store loaded.manifest.walFile loaded.repaired) last := by
    refine h.keeps (.store ?_ _)
    rw [hwal]
    exact identityFilename_ne_walName _
  have hspec := (hstore.reserve hencodable hlast loaded.replay.recoveredRevision
    faults.recovery.reserve).2 recovered.identity recovered.allocation
    (congrArg Prod.fst hreserve)
  rw [hreserve] at hspec
  obtain ⟨hreserved, hfirst, hend, hsize⟩ := hspec
  have hmanifest : recovered.manifest = loaded.manifest := by rw [hresult]
  refine StartsWell.andStart (by rwa [structuredErrors_snd]) fun log hlog => ?_
  rw [structuredErrors_snd]
  obtain ⟨file, replay, _, _, _, _, _, hopened⟩ :=
    openWALForAppend_eq_ok (structuredErrors_eq_ok hlog)
  refine openRuntime_startsWell ?_ (hreserved _) ?_ ?_ fun a ha => ?_
  · omega
  · rw [show (recoveredConfig limits queueCapacity recovered faults.order log).log = log from rfl,
      hopened]
    exact hlimits
  · refine ⟨loaded.manifest.walStartRevision, ?_⟩
    rw [show (recoveredConfig limits queueCapacity recovered faults.order log).log = log from rfl,
      hopened, ← hwal, hmanifest]
  · exact runtimeAllocator_within hlast hfirst hend hsize ha

theorem createWAL_eq_ok {name : Bytes} {header : WALHeader}
    {fault : Option (CreateStage × Fault)} {log : WAL}
    (h : (createWAL name header limits fault disk).1 = .ok log) :
    log.path = name ∧ log.limits = limits := by
  unfold createWAL at h
  split at h
  · cases h
  split at h
  · cases h
  split at h
  · obtain rfl := Outcome.ok.inj h
    exact ⟨rfl, rfl⟩
  · split at h <;> cases h
  · cases h
  · cases h

/-- The first generation, once the identity has reserved its range. -/
theorem initializeGeneration_startsWell
    (hlimits : limits.Valid) (queueCapacity : Int) (faults : InitializeFaults)
    {allocation : RevisionRange} (hlast : last ≤ identity.reservedRevisionEnd)
    (hreserved : ∀ manifest, World.Reserved ⟨disk, identity, manifest⟩)
    (hallocator : ∀ a, runtimeAllocator 0 allocation = some a →
      a.Within last identity.reservedRevisionEnd) :
    StartsWell last (initializeGeneration limits queueCapacity faults identity allocation
      disk) := by
  unfold initializeGeneration
  split
  · exact .of_error ((hreserved (firstManifest identity.databaseID [])).vacant hlast) (by simp)
  next snapshot digest _ =>
  have hsnapshot := createSyncedFile_keepsIdentity 0 snapshot faults.snapshot
    faults.closeSnapshot disk
  have hvacant : ∀ {disk'}, KeepsIdentity disk disk' → Vacant disk' last := fun hkeeps =>
    ((hreserved (firstManifest identity.databaseID digest)).vacant hlast).keeps hkeeps
  refine StartsWell.andStart (hvacant hsnapshot) fun _ _ => ?_
  have hwal := hsnapshot.trans (createWAL_keepsIdentity 1 ⟨identity.databaseID, 1, 1⟩ limits
    faults.wal _)
  refine StartsWell.andStart (by rw [structuredErrors_snd]; exact hvacant hwal) fun log hlog => ?_
  rw [structuredErrors_snd]
  obtain ⟨hpath, hlog⟩ := createWAL_eq_ok (structuredErrors_eq_ok hlog)
  have hmanifest := hwal.trans (installManifest_keepsIdentity
    (firstManifest identity.databaseID digest) 0 faults.manifest _)
  refine StartsWell.andStart (by rw [structuredErrors_snd]; exact hvacant hmanifest) fun _ _ => ?_
  rw [structuredErrors_snd]
  exact openRuntime_startsWell hlast ((hreserved (firstManifest identity.databaseID digest)).keeps
    hmanifest) (hlog ▸ hlimits) ⟨1, hpath⟩ hallocator

theorem initializeRuntime_startsWell (h : Vacant disk last)
    (habsent : disk.live identityFilename = none) (hlimits : limits.Valid)
    (queueCapacity : Int) (faults : InitializeFaults) :
    StartsWell last (initializeRuntime limits queueCapacity faults disk) := by
  -- a directory without an identity has never handed out a revision
  obtain rfl : last = 0 := by
    rcases h _ (disk.live_mem_possible _) with ⟨_, hlast⟩ | ⟨stored, _, hstored, _⟩
    · exact hlast
    · rw [habsent] at hstored
      cases hstored
  unfold initializeRuntime
  split
  · exact .of_error h (by simp)
  · exact .of_error h (by simp)
  split
  · exact .of_error h (by simp)
  have hcreates := loadOrCreateIdentity_cases faults.create disk
  have hvacant : Vacant (loadOrCreateIdentity faults.create disk).2 0 := by
    generalize loadOrCreateIdentity faults.create disk = created at hcreates
    obtain ⟨outcome, disk'⟩ := created
    have hinstalled : ∀ {identity : Identity} {outcome : Outcome Error Unit}, identity.Encodable →
        Installed disk .identity identity.bytes outcome disk' → Vacant disk' 0 := by
      intro identity outcome hencodable hinstalled v hv
      rcases hinstalled.final v hv with rfl | hold
      · exact .inr ⟨identity, hencodable, rfl, Nat.zero_le _⟩
      · exact h v hold
    cases hcreates with
    | unchanged reported ne => exact h
    | failed identity installed reported _ ne encodable absent hdisk
    | created identity _ encodable new absent hdisk => exact hinstalled encodable hdisk
  refine StartsWell.andStart (by rwa [structuredErrors_snd]) fun value hvalue => ?_
  rw [structuredErrors_snd]
  obtain ⟨identity, created⟩ := value
  simp only
  split
  · exact .of_error hvacant (by simp)
  next hcreated =>
  have hvalue := structuredErrors_eq_ok hvalue
  have hencodable : identity.Encodable := by
    rw [not_not.mp hcreated] at hvalue
    rw [hvalue] at hcreates
    generalize (loadOrCreateIdentity faults.create disk).2 = disk' at hcreates
    cases hcreates with
    | unchanged reported ne => exact absurd rfl (ne identity)
    | failed _ installed reported _ ne encodable absent hdisk => exact absurd rfl (ne _)
    | created _ _ encodable new absent hdisk => exact encodable
  obtain ⟨hreserve, hok⟩ := hvacant.reserve hencodable (Nat.zero_le _) 0 faults.reserve
  refine StartsWell.andStart (by rwa [structuredErrors_snd]) fun value hvalue => ?_
  rw [structuredErrors_snd]
  obtain ⟨updated, allocation⟩ := value
  obtain ⟨hreserved, hfirst, hend, hsize⟩ := hok updated allocation (structuredErrors_eq_ok hvalue)
  exact initializeGeneration_startsWell hlimits queueCapacity faults (Nat.zero_le _) hreserved
    fun a ha => runtimeAllocator_within (Nat.zero_le _) hfirst hend hsize ha

theorem start_startsWell (h : Vacant disk last) (limits : Limits)
    (queueCapacity : Int) (faults : StartFaults) :
    StartsWell last (start limits queueCapacity faults disk) := by
  unfold start
  split
  · exact .of_error h (by simp)
  · exact .of_error h (by simp)
  next hvalidate _ =>
  have hlimits := Limits.valid_of_validate hvalidate
  split
  · exact recoverRuntime_startsWell h hlimits queueCapacity faults.recover
  · next habsent =>
    exact initializeRuntime_startsWell h (by simpa using habsent) hlimits queueCapacity
      faults.creation

end GapDB
