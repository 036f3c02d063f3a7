import GapDB.Server.Lifetimes

/-!
# The birth of a database

A database comes into being with its first manifest. The files that this manifest names were synced
before, but only the installation of the manifest syncs the directory: while that may still fail, a
power loss can take any of them. No commit was made then, so that no ledger is lost.
-/

namespace GapDB

open Storelib DatabaseState

variable {name : Bytes} {identity : Identity} {allocation : RevisionRange}

/-- No manifest was ever installed. -/
def Unnamed (disk : Disk) : Prop := ∀ v ∈ disk.possible manifestFilename, v = none

/-- The ledger of a new database. -/
def Ledger.new (identity : Identity) : Ledger where
  databaseID := identity.databaseID
  commits := []
  reserved := identity.reservedRevisionEnd

/-- The first generation of a database. -/
def Identity.manifest (identity : Identity) : Manifest :=
  firstManifest identity.databaseID (SnapshotState.digest ⟨0, []⟩ identity.databaseID)

def Identity.snapshot (identity : Identity) : Bytes :=
  SnapshotState.bytes ⟨0, []⟩ identity.databaseID

/-- The first generation was about to be installed; each of its files may be missing. -/
structure Emerging (limits : Limits) (identity : Identity) (disk : Disk) : Prop where
  encodable : identity.manifest.Encodable
  stored : SnapshotState.Encodable limits ⟨0, []⟩
  identified : Identifies (.new identity) disk
  current : ∀ v ∈ disk.possible manifestFilename,
    v = none ∨ v = some (.stable identity.manifest.bytes)
  snapshot : ∀ v ∈ disk.possible (snapshotName 0), v = none ∨ v = some (.stable identity.snapshot)
  log : ∀ v ∈ disk.possible (walName 1),
    v = none ∨ ∃ file, v = some file ∧ LogFile limits identity.manifest.header [] 0 file

/-- The directory of a database that has no commit and perhaps no complete generation. -/
def Unborn (limits : Limits) (disk : Disk) : Prop :=
  Unnamed disk ∨ ∃ identity, Emerging limits identity disk

theorem logOk_nil (limits : Limits) (after reserved : Nat) : LogOk limits after reserved [] :=
  ⟨by simp, by simp, by simp⟩

theorem logFile_new (limits : Limits) (header : WALHeader) (safe : Nat) :
    LogFile limits header [] safe (.stable header.bytes) := by
  refine ⟨⟨[], .inl rfl, ?_⟩, ?_⟩
  · exact List.prefix_append_of_prefix (List.prefix_append _ _)
  · rw [List.take_nil]
    exact (WALHeader.bytes_length header).ge

section

variable {limits : Limits} {queueCapacity : Int} {disk disk' : Disk} {loaded : Loaded}

/-! ### Before the first manifest -/

theorem Unnamed.weaken (h : Unnamed disk) (hweakens : Weakens disk disk' manifestFilename) :
    Unnamed disk' :=
  hweakens.forall (fun _ _ hv => by rw [hv]; rfl) h

theorem Unnamed.not_loads (h : Unnamed disk) : ¬ Loads disk limits loaded := by
  intro hloads
  obtain ⟨file, hlive, _⟩ := readManifest_eq_ok hloads.manifest
  have hnone := h _ (disk.live_mem_possible manifestFilename)
  rw [hlive] at hnone
  cases hnone

/-! ### With some files of the first generation -/

section

variable (h : Emerging limits identity disk)

include h

theorem Emerging.weaken (hidentity : Weakens disk disk' identityFilename)
    (hcurrent : Weakens disk disk' manifestFilename)
    (hsnapshot : Weakens disk disk' (snapshotName 0)) (hlog : Weakens disk disk' (walName 1)) :
    Emerging limits identity disk' := by
  have hstable : ∀ (bytes : Bytes) (v : Option File) (keep : Nat),
      v = none ∨ v = some (.stable bytes) →
      v.map (File.cut · keep) = none ∨ v.map (File.cut · keep) = some (.stable bytes) := by
    rintro bytes v keep (rfl | hv)
    · exact .inl rfl
    · exact .inr (map_cut_stable hv keep)
  refine ⟨h.encodable, h.stored, h.identified.weaken hidentity,
    hcurrent.forall (hstable _) h.current, hsnapshot.forall (hstable _) h.snapshot,
    hlog.forall ?_ h.log⟩
  rintro _ keep (rfl | ⟨file, rfl, hfile⟩)
  · exact .inl rfl
  · exact .inr ⟨_, rfl, hfile.cut keep⟩

theorem Emerging.repaired (hrepairs : Repairs limits (.new identity) disk disk') :
    Emerging limits identity disk' := by
  refine ⟨h.encodable, h.stored, hrepairs.identity h.identified,
    fun v hv => h.current v (hrepairs.current hv),
    fun v hv => h.snapshot v (hrepairs.snapshot identity.manifest h.encodable hv), ?_⟩
  intro v' hv'
  obtain ⟨v, hv, rfl | ⟨file, file', rfl, rfl, hfile⟩⟩ :=
    hrepairs.log identity.manifest [] [] h.encodable rfl rfl v' hv'
  · exact h.log v' hv
  · obtain ⟨_, heq, hlog⟩ := (h.log _ hv).resolve_left (by simp)
    cases heq
    exact .inr ⟨file', rfl, hfile hlog⟩

/-- The generation, if its files are there. -/
theorem Emerging.covers (hsnapshot : (disk.live (snapshotName 0)).isSome)
    (hlog : (disk.live (walName 1)).isSome) :
    Covers limits (.new identity) disk.sync identity.manifest ⟨0, []⟩ [] [] := by
  refine ⟨h.encodable, rfl, h.stored, rfl, rfl, ?_, rfl, rfl, .refl _, ?_⟩
  · intro v hv
    rw [Directory.possible_sync, List.mem_singleton] at hv
    rw [hv]
    exact (h.snapshot _ (disk.live_mem_possible _)).resolve_left
      (Option.isSome_iff_ne_none.mp hsnapshot)
  · intro v hv
    rw [Directory.possible_sync, List.mem_singleton] at hv
    rw [hv]
    exact (h.log _ (disk.live_mem_possible _)).resolve_left (Option.isSome_iff_ne_none.mp hlog)

/-- A load that succeeds has found all files. -/
theorem Emerging.sound_of_loads (hloads : Loads disk limits loaded) :
    Sound limits (.new identity) disk.sync := by
  obtain ⟨stored, hencodable, hstored, hid, _⟩ :=
    h.identified _ (disk.live_mem_possible identityFilename)
  have hidentity : loaded.identity = stored :=
    Outcome.ok.inj (hloads.identity.symm.trans (readIdentity_of_live hencodable hstored))
  have hcurrent : disk.live manifestFilename = some (.stable identity.manifest.bytes) := by
    obtain ⟨file, hlive, _⟩ := readManifest_eq_ok hloads.manifest
    exact (h.current _ (disk.live_mem_possible _)).resolve_left (by simp [hlive])
  have hsame : loaded.manifest = identity.manifest := by
    have hloaded := hloads.manifest
    rw [hidentity, show stored.databaseID = identity.manifest.databaseID from hid] at hloaded
    exact Outcome.ok.inj (hloaded.symm.trans (readManifest_of_live h.encodable hcurrent le_rfl))
  refine ⟨logOk_nil .., le_rfl, h.identified.weaken (sync_weakens disk _), fun v hv => ?_⟩
  rw [Directory.possible_sync, List.mem_singleton] at hv
  refine ⟨_, _, _, _, hv.trans hcurrent, h.covers ?_ ?_⟩
  · obtain ⟨encoded, hread, _⟩ := Outcome.bind_eq_ok.mp hloads.snapshot
    obtain ⟨file, hlive, _⟩ := readFile_eq_ok hread
    rw [hsame] at hlive
    exact Option.isSome_iff_exists.mpr ⟨file, hlive⟩
  · have hlive := hloads.live
    rw [hsame] at hlive
    exact Option.isSome_iff_exists.mpr ⟨_, hlive⟩

end

/-! ### Recoveries of what is not there -/

/-- A machine without a commit so far. -/
def Machine.Begun (limits : Limits) (m : Machine) : Prop :=
  (∃ ledger, ledger.all = [] ∧ ledger.cuts = [] ∧ m.Settled limits ledger) ∨
    m.process = none ∧ Unborn limits m.disk

/-- The machine after the start of an owner. -/
def Machine.started (result : Outcome StartError OpenedRuntime × Disk) : Machine :=
  match result with
  | (.ok opened, disk) =>
    ⟨disk, some ⟨opened.engine, opened.identity, opened.manifest, opened.manifest.generation,
      .idle⟩⟩
  | (_, disk) => ⟨disk, none⟩

theorem Machine.step_start (limits : Limits) (queueCapacity : Int) (faults : StartFaults)
    (disk : Disk) : Machine.step limits queueCapacity ⟨disk, none⟩ (.start faults)
      = .started (start limits queueCapacity faults disk) := by
  simp only [Machine.step]
  generalize start limits queueCapacity faults disk = result
  obtain ⟨outcome, disk'⟩ := result
  cases outcome <;> rfl

/-- Without a load nothing is recovered, and nothing is written. -/
theorem recoverDatabase_not_loads (h : ∀ loaded, ¬ Loads disk limits loaded)
    (faults : RecoveryFaults) : (recoverDatabase limits faults disk).2 = disk := by
  unfold GapDB.recoverDatabase
  split
  · rfl
  · rfl
  · next loaded hload => exact absurd (loads_of_loadDatabase hload) (h loaded)

theorem Unborn.recoverRuntime (h : Unborn limits disk) (hl : limits.Valid)
    (faults : RecoverFaults) :
    (Machine.started (recoverRuntime limits queueCapacity faults disk)).Begun limits := by
  have hfailed : Unborn limits (GapDB.recoverRuntime limits queueCapacity faults disk).2 := by
    rw [recoverRuntime_snd]
    rcases h with h | ⟨identity, h⟩
    · rw [recoverDatabase_not_loads fun loaded => h.not_loads]
      exact .inl h
    · exact .inr ⟨identity,
        h.repaired (recoverDatabase_repairs (fun loaded => h.sound_of_loads) faults.recovery)⟩
  generalize hresult : GapDB.recoverRuntime limits queueCapacity faults disk = result at hfailed
  obtain ⟨outcome, disk'⟩ := result
  cases outcome with
  | error | panic => exact .inr ⟨rfl, hfailed⟩
  | ok opened =>
    obtain ⟨loaded, _, _, hloads, _⟩ := recoverRuntime_eq_ok hresult
    rcases h with h | ⟨identity, h⟩
    · exact absurd hloads h.not_loads
    · obtain ⟨commits, reserved, view, hinitial, _, _, hruns⟩ :=
        (h.sound_of_loads hloads).recovers hl h.identified hresult
      obtain rfl := List.prefix_nil.mp hinitial
      exact .inl ⟨_, rfl, rfl, _, _, hruns⟩

/-! ### The first generation -/

theorem Machine.begun_andStart {α : Type} {first : Outcome StartError α × Disk}
    {next : α → Disk → Outcome StartError OpenedRuntime × Disk} (hfailed : Unborn limits first.2)
    (hok : ∀ a, first.1 = .ok a → (Machine.started (next a first.2)).Begun limits) :
    (Machine.started (andStart first next)).Begun limits := by
  obtain ⟨outcome, disk⟩ := first
  cases outcome with
  | ok a => exact hok a rfl
  | error | panic => exact .inr ⟨rfl, hfailed⟩

/-- A file is created, or fails to be, and nothing else is touched. -/
structure CreatesFile (disk disk' : Disk) (name bytes : Bytes) (ok : Prop) : Prop where
  agree : ∀ n, n ≠ name → disk.Agree disk' n
  done : ok → disk'.live name = some (.stable bytes) ∧ disk'.older name = disk.possible name

variable {bytes : Bytes} {ok : Prop}

/-- A new name holds the file, unless a power loss takes it. -/
theorem CreatesFile.possible (h : CreatesFile disk disk' name bytes ok) (hok : ok)
    (hfree : disk.possible name = [none]) :
    disk'.possible name = [some (.stable bytes), none] := by
  rw [Directory.possible, (h.done hok).1, (h.done hok).2, hfree]

theorem CreatesFile.unnamed (h : CreatesFile disk disk' name bytes ok)
    (hne : manifestFilename ≠ name) (hunnamed : Unnamed disk) : Unnamed disk' := by
  intro v hv
  rw [(h.agree _ hne).possible_eq] at hv
  exact hunnamed v hv

theorem CreatesFile.of_create {fault : Option (CreateStage × BreakMode)} {ended : CreateEnd}
    (h : disk.create name bytes fault = (ended, disk')) (hok : ok → ended = .done) :
    CreatesFile disk disk' name bytes ok := by
  have hagree := fun n => @Directory.create_agree _ _ disk name bytes fault n
  rw [h] at hagree
  exact ⟨hagree, fun hdone => (Directory.create_done (hok hdone ▸ h)).2⟩

theorem createSyncedFile_creates (bytes : Bytes) (fault : Option (CreateStage × Fault))
    (close : Option OSErrorCategory) (disk : Disk) :
    CreatesFile disk (createSyncedFile name bytes fault close disk).2 name bytes
      ((createSyncedFile name bytes fault close disk).1 = .ok ()) := by
  unfold createSyncedFile
  generalize hcreate : disk.create name bytes _ = created
  obtain ⟨end_, disk'⟩ := created
  cases end_ with
  | done => cases close <;> exact .of_create hcreate fun _ => rfl
  | occupied | broke => cases fault <;> exact .of_create hcreate (by simp)

theorem createWAL_creates {header : WALHeader} (hheader : header.Encodable) (limits : Limits)
    (fault : Option (CreateStage × Fault)) (disk : Disk) :
    CreatesFile disk (createWAL name header limits fault disk).2 name header.bytes
        (∃ log, (createWAL name header limits fault disk).1 = .ok log) ∧
      ∀ log, (createWAL name header limits fault disk).1 = .ok log →
        log = { path := name, header, limits, storage := ⟨.stable header.bytes, []⟩,
                lastRevision := previousRevision header.firstRevision, durableThrough := 0 } := by
  unfold createWAL
  split
  · exact ⟨⟨fun n _ => .refl disk n, by simp⟩, by simp⟩
  rw [encodeWALHeader_bytes hheader]
  simp only
  generalize hcreate : disk.create name header.bytes _ = created
  obtain ⟨end_, disk'⟩ := created
  cases end_ with
  | done => exact ⟨.of_create hcreate fun _ => rfl, fun log hlog => (Outcome.ok.inj hlog).symm⟩
  | occupied => cases fault <;> exact ⟨.of_create hcreate (by simp), by simp⟩
  | broke stage mode =>
    cases fault with
    | none => exact ⟨.of_create hcreate (by simp), by simp⟩
    | some fault =>
      simp only
      split <;> exact ⟨.of_create hcreate (by simp), by simp⟩

theorem Identity.manifest_encodable (hid : ¬ identity.databaseID.isZero) :
    identity.manifest.Encodable :=
  ⟨hid, by simp [Identity.manifest, firstManifest], by simp [Identity.manifest, firstManifest], rfl,
    rfl, rfl, _, sha256_length _, rfl⟩

/-! ### The first owner -/

/-- A new database is opened like one that was recovered without a commit. -/
theorem initialConfig_eq (limits : Limits) (queueCapacity : Int) (identity : Identity) (log : WAL)
    (allocation : RevisionRange) :
    initialConfig limits queueCapacity identity log allocation
      = recoveredConfig limits queueCapacity
          ⟨identity, identity.manifest, ⟨0, []⟩, [], 0, 0, allocation, none⟩ [] log := by
  simp [initialConfig, recoveredConfig, replayedRecords, iterate, mentionedKeys, Identity.manifest,
    firstManifest]

theorem Emerging.runs {engine : DatabaseState} (hl : limits.Valid)
    (h : Emerging limits identity disk) (hidentity : identity.Encodable)
    (hsettled : ∀ name, disk.older name = [])
    (hcurrent : disk.live manifestFilename = some (.stable identity.manifest.bytes))
    (hsnapshot : (disk.live (snapshotName 0)).isSome)
    (hlog : disk.live (walName 1) = some (.stable identity.manifest.header.bytes))
    (hallocator : ∀ a, runtimeAllocator 0 allocation = some a →
      a.Within 0 identity.reservedRevisionEnd)
    (hengine : newState (initialConfig limits queueCapacity identity
      (identity.manifest.freshLog limits) allocation) = .ok engine) :
    Runs limits (.new identity) disk
      ⟨engine, identity, identity.manifest, identity.manifest.generation, .idle⟩
      identity.manifest ⟨⟨0, []⟩, [], [], [], []⟩ := by
  rw [initialConfig_eq] at hengine
  have hfinds : Finds limits (.new identity) disk
      ⟨identity, identity.manifest, ⟨0, []⟩, .stable identity.manifest.header.bytes,
        { header := identity.manifest.header, recoveredRevision := 0,
          completeOffset := walHeaderSize }⟩ [] [] 0 :=
    ⟨hidentity, rfl, le_rfl, hcurrent, h.covers hsnapshot (by rw [hlog]; rfl), logFile_new _ _ _,
      le_rfl, le_rfl, rfl, rfl, (List.append_nil _).symm⟩
  exact hfinds.runs hl (logOk_nil ..) rfl le_rfl hallocator hengine ⟨hsettled, rfl, rfl, hlog⟩
    (show 0 < 2 ^ 64 by decide)

/-- The storage names other than the identity are free, and were never used. -/
def Clean (disk : Disk) : Prop :=
  ∀ name : StorageName, name.bytes ≠ identityFilename → disk.possible name.bytes = [none]

theorem Clean.unnamed (h : Clean disk) : Unnamed disk := by
  intro v hv
  rw [show disk.possible manifestFilename = [none] from
    h .current identityFilename_ne_manifestFilename.symm] at hv
  exact List.mem_singleton.mp hv

section

variable (hl : limits.Valid) (queueCapacity : Int)
  (hallocator : ∀ a, runtimeAllocator 0 allocation = some a →
    a.Within 0 identity.reservedRevisionEnd)

include hl hallocator

/-- The last step: with its files in place the manifest is installed, and the owner opens. -/
theorem installFirst_begun (faults : InstallFaults) (hidentity : identity.Encodable)
    (hstate : SnapshotState.Encodable limits ⟨0, []⟩)
    (hidentified : Identifies (.new identity) disk) (hunnamed : Unnamed disk)
    (hsnapshots : disk.possible (snapshotName 0) = [some (.stable identity.snapshot), none])
    (hlogs : disk.possible (walName 1)
      = [some (.stable identity.manifest.header.bytes), none]) :
    (Machine.started (andStart (structuredErrors (installManifest identity.manifest 0 faults disk))
      fun _ disk => openRuntime (initialConfig limits queueCapacity identity
        (identity.manifest.freshLog limits) allocation) identity identity.manifest disk)).Begun
      limits := by
  have hencodable := Identity.manifest_encodable hidentity.id
  have hinstalled : Installed disk .current identity.manifest.bytes _ _ :=
    installManifest_cases hencodable 0 faults disk
  have hsnapshot := hinstalled.others (.snapshot 0) (manifestFilename_ne_snapshotName 0).symm
  have hlog := hinstalled.others (.wal 1) (manifestFilename_ne_walName 1).symm
  have hidentifies := fun v hv =>
    hidentified v (installManifest_keepsIdentity identity.manifest 0 faults disk v hv)
  generalize hresult : installManifest identity.manifest 0 faults disk = result at *
  obtain ⟨outcome, disk'⟩ := result
  have hemerging : Emerging limits identity disk' := by
    refine ⟨hencodable, hstate, hidentifies, ?_, ?_, ?_⟩
    · exact fun v hv => (hinstalled.final v hv).symm.imp_left (hunnamed v)
    · intro v hv
      have hold : v ∈ disk.possible (snapshotName 0) := hsnapshot.2 v hv
      rw [hsnapshots] at hold
      simpa [or_comm] using hold
    · intro v hv
      have hold : v ∈ disk.possible (walName 1) := hlog.2 v hv
      rw [hlogs] at hold
      simp only [List.mem_cons, List.not_mem_nil, or_false] at hold
      exact hold.symm.imp_right fun heq => ⟨_, heq, logFile_new _ _ _⟩
  refine Machine.begun_andStart (.inr ⟨identity, ?_⟩) fun _ hok => ?_
  · rw [structuredErrors_snd]
    exact hemerging
  rw [structuredErrors_snd]
  obtain ⟨hcurrent, hsettled⟩ := hinstalled.settled (structuredErrors_eq_ok hok)
  have hsome : (disk'.live (snapshotName 0)).isSome := by
    rw [show disk'.live (snapshotName 0) = _ from hsnapshot.1.trans (List.cons.inj hsnapshots).1]
    rfl
  have hlive : disk'.live (walName 1) = some (.stable identity.manifest.header.bytes) :=
    hlog.1.trans (List.cons.inj hlogs).1
  unfold openRuntime
  split
  · refine .inr ⟨rfl, .inr ⟨identity, hemerging⟩⟩
  next engine hengine =>
  exact .inl ⟨.new identity, rfl, rfl, _, _,
    hemerging.runs hl hidentity hsettled hcurrent hsome hlive hallocator hengine⟩

theorem initializeGeneration_begun (faults : InitializeFaults) (hclean : Clean disk)
    (hreserved : ∀ manifest, World.Reserved ⟨disk, identity, manifest⟩) :
    (Machine.started (initializeGeneration limits queueCapacity faults identity allocation
      disk)).Begun limits := by
  unfold initializeGeneration
  split
  · exact .inr ⟨rfl, .inl hclean.unnamed⟩
  next snapshot digest hencode =>
  obtain ⟨hstate, rfl, rfl⟩ := encodeSnapshot_eq_ok (by decide) hencode
  change SnapshotState.Encodable limits ⟨0, []⟩ at hstate
  change (Machine.started (andStart (createSyncedFile (snapshotName 0) identity.snapshot
      faults.snapshot faults.closeSnapshot disk) fun _ disk =>
    andStart (structuredErrors (createWAL (walName 1) identity.manifest.header limits
      faults.wal disk)) fun log disk =>
    andStart (structuredErrors (installManifest identity.manifest 0 faults.manifest disk))
      fun _ disk => openRuntime (initialConfig limits queueCapacity identity log allocation)
        identity identity.manifest disk)).Begun limits
  have hworld := hreserved identity.manifest
  have hidentity : identity.Encodable := hworld.encodable
  -- the snapshot
  have hfirst := @createSyncedFile_creates (snapshotName 0) identity.snapshot faults.snapshot
    faults.closeSnapshot disk
  have hunnamed := hfirst.unnamed (manifestFilename_ne_snapshotName 0) hclean.unnamed
  refine Machine.begun_andStart (.inl hunnamed) fun _ hsnapshot => ?_
  have hsnapshots := hfirst.possible hsnapshot
    (hclean (.snapshot 0) (identityFilename_ne_snapshotName 0).symm)
  have hagree := hfirst.agree
  generalize (createSyncedFile (snapshotName 0) identity.snapshot faults.snapshot
    faults.closeSnapshot disk).2 = disk₁ at *
  -- the log
  obtain ⟨hsecond, hnew⟩ := @createWAL_creates (walName 1) identity.manifest.header
    (Identity.manifest_encodable hidentity.id).header limits faults.wal disk₁
  refine Machine.begun_andStart ?_ fun log hlog => ?_
  · rw [structuredErrors_snd]
    exact .inl (hsecond.unnamed (manifestFilename_ne_walName 1) hunnamed)
  rw [structuredErrors_snd]
  obtain rfl := hnew log (structuredErrors_eq_ok hlog)
  refine installFirst_begun hl queueCapacity hallocator faults.manifest hidentity hstate ?_
    (hsecond.unnamed (manifestFilename_ne_walName 1) hunnamed) ?_ ?_
  · intro v hv
    rw [(hsecond.agree _ (identityFilename_ne_walName 1)).possible_eq,
      (hagree _ (identityFilename_ne_snapshotName 0)).possible_eq] at hv
    exact hworld.stored v hv
  · rw [(hsecond.agree _ (snapshotName_ne_walName 0 1)).possible_eq]
    exact hsnapshots
  · refine hsecond.possible ⟨_, structuredErrors_eq_ok hlog⟩ ?_
    rw [(hagree _ (snapshotName_ne_walName 0 1).symm).possible_eq]
    exact hclean (.wal 1) (identityFilename_ne_walName 1).symm

end

theorem Unnamed.installed_identity (h : Unnamed disk) {bytes : Bytes}
    {outcome : Outcome Error Unit} (hinstalled : Installed disk .identity bytes outcome disk') :
    Unnamed disk' := fun v hv =>
  h v ((hinstalled.others .current identityFilename_ne_manifestFilename.symm).2 v hv)

/-- The installed identity settles that no other storage name is in use. -/
theorem clean_of_installed {bytes : Bytes}
    (hfree : ∀ name : StorageName, name.bytes ≠ identityFilename → disk.live name.bytes = none)
    (hinstalled : Installed disk .identity bytes (.ok ()) disk') : Clean disk' := by
  intro name hne
  have hlive := (hinstalled.others name hne).1
  rw [Directory.possible, (hinstalled.settled rfl).2, hlive, hfree name hne]

theorem Clean.keeps (h : Clean disk) (hkeeps : KeepsSettled disk disk' [identityFilename]) :
    Clean disk' := by
  intro name hne
  obtain ⟨hlive, holder⟩ := List.cons.inj (h name hne)
  have hnot : name.bytes ∉ [identityFilename] := by simpa using hne
  rw [Directory.possible, (hkeeps.keeps name hnot).1, hlive, hkeeps.settled name hnot holder]

/-- The first range of revisions is reserved, and the first generation installed. -/
theorem initializeReserved_begun (hl : limits.Valid) (queueCapacity : Int)
    (faults : InitializeFaults) (hidentity : identity.Encodable)
    (hclean : Clean disk) (hvacant : Vacant disk 0) :
    (Machine.started (andStart (structuredErrors (reserveRevisions identity 0
        defaultRevisionReservation faults.reserve disk)) fun (identity, allocation) disk =>
      initializeGeneration limits queueCapacity faults identity allocation disk)).Begun limits := by
  have hclean' := hclean.keeps
    (reserveRevisions_keeps identity 0 defaultRevisionReservation faults.reserve disk)
  have hok := (hvacant.reserve hidentity (Nat.zero_le _) 0 faults.reserve).2
  refine Machine.begun_andStart ?_ fun ⟨updated, allocation⟩ hvalue => ?_
  · rw [structuredErrors_snd]
    exact .inl hclean'.unnamed
  · rw [structuredErrors_snd]
    obtain ⟨hreserved, hfirst, hend, hsize⟩ :=
      hok updated allocation (structuredErrors_eq_ok hvalue)
    exact initializeGeneration_begun hl queueCapacity
      (fun a ha => runtimeAllocator_within (Nat.zero_le _) hfirst hend hsize ha) faults hclean'
      hreserved

variable (h : Unborn limits disk)

include h

theorem Unborn.initializeRuntime (hl : limits.Valid)
    (habsent : disk.live identityFilename = none) (queueCapacity : Int)
    (faults : InitializeFaults) :
    (Machine.started (initializeRuntime limits queueCapacity faults disk)).Begun limits := by
  have hunnamed : Unnamed disk := by
    rcases h with h | ⟨identity, h⟩
    · exact h
    · obtain ⟨stored, _, hstored, _⟩ := h.identified _ (disk.live_mem_possible identityFilename)
      rw [habsent] at hstored
      cases hstored
  unfold GapDB.initializeRuntime
  split
  · exact .inr ⟨rfl, h⟩
  · exact .inr ⟨rfl, h⟩
  split
  · exact .inr ⟨rfl, h⟩
  next hempty =>
  have hfree : ∀ name, disk.live name = none := by
    intro name
    by_contra hsome
    have hmem := Directory.mem_readDir.mpr (Option.isSome_iff_ne_none.mpr hsome)
    rw [not_not.mp hempty] at hmem
    cases hmem
  have hcreates := loadOrCreateIdentity_cases faults.create disk
  generalize loadOrCreateIdentity faults.create disk = created at hcreates
  obtain ⟨outcome, disk'⟩ := created
  simp only at hcreates
  refine Machine.begun_andStart ?_ fun value hvalue => ?_
  · rw [structuredErrors_snd]
    cases hcreates with
    | unchanged reported ne => exact .inl hunnamed
    | failed identity outcome reported _ ne encodable absent installed
    | created identity _ encodable new absent installed =>
      exact .inl (hunnamed.installed_identity installed)
  · rw [structuredErrors_snd]
    obtain ⟨identity, created⟩ := value
    have hvalue := structuredErrors_eq_ok hvalue
    simp only at hvalue
    subst hvalue
    cases hcreates with
    | unchanged _ ne =>
      have hold : created = false := by
        cases created with
        | false => rfl
        | true => exact absurd rfl (ne identity)
      simp only [hold]
      exact .inr ⟨rfl, .inl hunnamed⟩
    | failed _ _ _ _ ne => exact absurd rfl (ne _)
    | created _ _ encodable new absent installed =>
      simp only [not_true_eq_false, if_false]
      refine initializeReserved_begun hl queueCapacity faults encodable
        (clean_of_installed (fun name _ => hfree name.bytes) installed) ?_
      intro v hv
      obtain ⟨hlive, hsettled⟩ := installed.settled rfl
      rw [Directory.possible, hsettled, List.mem_singleton] at hv
      exact .inr ⟨identity, encodable, hv.trans hlive, Nat.zero_le _⟩

/-! ### Runs from the beginning -/

theorem Unborn.survive (pick : Bytes → Nat × Nat) : Unborn limits (disk.survive pick) := by
  rcases h with h | ⟨identity, h⟩
  · exact .inl (h.weaken (.survive disk pick _))
  · exact .inr ⟨identity, h.weaken (.survive disk pick _) (.survive disk pick _)
      (.survive disk pick _) (.survive disk pick _)⟩

theorem Unborn.foreign (hname : ¬ isStorageName name)
    (file : Option File) : Unborn limits (disk.link name file) := by
  have hnames := hname
  simp only [isStorageName, decide_eq_true_eq, not_or] at hnames
  have hcurrent := Weakens.of_agree (disk.agree_link file (Ne.symm hnames.2.1))
  rcases h with h | ⟨identity, h⟩
  · exact .inl (h.weaken hcurrent)
  · have hspares : Spares disk (disk.link name file) identity.manifest :=
      foreign_spares h.encodable hname file
    have hfiles := hspares.files identity.manifest h.encodable (.inl rfl)
    exact .inr ⟨identity, h.weaken (.of_agree (disk.agree_link file (Ne.symm hnames.1))) hcurrent
      hfiles.1 hfiles.2⟩

theorem Unborn.step (queueCapacity : Int) (event : MachineEvent) :
    (Machine.step limits queueCapacity ⟨disk, none⟩ event).Begun limits := by
  cases event with
  | start faults =>
    rw [Machine.step_start]
    unfold GapDB.start
    split
    · exact .inr ⟨rfl, h⟩
    · exact .inr ⟨rfl, h⟩
    next hvalidate _ =>
    have hl := Limits.valid_of_validate hvalidate
    split
    · exact h.recoverRuntime hl faults.recover
    · next habsent =>
      exact h.initializeRuntime hl (by simpa using habsent) queueCapacity faults.creation
  | powerLoss pick => exact .inr ⟨rfl, h.survive pick⟩
  | foreign name file =>
    simp only [Machine.step]
    split
    · exact .inr ⟨rfl, h⟩
    · next hname => exact .inr ⟨rfl, h.foreign hname file⟩
  | work | submitSnapshot | runSnapshot | planCompaction | removeTarget | finishCompaction | close
    | kill => exact .inr ⟨rfl, h⟩

/-- The ledger is of commits that the events wrote to the log, in their order, has all that they
reported as durable, and lacks only records that had expired when they took a snapshot. -/
structure Ledger.Tells (ledger : Ledger) (limits : Limits) (queueCapacity : Int) (m : Machine)
    (events : List MachineEvent) : Prop where
  cuts : ledger.cuts ⊆ m.cuts limits queueCapacity events
  all : ledger.all.Sublist (m.frames limits queueCapacity events)
  safe : (m.acknowledgements limits queueCapacity events).Sublist ledger.safe

/-- Either no database has come into being, and no owner runs, or the directory, and the engine of
the owner if there is one, hold a ledger of the events. -/
def Machine.Grown (limits : Limits) (queueCapacity : Int) (m : Machine)
    (events : List MachineEvent) : Prop :=
  (∃ ledger, (m.run limits queueCapacity events).Settled limits ledger ∧
      ledger.Tells limits queueCapacity m events) ∨
    ((m.run limits queueCapacity events).process = none ∧
      Unborn limits (m.run limits queueCapacity events).disk) ∧
      m.acknowledgements limits queueCapacity events = []

theorem Unborn.run {last : Nat}
    (howned : Machine.Owned limits ⟨disk, none⟩ last) (events : List MachineEvent) :
    Machine.Grown limits queueCapacity ⟨disk, none⟩ events := by
  induction events generalizing disk last with
  | nil => exact .inr ⟨⟨rfl, h⟩, rfl⟩
  | cons event events ih =>
    have hnext := (@Machine.step_owned limits queueCapacity last _ howned event).1
    have hstep := h.step queueCapacity event
    rw [show Machine.frame ⟨disk, none⟩ event = none from rfl] at hnext
    -- without an owner, the event itself adds nothing
    suffices hgrown : (Machine.step limits queueCapacity ⟨disk, none⟩ event).Grown limits
        queueCapacity events from hgrown.imp_left fun ⟨ledger, hsettled, htells⟩ =>
      ⟨ledger, hsettled, htells.cuts, htells.all, htells.safe⟩
    generalize Machine.step limits queueCapacity ⟨disk, none⟩ event = m at hnext hstep
    rcases hstep with ⟨ledger, hempty, hcuts, hsettled⟩ | ⟨hprocess, hunborn⟩
    · obtain ⟨ledger', hrun, _, hcuts', hsublist, hsafe⟩ :=
        @Machine.run_settled limits queueCapacity ledger _ m hnext hsettled events
      rw [hempty] at hsublist
      rw [hcuts] at hcuts'
      exact .inl ⟨ledger', hrun, hcuts', hsublist, (List.sublist_append_right _ _).trans hsafe⟩
    · obtain ⟨disk', process⟩ := m
      cases hprocess
      exact ih hunborn hnext

end

/-- From an empty directory, over any number of owners, with failures and crashes anywhere. -/
theorem Machine.initial_run (limits : Limits) (queueCapacity : Int) (events : List MachineEvent) :
    Machine.initial.Grown limits queueCapacity events := by
  refine Unborn.run (.inl ?_) Machine.owned_initial events
  intro v hv
  exact List.mem_singleton.mp hv

end GapDB
