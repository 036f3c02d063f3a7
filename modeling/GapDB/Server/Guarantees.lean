import GapDB.Server.Births
import GapDB.Server.Restore

/-!
# What a client can rely on

Any events, from an empty directory: commands, snapshots, compactions, failures of the storage at
any step, crashes, power losses and restarts. What was reported as durable is there for every later
owner, can be read back from whatever a power loss leaves, and from a restored backup.
-/

namespace GapDB

open Storelib DatabaseState

variable {limits : Limits} {queueCapacity : Int} {events : List MachineEvent} {ledger : Ledger}

/-- What is left of a run: commits that were written, with all that were reported as durable, up to
the revision. From the times of the snapshots on, their records are what can be seen. -/
structure Remains (limits : Limits) (queueCapacity : Int) (events : List MachineEvent)
    (commits : List CommitFrame) (revision : Nat) (records : RecordMap) : Prop where
  durable : (Machine.initial.acknowledgements limits queueCapacity events).Sublist commits
  written : commits.Sublist (Machine.initial.frames limits queueCapacity events)
  revision : lastRevision 0 commits = revision
  records : ∀ now, (∀ time ∈ Machine.initial.cuts limits queueCapacity events, time ≤ now) →
    ∀ key, records.visible now key
      = RecordMap.visible (replayCommits (fun _ => none) commits) now key

/-- The first commits of a ledger remain, if they go as far as it is safe. -/
theorem Ledger.Tells.remains {commits : List CommitFrame} {revision : Nat} {records : RecordMap}
    (h : ledger.Tells limits queueCapacity .initial events)
    (hsafe : ledger.durable ≤ ledger.commits.length) (hinits : commits <+: ledger.all)
    (hlength : ledger.durable ≤ commits.length) (hrevision : lastRevision 0 commits = revision)
    (hrecords : Faded ledger.gone (replayCommits (fun _ => none) commits) records) :
    Remains limits queueCapacity events commits revision records where
  durable := by
    refine h.safe.trans ?_
    rw [← ledger.take_eq_safe hsafe hinits hlength]
    exact List.take_sublist _ _
  written := hinits.sublist.trans h.all
  revision := hrevision
  records now hnow key := by
    rcases hrecords key with heq | ⟨hnone, record, hrecord, time, htime, hexpired⟩
    · rw [RecordMap.visible, heq, RecordMap.visible]
    · have hgone := recordExpired_mono (hnow time (h.cuts htime)) hexpired
      simp [RecordMap.visible, hnone, hrecord, hgone, Option.filter]

/-- A recovery can read the directory, and finds what remains of the run. -/
def Readable (limits : Limits) (queueCapacity : Int) (events : List MachineEvent) (disk : Disk) :
    Prop :=
  ∃ loaded commits, loadDatabase disk limits {} = .ok loaded ∧
    Remains limits queueCapacity events commits loaded.replay.recoveredRevision
      (replayRecords loaded.snapshot.records loaded.replay.commits)

theorem Ledger.Tells.readable {disk : Disk}
    (h : ledger.Tells limits queueCapacity .initial events)
    (hsound : Sound limits ledger disk.sync) : Readable limits queueCapacity events disk := by
  obtain ⟨loaded, before, after, k, hloads, hfinds⟩ := hsound.loads
  refine ⟨loaded, before ++ after.take k, loadDatabase_of_loads hloads,
    h.remains hsound.safe hfinds.prefix_all hfinds.safe_le ?_ ?_⟩
  · rw [lastRevision_append, hfinds.covers.last, hfinds.recovered]
  · rw [hfinds.commits]
    exact hfinds.records

/-- After the first owner has closed the database, power is lost and another owner starts. -/
def sampleCrashed : List MachineEvent :=
  sampleClosed ++ [.powerLoss fun _ => (0, 0), .start sampleStart]

set_option maxRecDepth 1000000 in
theorem sampleClosed_goes :
    ((Machine.initial.run defaultLimits 0 sampleCrashed).run defaultLimits 0
      [.kill, .start sampleStart]).process.isSome ∧
    Machine.initial.acknowledgements defaultLimits 0 sampleClosed ≠ [] ∧
    Machine.initial.acknowledgements defaultLimits 0 sampleOwned ≠ [] ∧
    (Machine.started (recoverRuntime defaultLimits 0 sampleStart.recover
      (Machine.initial.run defaultLimits 0 sampleClosed).disk)).process.bind
        (fun p => (p.engine.records [97]).bind Record.expiresAt) = some 1000 ∧
    (Machine.initial.run defaultLimits 0 sampleCrashed).process.isSome := by
  decide +kernel

section

variable (limits : Limits) (queueCapacity : Int) (events : List MachineEvent)

/-- What the directory holds, whether an owner runs or not. -/
theorem Machine.initial_run_sound :
    (∃ ledger : Ledger, Sound limits ledger (Machine.initial.run limits queueCapacity events).disk ∧
        ledger.Tells limits queueCapacity .initial events) ∨
      Unborn limits (Machine.initial.run limits queueCapacity events).disk ∧
        Machine.initial.acknowledgements limits queueCapacity events = [] := by
  refine (Machine.initial_run limits queueCapacity events).imp ?_ (.imp_left And.right)
  rintro ⟨ledger, h, htells⟩
  refine ⟨ledger, ?_, htells⟩
  obtain ⟨last, _, howned⟩ :=
    @Machine.run_owned limits queueCapacity _ _ Machine.owned_initial events
  generalize Machine.initial.run limits queueCapacity events = m at h howned
  obtain ⟨disk, process⟩ := m
  cases process with
  | none => exact h
  | some p =>
    obtain ⟨_, hp⟩ := howned
    obtain ⟨_, _, hruns⟩ := h
    exact hruns.sound hp.reserved

/-! ### Owners -/

/-- What the engine of an owner holds, after whatever happened to the directory. -/
theorem Machine.initial_run_records {p : Process}
    (hp : (Machine.initial.run limits queueCapacity events).process = some p) :
    ∃ commits, Remains limits queueCapacity events commits p.engine.current p.engine.records := by
  rcases Machine.initial_run limits queueCapacity events with ⟨ledger, h, htells⟩ | ⟨⟨hnone, _⟩, _⟩
  · rw [Machine.Settled, hp] at h
    obtain ⟨active, view, hruns⟩ := h
    exact ⟨ledger.commits, htells.remains hruns.holds.safe (List.prefix_append _ _)
      hruns.holds.safe (hruns.holds.current_eq hruns.covers) hruns.holds.records⟩
  · cases hp.symm.trans hnone

theorem Machine.initial_run_records_sampleCrashed :
    ∃ p ∈ (Machine.initial.run defaultLimits 0 sampleCrashed).process, ∃ commits,
      Remains defaultLimits 0 sampleCrashed commits p.engine.current p.engine.records := by
  obtain ⟨p, hp⟩ := Option.isSome_iff_exists.mp sampleClosed_goes.2.2.2.2
  exact ⟨p, hp, Machine.initial_run_records _ _ _ hp⟩

/-- Two owners of one directory, whatever happened in between, own the same database. -/
theorem databaseID_never_changes (later : List MachineEvent) {p p' : Process}
    (hp : (Machine.initial.run limits queueCapacity events).process = some p)
    (hp' : ((Machine.initial.run limits queueCapacity events).run limits queueCapacity
      later).process = some p') :
    p'.identity.databaseID = p.identity.databaseID := by
  rcases Machine.initial_run limits queueCapacity events with ⟨ledger, h, _⟩ | ⟨⟨hnone, _⟩, _⟩
  · obtain ⟨last, _, howned⟩ :=
      @Machine.run_owned limits queueCapacity _ _ Machine.owned_initial events
    obtain ⟨ledger', h', hleads⟩ := Machine.run_settled howned h later
    rw [Machine.Settled, hp] at h
    rw [Machine.Settled, hp'] at h'
    obtain ⟨_, _, hruns⟩ := h
    obtain ⟨_, _, hruns'⟩ := h'
    rw [hruns.databaseID, hruns'.databaseID, hleads.databaseID]
  · cases hp.symm.trans hnone

theorem databaseID_never_changes_sampleCrashed :
    ∃ p ∈ (Machine.initial.run defaultLimits 0 sampleCrashed).process,
    ∃ p' ∈ ((Machine.initial.run defaultLimits 0 sampleCrashed).run defaultLimits 0
      [.kill, .start sampleStart]).process, p'.identity.databaseID = p.identity.databaseID := by
  obtain ⟨p, hp⟩ := Option.isSome_iff_exists.mp sampleClosed_goes.2.2.2.2
  obtain ⟨p', hp'⟩ := Option.isSome_iff_exists.mp sampleClosed_goes.1
  exact ⟨p, hp, p', hp', databaseID_never_changes _ _ _ _ hp hp'⟩

/-- Every engine that a recovery opens: its log continues the snapshot, and it resumes after what
remains of the run. -/
theorem recovered_engine_resumes (hl : limits.Valid) {faults : RecoverFaults}
    {opened : OpenedRuntime} {disk' : Disk}
    (hok : recoverRuntime limits queueCapacity faults
      (Machine.initial.run limits queueCapacity events).disk = (.ok opened, disk')) :
    ∃ past, opened.engine.OpenedAfter past ∧
      Remains limits queueCapacity events past opened.engine.current opened.engine.records := by
  obtain ⟨ledger, hsound, hidentified, htells⟩ : ∃ ledger : Ledger,
      Sound limits ledger (Machine.initial.run limits queueCapacity events).disk.sync ∧
      Identifies ledger (Machine.initial.run limits queueCapacity events).disk ∧
      ledger.Tells limits queueCapacity .initial events := by
    rcases Machine.initial_run_sound limits queueCapacity events with
      ⟨ledger, h, htells⟩ | ⟨hunborn, hnone⟩
    · exact ⟨ledger, h.sync, h.identity, htells⟩
    · obtain ⟨loaded, _, _, hloads, _⟩ := recoverRuntime_eq_ok hok
      rcases hunborn with hunborn | ⟨identity, hunborn⟩
      · exact absurd hloads hunborn.not_loads
      · exact ⟨.new identity, hunborn.sound_of_loads hloads, hunborn.identified,
          List.nil_subset _, List.nil_sublist _, by rw [hnone]; exact List.nil_sublist _⟩
  obtain ⟨past, _, _, hinits, hlength, hopened, hruns⟩ :=
    hsound.recovers hl hidentified hok
  exact ⟨past, hopened, htells.remains hsound.safe hinits hlength
    (hruns.holds.current_eq hruns.covers) hruns.holds.records⟩

theorem sampleClosed_recovers : ∃ opened disk', recoverRuntime defaultLimits 0 sampleStart.recover
      (Machine.initial.run defaultLimits 0 sampleClosed).disk = (.ok opened, disk') ∧
    (opened.engine.records [97]).bind Record.expiresAt = some 1000 := by
  have h := sampleClosed_goes.2.2.2.1
  generalize hok : recoverRuntime defaultLimits 0 sampleStart.recover
    (Machine.initial.run defaultLimits 0 sampleClosed).disk = result at h
  obtain ⟨outcome, disk'⟩ := result
  cases outcome with
  | ok opened => exact ⟨opened, disk', rfl, h⟩
  | error | panic => cases h

theorem recovered_engine_resumes_sampleClosed : ∃ opened disk' past,
    recoverRuntime defaultLimits 0 sampleStart.recover
      (Machine.initial.run defaultLimits 0 sampleClosed).disk = (.ok opened, disk') ∧
    (opened.engine.records [97]).bind Record.expiresAt = some 1000 ∧
    opened.engine.OpenedAfter past ∧
    Remains defaultLimits 0 sampleClosed past opened.engine.current opened.engine.records := by
  obtain ⟨opened, disk', hok, hexpiries⟩ := sampleClosed_recovers
  obtain ⟨past, hpast⟩ :=
    recovered_engine_resumes _ _ _ (Limits.valid_of_validate (by decide)) hok
  exact ⟨opened, disk', past, hok, hexpiries, hpast⟩

/-! ### Directories -/

/-- Neither a crash nor a power loss, at any moment, leaves a directory that cannot be read or that
has lost a commit that was reported as durable. -/
theorem crashed_directory_readable
    (hreported : Machine.initial.acknowledgements limits queueCapacity events ≠ []) :
    Readable limits queueCapacity events (Machine.initial.run limits queueCapacity events).disk ∧
      ∀ pick, Readable limits queueCapacity events
        ((Machine.initial.run limits queueCapacity events).disk.survive pick) := by
  obtain ⟨ledger, hsound, htells⟩ :=
    (Machine.initial_run_sound limits queueCapacity events).resolve_right fun h => hreported h.2
  exact ⟨htells.readable hsound.sync, fun pick => htells.readable (hsound.survive pick).sync⟩

theorem crashed_directory_readable_sampleClosed :
    Readable defaultLimits 0 sampleClosed
      ((Machine.initial.run defaultLimits 0 sampleClosed).disk.survive fun _ => (0, 0)) :=
  (crashed_directory_readable _ _ _ sampleClosed_goes.2.1).2 _

/-- Nor does a backup lose one, whenever it is made, if it can be restored. -/
theorem restored_directory_readable
    (hreported : Machine.initial.acknowledgements limits queueCapacity events ≠ [])
    {codec : MetadataCodec} {options : BackupOptions} {backupFaults : BackupFaults}
    {restoreFaults : RestoreFaults} {directories : List Bytes} {backup restored : Disk}
    {outcome outcome' : Outcome Error BackupMetadata}
    (hbackup : createBackup codec limits options backupFaults
      (Machine.initial.run limits queueCapacity events).disk = (outcome, some backup))
    (hrestore : restoreBackup codec limits backup directories restoreFaults
      = (outcome', some restored)) :
    Readable limits queueCapacity events restored := by
  obtain ⟨ledger, hsound, htells⟩ :=
    (Machine.initial_run_sound limits queueCapacity events).resolve_right fun h => hreported h.2
  obtain ⟨loaded, commits, hloaded, hremains⟩ := htells.readable hsound.sync
  exact ⟨_, commits, loadDatabase_of_loads
    (restored_loads (loads_of_loadDatabase hloaded) hbackup hrestore), hremains⟩

theorem restored_directory_readable_sampleOwned : ∃ outcome backup outcome' restored,
    createBackup sampleCodec defaultLimits sampleBackup {}
      (Machine.initial.run defaultLimits 0 sampleOwned).disk = (outcome, some backup) ∧
    restoreBackup sampleCodec defaultLimits backup [] {} = (outcome', some restored) ∧
    Readable defaultLimits 0 sampleOwned restored := by
  obtain ⟨outcome, backup, outcome', restored, hbackup, hrestore, _⟩ :=
    observeRestored_eq_some sampleRestored_commitKeys
  exact ⟨outcome, backup, outcome', restored, hbackup, hrestore, restored_directory_readable _ _ _
    sampleClosed_goes.2.2.1 hbackup hrestore⟩

end

/-- The metadata of a backup that is accepted decide its files, unless digests collide. -/
theorem accepted_unique {codec : MetadataCodec} {directory other : Disk} {limits' : Limits}
    {directories directories' : List Bytes} {faults faults' : VerifyFaults}
    {metadata : BackupMetadata}
    (h : verifyBackup codec directory directories limits faults = .ok metadata)
    (h' : verifyBackup codec other directories' limits' faults' = .ok metadata)
    (hcollision : ∀ name a b, directory.live name = some a → other.live name = some b →
      sha256 a.bytes = sha256 b.bytes → a.bytes = b.bytes) (name : Bytes) :
    (other.live name).map File.bytes = (directory.live name).map File.bytes := by
  have h := accepted_of_verifyBackup h
  have h' := accepted_of_verifyBackup h'
  by_cases hname : name ∈ metadata.files.map BackupFile.name
  · obtain ⟨listed, hlisted, rfl⟩ := List.mem_map.mp hname
    obtain ⟨a, ha, hdigest⟩ := h.hashed listed hlisted
    obtain ⟨b, hb, hdigest'⟩ := h'.hashed listed hlisted
    have hsame : sha256 a.bytes = sha256 b.bytes := by
      have hhex := congrArg hexDecode (hdigest.trans hdigest'.symm)
      rw [hexDecode_hexEncode, hexDecode_hexEncode] at hhex
      exact Option.some.inj hhex
    rw [ha, hb]
    exact congrArg some (hcollision _ a b ha hb hsame).symm
  · by_cases hmeta : name = backupMetadataFilename
    · rw [hmeta, h.encoded, h'.encoded]
    · -- neither directory has an entry of this name
      have hnot : name ∉ (metadata.files.map BackupFile.name).reverse ++
          [backupMetadataFilename] := by simpa [hmeta] using hname
      rw [Option.not_isSome_iff_eq_none.mp (mt (h.entries name).mp hnot),
        Option.not_isSome_iff_eq_none.mp (mt (h'.entries name).mp hnot)]

/-- The restored directory is a second one that is accepted, and it has the bytes of the backup. -/
theorem accepted_unique_sampleRestored : ∃ outcome backup outcome' restored metadata,
    createBackup sampleCodec defaultLimits sampleBackup {}
      (Machine.initial.run defaultLimits 0 sampleOwned).disk = (outcome, some backup) ∧
    restoreBackup sampleCodec defaultLimits backup [] {} = (outcome', some restored) ∧
    verifyBackup sampleCodec restored [] defaultLimits {} = .ok metadata ∧
    ∀ name, (restored.live name).map File.bytes = (backup.live name).map File.bytes := by
  obtain ⟨outcome, backup, outcome', restored, hbackup, hrestore, _⟩ :=
    observeRestored_eq_some sampleRestored_commitKeys
  obtain ⟨metadata, hverified, hverified'⟩ := verifyBackup_restored hrestore
  obtain ⟨_, _, hcopied, _⟩ := restoreBackup_eq_some hrestore
  refine ⟨outcome, backup, outcome', restored, metadata, hbackup, hrestore, hverified',
    accepted_unique hverified hverified' fun name a b ha hb _ => ?_⟩
  obtain ⟨original, horiginal, rfl⟩ := (copyFiles_empty hcopied name).2 b hb
  rw [Option.some.inj (ha.symm.trans horiginal)]
  rfl

end GapDB
