import GapDB.Engine.Bookkeeping
import GapDB.Server.Removal

/-!
# An owner starts on what the directory holds

Recovery finds the snapshot of the manifest that is current and the whole frames of its log. The
engine that is opened on them holds first commits of the ledger, and these are the ledger from then
on.
-/

namespace GapDB

open Storelib DatabaseState

variable {manifest : Manifest} {opened : OpenedRuntime} {queueCapacity : Int}
    {before after : List CommitFrame}

/-! ### The replayed records -/

theorem nodup_iterate (order keys : List Key) : (iterate order keys).Nodup := by
  refine List.nodup_append.mpr ⟨List.nodup_dedup _, (List.nodup_dedup _).filter _, ?_⟩
  intro a ha b hb heq
  subst heq
  simp only [List.mem_dedup, List.mem_filter, decide_eq_true_eq] at ha hb
  exact hb.2 ha.1

/-- The writes that lead from nothing to the replayed records. -/
theorem replayRecords_eq_writeAll (snapshot : List Record) (commits : List CommitFrame) :
    replayRecords snapshot commits
      = writeAll (fun _ => none) ((snapshot.map fun record => (record.key, some record))
          ++ commits.flatMap CommitFrame.writes) := by
  rw [replayRecords, replayCommits_eq_writeAll, recordsOf_eq_writeAll, writeAll_append]

theorem replayRecords_key {snapshot : List Record} {commits : List CommitFrame} {key : Key}
    {record : Record} (h : replayRecords snapshot commits key = some record) :
    record.key = key ∧ key ∈ mentionedKeys snapshot commits := by
  rw [replayRecords_eq_writeAll] at h
  rw [mentionedKeys, List.mem_append]
  rcases writeAll_eq_some h with hnone | hwritten
  · cases hnone
  rcases List.mem_append.mp hwritten with hmem | hmem
  · obtain ⟨stored, hstored, heq⟩ := List.mem_map.mp hmem
    cases heq
    exact ⟨rfl, .inl (List.mem_map_of_mem hstored)⟩
  · obtain ⟨commit, hcommit, hmem⟩ := List.mem_flatMap.mp hmem
    obtain ⟨effect, heffect, heq⟩ := List.mem_map.mp hmem
    rw [Effect.write, Prod.mk.injEq] at heq
    obtain ⟨rfl, heq⟩ := heq
    refine ⟨?_, .inr (List.mem_flatMap.mpr ⟨commit, hcommit, List.mem_map_of_mem heffect⟩)⟩
    split at heq
    · cases heq
      rfl
    · cases heq

/-- The slice that the engine is opened with has the replayed records, each once. -/
theorem recordsOf_replayedRecords (order : List Key) (snapshot : List Record)
    (commits : List CommitFrame) :
    recordsOf (replayedRecords order snapshot commits) = replayRecords snapshot commits := by
  have hmem : ∀ record, record ∈ replayedRecords order snapshot commits ↔
      replayRecords snapshot commits record.key = some record ∧ True := by
    intro record
    simp only [replayedRecords, List.mem_filterMap, mem_iterate, and_true]
    constructor
    · rintro ⟨key, _, hrecord⟩
      rw [(replayRecords_key hrecord).1]
      exact hrecord
    · intro hrecord
      exact ⟨record.key, (replayRecords_key hrecord).2, hrecord⟩
  have hnodup : ((replayedRecords order snapshot commits).map Record.key).Nodup := by
    rw [replayedRecords, List.map_filterMap]
    refine (nodup_iterate order _).filterMap ?_
    intro a b key ha hb
    obtain ⟨record, hrecord, rfl⟩ := Option.map_eq_some_iff.mp ha
    obtain ⟨other, hother, heq⟩ := Option.map_eq_some_iff.mp hb
    rw [← (replayRecords_key hrecord).1, ← (replayRecords_key hother).1, heq]
  funext key
  have hlisted := recordsOf_listed (fun _ _ hrecord => (replayRecords_key hrecord).1) hnodup
    hmem key
  exact hlisted.resolve_right fun ⟨_, _, _, hnot⟩ => hnot trivial

/-! ### What recovery finds -/

section

variable {limits : Limits} {ledger : Ledger} {disk disk' : Disk} {loaded : Loaded}

theorem LogOk.append_right {reserved : Nat} {cs ds : List CommitFrame}
    (h : LogOk limits 0 reserved (cs ++ ds)) : LogOk limits (lastRevision 0 cs) reserved ds where
  encodable c hc := h.encodable c (List.mem_append_right _ hc)
  increasing := by
    have hincreasing := h.increasing
    rw [List.map_append, ← List.cons_append] at hincreasing
    obtain ⟨hfirst, hsecond, hbetween⟩ := List.pairwise_append.mp hincreasing
    refine List.pairwise_cons.mpr ⟨fun n hn => ?_, hsecond⟩
    refine hbetween _ ?_ n hn
    -- the last revision is that of the last commit, or the start
    induction cs using List.reverseRecOn with
    | nil => exact List.mem_cons_self
    | append_singleton cs c _ =>
      rw [lastRevision_append]
      exact List.mem_cons_of_mem _ (List.mem_map_of_mem (by simp))
  reserved c hc := h.reserved c (List.mem_append_right _ hc)

theorem LogOk.eq_nil_of_last {reserved : Nat} {cs ds : List CommitFrame}
    (h : LogOk limits 0 reserved (cs ++ ds))
    (hlast : lastRevision 0 (cs ++ ds) = lastRevision 0 cs) : ds = [] := by
  cases ds with
  | nil => rfl
  | cons d ds =>
    have hincreasing := h.append_right.increasing
    have hlt := (List.pairwise_cons.mp hincreasing).1 d.revision (by simp)
    have hle := le_lastRevision_of_mem hincreasing d.revision (by simp)
    rw [lastRevision_append] at hlast
    omega

/-- The revision of a snapshot says which commits it covers. -/
theorem LogOk.split_unique {reserved : Nat} {cs ds cs' ds' : List CommitFrame}
    (h : LogOk limits 0 reserved (cs ++ ds)) (heq : cs ++ ds = cs' ++ ds')
    (hlast : lastRevision 0 cs = lastRevision 0 cs') : cs = cs' ∧ ds = ds' := by
  rcases List.append_eq_append_iff.mp heq with ⟨rest, rfl, rfl⟩ | ⟨rest, rfl, rfl⟩
  · rw [← List.append_assoc] at h
    obtain rfl := h.append_left.eq_nil_of_last hlast.symm
    simp
  · obtain rfl := h.append_left.eq_nil_of_last hlast
    simp

/-- The parts of the directory that a load has read, as they stand in the ledger. -/
structure Finds (limits : Limits) (ledger : Ledger) (disk : Disk) (loaded : Loaded)
    (before after : List CommitFrame) (k : Nat) : Prop where
  encodable : loaded.identity.Encodable
  databaseID : loaded.identity.databaseID = ledger.databaseID
  reserved : ledger.reserved ≤ loaded.identity.reservedRevisionEnd
  current : disk.live manifestFilename = some (.stable loaded.manifest.bytes)
  covers : Covers limits ledger disk.sync loaded.manifest loaded.snapshot before after
  file : LogFile limits loaded.manifest.header after (ledger.durable - before.length) loaded.file
  le : k ≤ after.length
  whole : ledger.durable - before.length ≤ k
  commits : loaded.replay.commits = after.take k
  recovered : loaded.replay.recoveredRevision
    = lastRevision loaded.manifest.snapshotRevision (after.take k)
  repaired : loaded.repaired.bytes = walBytes loaded.manifest.header (after.take k)

theorem sync_weakens (disk : Disk) (name : Bytes) : Weakens disk disk.sync name :=
  .of_subset (mem_possible_of_sync disk name)

theorem Sound.sync (h : Sound limits ledger disk) : Sound limits ledger disk.sync :=
  h.weaken (sync_weakens disk _) (sync_weakens disk _)
    fun _ _ _ _ _ _ => ⟨sync_weakens disk _, sync_weakens disk _⟩

/-- A load reads what the names hold at the moment. -/
theorem Sound.loads (h : Sound limits ledger disk.sync) :
    ∃ loaded before after k, Loads disk limits loaded ∧
      Finds limits ledger disk loaded before after k := by
  obtain ⟨stored, hencodable, hstored, hid, hreserved⟩ :=
    h.identity _ (Directory.live_mem_possible disk.sync _)
  obtain ⟨manifest, state, before, after, hcurrent, hcovers⟩ :=
    h.currents _ (Directory.live_mem_possible disk.sync _)
  obtain ⟨file, hfile, hlogFile⟩ := hcovers.log _ (Directory.live_mem_possible disk.sync _)
  have hsnapshot := hcovers.snapshot _ (Directory.live_mem_possible disk.sync _)
  rw [Directory.live_sync] at hstored hcurrent hfile hsnapshot
  have hmanifest := hcovers.encodable
  have hsame : manifest.databaseID = stored.databaseID := hcovers.databaseID.trans hid.symm
  have hfirst : manifest.header.firstRevision - 1 = manifest.snapshotRevision := by
    rw [Manifest.header, hmanifest.start, Nat.add_sub_cancel]
  have hlog : LogOk limits (manifest.header.firstRevision - 1) stored.reservedRevisionEnd
      after := by
    have hall := h.log
    rw [hcovers.split] at hall
    rw [hfirst, ← hcovers.last]
    exact hall.append_right.mono hreserved
  obtain ⟨tail, htail, hinitial⟩ := hlogFile.isPrefix
  have hsynced := hlogFile.synced.trans file.synced_le
  have hsize : walHeaderSize ≤ file.bytes.length := (Nat.le_add_right _ _).trans hsynced
  obtain ⟨k, replay, hscans, hscan⟩ :=
    scanWAL_prefix hmanifest.header hlog htail hinitial hsize
  rw [hfirst, show manifest.header.databaseID = stored.databaseID from hsame] at hscan
  have hlive := loads_of_live hencodable hstored hmanifest hcurrent hsame hcovers.stored
    hcovers.revision (hid ▸ hcovers.digest) (hid ▸ hsnapshot) hfile hscan
      (by rw [hscans.headed]; rfl)
    (by rw [hscans.headed]; rfl)
  have hsafe : ledger.durable - before.length ≤ after.length := by
    have hlength := congrArg List.length hcovers.split
    have hdurable := h.safe
    rw [Ledger.all, List.length_append, List.length_append] at hlength
    omega
  refine ⟨_, before, after, k, hlive, hencodable, hid, hreserved, hcurrent, hcovers, hlogFile,
    hscans.le, hscans.whole _ hsafe (by rwa [walBytes_length]), hscans.commits, ?_, ?_⟩
  · rw [← hfirst]
    exact hscans.recoveredRevision
  · rw [← hscans.truncated]
    simp only [Loaded.repaired]
    cases replay.tail with
    | none => exact (List.take_length).symm
    | some tail => rfl

theorem Sound.finds (h : Sound limits ledger disk.sync)
    (hloads : Loads disk limits loaded) :
    ∃ before after k, Finds limits ledger disk loaded before after k := by
  obtain ⟨loaded', before, after, k, hlive, hfinds⟩ := h.loads
  obtain rfl : loaded = loaded' :=
    Outcome.ok.inj ((loadDatabase_of_loads hloads).symm.trans (loadDatabase_of_loads hlive))
  exact ⟨before, after, k, hfinds⟩

/-! ### The engine that is opened -/

theorem andStart_eq_ok {α β : Type} {first : Outcome StartError α × Disk}
    {next : α → Disk → Outcome StartError β × Disk} {b : β}
    (h : andStart first next = (.ok b, disk')) :
    ∃ a, first.1 = .ok a ∧ next a first.2 = (.ok b, disk') := by
  obtain ⟨outcome, disk⟩ := first
  cases outcome with
  | ok a => exact ⟨a, rfl, h⟩
  | error e => cases h
  | panic => cases h

theorem openRuntime_eq_ok {config : Config} {identity : Identity}
    (h : openRuntime config identity manifest disk = (.ok opened, disk')) :
    disk' = disk ∧ newState config = .ok opened.engine ∧ opened.identity = identity ∧
      opened.manifest = manifest := by
  unfold openRuntime at h
  split at h
  · cases h
  next engine hengine =>
  cases h
  exact ⟨rfl, hengine, rfl, rfl⟩

/-- What a recovery makes of the files, once revisions are reserved. -/
def Loaded.result (loaded : Loaded) (identity : Identity) (allocation : RevisionRange) :
    RecoveryResult :=
  ⟨identity, loaded.manifest, loaded.snapshot, loaded.replay.commits,
    loaded.replay.recoveredRevision, loaded.replay.recoveredRevision, allocation,
      loaded.replay.tail⟩

/-- The steps of a successful recovery. -/
theorem recoverRuntime_eq_ok {faults : RecoverFaults}
    (h : recoverRuntime limits queueCapacity faults disk = (.ok opened, disk')) :
    ∃ loaded allocation log, Loads disk limits loaded ∧
      reserveRevisions loaded.identity loaded.replay.recoveredRevision defaultRevisionReservation
        faults.recovery.reserve (disk.store loaded.manifest.walFile loaded.repaired)
          = (.ok (opened.identity, allocation), disk') ∧
      openWALForAppend disk' loaded.manifest.walFile
        ⟨opened.identity.databaseID, loaded.manifest.walStartRevision, loaded.manifest.generation⟩
        loaded.replay.recoveredRevision loaded.replay.recoveredRevision limits faults.opened
          = .ok log ∧
      newState (recoveredConfig limits queueCapacity (loaded.result opened.identity allocation)
        faults.order log) = .ok opened.engine ∧ opened.manifest = loaded.manifest := by
  obtain ⟨recovered, hrecovered, h⟩ := andStart_eq_ok h
  obtain ⟨log, hlog, h⟩ := andStart_eq_ok h
  rw [structuredErrors_snd] at hlog h
  rw [structuredErrors_snd] at h
  obtain ⟨rfl, hengine, hidentity, hmanifest⟩ := openRuntime_eq_ok h
  have hpair : recoverDatabase limits faults.recovery disk
      = (.ok recovered, (recoverDatabase limits faults.recovery disk).2) :=
    Prod.ext (structuredErrors_eq_ok hrecovered) rfl
  obtain ⟨loaded, hload, hreserve, heq⟩ := recoverDatabase_eq_ok hpair
  have hopened := structuredErrors_eq_ok hlog
  rw [← hidentity] at hreserve heq
  rw [heq] at hopened hengine hmanifest
  exact ⟨loaded, recovered.allocation, log, loads_of_loadDatabase hload, hreserve, hopened, hengine,
    hmanifest⟩

/-- The ledger that a recovery goes on with. -/
def Ledger.recovered (ledger : Ledger) (commits : List CommitFrame) (reserved : Nat) : Ledger :=
  { ledger with commits, pending := [], reserved }

/-- The log that is opened after a recovery. -/
def Loaded.log (loaded : Loaded) (limits : Limits) : WAL where
  path := loaded.manifest.walFile
  header := loaded.manifest.header
  limits := limits
  storage := ⟨loaded.repaired, []⟩
  lastRevision := loaded.replay.recoveredRevision
  durableThrough := loaded.replay.recoveredRevision

section

variable {k : Nat} (h : Finds limits ledger disk loaded before after k)

include h

theorem Finds.safe_le : ledger.durable ≤ (before ++ after.take k).length := by
  have hwhole := h.whole
  have hle := h.le
  rw [List.length_append, List.length_take]
  omega

theorem Finds.prefix_all : before ++ after.take k <+: ledger.all := by
  rw [h.covers.split]
  exact (List.prefix_append_right_inj before).mpr (List.take_prefix k after)

theorem Finds.records :
    Faded ledger.gone (replayCommits (fun _ => none) (before ++ after.take k))
      (replayRecords loaded.snapshot.records (after.take k)) := by
  rw [replayRecords, replayCommits_append, replayCommits_eq_writeAll _ (after.take k),
    replayCommits_eq_writeAll (recordsOf _) (after.take k)]
  exact h.covers.records.writeAll _

/-- What is safe is part of what is found. -/
theorem Finds.size_le :
    logSize (after.take (ledger.durable - before.length)) ≤ logSize (after.take k) :=
  logSize_mono (List.take_prefix_take_left h.whole)

theorem Finds.repaired_synced :
    logSize ((after.take k).take (ledger.durable - before.length)) ≤ loaded.repaired.synced := by
  have hbytes := h.repaired
  rw [List.take_take, Nat.min_eq_left h.whole]
  rw [Loaded.repaired] at hbytes ⊢
  cases htail : loaded.replay.tail with
  | none => exact h.file.synced
  | some tail =>
    rw [htail] at hbytes
    have hlength := walBytes_length loaded.manifest.header (after.take k)
    rw [← hbytes] at hlength
    exact h.size_le.trans hlength.ge

end

/-- The directory after a recovery: the identity is new, and nothing can be undone. -/
structure Settles (disk disk' : Disk) (manifest : Manifest) (file : File) : Prop where
  older : ∀ name, disk'.older name = []
  current : disk'.live manifestFilename = disk.live manifestFilename
  snapshot : disk'.live manifest.snapshotFile = disk.live manifest.snapshotFile
  log : disk'.live manifest.walFile = some file

theorem settles_of_installed {file : File} {bytes : Bytes} (hmanifest : manifest.Encodable)
    (h : Installed (disk.store manifest.walFile file) .identity bytes (.ok ()) disk') :
    Settles disk disk' manifest file := by
  have hfiles := h.keeps.generation hmanifest
  refine ⟨(h.settled rfl).2, ?_, ?_, ?_⟩
  · exact (hfiles _ (by simp)).1.trans (disk.live_store_of_ne file hmanifest.walFile_ne_current)
  · exact (hfiles _ (by simp [Manifest.files])).1.trans
      (disk.live_store_of_ne file (hmanifest.walFile_ne_snapshotFile hmanifest))
  · exact (hfiles _ (by simp [Manifest.files])).1.trans (disk.live_store_self file)

section

variable {k : Nat} {order : List Key} {identity : Identity} {allocation : RevisionRange}
  {engine : DatabaseState}
  (hl : limits.Valid) (h : Finds limits ledger disk loaded before after k)
  (hall : LogOk limits 0 ledger.reserved ledger.all)
  (hid : identity.databaseID = loaded.identity.databaseID)
  (hle : loaded.identity.reservedRevisionEnd ≤ identity.reservedRevisionEnd)
  (hallocator : ∀ a, runtimeAllocator loaded.replay.recoveredRevision allocation = some a →
    a.Within loaded.replay.recoveredRevision identity.reservedRevisionEnd)

theorem effectiveLimits_recoveredConfig (hl : limits.Valid) (recovered : RecoveryResult)
    (order : List Key) (log : WAL) :
    (recoveredConfig limits queueCapacity recovered order log).effectiveLimits = limits := by
  refine if_neg ?_
  rintro rfl
  exact absurd hl.keyBytes.1 (by decide)

include h hall hle

theorem Finds.logOk_all : LogOk limits 0 identity.reservedRevisionEnd (before ++ after.take k) := by
  obtain ⟨rest, hrest⟩ := h.prefix_all
  rw [← hrest] at hall
  exact hall.append_left.mono (h.reserved.trans hle)

theorem Finds.logOk : LogOk limits loaded.manifest.snapshotRevision identity.reservedRevisionEnd
    (after.take k) :=
  h.covers.last ▸ (h.logOk_all hall hle).append_right

include hl hid hallocator

/-- The engine is opened with the snapshot and the commits that were found. -/
theorem Finds.continues : (recoveredConfig limits queueCapacity (loaded.result identity allocation)
    order (loaded.log limits)).Continues loaded.snapshot.records (after.take k) where
  limits := (effectiveLimits_recoveredConfig hl _ _ _).symm
  header := h.covers.encodable.header
  databaseID := h.covers.databaseID.trans (hid.trans h.databaseID).symm
  first := h.covers.encodable.start
  stream := (List.append_nil _).trans h.repaired
  commits := by
    rw [effectiveLimits_recoveredConfig hl]
    exact ⟨_, h.logOk hall hle, fun a ha => ⟨(hallocator a ha).above, (hallocator a ha).ends.le⟩⟩
  lastRevision := rfl
  durableThrough := rfl
  ready := rfl
  records := by
    rw [← h.commits]
    exact recordsOf_replayedRecords order loaded.snapshot.records loaded.replay.commits
  current := h.recovered
  recovered := h.commits

theorem Finds.resumes : (recoveredConfig limits queueCapacity (loaded.result identity allocation)
    order (loaded.log limits)).Resumes (before ++ after.take k) where
  increasing := (h.logOk_all hall hle).increasing
  current := by
    rw [lastRevision_append, h.covers.last]
    exact h.recovered
  records := by
    rw [(h.continues hl hall hid hle hallocator).records]
    exact h.records.mono fun _ _ => trivial

variable (hengine : newState (recoveredConfig limits queueCapacity
  (loaded.result identity allocation) order (loaded.log limits)) = .ok engine)

include hengine

/-- So it holds first commits of the ledger. -/
theorem Finds.holds :
    Holds limits (ledger.recovered (before ++ after.take k) identity.reservedRevisionEnd)
      engine loaded.manifest ⟨loaded.snapshot, before, after.take k, [], []⟩ := by
  have ho := opened_of_newState hengine
  obtain ⟨_, htracks⟩ := (h.continues hl hall hid hle hallocator).tracks ho
  have hlimits := ho.limits.trans (effectiveLimits_recoveredConfig hl _ _ _)
  have hlog : engine.log = loaded.log limits := ho.log
  refine ⟨rfl, h.safe_le, { htracks with log := ?_, allocator := ?_ }, .inl rfl, .inr rfl, hlimits,
    ho.databaseID.trans (hid.trans h.databaseID), by rw [hlog]; rfl, ?_⟩
  · rw [hlog, hlimits, List.append_nil, show (loaded.log limits).header.firstRevision - 1
      = loaded.manifest.snapshotRevision from Nat.sub_eq_of_eq_add h.covers.encodable.start]
    exact h.logOk hall hle
  · intro a ha
    rw [ho.allocator] at ha
    rw [ho.current]
    exact ⟨(hallocator a ha).above, (hallocator a ha).ends.le⟩
  · rw [(h.continues hl hall hid hle hallocator).records_eq ho]
    exact h.records

/-- The owner that is opened with it. -/
theorem Finds.runs (hsettles : Settles disk disk' loaded.manifest loaded.repaired)
    (hrevision : loaded.replay.recoveredRevision < 2 ^ 64) :
    Runs limits (ledger.recovered (before ++ after.take k) identity.reservedRevisionEnd)
      disk' ⟨engine, identity, loaded.manifest, loaded.manifest.generation, .idle⟩
      loaded.manifest ⟨loaded.snapshot, before, after.take k, [], []⟩ := by
  have hholds := h.holds hl hall hid hle hallocator hengine
  have hpossible : ∀ name, disk'.possible name = [disk'.live name] := by
    intro name
    rw [Directory.possible, hsettles.older]
  have hlogs : LogsTo disk' loaded.manifest.walFile
      (logSize ((after.take k).take (ledger.durable - before.length))) engine.log := by
    rw [(opened_of_newState hengine).log]
    exact ⟨rfl, hsettles.log, hsettles.older _, h.repaired_synced⟩
  refine ⟨?_, ?_, hholds, ?_, hlogs, ?_, hid.trans h.databaseID, le_rfl, .inl ⟨rfl, le_rfl⟩,
    by simp⟩
  · rw [Ledger.all, Ledger.recovered, List.append_nil]
    exact h.logOk_all hall hle
  · have hcovers : Covers limits (ledger.recovered (before ++ after) 0) disk.sync loaded.manifest
        (View.mk loaded.snapshot before (after.take k) [] []).state _ after :=
      h.covers.of_all rfl (by rw [h.covers.split]; exact List.append_nil _) rfl (List.Subset.refl _)
    refine hcovers.served rfl rfl hholds hlogs (.of_subset fun v hv => ?_)
    rw [hpossible, hsettles.snapshot, List.mem_singleton] at hv
    rw [hv]
    exact Directory.live_mem_possible disk.sync _
  · exact indexed_of_newState hengine hrevision
  · intro v hv
    rw [hpossible, hsettles.current, List.mem_singleton] at hv
    exact .inl (hv.trans h.current)

end

/-- The engine was opened with what these commits have left. -/
def DatabaseState.OpenedAfter (s : DatabaseState) (past : List CommitFrame) : Prop :=
  ∃ config snapshot base, newState config = .ok s ∧ config.Continues snapshot base ∧
    config.Resumes past

theorem Ledger.take_eq_safe {commits : List CommitFrame}
    (hsafe : ledger.durable ≤ ledger.commits.length)
    (hinits : commits <+: ledger.all) (hlength : ledger.durable ≤ commits.length) :
    commits.take ledger.durable = ledger.safe := by
  obtain ⟨rest, hrest⟩ := hinits
  rw [← List.take_append_of_le_length hlength, hrest, Ledger.all,
    List.take_append_of_le_length hsafe]
  rfl

/-- A successful recovery goes on with first commits of the ledger. -/
theorem Sound.recovers {faults : RecoverFaults}
    (hl : limits.Valid) (h : Sound limits ledger disk.sync) (hidentified : Identifies ledger disk)
    (hok : recoverRuntime limits queueCapacity faults disk = (.ok opened, disk')) :
    ∃ commits reserved view, commits <+: ledger.all ∧
      ledger.durable ≤ commits.length ∧ opened.engine.OpenedAfter commits ∧
      Runs limits (ledger.recovered commits reserved) disk'
        ⟨opened.engine, opened.identity, opened.manifest, opened.manifest.generation, .idle⟩
        opened.manifest view := by
  obtain ⟨loaded, allocation, log, hloads, hreserve, hlog, hengine, hmanifest⟩ :=
    recoverRuntime_eq_ok hok
  obtain ⟨before, after, k, hfinds⟩ := h.finds hloads
  have hencodable := hfinds.covers.encodable
  have hvacant : Vacant (disk.store loaded.manifest.walFile loaded.repaired) 0 := by
    have hne := identityFilename_ne_walName loaded.manifest.walStartRevision
    rw [← hencodable.walFile] at hne
    intro v hv
    rw [(disk.agree_store _ hne).possible_eq] at hv
    obtain ⟨stored, hstored, heq, _, _⟩ := hidentified v hv
    exact .inr ⟨stored, hstored, heq, Nat.zero_le _⟩
  have hgranted := (hvacant.reserve hfinds.encodable (Nat.zero_le _)
    loaded.replay.recoveredRevision faults.recovery.reserve).2
  have hcases := reserveRevisions_cases hfinds.encodable
    (show defaultRevisionReservation < 2 ^ 64 by decide) loaded.replay.recoveredRevision
    faults.recovery.reserve (disk.store loaded.manifest.walFile loaded.repaired)
  rw [hreserve] at hgranted hcases
  obtain ⟨hreserved, hfirst, hend, hsize⟩ := hgranted _ _ rfl
  generalize hupdated : opened.identity = updated at hcases
  cases hcases with
  | failed updated outcome reported disk' ne => exact absurd rfl (ne _)
  | granted updated range disk' encodable same first end_ grows recovered_le installed =>
  subst hupdated
  have hsettles := settles_of_installed hencodable installed
  obtain rfl : log = loaded.log limits := by
    obtain ⟨file, replay, hlive, _, _, _, _, heq⟩ := openWALForAppend_eq_ok hlog
    rw [hsettles.log, Option.some.injEq] at hlive
    subst hlive
    rw [heq, same, hfinds.databaseID, ← hfinds.covers.databaseID]
    rfl
  have hallocator : ∀ a, runtimeAllocator loaded.replay.recoveredRevision allocation = some a → _ :=
    fun a ha => runtimeAllocator_within recovered_le hfirst hend hsize ha
  refine ⟨_, opened.identity.reservedRevisionEnd, ⟨loaded.snapshot, before, after.take k, [], []⟩,
    hfinds.prefix_all, hfinds.safe_le,
    ⟨_, _, _, hengine, hfinds.continues hl h.log same grows.le hallocator,
      hfinds.resumes hl h.log same grows.le hallocator⟩, ?_⟩
  rw [hmanifest]
  exact hfinds.runs hl h.log same grows.le hallocator hengine hsettles
    (recovered_le.trans_lt hfinds.encodable.reserved)

/-! ### A recovery that fails -/

/-- What a recovery may do to the directory, whether it succeeds or not: the identity reserves more,
and a log loses bytes at its end. -/
structure Repairs (limits : Limits) (ledger : Ledger) (disk disk' : Disk) : Prop where
  identity : Identifies ledger disk → Identifies ledger disk'
  current : disk'.possible manifestFilename ⊆ disk.possible manifestFilename
  snapshot : ∀ manifest : Manifest, manifest.Encodable →
    disk'.possible manifest.snapshotFile ⊆ disk.possible manifest.snapshotFile
  log : ∀ (manifest : Manifest) before after, manifest.Encodable → ledger.all = before ++ after →
    lastRevision 0 before = manifest.snapshotRevision → ∀ v' ∈ disk'.possible manifest.walFile,
      ∃ v ∈ disk.possible manifest.walFile, v' = v ∨ ∃ file file', v = some file ∧ v' = some file' ∧
        (LogFile limits manifest.header after (ledger.durable - before.length) file →
          LogFile limits manifest.header after (ledger.durable - before.length) file')

theorem Repairs.refl (limits : Limits) (ledger : Ledger) (disk : Disk) :
    Repairs limits ledger disk disk :=
  ⟨id, fun _ hv => hv, fun _ _ _ hv => hv, fun _ _ _ _ _ _ v hv => ⟨v, hv, .inl rfl⟩⟩

theorem Repairs.shorten {k reserved : Nat} {file' : File}
    (h : Finds limits ledger disk loaded before after k) (hall : LogOk limits 0 reserved ledger.all)
    (hlive : disk.live loaded.manifest.walFile = some loaded.file)
    (hinitial : file'.bytes <+: loaded.file.bytes)
    (hsynced : logSize (after.take (ledger.durable - before.length)) ≤ file'.synced) :
    Repairs limits ledger disk (disk.store loaded.manifest.walFile file') := by
  have hmanifest := h.covers.encodable
  have hkept : ∀ name, name ≠ loaded.manifest.walFile →
      (disk.store loaded.manifest.walFile file').possible name ⊆ disk.possible name := by
    intro name hne v hv
    rwa [(disk.agree_store file' hne).possible_eq] at hv
  refine ⟨?_, hkept _ hmanifest.walFile_ne_current,
    fun other hother => hkept _ (hmanifest.walFile_ne_snapshotFile hother), ?_⟩
  · intro h
    refine h.weaken (.of_subset (hkept _ ?_))
    rw [hmanifest.walFile]
    exact identityFilename_ne_walName _
  · intro other before' after' hother hsplit hlast v' hv'
    by_cases hname : other.walFile = loaded.manifest.walFile
    · -- two generations with one log split the ledger at the same revision
      have hrevision : loaded.manifest.snapshotRevision = other.snapshotRevision := by
        by_contra hne
        exact hmanifest.walFile_ne hother hne hname
      obtain ⟨rfl, rfl⟩ := (h.covers.split ▸ hall).split_unique (h.covers.split.symm.trans hsplit)
        (h.covers.last.trans (hrevision.trans hlast.symm))
      rw [hname, Directory.possible_store_self] at hv'
      rw [hname]
      rcases List.mem_cons.mp hv' with rfl | hv'
      · refine ⟨_, Directory.live_mem_possible disk _, .inr ⟨_, file', hlive, rfl, ?_⟩⟩
        rintro ⟨⟨tail, htail, hbytes⟩, _⟩
        exact ⟨⟨tail, htail, hinitial.trans hbytes⟩, hsynced⟩
      · exact ⟨v', List.mem_cons_of_mem _ hv', .inl rfl⟩
    · exact ⟨v', hkept _ hname hv', .inl rfl⟩

/-- Reserving more revisions, or failing to. -/
theorem Repairs.installed_identity {disk₁ : Disk} (h : Repairs limits ledger disk disk₁)
    {updated : Identity} {outcome : Outcome Error Unit} (hencodable : updated.Encodable)
    (hid : updated.databaseID = ledger.databaseID)
    (hreserved : ledger.reserved ≤ updated.reservedRevisionEnd)
    (hinstalled : Installed disk₁ .identity updated.bytes outcome disk') :
    Repairs limits ledger disk disk' := by
  have hfiles := fun (manifest : Manifest) hmanifest =>
    hinstalled.keeps.generation (show manifest.Encodable from hmanifest)
  refine ⟨?_, ?_, ?_, ?_⟩
  · intro hidentifies v hv
    rcases hinstalled.final v hv with rfl | hv
    · exact ⟨updated, hencodable, rfl, hid, hreserved⟩
    · exact h.identity hidentifies v hv
  · exact fun v hv => h.current
      ((hinstalled.others .current identityFilename_ne_manifestFilename.symm).2 v hv)
  · exact fun manifest hmanifest v hv => h.snapshot manifest hmanifest
      ((hfiles manifest hmanifest _ (by simp [Manifest.files])).2 v hv)
  · exact fun manifest before after hmanifest hsplit hlast v hv =>
      h.log manifest before after hmanifest hsplit hlast v
        ((hfiles manifest hmanifest _ (by simp [Manifest.files])).2 v hv)

theorem Sound.repaired (h : Sound limits ledger disk)
    (hrepairs : Repairs limits ledger disk disk') : Sound limits ledger disk' := by
  refine ⟨h.log, h.safe, hrepairs.identity h.identity, ?_⟩
  intro v hv
  obtain ⟨manifest, state, before, after, rfl, hcovers⟩ := h.currents v (hrepairs.current hv)
  have hmanifest := hcovers.encodable
  refine ⟨manifest, state, before, after, rfl, { hcovers with
    snapshot := fun w hw => hcovers.snapshot w (hrepairs.snapshot manifest hmanifest hw),
    log := ?_ }⟩
  intro w' hw'
  obtain ⟨w, hw, rfl | ⟨file, file', rfl, rfl, hfile⟩⟩ :=
    hrepairs.log manifest before after hmanifest hcovers.split hcovers.last w' hw'
  · exact hcovers.log w' hw
  · obtain ⟨_, heq, hlog⟩ := hcovers.log _ hw
    cases heq
    exact ⟨file', rfl, hfile hlog⟩

/-- The log after an attempt to repair it. -/
theorem applyWALTail_shortens {k : Nat}
    (h : Finds limits ledger disk loaded before after k) (faults : TailFaults) :
    (applyWALTail loaded.manifest.walFile loaded.file loaded.replay.tail faults).2.bytes
        <+: loaded.file.bytes ∧
      logSize (after.take (ledger.durable - before.length)) ≤
        (applyWALTail loaded.manifest.walFile loaded.file loaded.replay.tail faults).2.synced := by
  have hbytes := h.repaired
  rw [Loaded.repaired] at hbytes
  unfold applyWALTail
  cases htail : loaded.replay.tail with
  | none => exact ⟨List.prefix_rfl, h.file.synced⟩
  | some tail =>
    rw [htail] at hbytes
    have hcut : (loaded.file.bytes.take tail.newSize).length = logSize (after.take k) := by
      rw [← walBytes_length loaded.manifest.header, ← hbytes]
      rfl
    have hsynced := h.size_le.trans hcut.ge
    have htruncated := le_min h.file.synced (hsynced.trans (List.length_take_le _ _))
    have hinits := List.take_prefix tail.newSize loaded.file.bytes
    cases faults.truncate with
    | some fault =>
      simp only
      split
      · exact ⟨hinits, htruncated⟩
      · exact ⟨List.prefix_rfl, h.file.synced⟩
    | none =>
      cases faults.sync with
      | some fault =>
        simp only
        split
        · exact ⟨hinits, hsynced⟩
        · exact ⟨hinits, htruncated⟩
      | none => exact ⟨hinits, hsynced⟩

theorem Repairs.reserveRecovered {k : Nat} {disk₀ disk₁ : Disk}
    (h : Repairs limits ledger disk₀ disk₁)
    (hfinds : Finds limits ledger disk loaded before after k)
    (faults : RecoveryFaults) : Repairs limits ledger disk₀
    (reserveRecovered loaded faults disk₁).2 := by
  have hcases := reserveRevisions_cases hfinds.encodable
    (show defaultRevisionReservation < 2 ^ 64 by decide) loaded.replay.recoveredRevision
    faults.reserve disk₁
  have hkeeps : Repairs limits ledger disk₀ (reserveRevisions loaded.identity
      loaded.replay.recoveredRevision defaultRevisionReservation faults.reserve disk₁).2 := by
    generalize reserveRevisions loaded.identity loaded.replay.recoveredRevision
      defaultRevisionReservation faults.reserve disk₁ = result at hcases ⊢
    obtain ⟨outcome, disk'⟩ := result
    simp only at hcases ⊢
    cases hcases with
    | refused e => exact h
    | failed updated outcome reported disk' ne encodable same grows installed
    | granted updated range disk' encodable same first end_ grows recovered_le installed =>
      exact h.installed_identity encodable (same.trans hfinds.databaseID)
        (hfinds.reserved.trans grows.le) installed
  unfold GapDB.reserveRecovered
  simp only
  split
  · exact h
  split
  all_goals
    next heq =>
    rw [heq] at hkeeps
    exact hkeeps

/-- A recovery of files that hold a ledger, once a load of them succeeds. -/
theorem recoverDatabase_repairs
    (h : ∀ loaded, Loads disk limits loaded → Sound limits ledger disk.sync)
    (faults : RecoveryFaults) : Repairs limits ledger disk
    (recoverDatabase limits faults disk).2 := by
  unfold GapDB.recoverDatabase
  split
  · exact .refl limits ledger disk
  · exact .refl limits ledger disk
  next loaded hload =>
  have hloads := loads_of_loadDatabase hload
  have hsound := h loaded hloads
  obtain ⟨before, after, k, hfinds⟩ := hsound.finds hloads
  obtain ⟨hinitial, hsynced⟩ := applyWALTail_shortens hfinds faults.tail
  simp only
  generalize applyWALTail loaded.manifest.walFile loaded.file loaded.replay.tail faults.tail
    = applied at hinitial hsynced ⊢
  obtain ⟨outcome, file⟩ := applied
  have hshorter : Repairs limits ledger disk (disk.store loaded.manifest.walFile file) :=
    .shorten hfinds hsound.log hloads.live hinitial hsynced
  cases outcome with
  | error | panic => exact hshorter
  | ok u =>
    simp only
    split
    · exact hshorter
    · exact hshorter.reserveRecovered hfinds faults

/-- Whatever becomes of a recovery, the directory still holds the ledger. -/
theorem Sound.recoverDatabase (h : Sound limits ledger disk)
    (faults : RecoveryFaults) : Sound limits ledger (recoverDatabase limits faults disk).2 :=
  h.repaired (recoverDatabase_repairs (fun _ _ => h.sync) faults)

end

end GapDB
