import GapDB.Engine.Index
import GapDB.Server.Widening

/-!
# A running owner

The engine of a running owner holds the ledger of its directory in memory, and the log it writes to
belongs to the manifest that is current. Only a degraded owner may have a newer manifest on disk.
-/

namespace GapDB

open Storelib DatabaseState

variable {manifest : Manifest} {s s' : DatabaseState}

/-- The log of the engine on disk: its entry is settled, and so much of it is safe. -/
structure LogsTo (disk : Disk) (name : Bytes) (size : Nat) (log : WAL) : Prop where
  path : log.path = name
  live : disk.live name = some log.storage.file
  older : disk.older name = []
  synced : size ≤ log.storage.file.synced

/-- A manifest that is newer than the active one may be current. -/
def Newer (limits : Limits) (ledger : Ledger) (disk : Disk) (active : Manifest) (v : Option File) :
    Prop :=
  ∃ manifest state before after, v = some (.stable (Manifest.bytes manifest)) ∧
    active.snapshotRevision < manifest.snapshotRevision ∧
    Covers limits ledger disk manifest state before after

/-- Where the ledger is: in the snapshot are the commits `before`, in the log the `frames`, and what
a degraded engine has left behind them. -/
structure View where
  state : SnapshotState
  before : List CommitFrame
  frames : List CommitFrame
  left : List CommitFrame
  tail : Bytes

/-- What the engine knows of the ledger. -/
structure Holds (limits : Limits) (ledger : Ledger) (s : DatabaseState) (active : Manifest)
    (view : View) : Prop where
  commits : ledger.commits = view.before ++ view.frames
  safe : ledger.durable ≤ ledger.commits.length
  tracks : s.Tracks ledger.reserved view.frames view.left view.tail
  left : view.left = ledger.pending ∨ view.left = [] ∧ view.tail = []
  clean : s.Degraded ∨ ledger.pending = []
  limits : s.limits = limits
  databaseID : s.databaseID = ledger.databaseID
  header : s.log.header = active.header
  records : Faded ledger.gone (replayCommits (fun _ => none) ledger.commits) s.records

/-- What the controller and the server know. -/
structure Steers (p : Process) (active : Manifest) : Prop where
  manifest : p.manifest = active ∧ p.generation ≤ active.generation ∨
    p.task = .idle ∧ p.generation < p.manifest.generation ∧ p.engine.Degraded
  compaction : ∀ through removed remaining, p.task = .compaction through removed remaining →
    through ≤ active.snapshotRevision

structure Runs (limits : Limits) (ledger : Ledger) (disk : Disk) (p : Process) (active : Manifest)
    (view : View) : Prop where
  all : LogOk limits 0 ledger.reserved ledger.all
  covers : Covers limits ledger disk active view.state view.before (view.frames ++ ledger.pending)
  holds : Holds limits ledger p.engine active view
  indexed : p.engine.Indexed
  logs : LogsTo disk active.walFile
    (logSize (view.frames.take (ledger.durable - view.before.length))) p.engine.log
  others : ∀ v ∈ disk.possible manifestFilename, v = some (.stable active.bytes) ∨
    p.engine.Degraded ∧ (∀ revision, p.task ≠ .snapshot revision) ∧
      Newer limits ledger disk active v
  databaseID : p.identity.databaseID = ledger.databaseID
  reserved : ledger.reserved ≤ p.identity.reservedRevisionEnd
  steers : Steers p active

section

variable {limits : Limits} {ledger ledger' : Ledger} {disk disk' : Disk} {p : Process}
  {active : Manifest} {view : View}

theorem Runs.sound (h : Runs limits ledger disk p active view)
    (hreserved : (p.world disk).Reserved) : Sound limits ledger disk where
  log := h.all
  safe := h.holds.safe
  identity := by
    intro v hv
    obtain ⟨stored, hencodable, hstored, hid, hle⟩ := hreserved.stored v hv
    exact ⟨stored, hencodable, hstored, hid.trans h.databaseID, h.reserved.trans hle⟩
  currents := by
    intro v hv
    rcases h.others v hv with rfl | ⟨_, _, manifest, state', before', after', rfl, _, hcovers⟩
    · exact ⟨active, _, _, _, rfl, h.covers⟩
    · exact ⟨manifest, state', before', after', rfl, hcovers⟩

/-- The files on disk do not depend on what else the ledger says. -/
theorem Covers.of_all {state : SnapshotState} {before after : List CommitFrame}
    (h : Covers limits ledger disk manifest state before after)
    (hid : ledger'.databaseID = ledger.databaseID) (hall : ledger'.all = ledger.all)
    (hdurable : ledger'.durable = ledger.durable) (hcuts : ledger.cuts ⊆ ledger'.cuts) :
    Covers limits ledger' disk manifest state before after where
  encodable := h.encodable
  databaseID := h.databaseID.trans hid.symm
  stored := h.stored
  revision := h.revision
  digest := hid ▸ h.digest
  snapshot := hid ▸ h.snapshot
  split := hall.trans h.split
  last := h.last
  records := h.records.mono fun _ ⟨time, htime, hgone⟩ => ⟨time, hcuts htime, hgone⟩
  log := hdurable ▸ h.log

/-- What the engine has streamed is a log of the ledger. -/
theorem Holds.logFile (h : Holds limits ledger s active view)
    (hsynced : logSize (view.frames.take (ledger.durable - view.before.length))
      ≤ s.log.storage.file.synced) :
    LogFile limits active.header (view.frames ++ ledger.pending)
      (ledger.durable - view.before.length) s.log.storage.file := by
  have hsafe := h.safe
  rw [h.commits, List.length_append] at hsafe
  refine ⟨?_, by rwa [List.take_append_of_le_length (by omega)]⟩
  have hfile : s.log.storage.file.bytes <+: s.log.stream := List.prefix_append _ _
  rw [h.tracks.stream, h.header] at hfile
  rcases h.left with hleft | ⟨hleft, htail⟩
  · exact ⟨view.tail, h.limits ▸ h.tracks.part, hleft ▸ hfile⟩
  · rw [hleft, htail] at hfile
    refine ⟨[], .inl rfl, hfile.trans ?_⟩
    simp [walBytes, logBytes]

theorem LogOk.append {reserved : Nat} {cs ds : List CommitFrame} (h : LogOk limits 0 reserved cs)
    (h' : LogOk limits (lastRevision 0 cs) reserved ds) : LogOk limits 0 reserved (cs ++ ds) where
  encodable := by
    intro c hc
    rcases List.mem_append.mp hc with hc | hc
    · exact h.encodable c hc
    · exact h'.encodable c hc
  increasing := by
    rw [List.map_append, ← List.cons_append]
    refine List.pairwise_append.mpr ⟨h.increasing, (List.pairwise_cons.mp h'.increasing).2, ?_⟩
    intro n hn m hm
    exact (le_lastRevision_of_mem h.increasing n hn).trans_lt
      ((List.pairwise_cons.mp h'.increasing).1 m hm)
  reserved := by
    intro c hc
    rcases List.mem_append.mp hc with hc | hc
    · exact h.reserved c hc
    · exact h'.reserved c hc

/-- The ledger after a move of the engine. -/
def Ledger.after (ledger : Ledger) (move : Move) (reserved : Nat) : Ledger :=
  { ledger with
    commits := move.frames ledger.commits, pending := move.left ledger.pending, reserved }

def View.move (view : View) (move : Move) : View :=
  ⟨view.state, view.before, move.frames view.frames, move.left view.left, move.tail view.tail⟩

section

variable (h : Holds limits ledger s active view)

include h

theorem Holds.move {move : Move} {reserved' : Nat} (hmove : s.Moves s' move)
    (hswitched : move ≠ .switched) (hle : ledger.reserved ≤ reserved')
    (hend : ∀ a, s'.allocator = some a → a.end_ ≤ reserved') :
    Holds limits (ledger.after move reserved') s' active (view.move move) := by
  have htracks := h.tracks.move hmove hle hend
  have hlimits := hmove.limits_eq.trans h.limits
  cases hmove with
  | quiet same ages advances extends_ =>
    exact ⟨h.commits, h.safe, htracks, h.left, h.clean.imp_left ages.degraded, hlimits,
      same.databaseID.trans h.databaseID, extends_.header.trans h.header, same.records ▸ h.records⟩
  | torn frame accepted active degraded same advances assigned accepts extends_ =>
    exact ⟨h.commits, h.safe, htracks, .inl rfl, .inl degraded, hlimits,
      same.databaseID.trans h.databaseID, extends_.header.trans h.header, same.records ▸ h.records⟩
  | published frame active ages advances assigned accepts extends_ records current history limits
      databaseID =>
    refine ⟨?_, h.safe.trans (List.prefix_append _ _).length_le, htracks, .inl rfl, .inr rfl,
      hlimits, databaseID.trans h.databaseID, extends_.header.trans h.header, ?_⟩
    · show ledger.commits ++ [frame] = view.before ++ (view.frames ++ [frame])
      rw [h.commits, List.append_assoc]
    · show Faded ledger.gone (replayCommits (fun _ => none) (ledger.commits ++ [frame])) s'.records
      rw [records, replayCommits_append]
      show Faded ledger.gone (replayCommit _ frame) (replayCommit s.records frame)
      rw [replayCommit_eq_writeAll, replayCommit_eq_writeAll]
      exact h.records.writeAll frame.writes
  | switched => exact absurd rfl hswitched

/-- The new ledger is in order. -/
theorem Holds.logOk_move {move : Move} {reserved' : Nat} (hmove : s.Moves s' move)
    (hall : LogOk limits 0 ledger.reserved ledger.all)
    (hbefore : lastRevision 0 view.before = active.snapshotRevision)
    (hstart : active.header.firstRevision = active.snapshotRevision + 1)
    (hswitched : move ≠ .switched) (hle : ledger.reserved ≤ reserved')
    (hend : ∀ a, s'.allocator = some a → a.end_ ≤ reserved') :
    LogOk limits 0 reserved' (ledger.after move reserved').all := by
  have hholds := h.move hmove hswitched hle hend
  have hfirst : LogOk limits 0 reserved' view.before := by
    rw [Ledger.all, h.commits, List.append_assoc] at hall
    exact hall.append_left.mono hle
  -- apart from quiet moves, the log of the engine has all of the ledger
  have hlog : move.left view.left = (ledger.after move reserved').pending →
      LogOk limits 0 reserved' (ledger.after move reserved').all := by
    intro hleft
    rw [Ledger.all, hholds.commits, ← hleft, List.append_assoc]
    refine LogOk.append hfirst ?_
    have htracked := (h.tracks.move hmove hle hend).log
    rw [hholds.header, hstart, Nat.add_sub_cancel, hholds.limits, ← hbefore] at htracked
    exact htracked
  cases move with
  | quiet => exact hall.mono hle
  | torn | published => exact hlog rfl
  | switched => exact absurd rfl hswitched

end

/-! ### Commands -/

theorem LogsTo.possible {name : Bytes} {size : Nat} {log : WAL} (h : LogsTo disk name size log) :
    ∀ v ∈ disk.possible name, v = some log.storage.file := by
  intro v hv
  rwa [Directory.possible, h.live, h.older, List.mem_singleton] at hv

/-- The log after the engine has added to it, once its file is written back. -/
theorem LogsTo.store {name : Bytes} {size : Nat} {log log' : WAL} {added : Bytes}
    (h : LogsTo disk name size log) (hextends : log.Extends log' added)
    (holder : disk'.older name = []) :
    LogsTo (disk'.store log'.path log'.storage.file) name size log' := by
  have hpath : log'.path = name := hextends.path.trans h.path
  refine ⟨hpath, ?_, holder, h.synced.trans hextends.synced⟩
  rw [hpath]
  exact Function.update_self _ _ _

theorem snapshotName_ne_walName (revision start : Nat) : snapshotName revision ≠ walName start :=
  StorageName.bytes_ne_of_shape (show (StorageName.snapshot revision).shape
    ≠ (StorageName.wal start).shape by simp [StorageName.shape])

theorem manifestFilename_ne_snapshotName (revision : Nat) :
    manifestFilename ≠ snapshotName revision :=
  StorageName.bytes_ne_of_shape (show StorageName.current.shape
    ≠ (StorageName.snapshot revision).shape by simp [StorageName.shape])

theorem manifestFilename_ne_walName (start : Nat) : manifestFilename ≠ walName start :=
  StorageName.bytes_ne_of_shape (show StorageName.current.shape
    ≠ (StorageName.wal start).shape by simp [StorageName.shape])

theorem Manifest.Encodable.walFile_ne_current (h : manifest.Encodable) :
    manifestFilename ≠ manifest.walFile := by
  rw [h.walFile]
  exact manifestFilename_ne_walName _

theorem Manifest.Encodable.walFile_ne_snapshotFile {other : Manifest}
    (h : manifest.Encodable) (h' : other.Encodable) : other.snapshotFile ≠ manifest.walFile := by
  rw [h.walFile, h'.snapshotFile]
  exact snapshotName_ne_walName _ _

/-- Two generations have the same log only if their snapshots have the same revision. -/
theorem Manifest.Encodable.walFile_ne {other : Manifest} (h : manifest.Encodable)
    (h' : other.Encodable) (hne : manifest.snapshotRevision ≠ other.snapshotRevision) :
    other.walFile ≠ manifest.walFile := by
  rw [h.walFile, h'.walFile]
  intro heq
  have hstart := h.start
  have hstart' := h'.start
  have hrevision := h.revision
  have hrevision' := h'.revision
  have hsame : other.walStartRevision = manifest.walStartRevision :=
    StorageName.walName_injective (by omega) (by omega) heq
  omega

/-- Nothing else of the database changes with its identity. -/
theorem Keeps.generation (h : Keeps disk disk' [identityFilename])
    (hmanifest : manifest.Encodable) :
    ∀ name ∈ manifestFilename :: manifest.files, disk'.live name = disk.live name ∧
      ∀ v ∈ disk'.possible name, v ∈ disk.possible name := by
  intro name hname
  simp only [Manifest.files, hmanifest.snapshotFile, hmanifest.walFile, List.mem_cons,
    List.not_mem_nil, or_false] at hname
  rcases hname with rfl | rfl | rfl
  · exact h .current (by simpa using identityFilename_ne_manifestFilename.symm)
  · exact h (.snapshot _) (by simpa using (identityFilename_ne_snapshotName _).symm)
  · exact h (.wal _) (by simpa using (identityFilename_ne_walName _).symm)

/-- The files of the active generation after a command. -/
theorem Covers.served {after : List CommitFrame}
    (h : Covers limits ledger disk active view.state view.before after)
    (hid : ledger'.databaseID = ledger.databaseID) (hgone : ledger'.gone = ledger.gone)
    (hholds : Holds limits ledger' s' active view)
    (hlogs : LogsTo disk' active.walFile
      (logSize (view.frames.take (ledger'.durable - view.before.length))) s'.log)
    (hsnapshot : Weakens disk disk' active.snapshotFile) :
    Covers limits ledger' disk' active view.state view.before (view.frames ++ ledger'.pending) where
  encodable := h.encodable
  databaseID := h.databaseID.trans hid.symm
  stored := h.stored
  revision := h.revision
  digest := hid ▸ h.digest
  snapshot := hid ▸ hsnapshot.stable h.snapshot
  split := by rw [Ledger.all, hholds.commits, List.append_assoc]
  last := h.last
  records := hgone ▸ h.records
  log v hv := ⟨_, hlogs.possible v hv, hholds.logFile hlogs.synced⟩

/-- A newer manifest does not care for the log of the active one. -/
theorem Newer.store {v : Option File} {file : File} (h : Newer limits ledger disk active v)
    (hactive : active.Encodable) :
    Newer limits ledger (disk.store active.walFile file) active v := by
  obtain ⟨manifest, state', before', after', rfl, hlt, hcovers⟩ := h
  have hencodable := hcovers.encodable
  exact ⟨manifest, state', before', after', rfl, hlt, hcovers.weaken
    (.of_agree (disk.agree_store file (hactive.walFile_ne_snapshotFile hencodable)))
    (.of_agree (disk.agree_store file (hactive.walFile_ne hencodable hlt.ne)))⟩

/-- Nor for anything else that leaves its files alone. -/
theorem Newer.keeps {v : Option File} (h : Newer limits ledger disk active v)
    (hkeeps : Keeps disk disk' [identityFilename])
    (hid : ledger'.databaseID = ledger.databaseID) (hall : ledger'.all = ledger.all)
    (hdurable : ledger'.durable = ledger.durable) (hcuts : ledger.cuts ⊆ ledger'.cuts) :
    Newer limits ledger' disk' active v := by
  obtain ⟨manifest, state', before', after', rfl, hlt, hcovers⟩ := h
  have hfiles := hkeeps.generation hcovers.encodable
  exact ⟨manifest, state', before', after', rfl, hlt, (hcovers.weaken
    (.of_subset (hfiles _ (by simp [Manifest.files])).2)
    (.of_subset (hfiles _ (by simp [Manifest.files])).2)).of_all hid hall hdurable hcuts⟩

variable (h : Runs limits ledger disk p active view)

include h

/-- The owner goes on with the active generation, and its log is written back. -/
theorem Runs.stored {move : Move} {reserved : Nat} {middle : Disk} (p' : Process)
    (hmoves : p.engine.Moves p'.engine move) (hswitched : move ≠ .switched)
    (hle : ledger.reserved ≤ reserved)
    (hend : ∀ a, p'.engine.allocator = some a → a.end_ ≤ reserved) (hindexed : p'.engine.Indexed)
    (holder : middle.older active.walFile = [])
    (hsnapshot : ∀ v ∈ middle.possible active.snapshotFile, v ∈ disk.possible active.snapshotFile)
    (hothers : ∀ v ∈ middle.possible manifestFilename, v = some (.stable active.bytes) ∨
      p'.engine.Degraded ∧ (∀ revision, p'.task ≠ .snapshot revision) ∧
        Newer limits (ledger.after move reserved) middle active v)
    (hid : p'.identity.databaseID = ledger.databaseID)
    (hreserved : reserved ≤ p'.identity.reservedRevisionEnd) (hsteers : Steers p' active) :
    Runs limits (ledger.after move reserved)
      (middle.store p'.engine.log.path p'.engine.log.storage.file) p' active (view.move move) := by
  have hactive := h.covers.encodable
  have hholds := h.holds.move hmoves hswitched hle hend
  obtain ⟨added, hextends⟩ := hmoves.extends hswitched
  have hpath : p'.engine.log.path = active.walFile := hextends.path.trans h.logs.path
  have hsafe := h.holds.safe
  rw [h.holds.commits, List.length_append] at hsafe
  have htake : (move.frames view.frames).take (ledger.durable - view.before.length)
      = view.frames.take (ledger.durable - view.before.length) := by
    cases move with
    | quiet | torn => rfl
    | published frame => exact List.take_append_of_le_length (by omega)
    | switched => exact absurd rfl hswitched
  have hlogs := h.logs.store hextends holder
  rw [← htake] at hlogs
  refine ⟨?_, ?_, hholds, hindexed, hlogs, ?_, hid, hreserved, hsteers⟩
  · exact h.holds.logOk_move hmoves h.all h.covers.last (by rw [Manifest.header, hactive.start])
      hswitched hle hend
  · have hcovers : Covers limits ledger disk active (view.move move).state _ _ := h.covers
    refine Covers.served hcovers rfl rfl hholds hlogs
      (.of_subset fun v hv => hsnapshot v ?_)
    rwa [hpath, (middle.agree_store _ (hactive.walFile_ne_snapshotFile hactive)).possible_eq] at hv
  · intro v hv
    rw [hpath, (middle.agree_store _ hactive.walFile_ne_current).possible_eq] at hv
    refine (hothers v hv).imp_right fun hafter => ⟨hafter.1, hafter.2.1, ?_⟩
    rw [hpath]
    exact hafter.2.2.store hactive

theorem Runs.serve {last : Nat} (howned : p.engine.Owning (p.world disk) last) (work : Work) :
    ∃ move, (work.command.turn p.engine (p.world disk)).Moved move ∧ move ≠ .switched ∧
      Runs limits (ledger.after move (p.serve disk work).1.identity.reservedRevisionEnd)
        (p.serve disk work).2 (p.serve disk work).1 active (view.move move) := by
  obtain ⟨move, hmoved, hswitched⟩ :=
    Command.moved h.holds.tracks (p.world disk) work.command
  refine ⟨move, hmoved, hswitched, ?_⟩
  have hmoves : p.engine.Moves (work.command.run p.engine (p.world disk)).2.1 move := hmoved.moves
  have hwidens := Work.widens howned work
  have howned' := (Work.owning howned work).1
  have hindexed : (work.command.run p.engine (p.world disk)).2.1.Indexed :=
    h.indexed.run (p.world disk) (.command work.command)
  simp only [Process.serve, Process.leave]
  generalize (work.command.run p.engine (p.world disk)).2.1 = engine'
    at hmoves howned' hindexed ⊢
  generalize (work.command.run p.engine (p.world disk)).2.2 = world' at hwidens howned' ⊢
  have hactive := h.covers.encodable
  have hfiles := hwidens.keeps.keeps.generation hactive
  refine h.stored { p with engine := engine', identity := world'.identity,
                             manifest := world'.manifest } hmoves hswitched
                               (h.reserved.trans hwidens.le)
    (fun a ha => (howned'.allocator a ha).ends.le) hindexed ?_
    (hfiles _ (by simp [Manifest.files])).2 ?_
    (hwidens.databaseID.trans h.databaseID) le_rfl ?_
  · have holder := h.logs.older
    rw [hactive.walFile] at holder ⊢
    exact hwidens.keeps.settled (.wal _)
      (by simpa using (identityFilename_ne_walName _).symm) holder
  · intro v hv
    refine (h.others v ((hfiles _ (by simp)).2 v hv)).imp_right
      fun ⟨hdegraded, htask, hnewer⟩ => ⟨hmoves.degraded hdegraded, htask, ?_⟩
    -- a degraded engine writes no frame
    have hquiet : move = .quiet := by
      cases hmoves with
      | quiet => rfl
      | torn frame accepted active | published frame active => exact absurd hdegraded active
      | switched => exact absurd rfl hswitched
    subst hquiet
    exact hnewer.keeps hwidens.keeps.keeps rfl rfl rfl (List.Subset.refl _)
  · refine ⟨?_, h.steers.compaction⟩
    rcases h.steers.manifest with ⟨hmanifest, hgeneration⟩ | ⟨htask, hgeneration, hdegraded⟩
    · exact .inl ⟨hwidens.manifest.trans hmanifest, hgeneration⟩
    · refine .inr ⟨htask, ?_, hmoves.degraded hdegraded⟩
      rw [hwidens.manifest]
      exact hgeneration

/-- What was synced as a whole is safe. -/
theorem Runs.harden (hactive : ¬ p.engine.Degraded) (hstable : p.engine.log.Stable) :
    Runs limits { ledger with durable := ledger.commits.length } disk p active view := by
  have hcommits : ledger.commits.length - view.before.length = view.frames.length := by
    rw [h.holds.commits, List.length_append, Nat.add_sub_cancel_left]
  have hholds : Holds limits { ledger with durable := ledger.commits.length } p.engine
    active view :=
    { h.holds with safe := le_rfl }
  have hlogs : LogsTo disk active.walFile (logSize (view.frames.take (ledger.commits.length
      - view.before.length))) p.engine.log := by
    refine { h.logs with synced := ?_ }
    rw [hcommits, List.take_length, hstable.synced, h.holds.tracks.stream,
      ← walBytes_length p.engine.log.header]
    simp [walBytes, logBytes]
  refine { h with
    covers := h.covers.served rfl rfl hholds hlogs (.of_subset fun _ hv => hv),
    holds := hholds, logs := hlogs, others := fun v hv => .inl ?_ }
  exact (h.others v hv).resolve_right fun hother => hactive hother.1

end

end GapDB
