import GapDB.Server.Revisions

/-!
# What the directory holds

The ledger of a database lists its commits. Whatever a power loss leaves of the directory, the
manifest that is then current names a snapshot of some first commits of the ledger and a log with
further ones of them.
-/

namespace GapDB

open Storelib DatabaseState

variable {limits : Limits} {disk disk' : Disk}

/-! ### Files of a generation -/

/-- The commits of a database, as nothing but its files remember them. -/
structure Ledger where
  databaseID : DatabaseID
  commits : List CommitFrame
  /-- A commit that is in the log although its owner did not publish it. -/
  pending : List CommitFrame := []
  /-- So many first commits no power loss can take. -/
  durable : Nat := 0
  /-- No revision above it is in use. -/
  reserved : Nat
  /-- The times as of which snapshots were taken. -/
  cuts : List Time := []

def Ledger.all (ledger : Ledger) : List CommitFrame := ledger.commits ++ ledger.pending

/-- The commits that no power loss can take. -/
def Ledger.safe (ledger : Ledger) : List CommitFrame := ledger.commits.take ledger.durable

/-- The size of a log with the frames. -/
def logSize (frames : List CommitFrame) : Nat :=
  walHeaderSize + (logBytes CommitFrame.bytes frames).length

theorem walBytes_length (header : WALHeader) (frames : List CommitFrame) :
    (walBytes header frames).length = logSize frames := by
  rw [walBytes, List.length_append, WALHeader.bytes_length, logSize, walHeaderSize]

theorem logSize_mono {frames frames' : List CommitFrame} (h : frames <+: frames') :
    logSize frames ≤ logSize frames' := by
  obtain ⟨rest, rfl⟩ := h
  simp [logSize, logBytes]

/-- A log with some first of the frames, of which so many are safe. -/
structure LogFile (limits : Limits) (header : WALHeader) (frames : List CommitFrame) (safe : Nat)
    (file : File) : Prop where
  isPrefix : ∃ tail, TornFrame limits tail ∧ file.bytes <+: walBytes header frames ++ tail
  synced : logSize (frames.take safe) ≤ file.synced

theorem LogFile.cut {header : WALHeader} {frames : List CommitFrame} {safe : Nat} {file : File}
    (h : LogFile limits header frames safe file) (keep : Nat) :
    LogFile limits header frames safe (file.cut keep) := by
  obtain ⟨tail, htail, hinitial⟩ := h.isPrefix
  have hsurvives := file.survives_cut keep
  exact ⟨⟨tail, htail, hsurvives.1.trans hinitial⟩, h.synced.trans hsurvives.2⟩

theorem cut_stable (bs : Bytes) (keep : Nat) : (File.stable bs).cut keep = .stable bs :=
  congrArg File.stable (List.take_of_length_le (le_max_left _ _))

/-- Everything the name may hold is what it may have held before, perhaps cut by a power loss. -/
def Weakens (disk disk' : Disk) (name : Bytes) : Prop :=
  ∀ v' ∈ disk'.possible name, ∃ v ∈ disk.possible name, v' = v ∨
    ∃ keep, v' = v.map (File.cut · keep)

theorem Weakens.of_subset {name : Bytes}
    (h : disk'.possible name ⊆ disk.possible name) : Weakens disk disk' name :=
  fun v hv => ⟨v, h hv, .inl rfl⟩

theorem Weakens.of_agree {name : Bytes} (h : disk.Agree disk' name) : Weakens disk disk' name :=
  .of_subset (by rw [h.possible_eq]; exact fun _ hv => hv)

theorem Weakens.survive (disk : Disk) (pick : Bytes → Nat × Nat) (name : Bytes) :
    Weakens disk (disk.survive pick) name := by
  intro v' hv'
  rw [Directory.possible_survive, List.mem_singleton] at hv'
  obtain ⟨v, hv, heq⟩ := disk.exists_survive pick name
  exact ⟨v, hv, .inr ⟨_, hv'.trans heq⟩⟩

/-- What holds of every entry, however it is cut, still does. -/
theorem Weakens.forall {name : Bytes} (h : Weakens disk disk' name) {P : Option File → Prop}
    (hcut : ∀ v keep, P v → P (v.map (File.cut · keep))) (hP : ∀ v ∈ disk.possible name, P v) :
    ∀ v ∈ disk'.possible name, P v := by
  intro v' hv'
  obtain ⟨v, hv, rfl | ⟨keep, rfl⟩⟩ := h v' hv'
  · exact hP _ hv
  · exact hcut v keep (hP v hv)

theorem map_cut_stable {v : Option File} {bytes : Bytes} (h : v = some (.stable bytes))
    (keep : Nat) : v.map (File.cut · keep) = some (.stable bytes) := by
  rw [h]
  exact congrArg some (cut_stable bytes keep)

theorem Weakens.stable {name bytes : Bytes} (h : Weakens disk disk' name)
    (hstable : ∀ v ∈ disk.possible name, v = some (.stable bytes)) :
    ∀ v ∈ disk'.possible name, v = some (.stable bytes) :=
  h.forall (fun _ keep hv => map_cut_stable hv keep) hstable

theorem Weakens.logFile {name : Bytes} {header : WALHeader} {safe : Nat}
    {frames : List CommitFrame} (h : Weakens disk disk' name)
    (hlog : ∀ v ∈ disk.possible name, ∃ file, v = some file ∧
      LogFile limits header frames safe file) :
    ∀ v ∈ disk'.possible name, ∃ file, v = some file ∧ LogFile limits header frames safe file := by
  refine h.forall ?_ hlog
  rintro _ keep ⟨file, rfl, hfile⟩
  exact ⟨file.cut keep, rfl, hfile.cut keep⟩

/-- Records that had expired when some snapshot was taken. -/
def Ledger.gone (ledger : Ledger) (record : Record) : Prop :=
  ∃ time ∈ ledger.cuts, recordExpired record time = true

/-- The files that a manifest names hold the ledger: the snapshot its first commits `before`, and
the log some first ones of the others. -/
structure Covers (limits : Limits) (ledger : Ledger) (disk : Disk) (manifest : Manifest)
    (state : SnapshotState) (before after : List CommitFrame) : Prop where
  encodable : manifest.Encodable
  databaseID : manifest.databaseID = ledger.databaseID
  stored : state.Encodable limits
  revision : state.revision = manifest.snapshotRevision
  digest : manifest.snapshotSHA256 = hexEncode (state.digest ledger.databaseID)
  snapshot : ∀ v ∈ disk.possible manifest.snapshotFile,
    v = some (.stable (state.bytes ledger.databaseID))
  split : ledger.all = before ++ after
  last : lastRevision 0 before = manifest.snapshotRevision
  records : Faded ledger.gone (replayCommits (fun _ => none) before) (recordsOf state.records)
  log : ∀ v ∈ disk.possible manifest.walFile, ∃ file, v = some file ∧
    LogFile limits manifest.header after (ledger.durable - before.length) file

variable {ledger : Ledger}

theorem Covers.weaken {manifest : Manifest}
    {state : SnapshotState} {before after : List CommitFrame}
    (h : Covers limits ledger disk manifest state before after)
    (hsnapshot : Weakens disk disk' manifest.snapshotFile)
    (hlog : Weakens disk disk' manifest.walFile) :
    Covers limits ledger disk' manifest state before after :=
  { h with snapshot := hsnapshot.stable h.snapshot, log := hlog.logFile h.log }

/-- The identity on disk belongs to the ledger. -/
def Identifies (ledger : Ledger) (disk : Disk) : Prop :=
  ∀ v ∈ disk.possible identityFilename, ∃ stored : Identity, stored.Encodable ∧
    v = some (.stable stored.bytes) ∧ stored.databaseID = ledger.databaseID ∧
    ledger.reserved ≤ stored.reservedRevisionEnd

theorem Identifies.weaken (h : Identifies ledger disk)
    (hweakens : Weakens disk disk' identityFilename) : Identifies ledger disk' := by
  refine hweakens.forall ?_ h
  rintro _ keep ⟨stored, hencodable, heq, hid, hle⟩
  exact ⟨stored, hencodable, map_cut_stable heq keep, hid, hle⟩

/-- Some manifest that may be current covers the ledger. -/
def Current (limits : Limits) (ledger : Ledger) (disk : Disk) (v : Option File) : Prop :=
  ∃ manifest state before after, v = some (.stable (Manifest.bytes manifest)) ∧
    Covers limits ledger disk manifest state before after

/-- The directory of a database that has come into being. -/
structure Sound (limits : Limits) (ledger : Ledger) (disk : Disk) : Prop where
  log : LogOk limits 0 ledger.reserved ledger.all
  safe : ledger.durable ≤ ledger.commits.length
  identity : Identifies ledger disk
  currents : ∀ v ∈ disk.possible manifestFilename, Current limits ledger disk v

theorem Sound.weaken
    (h : Sound limits ledger disk) (hidentity : Weakens disk disk' identityFilename)
    (hcurrent : Weakens disk disk' manifestFilename)
    (hfiles : ∀ manifest state before after, Covers limits ledger disk manifest state before after →
      some (File.stable manifest.bytes) ∈ disk.possible manifestFilename →
      Weakens disk disk' manifest.snapshotFile ∧ Weakens disk disk' manifest.walFile) :
    Sound limits ledger disk' where
  log := h.log
  safe := h.safe
  identity := h.identity.weaken hidentity
  currents := by
    intro v' hv'
    obtain ⟨v, hv, hv'⟩ := hcurrent v' hv'
    obtain ⟨manifest, state, before, after, rfl, hcovers⟩ := h.currents v hv
    obtain ⟨hsnapshot, hlog⟩ := hfiles manifest state before after hcovers hv
    refine ⟨manifest, state, before, after, ?_, hcovers.weaken hsnapshot hlog⟩
    rcases hv' with rfl | ⟨keep, rfl⟩
    · rfl
    · exact map_cut_stable rfl keep

theorem Sound.survive (h : Sound limits ledger disk) (pick : Bytes → Nat × Nat) :
    Sound limits ledger (disk.survive pick) :=
  h.weaken (.survive disk pick _) (.survive disk pick _)
    fun _ _ _ _ _ _ => ⟨.survive disk pick _, .survive disk pick _⟩

end GapDB
