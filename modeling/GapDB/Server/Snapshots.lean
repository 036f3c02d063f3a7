import GapDB.Engine.Mirror
import GapDB.Server.Running

/-!
# Snapshots of a running owner

A snapshot covers the ledger as far as it was committed. While its files are installed, the manifest
on disk is the active one or the new one; the engine goes on with the new log only if the new
manifest is safe.
-/

namespace GapDB

open Storelib DatabaseState

variable {s : DatabaseState}

/-! ### The records of a snapshot -/

theorem mem_iterate {order keys : List Key} {key : Key} :
    key ∈ iterate order keys ↔ key ∈ keys := by
  simp only [iterate, List.mem_append, List.mem_dedup, List.mem_filter, decide_eq_true_eq]
  by_cases horder : key ∈ order
  · simp [horder]
  · simp [horder]

theorem mem_kept_iff {state : SnapshotState} {asOf : Time} {record : Record} :
    record ∈ state.kept asOf ↔
      record ∈ state.records ∧ recordExpired record asOf = false := by
  rw [SnapshotState.mem_kept]
  refine and_congr_right fun _ => ?_
  cases hexpires : record.expiresAt with
  | none => simp [recordExpired, hexpires]
  | some t => simp [recordExpired, isExpired, hexpires]

theorem recordsOf_of_mem {records : List Record} (h : (records.map Record.key).Nodup)
    {record : Record} (hmem : record ∈ records) : recordsOf records record.key = some record := by
  rw [recordsOf_eq_writeAll]
  refine writeAll_of_mem (List.mem_map_of_mem hmem) ?_
  rw [List.map_map]
  exact h

theorem recordsOf_of_not_mem {records : List Record} {key : Key}
    (h : ∀ record ∈ records, record.key ≠ key) : recordsOf records key = none := by
  rw [recordsOf_eq_writeAll]
  refine writeAll_of_not_mem ?_
  rw [List.map_map]
  intro hmem
  obtain ⟨record, hrecord, heq⟩ := List.mem_map.mp hmem
  exact h record hrecord heq

/-- A list of some of the records lacks nothing but the others. -/
theorem recordsOf_listed {records : Key → Option Record} {listed : List Record}
    {kept : Record → Prop} (hkey : ∀ key record, records key = some record → record.key = key)
    (hnodup : (listed.map Record.key).Nodup)
    (hmem : ∀ record, record ∈ listed ↔ records record.key = some record ∧ kept record) :
    Faded (fun record => ¬ kept record) records (recordsOf listed) := by
  intro key
  cases hrecord : records key with
  | none =>
    refine .inl (recordsOf_of_not_mem ?_)
    rintro record hin rfl
    rw [((hmem record).mp hin).1] at hrecord
    cases hrecord
  | some record =>
    obtain rfl := hkey key record hrecord
    by_cases hkept : kept record
    · exact .inl (recordsOf_of_mem hnodup ((hmem record).mpr ⟨hrecord, hkept⟩))
    · refine .inr ⟨recordsOf_of_not_mem ?_, record, rfl, hkept⟩
      intro other hin heq
      have hother := (hmem other).mp hin
      rw [heq, hrecord, Option.some.injEq] at hother
      exact hkept (hother.1 ▸ hother.2)

/-- A snapshot of the engine lacks nothing but what has expired. -/
theorem snapshot_faded (h : s.Indexed) {order : List Key} {asOf : Time}
    {revision : Nat} {kept : List Record}
    (hkept : kept = SnapshotState.kept
      ⟨revision, (iterate order s.orderedKeys.keys).filterMap s.records⟩ asOf)
    (hnodup : (kept.map Record.key).Nodup) :
    Faded (fun record => recordExpired record asOf = true) s.records (recordsOf kept) := by
  refine (recordsOf_listed (fun _ _ => h.key) hnodup ?_).mono fun _ => eq_true_of_ne_false
  intro record
  rw [hkept, mem_kept_iff]
  refine and_congr_left fun _ => ?_
  simp only [List.mem_filterMap, mem_iterate, h.lists.mem]
  constructor
  · rintro ⟨key, _, hrecord⟩
    rw [h.key hrecord]
    exact hrecord
  · intro hrecord
    exact ⟨record.key, by rw [hrecord]; rfl, hrecord⟩

/-! ### Installing a generation -/

/-- The files of the next generation are safe, whatever is current. -/
structure Prepared (disk : Disk) (next : Manifest) (encoded : Bytes) : Prop where
  snapshot : ∀ v ∈ disk.possible next.snapshotFile, v = some (.stable encoded)
  log : ∀ v ∈ disk.possible next.walFile, v = some (.stable next.header.bytes)

/-- The next generation can be installed beside the active one. -/
structure Ready (limits : Limits) (disk : Disk) (active next : Manifest) (stored : SnapshotState) :
    Prop where
  free : disk.live next.snapshotFile = none
  le : active.snapshotRevision ≤ next.snapshotRevision
  encodable : next.Encodable
  stored : stored.Encodable limits

/-- What an attempt to install the next generation leaves behind: the manifest is as it was, or was
replaced once the files of the next generation were safe. -/
structure Attempts (limits : Limits) (disk : Disk) (active next : Manifest) (stored : SnapshotState)
    (disk' : Disk) : Prop where
  ready : disk' = disk ∨ Ready limits disk active next stored
  keeps : KeepsSettled disk disk' (manifestFilename :: next.files)
  currents : ∀ v ∈ disk'.possible manifestFilename, v ∈ disk.possible manifestFilename ∨
    v = some (.stable next.bytes) ∧ Prepared disk' next (stored.bytes active.databaseID)

/-- The next generation is in place, and nothing can be undone. -/
structure Switches (limits : Limits) (disk : Disk) (active next : Manifest) (stored : SnapshotState)
    (disk' : Disk) : Prop where
  ready : Ready limits disk active next stored
  prepared : Prepared disk' next (stored.bytes active.databaseID)
  current : disk'.live manifestFilename = some (.stable next.bytes)
  older : ∀ name, disk'.older name = []

/-- What `InstallSnapshotGeneration` reports of it. -/
structure Generates (limits : Limits) (disk : Disk) (active next : Manifest)
    (stored : SnapshotState)
    (outcome : Outcome (Error × Option Manifest) (Manifest × WAL)) (disk' : Disk) : Prop
    extends Attempts limits disk active next stored disk' where
  refused : ∀ e m, outcome = .error (e, m) → e.operationApplied = false →
    disk'.possible manifestFilename ⊆ disk.possible manifestFilename
  named : ∀ e m, outcome = .error (e, some m) → m = next
  done : ∀ result, outcome = .ok result →
    result = (next, next.freshLog limits) ∧ Switches limits disk active next stored disk'

/-- What the installer of the controller reports of it. -/
structure Reports (limits : Limits) (disk disk' : Disk) (active next manifest' : Manifest)
    (stored : SnapshotState) (outcome : Outcome Error (Option WAL)) : Prop
    extends Attempts limits disk active next stored disk' where
  refused : ∀ e, outcome = .error e → e.operationApplied = false → manifest' = active ∧
    disk'.possible manifestFilename ⊆ disk.possible manifestFilename
  manifest : manifest' = active ∨ manifest' = next
  done : ∀ log, outcome = .ok log → log = some (next.freshLog limits) ∧ manifest' = next ∧
    Switches limits disk active next stored disk'

section

variable {limits : Limits} {disk disk' middle : Disk} {active next : Manifest} {encoded : Bytes}
  {stored : SnapshotState}

theorem current_not_mem_files (hnext : next.Encodable) : manifestFilename ∉ next.files := by
  simp only [Manifest.files, List.mem_cons, List.not_mem_nil, or_false, not_or]
  refine ⟨?_, hnext.walFile_ne_current⟩
  rw [hnext.snapshotFile]
  exact manifestFilename_ne_snapshotName _

/-- Replacing the manifest leaves the files of the next generation alone. -/
theorem Prepared.installed {outcome : Outcome Error Unit} (h : Prepared middle next encoded)
    (hnext : next.Encodable) (hinstalled : Installed middle .current next.bytes outcome disk') :
    Prepared disk' next encoded := by
  have hne := current_not_mem_files hnext
  simp only [Manifest.files, List.mem_cons, List.not_mem_nil, or_false, not_or] at hne
  obtain ⟨hsnapshot, hlog⟩ := h
  rw [hnext.snapshotFile] at hsnapshot hne
  rw [hnext.walFile] at hlog hne
  constructor
  · intro v hv
    rw [hnext.snapshotFile] at hv
    exact hsnapshot v ((hinstalled.others (.snapshot _) (Ne.symm hne.1)).2 v hv)
  · intro v hv
    rw [hnext.walFile] at hv
    exact hlog v ((hinstalled.others (.wal _) (Ne.symm hne.2)).2 v hv)

/-- The manifest was not even touched. -/
theorem Generates.of_kept {outcome : Outcome (Error × Option Manifest) (Manifest × WAL)}
    (hfailed : ∀ result, outcome ≠ .ok result) (hunnamed : ∀ e m, outcome ≠ .error (e, some m))
    (ready : disk' = disk ∨ Ready limits disk active next stored)
    (keeps : KeepsSettled disk disk' next.files) :
    Generates limits disk active next stored outcome disk' := by
  have hcurrent : disk'.possible manifestFilename ⊆ disk.possible manifestFilename := by
    rcases ready with rfl | hready
    · exact fun _ hv => hv
    · exact (keeps.keeps .current (current_not_mem_files hready.encodable)).2
  exact ⟨⟨ready, keeps.mono fun _ hname => List.mem_cons_of_mem _ hname,
    fun v hv => .inl (hcurrent hv)⟩, fun _ _ _ _ => hcurrent,
    fun e m heq => absurd heq (hunnamed e m), fun result heq => absurd heq (hfailed result)⟩

/-- The manifest was replaced, or the attempt broke off there. -/
theorem Generates.of_installed {installed : Outcome Error Unit}
    (ready : Ready limits disk active next stored)
    (hprepared : Prepared middle next (stored.bytes active.databaseID))
    (keeps : KeepsSettled disk middle next.files)
    (hinstalled : Installed middle .current next.bytes installed disk')
    (hsettled : KeepsSettled middle disk' [manifestFilename]) :
    Generates limits disk active next stored
      (installed.withGeneration next (next.freshLog limits)) disk' := by
  have hcurrent := (keeps.keeps .current (current_not_mem_files ready.encodable)).2
  have hprepared' := hprepared.installed ready.encodable hinstalled
  refine ⟨⟨.inr ready, ?_, ?_⟩, ?_, ?_, ?_⟩
  · have hfirst := keeps.mono fun _ hname => List.mem_cons_of_mem manifestFilename hname
    refine hfirst.trans (hsettled.mono fun name hname => ?_)
    rw [List.mem_singleton.mp hname]
    exact List.mem_cons_self
  · intro v hv
    rcases hinstalled.final v hv with rfl | hv
    · exact .inr ⟨rfl, hprepared'⟩
    · exact .inl (hcurrent v hv)
  · intro e m heq hunapplied v hv
    cases installed with
    | ok | panic => cases heq
    | error e =>
      cases heq
      refine hcurrent v ?_
      rw [← (hinstalled.untouched _ rfl hunapplied .current).possible_eq]
      exact hv
  · intro e m heq
    cases installed <;> cases heq
    rfl
  · intro result heq
    cases installed <;> cases heq
    obtain ⟨hlive, holder⟩ := hinstalled.settled rfl
    exact ⟨rfl, ready, hprepared', hlive, holder⟩

/-- A step that fails leaves the manifest alone if the steps before did. -/
theorem Generates.of_andInstall {α : Type} {first : Outcome Error α × Disk}
    {rest : α → Disk → Outcome (Error × Option Manifest) (Manifest × WAL) × Disk}
    (ready : first.2 = disk ∨ Ready limits disk active next stored)
    (keeps : KeepsSettled disk first.2 next.files)
    (hrest : ∀ a, first.1 = .ok a → Generates limits disk active next stored (rest a first.2).1
      (rest a first.2).2) :
    Generates limits disk active next stored (andInstall first rest).1
      (andInstall first rest).2 := by
  obtain ⟨outcome, disk'⟩ := first
  cases outcome with
  | ok a => exact hrest a rfl
  | error | panic => exact .of_kept (by simp [andInstall]) (by simp [andInstall]) ready keeps

theorem installGeneration_generates (hnext : next.Encodable)
    (hle : active.snapshotRevision ≤ next.snapshotRevision) (hstored : stored.Encodable limits)
    (previousGeneration : Nat) (faults : GenerationFaults) (disk : Disk) :
    let result := installGeneration next previousGeneration (stored.bytes active.databaseID) limits
      faults disk
    Generates limits disk active next stored result.1 result.2 := by
  have hsnapshotName : (StorageName.snapshot next.snapshotRevision).bytes = next.snapshotFile :=
    hnext.snapshotFile.symm
  have hwalName : (StorageName.wal next.walStartRevision).bytes = next.walFile := hnext.walFile.symm
  have hne : next.snapshotFile ≠ next.walFile := by
    rw [← hsnapshotName, ← hwalName]
    exact StorageName.bytes_ne_of_shape (by simp [StorageName.shape])
  unfold installGeneration
  simp only
  -- the snapshot file
  have hsnapshot := installSnapshotFile_cases next.snapshotRevision
    (stored.bytes active.databaseID) faults.snapshot disk
  rw [← hnext.snapshotFile] at hsnapshot
  generalize installSnapshotFile next.snapshotFile _ faults.snapshot disk = first
    at hsnapshot ⊢
  have hkeeps₁ := hsnapshot.keeps
  rw [hsnapshotName] at hkeeps₁
  have hfree : first.2 = disk ∨ disk.live next.snapshotFile = none := by
    rw [← hsnapshotName]
    exact hsnapshot.imp And.right And.left
  have hready : disk.live next.snapshotFile = none → Ready limits disk active next stored :=
    fun hfree => ⟨hfree, hle, hnext, hstored⟩
  refine .of_andInstall (hfree.imp_right hready) (hkeeps₁.mono (by simp [Manifest.files]))
    fun u hok => ?_
  rw [hok] at hsnapshot
  obtain ⟨hfree, hsnapshot, _⟩ := hsnapshot.resolve_left fun h => h.1 u rfl
  have hfiles := hsnapshot.possible_of_ok
  rw [hsnapshotName] at hfree hfiles
  -- the next WAL
  have hwal := installNextWAL_cases next.walStartRevision hnext.header faults.nextWAL first.2
  rw [← hnext.walFile] at hwal
  generalize installNextWAL next.walFile next.header faults.nextWAL first.2 = second at hwal ⊢
  have hkeeps₂ := hwal.keeps
  rw [hwalName] at hkeeps₂
  have hkeeps : KeepsSettled disk second.2 next.files :=
    (hkeeps₁.mono (by simp [Manifest.files])).trans (hkeeps₂.mono (by simp [Manifest.files]))
  refine .of_andInstall (.inr (hready hfree)) hkeeps fun u hok => ?_
  rw [hok] at hwal
  obtain ⟨_, hwal, _⟩ := hwal.resolve_left fun h => h.1 u rfl
  have hlive := (hwal.settled rfl).1
  have hlogs := hwal.possible_of_ok
  rw [hwalName] at hlive hlogs
  have hsettled : ∀ v ∈ second.2.possible next.snapshotFile,
      v = some (.stable (stored.bytes active.databaseID)) := by
    have hkept := hkeeps₂.keeps (.snapshot next.snapshotRevision)
      (by simpa [hsnapshotName] using hne)
    rw [hsnapshotName] at hkept
    exact fun v hv => hfiles v (hkept.2 v hv)
  -- the log and `CURRENT`
  refine .of_andInstall (.inr (hready hfree)) hkeeps fun log hopen => ?_
  simp only at hopen
  obtain rfl : log = next.freshLog limits := openWALForAppend_fresh hlive hopen
  have hmanifest := installManifest_cases hnext previousGeneration faults.manifest second.2
  rw [installCurrent_eq]
  exact .of_installed (hready hfree) ⟨hsettled, hlogs⟩ hkeeps hmanifest (installManifest_keeps ..)

theorem installSnapshotGeneration_generates {state : SnapshotState} {asOf : Time}
    (hrevision : state.revision < 2 ^ 64) (hgeneration : active.generation < 2 ^ 64)
    (faults : GenerationFaults) (disk : Disk) :
    let result := installSnapshotGeneration active state asOf limits faults disk
    Generates limits disk active (active.next state asOf) (Manifest.stored state asOf) result.1
      result.2 := by
  unfold installSnapshotGeneration
  simp only
  split
  · exact .of_kept (by simp) (by simp) (.inl rfl) (.refl _ _)
  next hvalid =>
  simp only [maxUint64, not_or, not_lt] at hvalid
  obtain ⟨hid, hmax, hlater, htop⟩ := hvalid
  have hnext : (active.next state asOf).Encodable :=
    Manifest.next_encodable hid (by omega) (by omega)
  split
  · exact .of_kept (by simp) (by simp) (.inl rfl) (.refl _ _)
  next encoded digest hencode =>
  obtain ⟨hstorable, rfl, rfl⟩ := encodeSnapshot_eq_ok hrevision hencode
  exact installGeneration_generates hnext hlater hstorable active.generation faults disk

/-- Nothing was attempted. -/
theorem Reports.refl (e : Error) (disk : Disk) :
    Reports limits disk disk active next active stored (.error e) :=
  ⟨⟨.inl rfl, .refl _ _, fun _ hv => .inl hv⟩, fun _ _ _ => ⟨rfl, fun _ hv => hv⟩,
    .inl rfl, by simp⟩

end

/-- The installer of the controller. -/
theorem controllerInstall_reports {limits : Limits} {cut : SnapshotCut} {world : World}
    (hrevision : cut.revision < 2 ^ 64) (hgeneration : world.manifest.generation < 2 ^ 64)
    (expected : Nat) (faults : GenerationFaults) (audited : Bool) :
    let result := controllerInstall limits expected faults audited cut world
    let state : SnapshotState := ⟨cut.revision, cut.records⟩
    result.2.identity = world.identity ∧
      Reports limits world.disk result.2.disk world.manifest (world.manifest.next state cut.asOf)
        result.2.manifest (Manifest.stored state cut.asOf) result.1 := by
  intro result state
  simp only [result, controllerInstall]
  split
  · exact ⟨rfl, .refl _ _⟩
  have h : Generates limits world.disk world.manifest _ _ _ _ :=
    @installSnapshotGeneration_generates limits world.manifest state cut.asOf hrevision hgeneration
      faults world.disk
  simp only [state] at h
  generalize installSnapshotGeneration world.manifest ⟨cut.revision, cut.records⟩ cut.asOf limits
    faults world.disk = installed at h ⊢
  obtain ⟨outcome, disk'⟩ := installed
  cases outcome with
  | panic => exact ⟨rfl, h.toAttempts, by simp, .inl rfl, by simp⟩
  | error value =>
    obtain ⟨e, named⟩ := value
    simp only
    split
    · next happlied =>
      refine ⟨rfl, h.toAttempts, ?_, ?_, by simp⟩
      · rintro _ ⟨⟩ hunapplied
        cases audited with
        | true => cases happlied.symm.trans hunapplied
        | false => cases hunapplied
      · cases named with
        | none => exact .inl rfl
        | some m => exact .inr (h.named e m rfl)
    · refine ⟨rfl, h.toAttempts, ?_, .inl rfl, by simp⟩
      rintro _ ⟨⟩ hunapplied
      exact ⟨rfl, h.refused e named rfl hunapplied⟩
  | ok value =>
    obtain ⟨rfl, hdone⟩ := h.done value rfl
    cases audited with
    | true =>
      refine ⟨rfl, h.toAttempts, by simp, .inr rfl, ?_⟩
      rintro _ ⟨⟩
      exact ⟨rfl, rfl, hdone⟩
    | false =>
      refine ⟨rfl, h.toAttempts, ?_, .inr rfl, by simp⟩
      rintro _ ⟨⟩ hunapplied
      cases hunapplied

/-! ### The ledger with a snapshot -/

/-- The ledger once a snapshot was taken as of the time. -/
def Ledger.asOf (ledger : Ledger) (time : Time) : Ledger :=
  { ledger with cuts := time :: ledger.cuts }

theorem freshLog_fresh {next : Manifest} (hnext : next.Encodable) (limits : Limits) :
    FreshLog limits next.snapshotRevision (next.freshLog limits) where
  header := hnext.header
  first := hnext.start
  limits := rfl
  stream := List.append_nil _
  synced := congrArg List.length (List.append_nil _).symm
  lastRevision := rfl
  durableThrough := rfl
  ready := rfl

section

variable {limits : Limits} {ledger : Ledger} {disk disk' : Disk} {p : Process}
  {active : Manifest} {view : View}

theorem Holds.asOf (h : Holds limits ledger s active view)
    (time : Time) : Holds limits (ledger.asOf time) s active view :=
  { h with
    records := h.records.mono fun _ ⟨t, ht, hgone⟩ => ⟨t, List.mem_cons_of_mem _ ht, hgone⟩ }

theorem Holds.current_eq {after : List CommitFrame}
    (h : Holds limits ledger s active view)
    (hcovers : Covers limits ledger disk active view.state view.before after) :
    lastRevision 0 ledger.commits = s.current := by
  rw [h.commits, lastRevision_append, hcovers.last, h.tracks.current, h.header, Manifest.header,
    hcovers.encodable.start, Nat.add_sub_cancel]

/-- What a snapshot of the engine is taken of. -/
def DatabaseState.cutState (s : DatabaseState) (order : List Key) : SnapshotState :=
  ⟨s.current, (iterate order s.orderedKeys.keys).filterMap s.records⟩

/-- The next generation covers the ledger, once its files are safe. -/
theorem Covers.next {after : List CommitFrame} {order : List Key} {time : Time} {middle : Disk}
    (h : Holds limits ledger s active view) (hindexed : s.Indexed)
    (hcovers : Covers limits ledger disk active view.state view.before after)
    (hready : Ready limits middle active (active.next (s.cutState order) time)
      (Manifest.stored (s.cutState order) time))
    (hprepared : Prepared disk' (active.next (s.cutState order) time)
      ((Manifest.stored (s.cutState order) time).bytes active.databaseID)) :
    Covers limits (ledger.asOf time) disk' (active.next (s.cutState order) time)
      (Manifest.stored (s.cutState order) time) ledger.commits ledger.pending where
  encodable := hready.encodable
  databaseID := hcovers.databaseID
  stored := hready.stored
  revision := rfl
  digest := by
    rw [show (ledger.asOf time).databaseID = active.databaseID from hcovers.databaseID.symm]
    rfl
  snapshot := by
    rw [show (ledger.asOf time).databaseID = active.databaseID from hcovers.databaseID.symm]
    exact hprepared.snapshot
  split := rfl
  last := h.current_eq hcovers
  records := by
    have hnodup := hready.stored.sorted.imp fun hlt => hlt.ne
    have hfaded := snapshot_faded hindexed rfl hnodup
    have hkept : Faded (ledger.asOf time).gone s.records _ :=
      hfaded.mono fun _ hgone => ⟨time, List.mem_cons_self, hgone⟩
    exact (h.asOf time).records.trans hkept
  log := by
    intro v hv
    refine ⟨_, hprepared.log v hv, ⟨[], .inl rfl, ?_⟩, ?_⟩
    · rw [List.append_nil]
      exact List.prefix_append _ _
    · rw [Nat.sub_eq_zero_of_le (show (ledger.asOf time).durable ≤ _ from h.safe)]
      exact (WALHeader.bytes_length _).ge

/-- The snapshot has a name of its own, so the active generation keeps its files. -/
theorem Ready.lt {next : Manifest} {stored : SnapshotState}
    (h : Ready limits disk active next stored) (hactive : active.Encodable)
    (hlive : (disk.live active.snapshotFile).isSome) :
    active.snapshotRevision < next.snapshotRevision := by
  refine lt_of_le_of_ne h.le fun heq => ?_
  have hfree := h.free
  rw [h.encodable.snapshotFile, ← heq, ← hactive.snapshotFile] at hfree
  rw [hfree] at hlive
  cases hlive

theorem Attempts.kept_files {next : Manifest} {stored : SnapshotState}
    (h : Attempts limits disk active next stored disk')
    (hactive : active.Encodable) (hlive : (disk.live active.snapshotFile).isSome) :
    (∀ v ∈ disk'.possible active.snapshotFile, v ∈ disk.possible active.snapshotFile) ∧
      (disk.older active.walFile = [] → disk'.older active.walFile = []) := by
  rcases h.ready with rfl | hready
  · exact ⟨fun _ hv => hv, id⟩
  have hnext := hready.encodable
  have hlt := hready.lt hactive hlive
  have hrevision := hactive.revision
  have hrevision' := hnext.revision
  constructor
  · have hnot : active.snapshotFile ∉ manifestFilename :: next.files := by
      simp only [Manifest.files, List.mem_cons, List.not_mem_nil, or_false, not_or]
      refine ⟨?_, ?_, hnext.walFile_ne_snapshotFile hactive⟩
      · have hcurrent := current_not_mem_files hactive
        simp only [Manifest.files, List.mem_cons, not_or] at hcurrent
        exact Ne.symm hcurrent.1
      · rw [hactive.snapshotFile, hnext.snapshotFile]
        intro heq
        exact hlt.ne (StorageName.snapshotName_injective (by omega) (by omega) heq)
    rw [hactive.snapshotFile] at hnot ⊢
    exact (h.keeps.keeps (.snapshot _) hnot).2
  · have hnot : active.walFile ∉ manifestFilename :: next.files := by
      simp only [Manifest.files, List.mem_cons, List.not_mem_nil, or_false, not_or]
      exact ⟨hactive.walFile_ne_current.symm, (hactive.walFile_ne_snapshotFile hnext).symm,
        hnext.walFile_ne hactive hlt.ne'⟩
    rw [hactive.walFile] at hnot ⊢
    exact h.keeps.settled (.wal _) hnot

/-! ### The queued snapshot runs -/

variable (h : Runs limits ledger disk p active view)

include h

/-- While a snapshot is queued, the active manifest is the only one. -/
theorem Runs.active_of_snapshot {expected : Nat}
    (htask : p.task = .snapshot expected) :
    p.manifest = active ∧ p.generation ≤ active.generation ∧
      ∀ v ∈ disk.possible manifestFilename, v = some (.stable active.bytes) := by
  have hmanifest : p.manifest = active ∧ p.generation ≤ active.generation := by
    refine h.steers.manifest.resolve_right ?_
    rintro ⟨hidle, _⟩
    rw [htask] at hidle
    cases hidle
  refine ⟨hmanifest.1, hmanifest.2, ?_⟩
  intro v hv
  refine (h.others v hv).resolve_right ?_
  rintro ⟨_, hnot, _⟩
  exact hnot _ htask

/-- The log that a barrier leaves is on disk before the snapshot is installed. -/
abbrev Process.barriered (p : Process) (disk : Disk) (barrier : Option WAL.BarrierFault) : Disk :=
  disk.store p.engine.log.path (p.engine.log.barrier barrier).2.storage.file

theorem Runs.barriered_agree
    (barrier : Option WAL.BarrierFault) {name : Bytes} (hne : name ≠ active.walFile) :
    disk.Agree (p.barriered disk barrier) name := by
  rw [Process.barriered, h.logs.path]
  exact disk.agree_store _ hne

/-- The ledger may forget what expires later. -/
theorem Runs.asOf (time : Time) :
    Runs limits (ledger.asOf time) disk p active view := by
  refine ⟨h.all, h.covers.of_all rfl rfl rfl (List.subset_cons_self _ _), h.holds.asOf time,
    h.indexed, h.logs,
    fun v hv => (h.others v hv).imp_right fun ⟨hdegraded, htask, hnewer⟩ => ⟨hdegraded, htask, ?_⟩,
    h.databaseID, h.reserved, h.steers⟩
  exact hnewer.keeps (.refl _ _) rfl rfl rfl (List.subset_cons_self _ _)

/-- A snapshot after which the engine goes on with the new log. -/
theorem Runs.switched {s' : DatabaseState} {world' : World} {next : Manifest}
    {stored : SnapshotState} {time : Time}
    (hmoves : p.engine.Moves s' .switched) (hallocator : s'.allocator = p.engine.allocator)
    (hindexed : s'.Indexed) (hidentity : world'.identity = p.identity)
    (hlog : s'.log = next.freshLog limits) (hmanifest : world'.manifest = next)
    (hgeneration : p.generation + 1 ≤ next.generation)
    (hcovers : Covers limits (ledger.asOf time) world'.disk next stored ledger.commits
      ledger.pending)
    (hcurrent : world'.disk.live manifestFilename = some (.stable next.bytes))
    (hsettled : ∀ name, world'.disk.older name = []) :
    Runs limits (ledger.asOf time) (world'.disk.store s'.log.path s'.log.storage.file)
      { p with engine := s', identity := world'.identity, manifest := world'.manifest,
               task := .idle, generation := p.generation + 1 }
      next ⟨stored, ledger.commits, [], [], []⟩ := by
  have hnext := hcovers.encodable
  have hend : ∀ a, s'.allocator = some a → a.end_ ≤ ledger.reserved := by
    intro a ha
    exact (h.holds.tracks.allocator a (hallocator ▸ ha)).2
  have htracks := h.holds.tracks.switched hmoves hend
  have hdegraded : p.engine.Degraded → s'.Degraded := hmoves.degraded
  have hlimits := hmoves.limits_eq.trans h.holds.limits
  have hpath : s'.log.path = next.walFile := by rw [hlog]; rfl
  have hfile : s'.log.storage.file = .stable next.header.bytes := by rw [hlog]; rfl
  have hlogs : LogsTo (world'.disk.store s'.log.path s'.log.storage.file) next.walFile
      (logSize ([].take (ledger.durable - ledger.commits.length))) s'.log := by
    refine ⟨hpath, ?_, hsettled _, ?_⟩
    · rw [hpath]
      exact Function.update_self _ _ _
    · rw [hfile, List.take_nil]
      exact (WALHeader.bytes_length _).ge
  have hholds : Holds limits (ledger.asOf time) s' next ⟨stored, ledger.commits, [], [], []⟩ := by
    cases hmoves with
    | switched same ages advances fresh known =>
      refine ⟨(List.append_nil _).symm, h.holds.safe, htracks, .inr ⟨rfl, rfl⟩,
        h.holds.clean.imp_left hdegraded, hlimits, same.databaseID.trans h.holds.databaseID,
        by rw [hlog]; rfl, ?_⟩
      rw [same.records]
      exact (h.holds.asOf time).records
  refine ⟨h.all, ?_, hholds, hindexed, hlogs, ?_, ?_, ?_, ?_, ?_⟩
  · have hcovers : Covers limits _ _ next (View.mk stored ledger.commits [] [] []).state _ _ :=
      hcovers
    refine hcovers.served rfl rfl hholds hlogs (.of_subset fun v hv => ?_)
    have hne := hnext.walFile_ne_snapshotFile hnext
    rw [hpath, (world'.disk.agree_store _ hne).possible_eq] at hv
    exact hv
  · intro v hv
    rw [hpath, (world'.disk.agree_store _ hnext.walFile_ne_current).possible_eq, Directory.possible,
      hsettled, List.mem_singleton] at hv
    exact .inl (hv.trans hcurrent)
  · exact hidentity ▸ h.databaseID
  · exact hidentity ▸ h.reserved
  · exact .inl ⟨hmanifest, hgeneration⟩
  · simp

theorem Runs.barriered_kept {expected : Nat} (htask : p.task = .snapshot expected)
    (barrier : Option WAL.BarrierFault) :
    ((p.barriered disk barrier).live active.snapshotFile).isSome ∧
      ∀ v ∈ (p.barriered disk barrier).possible manifestFilename,
        v = some (.stable active.bytes) := by
  have hactive := h.covers.encodable
  rw [(h.barriered_agree barrier (hactive.walFile_ne_snapshotFile hactive)).1,
    h.covers.snapshot _ (Directory.live_mem_possible disk _),
    (h.barriered_agree barrier hactive.walFile_ne_current).possible_eq]
  exact ⟨rfl, (h.active_of_snapshot htask).2.2⟩

/-- A snapshot that does not switch the log. -/
theorem Runs.stays {expected : Nat} {s' : DatabaseState} {world' : World} {time : Time}
    {barrier : Option WAL.BarrierFault} {outcome : Outcome Error (Option WAL)}
    (htask : p.task = .snapshot expected) (order : List Key)
    (hreports : Reports limits (p.barriered disk barrier) world'.disk active
      (active.next (p.engine.cutState order) time) world'.manifest
      (Manifest.stored (p.engine.cutState order) time) outcome)
    (hmoves : p.engine.Moves s' .quiet) (hallocator : s'.allocator = p.engine.allocator)
    (hindexed : s'.Indexed) (hidentity : world'.identity = p.identity)
    (hbroken : s'.Degraded ∨ world'.manifest = active ∧
      ∀ v ∈ world'.disk.possible manifestFilename,
        v ∈ (p.barriered disk barrier).possible manifestFilename) :
    Runs limits (ledger.asOf time) (world'.disk.store s'.log.path s'.log.storage.file)
      { p with engine := s', identity := world'.identity, manifest := world'.manifest,
               task := .idle }
      active view := by
  obtain ⟨_, hgeneration, _⟩ := h.active_of_snapshot htask
  have hactive := h.covers.encodable
  obtain ⟨hsome, hold⟩ := h.barriered_kept htask barrier
  obtain ⟨hsnapshot, hlog⟩ := hreports.kept_files hactive hsome
  refine (h.asOf time).stored { p with engine := s', identity := world'.identity,
                                       manifest := world'.manifest, task := .idle }
    hmoves (by simp) le_rfl (fun a ha => (h.holds.tracks.allocator a (hallocator ▸ ha)).2) hindexed
    (hlog h.logs.older) ?_ ?_ (hidentity ▸ h.databaseID) (hidentity ▸ h.reserved) ⟨?_, by simp⟩
  · rw [← (h.barriered_agree barrier (hactive.walFile_ne_snapshotFile hactive)).possible_eq]
    exact hsnapshot
  · intro v hv
    rcases hbroken with hdegraded | ⟨_, hkept⟩
    · rcases hreports.currents v hv with hv | ⟨rfl, hprepared⟩
      · exact .inl (hold v hv)
      · rcases hreports.ready with hsame | hready
        · rw [hsame] at hv
          exact .inl (hold _ hv)
        · exact .inr ⟨hdegraded, by simp, _, _, _, _, rfl, hready.lt hactive hsome,
            Covers.next h.holds h.indexed h.covers hready hprepared⟩
    · exact .inl (hold v (hkept v hv))
  · rcases hreports.manifest with hsame | hsame
    · exact .inl ⟨hsame, hgeneration⟩
    · rcases hbroken with hdegraded | ⟨hkept, _⟩
      · refine .inr ⟨rfl, ?_, hdegraded⟩
        rw [hsame]
        exact Nat.lt_succ_of_le hgeneration
      · exact .inl ⟨hkept, hgeneration⟩

/-- The queued snapshot runs: the owner goes on with the active generation or with the next. -/
theorem Runs.runSnapshot {expected : Nat}
    (htask : p.task = .snapshot expected) (run : SnapshotRun) :
    ∃ active' view',
      Runs limits (ledger.asOf (p.engine.clock.now run.source).1)
        (p.runSnapshot limits disk expected run).2
        (p.runSnapshot limits disk expected run).1 active' view' := by
  obtain ⟨rfl, hgeneration, _⟩ := h.active_of_snapshot htask
  have hreports := @controllerInstall_reports limits (p.engine.snapshotCut (run.faults p.engine))
    (p.world (p.barriered disk run.barrier)) h.indexed.current
    h.covers.encodable.generation.2 expected run.generation run.audited
  have hcases := executeSnapshot_cases
    (controllerInstall limits expected run.generation run.audited) p.engine
    (p.world (p.barriered disk run.barrier)) (run.faults p.engine)
  generalize hinstall : controllerInstall limits expected run.generation run.audited
    (p.engine.snapshotCut (run.faults p.engine)) (p.world (p.barriered disk run.barrier))
      = installed
    at hreports
  obtain ⟨outcome, installedWorld⟩ := installed
  obtain ⟨hidentity, hreports⟩ := hreports
  have hmoves := hcases.moves (by
    intro next world' heq
    rw [hinstall] at heq
    obtain ⟨rfl, rfl⟩ := Prod.mk.inj heq
    obtain ⟨hlog, _, hswitches⟩ := hreports.done _ rfl
    rw [Option.some.inj hlog, h.holds.limits]
    exact freshLog_fresh hswitches.ready.encodable limits)
  simp only [Process.runSnapshot, Process.leave]
  generalize p.engine.executeSnapshot (controllerInstall limits expected run.generation run.audited)
    (p.world (p.barriered disk run.barrier)) (run.faults p.engine) = result at hcases hmoves ⊢
  obtain ⟨⟨cut, error⟩, s', world'⟩ := result
  simp only at hcases hmoves ⊢
  have hquiet := fun herror : error ≠ none => (hmoves.resolve_right fun hnone => herror hnone.1).2
  cases hcases with
  | unbarriered e | unevident e =>
    rw [if_neg (by simp)]
    exact ⟨_, _, h.stays htask run.order (.refl e _) (hquiet (by simp)) rfl
      (h.indexed.same ⟨rfl, rfl, rfl, rfl, rfl⟩ rfl) rfl (.inr ⟨rfl, fun _ hv => hv⟩)⟩
  | refused e log world' hbarrier evident hinstalled applied =>
    rw [hinstall] at hinstalled
    obtain ⟨rfl, rfl⟩ := Prod.mk.inj hinstalled
    rw [if_neg (by simp)]
    exact ⟨_, _, h.stays htask run.order hreports (hquiet (by simp)) rfl
      (h.indexed.same ⟨rfl, rfl, rfl, rfl, rfl⟩ rfl) hidentity
        (.inr (hreports.refused e rfl applied))⟩
  | broken e log world' hbarrier evident hinstalled applied =>
    rw [hinstall] at hinstalled
    obtain rfl := hinstalled
    rw [if_neg (by simp)]
    exact ⟨_, _, h.stays htask run.order hreports (hquiet (by simp)) rfl
      (h.indexed.same ⟨rfl, rfl, rfl, rfl, rfl⟩ rfl) hidentity (.inl rfl)⟩
  | switched log next world' hbarrier evident hinstalled durable =>
    rw [hinstall] at hinstalled
    obtain ⟨rfl, rfl⟩ := Prod.mk.inj hinstalled
    obtain ⟨hlog, hsame, hready, hprepared, hcurrent, hsettled⟩ := hreports.done _ rfl
    have hswitched := (hmoves.resolve_left fun hnone => hnone.1 rfl).2
    rw [if_pos rfl]
    exact ⟨_, _, h.switched hswitched rfl
      (h.indexed.same ⟨rfl, rfl, rfl, rfl, rfl⟩ rfl) hidentity (Option.some.inj hlog) hsame
      (Nat.succ_le_succ hgeneration)
      (Covers.next h.holds h.indexed h.covers hready hprepared) hcurrent hsettled⟩

end

end GapDB
