import GapDB.Server.Snapshots

/-!
# Compaction beside a running owner

A compaction removes files of generations up to the active snapshot, and neither of the active
generation nor of a newer one that may be current. So it takes nothing away from what the directory
holds of the ledger.
-/

namespace GapDB

open Storelib DatabaseState

variable {through : Nat}

/-! ### Names of generations -/

theorem generationFileRevision_of_body {body : Bytes} {revision : Nat} (h : revision < 2 ^ 64)
    (hbody : body = formatRevision revision ++ ascii ".gdb") :
    (let value := body.take 20
      if body.length = 24 ∧ body.drop 20 = ascii ".gdb" ∧ (value.all fun b => 48 ≤ b ∧ b ≤ 57) ∧
          decimalValue value < 2 ^ 64 ∧ formatRevision (decimalValue value) = value then
        some (decimalValue value)
      else none) = some revision := by
  subst hbody
  have hlength : (formatRevision revision).length = 20 := paddedDecimal_length 20 revision
  have hvalue : decimalValue (formatRevision revision) = revision :=
    decimalValue_padded (h.trans (by decide))
  have hsize : (formatRevision revision ++ ascii ".gdb").length = 24 := by
    rw [List.length_append, hlength]
    rfl
  have hdigits : ((formatRevision revision).all fun b => 48 ≤ b ∧ b ≤ 57) = true := by
    refine List.all_eq_true.mpr fun b hb => ?_
    have hdigit : 48 ≤ b.val ∧ b.val ≤ 57 := by simpa [isDigit] using isDigit_of_mem_padded hb
    rw [decide_eq_true_eq]
    exact ⟨Fin.le_def.mpr hdigit.1, Fin.le_def.mpr hdigit.2⟩
  simp only [List.take_left' hlength, List.drop_left' hlength, hsize, hvalue, hdigits, and_self, h,
    if_true]

theorem generationFileRevision_snapshotName {revision : Nat} (h : revision < 2 ^ 64) :
    generationFileRevision (snapshotName revision) = some revision := by
  rw [snapshotName, leftPadRevision_eq, List.append_assoc, generationFileRevision,
    if_pos (List.isPrefixOf_iff_prefix.mpr (List.prefix_append _ _))]
  exact generationFileRevision_of_body h (List.drop_left' rfl)

theorem generationFileRevision_walName {revision : Nat} (h : revision < 2 ^ 64) :
    generationFileRevision (walName revision) = some revision := by
  rw [walName, leftPadRevision_eq, List.append_assoc, generationFileRevision, if_neg,
    if_pos (List.isPrefixOf_iff_prefix.mpr (List.prefix_append _ _))]
  · exact generationFileRevision_of_body h (List.drop_left' rfl)
  · rw [List.isPrefixOf_iff_prefix]
    rintro ⟨rest, hrest⟩
    exact absurd (congrArg List.head? hrest) (by simp [ascii])

/-- A file that a compaction may remove belongs to none of the generations from the active on. -/
theorem safeTarget_ne {active manifest : Manifest} {name : Bytes}
    (h : safeTarget active through name = true) (hthrough : through ≤ active.snapshotRevision)
    (hmanifest : manifest.Encodable)
    (hle : manifest = active ∨ active.snapshotRevision < manifest.snapshotRevision) :
    manifest.snapshotFile ≠ name ∧ manifest.walFile ≠ name := by
  simp only [safeTarget, decide_eq_true_eq] at h
  obtain ⟨hrevision, hsnapshot, hwal, _⟩ := h
  rcases hle with rfl | hlt
  · exact ⟨Ne.symm hsnapshot, Ne.symm hwal⟩
  have hbound := hmanifest.revision
  have hstart := hmanifest.start
  constructor <;> rintro rfl
  · rw [hmanifest.snapshotFile, generationFileRevision_snapshotName (by omega)] at hrevision
    simp at hrevision
    omega
  · rw [hmanifest.walFile, generationFileRevision_walName (by omega)] at hrevision
    simp at hrevision
    omega

theorem safeTarget_ne_current {active : Manifest} {name : Bytes}
    (h : safeTarget active through name = true) : manifestFilename ≠ name := by
  rintro rfl
  have hnone : generationFileRevision manifestFilename = none := by decide +kernel
  simp [safeTarget, hnone] at h

/-! ### Steps that leave the engine alone -/

section

variable {limits : Limits} {ledger : Ledger} {disk disk' : Disk} {p p' : Process}
  {active : Manifest} {view : View}

/-- Nothing that the ledger needs was taken away. -/
structure Spares (disk disk' : Disk) (active : Manifest) : Prop where
  live : disk'.live active.walFile = disk.live active.walFile
  older : disk.older active.walFile = [] → disk'.older active.walFile = []
  current : disk'.possible manifestFilename ⊆ disk.possible manifestFilename
  files : ∀ manifest : Manifest, manifest.Encodable →
    (manifest = active ∨ active.snapshotRevision < manifest.snapshotRevision) →
    Weakens disk disk' manifest.snapshotFile ∧ Weakens disk disk' manifest.walFile

theorem Spares.refl (disk : Disk) (active : Manifest) : Spares disk disk active :=
  ⟨rfl, id, fun _ hv => hv, fun _ _ _ => ⟨.of_subset fun _ hv => hv, .of_subset fun _ hv => hv⟩⟩

/-- The engine is as it was, or degraded; the process is busy with something else. -/
theorem Runs.spares (h : Runs limits ledger disk p active view)
    (hspares : Spares disk disk' active)
    (hengine : p'.engine = p.engine ∨ p'.engine = p.engine.degrade)
    (hidentity : p'.identity = p.identity)
    (hqueued : ∀ revision, p'.task = .snapshot revision →
      p.task = .snapshot revision ∨ ¬ p.engine.Degraded)
    (hsteers : Steers p' active) :
    Runs limits ledger disk' p' active view := by
  obtain ⟨hmoves, hallocator, hlog, hindexed⟩ : p.engine.Moves p'.engine .quiet ∧
      p'.engine.allocator = p.engine.allocator ∧ p'.engine.log = p.engine.log ∧
      p'.engine.Indexed := by
    rcases hengine with heq | heq
    · rw [heq]
      exact ⟨.of_eq (.refl _) (.refl _) (.of_eq rfl) rfl rfl, rfl, rfl, h.indexed⟩
    · rw [heq]
      exact ⟨.of_degrade (.refl _) (.of_eq rfl) (.refl _) rfl, rfl, rfl,
        h.indexed.same ⟨rfl, rfl, rfl, rfl, rfl⟩ rfl⟩
  have hactive := h.covers.encodable
  have hholds : Holds limits ledger p'.engine active view :=
    h.holds.move hmoves (by simp) le_rfl fun a ha =>
      (h.holds.tracks.allocator a (hallocator ▸ ha)).2
  have hfiles := hspares.files active hactive (.inl rfl)
  refine ⟨h.all, h.covers.weaken hfiles.1 hfiles.2, hholds, hindexed, ?_, ?_,
    hidentity ▸ h.databaseID, hidentity ▸ h.reserved, hsteers⟩
  · rw [hlog]
    exact ⟨h.logs.path, hspares.live.trans h.logs.live, hspares.older h.logs.older, h.logs.synced⟩
  · intro v hv
    rcases h.others v (hspares.current hv) with hv | ⟨hdegraded, hnot, hnewer⟩
    · exact .inl hv
    · refine .inr ⟨hmoves.degraded hdegraded, ?_, ?_⟩
      · intro revision htask
        rcases hqueued revision htask with htask | hready
        · exact hnot revision htask
        · exact hready hdegraded
      · obtain ⟨manifest, state', before', after', rfl, hlt, hcovers⟩ := hnewer
        have hfiles' := hspares.files manifest hcovers.encodable (.inr hlt)
        exact ⟨manifest, state', before', after', rfl, hlt, hcovers.weaken hfiles'.1 hfiles'.2⟩

theorem Spares.of_agree (hactive : active.Encodable) (hcurrent : disk.Agree disk' manifestFilename)
    (hfiles : ∀ manifest : Manifest, manifest.Encodable →
      (manifest = active ∨ active.snapshotRevision < manifest.snapshotRevision) →
      disk.Agree disk' manifest.snapshotFile ∧ disk.Agree disk' manifest.walFile) :
    Spares disk disk' active := by
  have hlog := (hfiles active hactive (.inl rfl)).2
  refine ⟨hlog.1, hlog.2.trans, ?_, fun manifest hencodable hle =>
    (hfiles manifest hencodable hle).imp .of_agree .of_agree⟩
  rw [hcurrent.possible_eq]
  exact fun _ hv => hv

theorem mem_possible_of_sync (disk : Disk) (name : Bytes) :
    disk.sync.possible name ⊆ disk.possible name := by
  intro v hv
  rw [Directory.possible_sync, List.mem_singleton] at hv
  rw [hv]
  exact Directory.live_mem_possible disk name

theorem Spares.sync (disk : Disk) (active : Manifest) : Spares disk disk.sync active :=
  ⟨rfl, fun _ => rfl, mem_possible_of_sync disk _, fun _ _ _ =>
    ⟨.of_subset (mem_possible_of_sync disk _), .of_subset (mem_possible_of_sync disk _)⟩⟩

theorem removeTarget_spares (hactive : active.Encodable)
    (hthrough : through ≤ active.snapshotRevision) (removed : Bool) (name : Bytes)
    (fault : Option Fault) (disk : Disk) :
    Spares disk (removeTarget active through removed name fault disk).2 active := by
  unfold removeTarget
  split
  · exact .refl disk active
  next hsafe =>
  rw [not_not] at hsafe
  have hlink : Spares disk (disk.link name none) active := by
    refine .of_agree hactive (disk.agree_link none (safeTarget_ne_current hsafe)) ?_
    intro manifest hencodable hle
    obtain ⟨hsnapshot, hwal⟩ := safeTarget_ne hsafe hthrough hencodable hle
    exact ⟨disk.agree_link none hsnapshot, disk.agree_link none hwal⟩
  split
  · split <;> first | exact hlink | exact .refl disk active
  · simp only
    split <;> split <;> first | exact hlink | exact .refl disk active

theorem finishCompaction_spares (removed : Bool) (fault : Option Fault) (disk : Disk) :
    Spares disk (finishCompaction removed fault disk).2 active := by
  unfold finishCompaction
  split
  · exact .refl disk active
  split
  · exact .sync disk active
  · simp only
    split <;> split <;> first | exact .sync disk active | exact .refl disk active

theorem foreign_spares (hactive : active.Encodable) {name : Bytes} (hname : ¬ isStorageName name)
    (file : Option File) : Spares disk (disk.link name file) active := by
  simp only [isStorageName, decide_eq_true_eq, not_or] at hname
  obtain ⟨_, hcurrent, hgeneration⟩ := hname
  refine .of_agree hactive (disk.agree_link file (Ne.symm hcurrent)) ?_
  intro manifest hencodable _
  have hbound := hencodable.revision
  have hstart := hencodable.start
  refine ⟨disk.agree_link file ?_, disk.agree_link file ?_⟩ <;> rintro rfl
  · rw [hencodable.snapshotFile, generationFileRevision_snapshotName (by omega)] at hgeneration
    exact hgeneration rfl
  · rw [hencodable.walFile, generationFileRevision_walName (by omega)] at hgeneration
    exact hgeneration rfl

/-- The end of a compaction degrades the engine at most. -/
theorem endCompaction_eq (p : Process) (outcome : Outcome Error Unit) (audited : Bool) :
    ∃ engine, (engine = p.engine ∨ engine = p.engine.degrade) ∧
      p.endCompaction outcome audited = { p with engine, task := .idle } := by
  cases outcome with
  | ok u =>
    cases audited with
    | true => exact ⟨_, .inl rfl, rfl⟩
    | false => exact ⟨_, .inr rfl, rfl⟩
  | error e =>
    simp only [Process.endCompaction]
    split
    · exact ⟨_, .inr rfl, rfl⟩
    · exact ⟨_, .inl rfl, rfl⟩
  | panic => exact ⟨_, .inr rfl, rfl⟩

variable (h : Runs limits ledger disk p active view) {removed : Bool}
  {remaining : List Bytes}

include h

/-- While a compaction runs, the controller knows the active manifest. -/
theorem Runs.active_of_compaction
    (htask : p.task = .compaction through removed remaining) :
    (p.manifest = active ∧ p.generation ≤ active.generation) ∧
      through ≤ active.snapshotRevision := by
  refine ⟨h.steers.manifest.resolve_right ?_, h.steers.compaction _ _ _ htask⟩
  rintro ⟨hidle, _⟩
  rw [htask] at hidle
  cases hidle

theorem Runs.endCompaction
    (htask : p.task = .compaction through removed remaining) (hspares : Spares disk disk' active)
    (outcome : Outcome Error Unit) (audited : Bool) :
    Runs limits ledger disk' (p.endCompaction outcome audited) active view := by
  obtain ⟨engine, hengine, heq⟩ := endCompaction_eq p outcome audited
  rw [heq]
  exact h.spares hspares hengine rfl (by simp) ⟨.inl (h.active_of_compaction htask).1, by simp⟩

end

end GapDB
