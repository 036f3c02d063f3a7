import Mathlib.Data.List.Infix
import GapDB.Persist.Copies
import GapDB.Server.Revisions

/-!
# A restored directory beside its original

A backup copies the identity as it stands, so the directory that is restored from it and the
original go on from the same reservation.
-/

namespace GapDB

open Storelib DatabaseState

variable {events : List MachineEvent}

/-! ### Two directories -/

/-- The end of the reservation that the identity on disk carries. -/
def Machine.storedEnd (m : Machine) : Nat :=
  match readIdentity m.disk {} with
  | .ok identity => identity.reservedRevisionEnd
  | _ => 0

section

variable {limits : Limits} {queueCapacity : Int} {last : Nat} {m : Machine}

theorem Machine.storedEnd_of_live {identity : Identity} (h : identity.Encodable)
    (hlive : m.disk.live identityFilename = some (.stable identity.bytes)) :
    m.storedEnd = identity.reservedRevisionEnd := by
  rw [Machine.storedEnd, readIdentity_of_live h hlive]

theorem Machine.Owned.vacant (h : m.Owned limits last) : Vacant m.disk last := by
  obtain ⟨disk, process⟩ := m
  cases process with
  | none => exact h
  | some p => exact h.2.vacant

theorem Machine.Hands.le_storedEnd {frame : CommitFrame} {p' : Process}
    (h : m.Hands frame last p') : frame.revision ≤ m.storedEnd := by
  obtain ⟨stored, hencodable, hlive, _, hle⟩ :=
    h.reserved.stored _ (m.disk.live_mem_possible identityFilename)
  rw [Machine.storedEnd_of_live hencodable hlive]
  exact h.latest.le.trans hle

theorem Machine.mem_frames {frame : CommitFrame}
    (h : frame ∈ m.frames limits queueCapacity events) :
    ∃ before event after, events = before ++ event :: after ∧
      (m.run limits queueCapacity before).frame event = some frame := by
  induction events generalizing m with
  | nil => cases h
  | cons event events ih =>
    rw [Machine.frames] at h
    rcases List.mem_append.mp h with h | h
    · exact ⟨[], event, events, rfl, Option.mem_toList.mp h⟩
    · obtain ⟨before, event', after, rfl, hframe⟩ := ih h
      exact ⟨event :: before, event', after, rfl, hframe⟩

theorem Machine.run_concat (before : List MachineEvent) (event : MachineEvent) :
    m.run limits queueCapacity (before ++ [event])
      = (m.run limits queueCapacity before).step limits queueCapacity event := by
  rw [Machine.run, Machine.run, List.foldl_append]
  rfl

/-- As long as the identity on disk does not grow, no commit gets beyond its end. -/
theorem Machine.frames_le_storedEnd (h : m.Owned limits last) {end_ : Nat}
    (hkept : ∀ before, before <+: events →
      (m.run limits queueCapacity before).storedEnd ≤ end_) :
    ∀ frame ∈ m.frames limits queueCapacity events, frame.revision ≤ end_ := by
  intro frame hframe
  obtain ⟨before, event, after, rfl, hevent⟩ := Machine.mem_frames hframe
  obtain ⟨last', _, howned⟩ := @Machine.run_owned limits queueCapacity last m h before
  obtain ⟨p', hp'⟩ := (Machine.step_owned howned event).2 frame hevent
  refine hp'.le_storedEnd.trans ?_
  rw [← Machine.run_concat]
  exact hkept _ ⟨after, by simp⟩

/-- What runs on a restored directory starts above the reservation that was copied. -/
theorem Machine.frames_gt_of_possible {identity : Identity} (h : identity.Encodable) {disk : Disk}
    (hdisk : disk.possible identityFilename = [some (.stable identity.bytes)])
    (events : List MachineEvent) :
    ∀ frame ∈ (Machine.mk disk none).frames limits queueCapacity events,
      identity.reservedRevisionEnd < frame.revision := by
  have howned : (Machine.mk disk none).Owned limits identity.reservedRevisionEnd := by
    intro v hv
    rw [hdisk, List.mem_singleton] at hv
    exact .inr ⟨identity, h, hv, le_rfl⟩
  intro frame hframe
  exact (List.pairwise_cons.mp (Machine.frames_increasing howned events)).1 _
    (List.mem_map_of_mem hframe)

end

/-- As long as the original reserves nothing beyond what the backup copied, all its commits after
the backup stay below those of the restored directory. -/
theorem restored_revisions_distinct {limits : Limits} {queueCapacity : Int} {codec : MetadataCodec}
    {options : BackupOptions} {backupFaults : BackupFaults} {restoreFaults : RestoreFaults}
    {directories : List Bytes} {backup restored : Disk}
    {outcome outcome' : Outcome Error BackupMetadata}
    {before original after : List MachineEvent}
    (hbackup : createBackup codec limits options backupFaults
      (Machine.initial.run limits queueCapacity before).disk = (outcome, some backup))
    (hrestore : restoreBackup codec limits backup directories restoreFaults
      = (outcome', some restored))
    (hkept : ∀ events, events <+: original →
      ((Machine.initial.run limits queueCapacity before).run limits queueCapacity events).storedEnd
        ≤ (Machine.initial.run limits queueCapacity before).storedEnd) :
    ∀ f ∈ (Machine.initial.run limits queueCapacity before).frames limits queueCapacity original,
    ∀ g ∈ (Machine.mk restored none).frames limits queueCapacity after,
      f.revision < g.revision := by
  obtain ⟨last, _, howned⟩ :=
    @Machine.run_owned limits queueCapacity 0 Machine.initial Machine.owned_initial before
  obtain ⟨file, hlive, hpossible⟩ := identity_of_restored hbackup hrestore
  obtain ⟨identity, hencodable, hstored⟩ : ∃ identity : Identity, identity.Encodable ∧
      file = .stable identity.bytes := by
    rcases howned.vacant _ (Directory.live_mem_possible _ _) with ⟨hnone, _⟩
      | ⟨stored, hencodable, h, _⟩
    · rw [hlive] at hnone
      cases hnone
    · rw [hlive] at h
      exact ⟨stored, hencodable, Option.some.inj h⟩
  subst hstored
  intro f hf g hg
  have hend := Machine.storedEnd_of_live hencodable hlive
  have hle := Machine.frames_le_storedEnd howned hkept f hf
  have hlt := Machine.frames_gt_of_possible hencodable hpossible after g hg
  omega

/-! ### A collision -/

def sampleStart : StartFaults where
  creation :=
    { create := ⟨none, {}, .ok sampleID, ⟨.ok [1], none⟩⟩, reserve := ⟨.ok [2], none⟩,
      manifest := ⟨.ok [3], none⟩ }
  recover := { recovery := { reserve := ⟨.ok [4], none⟩ }, order := [] }

/-- A durable batch that puts a key with an expiry and one without. -/
def samplePutWork (key : Byte) : Work :=
  .mutation ⟨.durable, [], [newPutMutation [key] [1] ⟨.any, 0⟩ (some 1000),
      newPutMutation [key, 0] [2, 2] ⟨.any, 0⟩ none]⟩ ⟨.batch, by decide⟩
    ⟨.ok [5], none⟩ { source := 0 }

/-- A new database with one commit, under its owner. -/
def sampleOwned : List MachineEvent := [.start sampleStart, .work (samplePutWork 97)]

/-- The same database as its owner leaves it. -/
def sampleClosed : List MachineEvent := sampleOwned ++ [.close none]

def sampleReopened (key : Byte) : List MachineEvent :=
  [.start sampleStart, .work (samplePutWork key)]

def sampleBackup : BackupOptions := ⟨sampleID, 1, [1], [1], [1]⟩

/-- The metadata of a backup of that database. -/
def sampleMetadata : BackupMetadata where
  schemaVersion := 1
  sourceDatabaseID := sampleID.string
  backupID := [1]
  durableRevision := 1
  createdAt := [1]
  files :=
    [⟨manifestFilename, 309,
        hexEncode [92, 41, 203, 131, 69, 10, 130, 144, 29, 16, 185, 193, 64, 14, 22, 243,
          135, 27, 34, 185, 115, 75, 138, 15, 28, 150, 181, 245, 19, 48, 71, 105]⟩,
      ⟨identityFilename, 64,
        hexEncode [234, 150, 142, 1, 248, 218, 101, 76, 25, 124, 57, 133, 76, 64, 94, 99,
          69, 158, 91, 151, 57, 198, 144, 162, 34, 99, 76, 150, 137, 181, 50, 76]⟩,
      ⟨snapshotName 0, 96,
        hexEncode [35, 7, 133, 182, 77, 9, 71, 143, 142, 90, 36, 27, 139, 179, 75, 191,
          42, 97, 19, 184, 148, 221, 146, 43, 19, 60, 47, 108, 57, 219, 214, 140]⟩,
      ⟨walName 1, 142,
        hexEncode [20, 217, 182, 247, 101, 108, 113, 233, 166, 110, 105, 13, 194, 87, 179, 41,
          144, 137, 203, 253, 168, 109, 6, 76, 157, 131, 147, 126, 240, 76, 225, 87]⟩]
  toolVersion := [1]

/-- A codec that knows this metadata. -/
def sampleCodec : MetadataCodec where
  encode _ := ascii "metadata"
  decode bytes := if bytes = ascii "metadata" then some sampleMetadata else none
  canonicalTime _ := true

/-- What `observe` sees on a directory restored from a backup of `disk`. -/
def observeRestored {α : Type} (codec : MetadataCodec) (limits : Limits) (options : BackupOptions)
    (disk : Disk) (observe : Disk → α) : Option α :=
  match createBackup codec limits options {} disk with
  | (_, some backup) => (restoreBackup codec limits backup [] {}).2.map observe
  | _ => none

theorem observeRestored_eq_some {α : Type} {codec : MetadataCodec} {limits : Limits}
    {options : BackupOptions} {disk : Disk} {observe : Disk → α} {seen : α}
    (h : observeRestored codec limits options disk observe = some seen) :
    ∃ outcome backup outcome' restored,
      createBackup codec limits options {} disk = (outcome, some backup) ∧
      restoreBackup codec limits backup [] {} = (outcome', some restored) ∧
      observe restored = seen := by
  rw [observeRestored] at h
  split at h
  · rename_i outcome backup hbackup
    obtain ⟨restored, hrestored, hseen⟩ := Option.map_eq_some_iff.mp h
    exact ⟨outcome, backup, _, restored, hbackup, Prod.ext rfl hrestored, hseen⟩
  · cases h

/-- The revision and the keys of each commit of a run. -/
def commitKeys (m : Machine) (events : List MachineEvent) : List (Nat × List (List Byte)) :=
  (m.frames defaultLimits 0 events).map fun frame => (frame.revision, frame.effects.map Effect.key)

theorem mem_frames_of_commitKeys {m : Machine} {revision : Nat}
    {keys : List (List Byte)} (h : commitKeys m events = [(revision, keys)]) :
    ∃ frame ∈ m.frames defaultLimits 0 events,
      frame.revision = revision ∧ frame.effects.map Effect.key = keys := by
  have hmem : (revision, keys) ∈ commitKeys m events := by
    rw [h]
    exact List.mem_singleton_self _
  obtain ⟨frame, hframe, heq⟩ := List.mem_map.mp hmem
  exact ⟨frame, hframe, congrArg Prod.fst heq, congrArg Prod.snd heq⟩

set_option maxRecDepth 1000000 in
theorem sampleRestored_commitKeys :
    observeRestored sampleCodec defaultLimits sampleBackup
      (Machine.initial.run defaultLimits 0 sampleOwned).disk
      (fun restored => commitKeys (Machine.mk restored none) (sampleReopened 99))
      = some [(1048577, [[99], [99, 0]])] := by
  decide +kernel

set_option maxRecDepth 1000000 in
theorem sampleOriginal_commitKeys :
    commitKeys (Machine.initial.run defaultLimits 0 sampleOwned) (.close none :: sampleReopened 98)
        = [(1048577, [[98], [98, 0]])] ∧
      commitKeys (Machine.initial.run defaultLimits 0 sampleOwned) [.work (samplePutWork 98)]
        = [(2, [[98], [98, 0]])] ∧
      ∀ events ∈ [.work (samplePutWork 98)].inits,
        ((Machine.initial.run defaultLimits 0 sampleOwned).run defaultLimits 0 events).storedEnd
          ≤ (Machine.initial.run defaultLimits 0 sampleOwned).storedEnd := by
  decide +kernel

/-- The owner of the original, started again after the backup, and the owner of the restored
directory hand out the same revision, for puts of different keys. -/
theorem restored_revision_collides : ∃ outcome backup outcome' restored,
    createBackup sampleCodec defaultLimits sampleBackup {}
      (Machine.initial.run defaultLimits 0 sampleOwned).disk = (outcome, some backup) ∧
    restoreBackup sampleCodec defaultLimits backup [] {} = (outcome', some restored) ∧
    ∃ f ∈ (Machine.initial.run defaultLimits 0 sampleOwned).frames defaultLimits 0
        (.close none :: sampleReopened 98),
    ∃ g ∈ (Machine.mk restored none).frames defaultLimits 0 (sampleReopened 99),
      f.revision = g.revision ∧ f ≠ g := by
  obtain ⟨outcome, backup, outcome', restored, hbackup, hrestore, hseen⟩ :=
    observeRestored_eq_some sampleRestored_commitKeys
  obtain ⟨g, hg, hrevision, hkeys⟩ := mem_frames_of_commitKeys hseen
  obtain ⟨f, hf, hrevision', hkeys'⟩ := mem_frames_of_commitKeys sampleOriginal_commitKeys.1
  refine ⟨outcome, backup, outcome', restored, hbackup, hrestore, f, hf, g, hg, ?_, ?_⟩
  · rw [hrevision, hrevision']
  · intro heq
    rw [heq, hkeys] at hkeys'
    exact absurd hkeys' (by decide)

/-- The owner commits once more in its range after the backup, and the restored directory goes on
behind that range. -/
theorem restored_revisions_distinct_sampleOwned : ∃ outcome backup outcome' restored,
    createBackup sampleCodec defaultLimits sampleBackup {}
      (Machine.initial.run defaultLimits 0 sampleOwned).disk = (outcome, some backup) ∧
    restoreBackup sampleCodec defaultLimits backup [] {} = (outcome', some restored) ∧
    ∃ f ∈ (Machine.initial.run defaultLimits 0 sampleOwned).frames defaultLimits 0
        [.work (samplePutWork 98)],
    ∃ g ∈ (Machine.mk restored none).frames defaultLimits 0 (sampleReopened 99),
      f.revision < g.revision := by
  obtain ⟨outcome, backup, outcome', restored, hbackup, hrestore, hseen⟩ :=
    observeRestored_eq_some sampleRestored_commitKeys
  obtain ⟨g, hg, _⟩ := mem_frames_of_commitKeys hseen
  obtain ⟨f, hf, _⟩ := mem_frames_of_commitKeys sampleOriginal_commitKeys.2.1
  exact ⟨outcome, backup, outcome', restored, hbackup, hrestore, f, hf, g, hg,
    restored_revisions_distinct hbackup hrestore (fun events hevents =>
      sampleOriginal_commitKeys.2.2 events ((List.mem_inits _ _).mpr hevents)) f hf g hg⟩

end GapDB
