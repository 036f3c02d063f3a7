import GapDB.Persist.Backup

/-!
# What a backup copies

A backup that was published holds the authority files of its source byte for byte, and so does the
directory that is restored from it. Whoever reads the generation there reads what the source holds.
-/

namespace GapDB

open Storelib

variable {name : Bytes} {fault : Bytes → Option (CopyStage × Fault)} {disk directory : Disk}
    {metadata : BackupMetadata} {id : DatabaseID} {faults : VerifyFaults} {identity : Identity}
variable {source : Disk} {outcome : Outcome Error BackupMetadata} {codec : MetadataCodec}
    {limits : Limits} {directories : List Bytes} {manifest : Manifest}

/-! ### What is copied -/

theorem copyAndSync_eq_ok {bytes : Bytes} {fault : Option (CopyStage × Fault)}
    (h : copyAndSync source name fault = .ok bytes) :
    ∃ file, source.live name = some file ∧ file.bytes = bytes := by
  unfold copyAndSync at h
  split at h
  · split at h <;> cases h
  split at h
  · cases h
  next file hlive => exact ⟨file, hlive, Outcome.ok.inj h⟩

/-- The copies are synced, and what was there before under other names stays. -/
theorem copyFiles_eq_ok
    {names : List Bytes} {copied : Disk} (h : copyFiles source fault names copied = .ok disk)
    (name : Bytes) :
    disk.older name = copied.older name ∧
      ((∃ file, source.live name = some file ∧ disk.live name = some (.stable file.bytes)) ∨
        name ∉ names ∧ disk.live name = copied.live name) := by
  induction names generalizing copied with
  | nil =>
    obtain rfl := Outcome.ok.inj h
    exact ⟨rfl, .inr ⟨by simp, rfl⟩⟩
  | cons first names ih =>
    obtain ⟨bytes, hcopy, h⟩ := Outcome.bind_eq_ok.mp h
    obtain ⟨file, hlive, rfl⟩ := copyAndSync_eq_ok hcopy
    obtain ⟨holder, hcases⟩ := ih h
    refine ⟨holder, ?_⟩
    rcases hcases with hcopied | ⟨hnot, hkept⟩
    · exact .inl hcopied
    · by_cases hname : name = first
      · subst hname
        exact .inl ⟨file, hlive, by rw [hkept, Directory.live_store_self]⟩
      · refine .inr ⟨by simp [hname, hnot], ?_⟩
        rw [hkept, Directory.live_store_of_ne _ _ hname]

/-- A copy into an empty directory holds nothing but copies. -/
theorem copyFiles_empty {names : List Bytes}
    (h : copyFiles source fault names Directory.empty = .ok disk) (name : Bytes) :
    disk.older name = [] ∧ ∀ file, disk.live name = some file →
      ∃ original, source.live name = some original ∧ file = .stable original.bytes := by
  obtain ⟨holder, hcases⟩ := copyFiles_eq_ok h name
  refine ⟨holder, fun file hfile => ?_⟩
  rcases hcases with ⟨original, hlive, hcopied⟩ | ⟨_, hnone⟩
  · exact ⟨original, hlive, Option.some.inj (hfile.symm.trans hcopied)⟩
  · rw [hnone] at hfile
    cases hfile

theorem publish_eq_some {words : String × String × String} {faults : PublishFaults}
    (h : publish words faults directory metadata = (outcome, some disk)) : disk = directory := by
  unfold publish at h
  split at h
  · cases h
  · cases h
  · cases h
    rfl
  · cases h
  · split at h
    · cases h
      rfl
    · cases h

/-- A backup that was published holds copies of the source, beside its metadata. -/
theorem createBackup_eq_some {options : BackupOptions} {faults : BackupFaults} {backup : Disk}
    (h : createBackup codec limits options faults source = (outcome, some backup)) :
    ∃ identity manifest revision copied metadata,
      verifyGeneration source options.expectedDatabaseID limits faults.source
        = .ok (identity, manifest, revision) ∧
      revision = options.expectedDurableRevision ∧
      copyFiles source faults.copy (authorityFiles manifest) Directory.empty = .ok copied ∧
      metadata = backupMetadata options identity revision copied (authorityFiles manifest) ∧
      backup = copied.store backupMetadataFilename (.stable (codec.encode metadata ++ [10])) ∧
      ∃ verified, verifyBackup codec backup [] limits faults.verify = .ok verified := by
  unfold createBackup at h
  split at h
  · cases h
  split at h
  · cases h
  split at h
  · cases h
  split at h
  · cases h
  split at h
  · cases h
  · cases h
  next identity manifest revision hverify =>
  split at h
  · cases h
  next hmatch =>
  split at h
  · cases h
  split at h
  · cases h
  · cases h
  next copied hcopy =>
  unfold writeBackup at h
  split at h
  · cases h
  simp only at h
  split at h
  · cases h
  · cases h
  next verified hverified =>
  obtain rfl := publish_eq_some h
  simp only [not_or, not_not] at hmatch
  exact ⟨identity, manifest, revision, copied, _, hverify, hmatch.2, hcopy, rfl, rfl, verified,
    hverified⟩

theorem restoreBackup_eq_some {backup restored : Disk} {faults : RestoreFaults}
    (h : restoreBackup codec limits backup directories faults = (outcome, some restored)) :
    ∃ metadata, verifyBackup codec backup directories limits faults.verify = .ok metadata ∧
      copyFiles backup faults.copy
        (metadata.files.map BackupFile.name ++ [backupMetadataFilename]) Directory.empty
          = .ok restored ∧
      ∃ verified, verifyBackup codec restored [] limits faults.verifyCopy = .ok verified := by
  unfold restoreBackup at h
  split at h
  · cases h
  split at h
  · cases h
  · cases h
  next metadata hverify =>
  split at h
  · cases h
  split at h
  · cases h
  · cases h
  next copied hcopy =>
  split at h
  · cases h
  · cases h
  next verified hverified =>
  obtain rfl := publish_eq_some h
  exact ⟨metadata, hverify, hcopy, verified, hverified⟩

/-! ### The identity of the restored directory -/

theorem verifyGeneration_eq_ok {faults : LoadFaults} {revision : Nat}
    (h : verifyGeneration disk id limits faults = .ok (identity, manifest, revision)) :
    readIdentity disk faults.identity = .ok identity := by
  obtain ⟨identity', hidentity, h⟩ := Outcome.bind_eq_ok.mp h
  split at h
  · cases h
  obtain ⟨manifest', _, h⟩ := Outcome.bind_eq_ok.mp h
  obtain ⟨_, _, h⟩ := Outcome.bind_eq_ok.mp h
  obtain ⟨⟨_, _⟩, _, h⟩ := Outcome.bind_eq_ok.mp h
  simp only at h
  split at h
  · cases h
  · simp only [Outcome.ok.injEq, Prod.mk.injEq] at h
    rw [← h.1]
    exact hidentity

theorem invalidated_eq_ok {α : Type} {reason : String} {outcome : Outcome Error α} {a : α}
    (h : invalidated reason outcome = .ok a) : outcome = .ok a := by
  cases outcome with
  | ok b => exact h
  | error e => cases h
  | panic => cases h

/-- The last checks of a verification. -/
theorem verifyBackup_eq_ok
    (h : verifyBackup codec directory directories limits faults = .ok metadata) :
    ∃ id identity manifest allowed,
      readMetadata codec directory faults.metadata = .ok metadata ∧
      parseDatabaseID metadata.sourceDatabaseID = some id ∧
      verifyFiles directory faults [backupMetadataFilename] metadata.files = .ok allowed ∧
      (∀ name ∈ directory.readDir ++ directories, name ∉ directories ∧ name ∈ allowed) ∧
      (directory.readDir ++ directories).length = 5 ∧
      verifyGeneration directory id limits faults.generation
        = .ok (identity, manifest, metadata.durableRevision) := by
  obtain ⟨metadata', hread, h⟩ := Outcome.bind_eq_ok.mp h
  split at h
  · cases h
  next id hid =>
  split at h
  · split at h <;> cases h
  simp only at h
  obtain ⟨allowed, hfiles, h⟩ := Outcome.bind_eq_ok.mp h
  split at h
  · cases h
  next hentries =>
  obtain ⟨⟨identity, manifest, revision⟩, hgeneration, h⟩ := Outcome.bind_eq_ok.mp h
  simp only at h
  split at h
  · cases h
  next hrevision =>
  obtain rfl := Outcome.ok.inj h
  obtain rfl := not_not.mp hrevision
  rw [not_or, not_not, not_not] at hentries
  refine ⟨id, identity, manifest, allowed, hread, hid, hfiles, ?_, hentries.2,
    invalidated_eq_ok hgeneration⟩
  intro name hname
  have hall := List.all_eq_true.mp hentries.1 name hname
  simpa using hall

/-- A backup and what is restored from it carry the identity of the source. -/
theorem identity_of_restored {options : BackupOptions}
    {backupFaults : BackupFaults} {restoreFaults : RestoreFaults} {backup restored : Disk}
    {outcome' : Outcome Error BackupMetadata}
    (hbackup : createBackup codec limits options backupFaults source = (outcome, some backup))
    (hrestore : restoreBackup codec limits backup directories restoreFaults
      = (outcome', some restored)) :
    ∃ file, source.live identityFilename = some file ∧
      restored.possible identityFilename = [some (.stable file.bytes)] := by
  obtain ⟨_, _, _, copied, metadata, _, _, hcopied, _, hstored, _⟩ := createBackup_eq_some hbackup
  obtain ⟨_, _, hrestored, verified, hverified⟩ := restoreBackup_eq_some hrestore
  obtain ⟨_, _, _, _, _, _, _, _, _, hgeneration⟩ := verifyBackup_eq_ok hverified
  obtain ⟨file, hfile, _⟩ := readIdentity_eq_ok (verifyGeneration_eq_ok hgeneration)
  obtain ⟨holder, hcopies⟩ := copyFiles_empty hrestored identityFilename
  obtain ⟨inBackup, hinBackup, rfl⟩ := hcopies file hfile
  have hne : identityFilename ≠ backupMetadataFilename := by decide
  rw [hstored, Directory.live_store_of_ne _ _ hne] at hinBackup
  obtain ⟨original, horiginal, rfl⟩ := (copyFiles_empty hcopied identityFilename).2 _ hinBackup
  refine ⟨original, horiginal, ?_⟩
  rw [Directory.possible, hfile, holder]
  rfl

/-! ### The generation in a copy -/

/-- The name holds the same bytes in the copy. -/
def CopiedTo (disk disk' : Disk) (name : Bytes) : Prop :=
  ∀ file, disk.live name = some file → disk'.live name = some (.stable file.bytes)

theorem CopiedTo.readFile {disk' : Disk} (h : CopiedTo disk disk' name)
    {openOperation readOperation : String} {bytes : Bytes}
    (hread : readFile disk name openOperation readOperation {} = .ok bytes) :
    GapDB.readFile disk' name openOperation readOperation {} = .ok bytes := by
  obtain ⟨file, hlive, rfl⟩ := readFile_eq_ok hread
  exact readFile_of_live (h file hlive) openOperation readOperation

/-- A step that goes on with the bytes of a file does the same with those of its copy. -/
theorem CopiedTo.bind {α : Type} {disk' : Disk} (h : CopiedTo disk disk' name)
    {openOperation readOperation : String} {next : Bytes → Outcome Error α} {a : α}
    (hread : (GapDB.readFile disk name openOperation readOperation {}).bind next = .ok a) :
    (GapDB.readFile disk' name openOperation readOperation {}).bind next = .ok a := by
  obtain ⟨bytes, hbytes, hnext⟩ := Outcome.bind_eq_ok.mp hread
  exact Outcome.bind_eq_ok.mpr ⟨bytes, h.readFile hbytes, hnext⟩

/-- Loading a copy of the four files gives what loading the original gives. -/
theorem Loads.copied {disk' : Disk} {loaded : Loaded} (h : Loads disk limits loaded)
    (hcopied : ∀ name ∈ authorityFiles loaded.manifest, CopiedTo disk disk' name) :
    Loads disk' limits { loaded with file := .stable loaded.file.bytes } where
  identity := CopiedTo.bind (hcopied _ (by simp [authorityFiles])) h.identity
  manifest := CopiedTo.bind (hcopied _ (by simp [authorityFiles])) h.manifest
  snapshot := CopiedTo.bind (hcopied _ (by simp [authorityFiles])) h.snapshot
  valid := h.valid
  live := hcopied _ (by simp [authorityFiles]) _ h.live
  scan := h.scan
  generation := h.generation
  start := h.start

/-- The files that a verified generation consists of. -/
theorem verifyGeneration_live {faults : LoadFaults} {revision : Nat}
    (h : verifyGeneration disk id limits faults = .ok (identity, manifest, revision)) :
    (∃ file, disk.live identityFilename = some file ∧ decodeIdentity file.bytes = .ok identity) ∧
      identity.databaseID = id ∧
      (∃ file, disk.live manifestFilename = some file ∧
        decodeManifest manifestLibrary file.bytes id 1 = .ok manifest) ∧
      (disk.live manifest.snapshotFile).isSome ∧ (disk.live manifest.walFile).isSome := by
  obtain ⟨identity', hidentity, h⟩ := Outcome.bind_eq_ok.mp h
  split at h
  · cases h
  next hid =>
  obtain ⟨manifest', hmanifest, h⟩ := Outcome.bind_eq_ok.mp h
  obtain ⟨state, hsnapshot, h⟩ := Outcome.bind_eq_ok.mp h
  obtain ⟨⟨file, replay⟩, hscan, h⟩ := Outcome.bind_eq_ok.mp h
  simp only at h
  split at h
  · cases h
  simp only [Outcome.ok.injEq, Prod.mk.injEq] at h
  obtain ⟨rfl, rfl, rfl⟩ := h
  obtain ⟨stored, _, hstored, _⟩ := loadSnapshot_eq_ok hsnapshot
  refine ⟨readIdentity_eq_ok hidentity, not_not.mp hid, readManifest_eq_ok hmanifest, ?_, ?_⟩
  · rw [hstored]
    rfl
  · rw [(openAndScan_eq_ok hscan).1]
    rfl

section

variable {options : BackupOptions}
  {backupFaults : BackupFaults} {restoreFaults : RestoreFaults} {backup restored : Disk}
   {outcome' : Outcome Error BackupMetadata}

/-- Whatever the restored directory holds apart from the metadata, the source holds. -/
theorem restored_of_source
    (hbackup : createBackup codec limits options backupFaults source = (outcome, some backup))
    (hrestore : restoreBackup codec limits backup directories restoreFaults
      = (outcome', some restored)) (hne : name ≠ backupMetadataFilename)
    (hsome : (restored.live name).isSome) : CopiedTo source restored name := by
  obtain ⟨_, _, _, copied, metadata, _, _, hcopied, _, hstored, _⟩ := createBackup_eq_some hbackup
  obtain ⟨_, _, hrestored, _⟩ := restoreBackup_eq_some hrestore
  obtain ⟨file, hfile⟩ := Option.isSome_iff_exists.mp hsome
  obtain ⟨inBackup, hinBackup, rfl⟩ := (copyFiles_empty hrestored name).2 file hfile
  rw [hstored, Directory.live_store_of_ne _ _ hne] at hinBackup
  obtain ⟨original, horiginal, rfl⟩ := (copyFiles_empty hcopied name).2 _ hinBackup
  intro file' hfile'
  rw [horiginal] at hfile'
  cases hfile'
  exact hfile

theorem authorityFiles_ne {encoded : Bytes} {minimum : Nat}
    (h : decodeManifest manifestLibrary encoded id minimum = .ok manifest) :
    ∀ name ∈ authorityFiles manifest, name ≠ backupMetadataFilename := by
  obtain ⟨hr, hr'⟩ := files_of_decodeManifest h
  intro name hname heq
  subst heq
  simp only [authorityFiles, hr, hr', List.mem_cons, List.not_mem_nil, or_false] at hname
  rcases hname with h | h | h | h
  · exact absurd h (by decide)
  · exact absurd h (by decide)
  · exact absurd (congrArg List.head? h) (by simp [snapshotName, ascii, backupMetadataFilename])
  · exact absurd (congrArg List.head? h) (by simp [walName, ascii, backupMetadataFilename])

/-- The restored directory loads as the source does. -/
theorem restored_loads {loaded : Loaded} (hloads : Loads source limits loaded)
    (hbackup : createBackup codec limits options backupFaults source = (outcome, some backup))
    (hrestore : restoreBackup codec limits backup directories restoreFaults
      = (outcome', some restored)) :
    Loads restored limits { loaded with file := .stable loaded.file.bytes } := by
  obtain ⟨_, _, _, verified, hverified⟩ := restoreBackup_eq_some hrestore
  obtain ⟨id, identity, manifest, _, _, _, _, _, _, hgeneration⟩ := verifyBackup_eq_ok hverified
  obtain ⟨⟨idFile, hidFile, hidentity⟩, hid, ⟨current, hcurrent, hmanifest⟩, hsnapshot, hwal⟩ :=
    verifyGeneration_live hgeneration
  have hcopied : ∀ name, name ≠ backupMetadataFilename → (restored.live name).isSome →
      CopiedTo source restored name := fun _ hne hsome =>
        restored_of_source hbackup hrestore hne hsome
  -- the identity and the manifest that are read in the copy are those of the source
  obtain ⟨sourceIdentity, hsourceIdentity, hdecodedIdentity⟩ := readIdentity_eq_ok hloads.identity
  have hidCopied := hcopied identityFilename (by decide) (by rw [hidFile]; rfl)
  have hidBytes : idFile = .stable sourceIdentity.bytes :=
    Option.some.inj (hidFile.symm.trans (hidCopied _ hsourceIdentity))
  subst hidBytes
  obtain rfl : identity = loaded.identity := Except.ok.inj (hidentity.symm.trans hdecodedIdentity)
  subst hid
  obtain ⟨sourceCurrent, hsourceCurrent, hdecodedManifest⟩ := readManifest_eq_ok hloads.manifest
  have hcurrentCopied := hcopied manifestFilename (by decide) (by rw [hcurrent]; rfl)
  have hcurrentBytes : current = .stable sourceCurrent.bytes :=
    Option.some.inj (hcurrent.symm.trans (hcurrentCopied _ hsourceCurrent))
  subst hcurrentBytes
  obtain rfl : manifest = loaded.manifest := Except.ok.inj (hmanifest.symm.trans hdecodedManifest)
  have hne := authorityFiles_ne hmanifest
  refine hloads.copied ?_
  intro name hname
  refine hcopied name (hne name hname) ?_
  simp only [authorityFiles, List.mem_cons, List.not_mem_nil, or_false] at hname
  rcases hname with rfl | rfl | rfl | rfl
  · rw [hidFile]
    rfl
  · rw [hcurrent]
    rfl
  · exact hsnapshot
  · exact hwal

end

/-! ### Verification leaves no choice -/

theorem verifyFiles_eq_ok {files : List BackupFile}
    {allowed allowed' : List Bytes} (h : verifyFiles directory faults allowed files
      = .ok allowed') :
    allowed' = (files.map BackupFile.name).reverse ++ allowed ∧
      ∀ file ∈ files, ∃ f, directory.live file.name = some f ∧
        hexEncode (sha256 f.bytes) = file.sha256 := by
  induction files generalizing allowed with
  | nil =>
    obtain rfl := Outcome.ok.inj h
    exact ⟨rfl, by simp⟩
  | cons file files ih =>
    rw [verifyFiles] at h
    split at h
    · cases h
    obtain ⟨⟨size, digest⟩, hhash, h⟩ := Outcome.bind_eq_ok.mp h
    simp only at h
    split at h
    · cases h
    next hmatch =>
    obtain ⟨heq, hfiles⟩ := ih h
    obtain ⟨bytes, hread, hhashed⟩ := Outcome.bind_eq_ok.mp (invalidated_eq_ok hhash)
    obtain ⟨f, hlive, rfl⟩ := readFile_eq_ok hread
    simp only [Outcome.ok.injEq, Prod.mk.injEq] at hhashed
    rw [not_or, not_not, not_not] at hmatch
    refine ⟨?_, ?_⟩
    · rw [heq, List.map_cons, List.reverse_cons, List.append_assoc]
      rfl
    · intro file' hfile'
      rcases List.mem_cons.mp hfile' with rfl | hfile'
      · exact ⟨f, hlive, hhashed.2.trans hmatch.2⟩
      · exact hfiles file' hfile'

theorem readMetadata_eq_ok {faults : ReadFaults}
    (h : readMetadata codec directory faults = .ok metadata) :
    (directory.live backupMetadataFilename).map File.bytes = some (codec.encode metadata ++ [10]) ∧
      codec.decode (codec.encode metadata) = some metadata ∧ metadata.files.length = 4 := by
  obtain ⟨encoded, hread, h⟩ := Outcome.bind_eq_ok.mp h
  obtain ⟨file, hlive, rfl⟩ := readFile_eq_ok (invalidated_eq_ok hread)
  split at h
  · cases h
  split at h
  · cases h
  next hnewline =>
  split at h
  · cases h
  next hdecode =>
  split at h
  · cases h
  next hcanonical =>
  obtain rfl := Outcome.ok.inj h
  simp only [not_or, not_not] at hcanonical hnewline
  rw [hlive, hcanonical.1, Option.map_some, List.dropLast_append_getLast? _ hnewline]
  exact ⟨rfl, hdecode, hcanonical.2.2.2.2.2⟩

/-- A directory that is accepted holds the listed files, the metadata and nothing else. -/
structure Accepted (codec : MetadataCodec) (directory : Disk) (metadata : BackupMetadata) :
    Prop where
  encoded : (directory.live backupMetadataFilename).map File.bytes
    = some (codec.encode metadata ++ [10])
  decoded : codec.decode (codec.encode metadata) = some metadata
  entries : ∀ name, (directory.live name).isSome ↔
    name ∈ (metadata.files.map BackupFile.name).reverse ++ [backupMetadataFilename]
  hashed : ∀ file ∈ metadata.files, ∃ f, directory.live file.name = some f ∧
    hexEncode (sha256 f.bytes) = file.sha256

theorem accepted_of_verifyBackup
    (h : verifyBackup codec directory directories limits faults = .ok metadata) :
    Accepted codec directory metadata := by
  obtain ⟨id, identity, manifest, allowed, hread, _, hfiles, hentries, hlength, _⟩ :=
    verifyBackup_eq_ok h
  obtain ⟨hencoded, hdecoded, hfour⟩ := readMetadata_eq_ok hread
  obtain ⟨hallowed, hhashed⟩ := verifyFiles_eq_ok hfiles
  have hplain : directories = [] := by
    refine List.eq_nil_iff_forall_not_mem.mpr fun name hname => ?_
    exact (hentries name (List.mem_append_right _ hname)).1 hname
  subst hplain
  rw [List.append_nil] at hentries hlength
  -- five entries among five allowed names leave none out
  have hnodup : directory.readDir.Nodup := (List.nodup_dedup _).filter _
  have hsubset : directory.readDir ⊆ allowed := fun name hname => (hentries name hname).2
  have hcount : allowed.length = 5 := by
    rw [hallowed, List.length_append, List.length_reverse, List.length_map, hfour]
    rfl
  have hperm : directory.readDir.Perm allowed :=
    (List.subperm_of_subset hnodup hsubset).perm_of_length_le (by omega)
  refine ⟨hencoded, hdecoded, ?_, hhashed⟩
  intro name
  rw [← hallowed, ← hperm.mem_iff]
  exact Directory.mem_readDir.symm

/-- A restored directory is accepted with the metadata of the backup. -/
theorem verifyBackup_restored {backup restored : Disk} {faults : RestoreFaults}
    (h : restoreBackup codec limits backup directories faults = (outcome, some restored)) :
    ∃ metadata, verifyBackup codec backup directories limits faults.verify = .ok metadata ∧
      verifyBackup codec restored [] limits faults.verifyCopy = .ok metadata := by
  obtain ⟨metadata, hverify, hcopy, verified, hverified⟩ := restoreBackup_eq_some h
  have haccepted := accepted_of_verifyBackup hverify
  have haccepted' := accepted_of_verifyBackup hverified
  obtain ⟨file, hfile, hbytes⟩ := Option.map_eq_some_iff.mp haccepted'.encoded
  obtain ⟨original, horiginal, rfl⟩ := (copyFiles_empty hcopy _).2 file hfile
  have hencoded := haccepted.encoded
  rw [horiginal, Option.map_some, Option.some.injEq] at hencoded
  have hsame : codec.encode metadata = codec.encode verified :=
    List.append_cancel_right (hencoded.symm.trans hbytes)
  have heq := haccepted.decoded
  rw [hsame, haccepted'.decoded, Option.some.injEq] at heq
  exact ⟨metadata, hverify, heq ▸ hverified⟩

end GapDB
