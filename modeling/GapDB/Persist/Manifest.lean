import GapDB.Persist.Identity

/-!
# The manifest

`CURRENT` names the snapshot and the WAL that recovery starts from (`persist/manifest.go`). What its
payload takes from `encoding/json` is a parameter; the payload is accepted only if the library
writes the fields it has read in the same way.
-/

namespace GapDB

open Storelib

variable {minimum : Nat}

structure Manifest where
  databaseID : DatabaseID
  generation : Nat
  snapshotFile : Bytes
  snapshotRevision : Nat
  snapshotSHA256 : Bytes
  walFile : Bytes
  walStartRevision : Nat
deriving DecidableEq

/-- The fields as they stand in the payload. -/
structure ManifestJSON where
  databaseID : Bytes
  generation : Nat
  snapshotFile : Bytes
  snapshotRevision : Nat
  snapshotSHA256 : Bytes
  walFile : Bytes
  walStartRevision : Nat
deriving DecidableEq

def manifestHeaderLen : Nat := 16

def manifestTrailer : Nat := 4

def maxManifestJSON : Nat := 4096

def manifestMagic : Bytes := ascii "GAPCUR01"

def corruptManifest (reason : String) (cause : Option StorageFault) : Error :=
  { code := .corruptManifest, message := "Manifest is corrupt.", retry := .afterOperator, reason,
    file := manifestFilename, safeActions := [.inspectOffline, .recoverPropose, .restoreBackup,
      .abort], cause }

/-- A canonical name is its own base name, so the check for that never decides anything. -/
def validateManifest (manifest : Manifest) (minimumGeneration : Nat) (allowZeroGeneration : Bool) :
    Except Error Unit :=
  if manifest.databaseID.isZero then .error (corruptManifest "database ID is zero" none)
  else if (¬ allowZeroGeneration ∧ manifest.generation = 0) ∨
      manifest.generation < minimumGeneration then
    .error (corruptManifest "generation is zero or regressed" none)
  else if manifest.snapshotRevision = maxUint64 ∨
      manifest.walStartRevision ≠ u64 (manifest.snapshotRevision + 1) then
    .error (corruptManifest "WAL start revision must immediately follow the snapshot" none)
  else if manifest.snapshotFile
      ≠ ascii "snapshot-" ++ formatRevision manifest.snapshotRevision ++ ascii ".gdb" then
    .error (corruptManifest "snapshot file is not the canonical base name" none)
  else if manifest.walFile
      ≠ ascii "wal-" ++ formatRevision manifest.walStartRevision ++ ascii ".gdb" then
    .error (corruptManifest "WAL file is not the canonical base name" none)
  else if manifest.snapshotSHA256.length ≠ 64 ∨
      manifest.snapshotSHA256 ≠ toLower manifest.snapshotSHA256 then
    .error (corruptManifest "snapshot SHA-256 must be 64 lowercase hexadecimal characters" none)
  else if (hexDecode manifest.snapshotSHA256).isNone then
    .error (corruptManifest "snapshot SHA-256 is not hexadecimal" none)
  else .ok ()

/-! ### The payload -/

/-- What the payload takes from `encoding/json`: how the fields are written, what `Decode` reads
without unknown fields and where it stops, and that the next `Decode` finds the end there. -/
structure ManifestLibrary where
  marshal : ManifestJSON → Bytes
  decode : Bytes → Option (ManifestJSON × Bytes)
  ends : Bytes → Bool

/-- A string between quotation marks, and what follows. -/
def quote (s rest : Bytes) : Bytes := 34 :: (s ++ 34 :: rest)

/-- `json.Marshal` of the fields; none of them needs an escape. -/
def ManifestJSON.payload (wire : ManifestJSON) : Bytes :=
  ascii "\x7b\"database_id\":" ++ quote wire.databaseID (
  ascii ",\"generation\":" ++ (decimal wire.generation ++ (
  ascii ",\"snapshot_file\":" ++ quote wire.snapshotFile (
  ascii ",\"snapshot_revision\":" ++ (decimal wire.snapshotRevision ++ (
  ascii ",\"snapshot_sha256\":" ++ quote wire.snapshotSHA256 (
  ascii ",\"wal_file\":" ++ quote wire.walFile (
  ascii ",\"wal_start_revision\":" ++ (decimal wire.walStartRevision ++ ascii "\x7d")))))))))

def parseManifestJSON (payload : Bytes) : Option ManifestJSON := do
  let rest ← expect (ascii "\x7b\"database_id\":") payload
  let (databaseID, rest) ← quoted rest
  let rest ← expect (ascii ",\"generation\":") rest
  let (generation, rest) ← numeral rest
  let rest ← expect (ascii ",\"snapshot_file\":") rest
  let (snapshotFile, rest) ← quoted rest
  let rest ← expect (ascii ",\"snapshot_revision\":") rest
  let (snapshotRevision, rest) ← numeral rest
  let rest ← expect (ascii ",\"snapshot_sha256\":") rest
  let (snapshotSHA256, rest) ← quoted rest
  let rest ← expect (ascii ",\"wal_file\":") rest
  let (walFile, rest) ← quoted rest
  let rest ← expect (ascii ",\"wal_start_revision\":") rest
  let (walStartRevision, rest) ← numeral rest
  if rest = ascii "\x7d" then
    some ⟨databaseID, generation, snapshotFile, snapshotRevision, snapshotSHA256, walFile,
      walStartRevision⟩
  else none

/-- The library on fields that need no escape. -/
def manifestLibrary : ManifestLibrary where
  marshal := ManifestJSON.payload
  decode payload := (parseManifestJSON payload).map (·, [])
  ends rest := rest.isEmpty

/-- The strings need no escape and the numbers fit in 64 bits. -/
structure ManifestJSON.Plain (wire : ManifestJSON) : Prop where
  databaseID : ∀ b ∈ wire.databaseID, plain b = true
  generation : wire.generation < 2 ^ 64
  snapshotFile : ∀ b ∈ wire.snapshotFile, plain b = true
  snapshotRevision : wire.snapshotRevision < 2 ^ 64
  snapshotSHA256 : ∀ b ∈ wire.snapshotSHA256, plain b = true
  walFile : ∀ b ∈ wire.walFile, plain b = true
  walStartRevision : wire.walStartRevision < 2 ^ 64

theorem quoted_quote {s : Bytes} (h : ∀ b ∈ s, plain b = true) (rest : Bytes) :
    quoted (quote s rest) = some (s, rest) :=
  quoted_append h rest

/-- A numeral ends at the next literal. -/
theorem numeral_literal {n : Nat} (hn : n < 2 ^ 64) {b : Byte} (hb : isDigit b = false)
    (literal rest : Bytes) :
    numeral (decimal n ++ (b :: literal ++ rest)) = some (n, b :: literal ++ rest) :=
  numeral_append hn hb (literal ++ rest)

theorem parseManifestJSON_payload {wire : ManifestJSON} (h : wire.Plain) :
    parseManifestJSON wire.payload = some wire := by
  have hgeneration : ∀ rest, numeral (decimal wire.generation ++
      (ascii ",\"snapshot_file\":" ++ rest))
      = some (wire.generation, ascii ",\"snapshot_file\":" ++ rest) :=
    numeral_literal h.generation (by decide) _
  have hrevision : ∀ rest, numeral (decimal wire.snapshotRevision ++
      (ascii ",\"snapshot_sha256\":" ++ rest))
      = some (wire.snapshotRevision, ascii ",\"snapshot_sha256\":" ++ rest) :=
    numeral_literal h.snapshotRevision (by decide) _
  have hstart : numeral (decimal wire.walStartRevision ++ ascii "\x7d")
      = some (wire.walStartRevision, ascii "\x7d") :=
    numeral_append h.walStartRevision (by decide) _
  -- field by field: a literal, then the value it announces
  rw [parseManifestJSON, ManifestJSON.payload, expect_append]
  dsimp only [Option.bind_eq_bind, Option.bind_some]
  rw [quoted_quote h.databaseID, Option.bind_some]
  dsimp only
  rw [expect_append, Option.bind_some, hgeneration, Option.bind_some]
  dsimp only
  rw [expect_append, Option.bind_some, quoted_quote h.snapshotFile, Option.bind_some]
  dsimp only
  rw [expect_append, Option.bind_some, hrevision, Option.bind_some]
  dsimp only
  rw [expect_append, Option.bind_some, quoted_quote h.snapshotSHA256, Option.bind_some]
  dsimp only
  rw [expect_append, Option.bind_some, quoted_quote h.walFile, Option.bind_some]
  dsimp only
  rw [expect_append, Option.bind_some, hstart, Option.bind_some]
  dsimp only
  rw [if_pos rfl]

/-! ### The frame -/

def Manifest.wire (manifest : Manifest) : ManifestJSON :=
  ⟨manifest.databaseID.string, manifest.generation, manifest.snapshotFile,
    manifest.snapshotRevision, manifest.snapshotSHA256, manifest.walFile, manifest.walStartRevision⟩

def manifestBody (payload : Bytes) : Bytes :=
  manifestMagic ++ (putUint 2 storageVersion ++ (putUint 2 0 ++ (putUint 4 payload.length ++
    payload)))

def manifestFrame (payload : Bytes) : Bytes :=
  manifestBody payload ++ putUint 4 (crc32c (manifestBody payload))

def Manifest.bytes (manifest : Manifest) : Bytes := manifestFrame manifest.wire.payload

def encodeManifest (json : ManifestLibrary) (manifest : Manifest) : Except Error Bytes :=
  match validateManifest manifest 0 false with
  | .error e => .error e
  | .ok () =>
    let payload := json.marshal manifest.wire
    if maxManifestJSON < payload.length then
      .error (corruptManifest "JSON payload exceeds the format bound" none)
    else .ok (manifestFrame payload)

def parseDatabaseID (value : Bytes) : Option DatabaseID :=
  if value.length ≠ 32 ∨ value ≠ toLower value then none
  else (hexDecode value).map DatabaseID.ofBytes

def decodeManifest (json : ManifestLibrary) (encoded : Bytes) (expectedID : DatabaseID)
    (minimumGeneration : Nat) : Except Error Manifest :=
  let version := uint (slice encoded 8 10)
  let payloadLength := uint (slice encoded 12 16)
  let payload := slice encoded 16 (encoded.length - 4)
  if encoded.length < manifestHeaderLen + manifestTrailer then
    .error (corruptManifest "frame is shorter than the fixed header and trailer" none)
  else if slice encoded 0 8 ≠ manifestMagic then
    .error (corruptManifest "magic does not match GAPCUR01" none)
  else if version ≠ storageVersion then .error (unknownStorageFormat manifestFilename version)
  else if uint (slice encoded 10 12) ≠ 0 then .error (corruptManifest "flags are nonzero" none)
  else if maxManifestJSON < payloadLength ∨
      payloadLength + manifestHeaderLen + manifestTrailer ≠ encoded.length then
    .error (corruptManifest "payload length does not match the frame" none)
  else if crc32c (slice encoded 0 (encoded.length - 4))
      ≠ uint (slice encoded (encoded.length - 4) encoded.length) then
    .error (corruptManifest "CRC32C mismatch" none)
  else
    match json.decode payload with
    | none => .error (corruptManifest "JSON payload is invalid" none)
    | some (wire, rest) =>
      if ¬ json.ends rest then
        .error (corruptManifest "JSON payload has trailing content" none)
      else if json.marshal wire ≠ payload then
        .error (corruptManifest "JSON payload is not canonical field-ordered JSON" none)
      else
        match parseDatabaseID wire.databaseID with
        | none => .error (corruptManifest "database ID is invalid" none)
        | some id =>
          let manifest : Manifest :=
            ⟨id, wire.generation, wire.snapshotFile, wire.snapshotRevision, wire.snapshotSHA256,
              wire.walFile, wire.walStartRevision⟩
          if id ≠ expectedID then .error (databaseIDMismatch expectedID id manifestFilename)
          else
            match validateManifest manifest minimumGeneration false with
            | .error e => .error e
            | .ok () => .ok manifest

/-- A manifest that `EncodeManifest` accepts and 64-bit fields can hold. -/
structure Manifest.Encodable (manifest : Manifest) : Prop where
  id : ¬ manifest.databaseID.isZero
  generation : manifest.generation ≠ 0 ∧ manifest.generation < 2 ^ 64
  revision : manifest.snapshotRevision + 1 < 2 ^ 64
  start : manifest.walStartRevision = manifest.snapshotRevision + 1
  snapshotFile : manifest.snapshotFile = snapshotName manifest.snapshotRevision
  walFile : manifest.walFile = walName manifest.walStartRevision
  digest : ∃ digest : Bytes, digest.length = 32 ∧ manifest.snapshotSHA256 = hexEncode digest

theorem plain_of_mem_hexEncode {bs : Bytes} {b : Byte} (h : b ∈ hexEncode bs) :
    plain b = true := by
  have hrange := mem_hexEncode h
  simp only [plain, Bool.and_eq_true, decide_eq_true_eq, Bool.not_eq_true',
    List.contains_eq_mem, decide_eq_false_iff_not, List.mem_cons, List.not_mem_nil, or_false]
  omega

theorem plain_of_isDigit {b : Byte} (h : isDigit b = true) : plain b = true := by
  simp only [isDigit, Bool.and_eq_true, decide_eq_true_eq] at h
  simp only [plain, Bool.and_eq_true, decide_eq_true_eq, Bool.not_eq_true',
    List.contains_eq_mem, decide_eq_false_iff_not, List.mem_cons, List.not_mem_nil, or_false]
  omega

theorem plain_of_mem_name {start : Bytes} (hstart : start.all plain = true) {revision : Nat}
    {b : Byte} (h : b ∈ start ++ leftPadRevision revision ++ ascii ".gdb") : plain b = true := by
  have hend : (ascii ".gdb").all plain = true := by decide
  rw [leftPadRevision_eq] at h
  simp only [List.mem_append] at h
  rcases h with (h | h) | h
  · exact List.all_eq_true.mp hstart b h
  · exact plain_of_isDigit (isDigit_of_mem_padded h)
  · exact List.all_eq_true.mp hend b h

section

variable {manifest : Manifest}

theorem Manifest.Encodable.validate (h : manifest.Encodable)
    (hminimum : minimum ≤ manifest.generation) :
    validateManifest manifest minimum false = .ok () := by
  obtain ⟨digest, hlen, hdigest⟩ := h.digest
  have hgeneration := h.generation.1
  have hrevision := h.revision
  have hu64 : u64 (manifest.snapshotRevision + 1) = manifest.snapshotRevision + 1 :=
    Nat.mod_eq_of_lt h.revision
  have hid := h.id
  have hsnapshot : manifest.snapshotFile
      = ascii "snapshot-" ++ formatRevision manifest.snapshotRevision ++ ascii ".gdb" := by
    rw [h.snapshotFile, snapshotName, leftPadRevision_eq]
  have hwal : manifest.walFile
      = ascii "wal-" ++ formatRevision manifest.walStartRevision ++ ascii ".gdb" := by
    rw [h.walFile, walName, leftPadRevision_eq]
  have hsha : manifest.snapshotSHA256.length = 64 := by
    rw [hdigest, hexEncode_length, hlen]
  have hlower : toLower manifest.snapshotSHA256 = manifest.snapshotSHA256 := by
    rw [hdigest, toLower_hexEncode]
  have hdecode : hexDecode manifest.snapshotSHA256 = some digest := by
    rw [hdigest, hexDecode_hexEncode]
  rw [validateManifest, if_neg hid, if_neg (by simp; omega),
    if_neg (by rw [hu64, h.start]; simp [maxUint64]; omega), if_neg (not_not.mpr hsnapshot),
    if_neg (not_not.mpr hwal), if_neg (by simp [hsha, hlower]), if_neg (by simp [hdecode])]

theorem Manifest.Encodable.plain (h : manifest.Encodable) : manifest.wire.Plain := by
  obtain ⟨digest, _, hdigest⟩ := h.digest
  have hrevision := h.revision
  refine ⟨fun b hb => plain_of_mem_hexEncode hb, h.generation.2, ?_, by
    simp only [Manifest.wire]; omega, ?_, ?_, by simp only [Manifest.wire, h.start]; omega⟩
  · intro b hb
    simp only [Manifest.wire, h.snapshotFile] at hb
    exact plain_of_mem_name (by decide) hb
  · intro b hb
    simp only [Manifest.wire, hdigest] at hb
    exact plain_of_mem_hexEncode hb
  · intro b hb
    simp only [Manifest.wire, h.walFile] at hb
    exact plain_of_mem_name (by decide) hb

theorem snapshotName_length (revision : Nat) : (snapshotName revision).length = 33 := by
  obtain ⟨rest, hname, hlen⟩ := (StorageName.snapshot revision).bytes_shape
  exact (congrArg List.length hname).trans hlen

theorem walName_length (revision : Nat) : (walName revision).length = 28 := by
  obtain ⟨rest, hname, hlen⟩ := (StorageName.wal revision).bytes_shape
  exact (congrArg List.length hname).trans hlen

theorem DatabaseID.string_length (id : DatabaseID) : id.string.length = 32 := by
  rw [DatabaseID.string, hexEncode_length, id.size]

theorem Manifest.Encodable.payload_length (h : manifest.Encodable) :
    manifest.wire.payload.length ≤ maxManifestJSON := by
  obtain ⟨digest, hlen, hdigest⟩ := h.digest
  have hid := manifest.databaseID.string_length
  have hsnapshot := snapshotName_length manifest.snapshotRevision
  have hwal := walName_length manifest.walStartRevision
  have hsha := hexEncode_length digest
  have h₁ := decimal_length_le manifest.generation
  have h₂ := decimal_length_le manifest.snapshotRevision
  have h₃ := decimal_length_le manifest.walStartRevision
  have hliterals : (ascii "\x7b\"database_id\":").length + (ascii ",\"generation\":").length +
      (ascii ",\"snapshot_file\":").length + (ascii ",\"snapshot_revision\":").length +
      (ascii ",\"snapshot_sha256\":").length + (ascii ",\"wal_file\":").length +
      (ascii ",\"wal_start_revision\":").length + (ascii "\x7d").length = 121 := rfl
  simp only [ManifestJSON.payload, Manifest.wire, quote, List.length_append, List.length_cons,
    h.snapshotFile, h.walFile, hdigest, maxManifestJSON]
  omega

theorem parseDatabaseID_string (id : DatabaseID) : parseDatabaseID id.string = some id := by
  have hlen := id.string_length
  have hlower : toLower id.string = id.string := toLower_hexEncode _
  have hdecode : hexDecode id.string = some id.bytes := hexDecode_hexEncode _
  rw [parseDatabaseID, if_neg (by simp [hlen, hlower]), hdecode]
  simp

theorem manifestBody_length (payload : Bytes) :
    (manifestBody payload).length = 16 + payload.length := by
  have hmagic : manifestMagic.length = 8 := rfl
  simp only [manifestBody, List.length_append, putUint_length, hmagic]
  omega

theorem manifestFrame_length (payload : Bytes) :
    (manifestFrame payload).length = 20 + payload.length := by
  simp only [manifestFrame, List.length_append, manifestBody_length, putUint_length]
  omega

theorem Manifest.bytes_length (manifest : Manifest) :
    manifest.bytes.length = 20 + manifest.wire.payload.length := manifestFrame_length _

theorem manifestBody_prefix_iff {payload bs : Bytes} : manifestBody payload <+: bs ↔
    slice bs 0 8 = manifestMagic ∧ slice bs 8 10 = putUint 2 storageVersion ∧
      slice bs 10 12 = putUint 2 0 ∧ slice bs 12 16 = putUint 4 payload.length ∧
      slice bs 16 (16 + payload.length) = payload := by
  have hmagic : manifestMagic.length = 8 := rfl
  have h := @carries_iff bs 0 [manifestMagic, putUint 2 storageVersion, putUint 2 0,
    putUint 4 payload.length, payload]
  simpa [Carries, manifestBody, hmagic] using h.symm

/-- The decoder reads back every manifest whose payload the library reads back. -/
theorem decodeManifest_frame {json : ManifestLibrary} (h : manifest.Encodable)
    (hminimum : minimum ≤ manifest.generation) {payload rest : Bytes}
    (hmarshal : json.marshal manifest.wire = payload) (hsmall : payload.length ≤ maxManifestJSON)
    (hdecode : json.decode payload = some (manifest.wire, rest)) (hends : json.ends rest = true) :
    decodeManifest json (manifestFrame payload) manifest.databaseID minimum = .ok manifest := by
  have hlen := manifestFrame_length payload
  have hend : (manifestFrame payload).length - 4 = 16 + payload.length := by omega
  have hsealed : Sealed (manifestFrame payload) := sealed_append_crc _
  obtain ⟨hmagic, hversion, hflags, hlength, hpayload⟩ := manifestBody_prefix_iff.mp
    (List.prefix_append (manifestBody payload) (putUint 4 (crc32c (manifestBody payload))))
  rw [← manifestFrame] at hmagic hversion hflags hlength hpayload
  rw [Sealed] at hsealed
  rw [maxManifestJSON] at hsmall
  have hword : payload.length < 256 ^ 4 := by omega
  simp only [decodeManifest, manifestHeaderLen, manifestTrailer, maxManifestJSON, hversion, hflags,
    hlength, uint_putUint hword, uint_putUint (show storageVersion < 256 ^ 2 by decide),
    uint_putUint (show 0 < 256 ^ 2 by decide)]
  rw [if_neg (by omega), if_neg (not_not.mpr hmagic), if_neg (by simp), if_neg (by simp),
    if_neg (by omega), if_neg (not_not.mpr hsealed), hend, hpayload, hdecode]
  simp only
  rw [if_neg (not_not.mpr hends), if_neg (not_not.mpr hmarshal)]
  simp only [Manifest.wire, parseDatabaseID_string]
  rw [if_neg (by simp)]
  simp only [h.validate hminimum]

theorem decodeManifest_bytes (h : manifest.Encodable) (hminimum : minimum ≤ manifest.generation) :
    decodeManifest manifestLibrary manifest.bytes manifest.databaseID minimum = .ok manifest :=
  decodeManifest_frame h hminimum rfl h.payload_length
    (congrArg (Option.map _) (parseManifestJSON_payload h.plain)) rfl

end

/-! ### Reading and installing -/

def readManifest (disk : Disk) (expectedID : DatabaseID) (minimumGeneration : Nat)
    (faults : ReadFaults) : Outcome Error Manifest :=
  (readFile disk manifestFilename "open" "read" faults).bind fun encoded =>
    if manifestHeaderLen + maxManifestJSON + manifestTrailer < encoded.length then
      .error (corruptManifest "frame exceeds the format bound" none)
    else Outcome.ofExcept (decodeManifest manifestLibrary encoded expectedID minimumGeneration)

variable {manifest : Manifest}

theorem readManifest_eq_ok {disk : Disk} {expectedID : DatabaseID} {faults : ReadFaults}
    (h : readManifest disk expectedID minimum faults = .ok manifest) :
    ∃ file, disk.live manifestFilename = some file ∧
      decodeManifest manifestLibrary file.bytes expectedID minimum = .ok manifest := by
  obtain ⟨encoded, hread, h⟩ := Outcome.bind_eq_ok.mp h
  obtain ⟨file, hlive, rfl⟩ := readFile_eq_ok hread
  refine ⟨file, hlive, ?_⟩
  split at h
  · cases h
  · exact Outcome.ofExcept_eq_ok.mp h

theorem files_of_validateManifest {allowZero : Bool}
    (h : validateManifest manifest minimum allowZero = .ok ()) :
    manifest.snapshotFile = snapshotName manifest.snapshotRevision ∧
      manifest.walFile = walName manifest.walStartRevision := by
  unfold validateManifest at h
  simp only [ite_error_eq_ok, and_true] at h
  rw [snapshotName, walName, leftPadRevision_eq, leftPadRevision_eq]
  exact ⟨not_not.mp h.2.2.2.1, not_not.mp h.2.2.2.2.1⟩

theorem validateManifest_of_decode {json : ManifestLibrary} {encoded : Bytes} {id : DatabaseID}
    (h : decodeManifest json encoded id minimum = .ok manifest) :
    validateManifest manifest minimum false = .ok () := by
  simp only [decodeManifest, ite_error_eq_ok] at h
  obtain ⟨_, _, _, _, _, _, h⟩ := h
  split at h
  · cases h
  simp only [ite_error_eq_ok] at h
  obtain ⟨_, _, h⟩ := h
  split at h
  · cases h
  simp only [ite_error_eq_ok] at h
  obtain ⟨_, h⟩ := h
  split at h
  · cases h
  next hvalid =>
  rw [← Except.ok.inj h]
  exact hvalid

/-- A manifest that was decoded names its files canonically. -/
theorem files_of_decodeManifest {json : ManifestLibrary} {encoded : Bytes} {id : DatabaseID}
    (h : decodeManifest json encoded id minimum = .ok manifest) :
    manifest.snapshotFile = snapshotName manifest.snapshotRevision ∧
      manifest.walFile = walName manifest.walStartRevision :=
  files_of_validateManifest (validateManifest_of_decode h)

theorem walFile_of_readManifest {disk : Disk} {id : DatabaseID} {faults : ReadFaults}
    (h : readManifest disk id minimum faults = .ok manifest) :
    manifest.walFile = walName manifest.walStartRevision := by
  obtain ⟨file, _, hdecode⟩ := readManifest_eq_ok h
  exact (files_of_decodeManifest hdecode).2

theorem readManifest_of_live {disk : Disk} (h : manifest.Encodable)
    (hlive : disk.live manifestFilename = some (.stable manifest.bytes))
    (hminimum : minimum ≤ manifest.generation) :
    readManifest disk manifest.databaseID minimum {} = .ok manifest := by
  have hlen := manifest.bytes_length
  have hpayload := h.payload_length
  have hsmall : ¬ manifestHeaderLen + maxManifestJSON + manifestTrailer
      < (File.stable manifest.bytes).bytes.length := by
    simp only [File.stable, manifestHeaderLen, manifestTrailer]
    omega
  rw [readManifest, readFile_of_live hlive]
  simp only [Outcome.bind]
  rw [if_neg hsmall]
  exact Outcome.ofExcept_eq_ok.mpr (decodeManifest_bytes h hminimum)

def manifestWords : InstallWords where
  file := manifestFilename
  operation
    | .create => "manifest_temp_create"
    | .write => "manifest_temp_write"
    | .sync => "manifest_temp_sync"
    | .close => "manifest_temp_close"
    | .rename => "manifest_rename"
    | .syncDirectory => "manifest_directory_sync"
  point
    | .create => some .manifestTempCreate
    | .write => some .manifestTempWrite
    | .sync => some .manifestTempSync
    | .close => none
    | .rename => some .manifestRename
    | .syncDirectory => some .manifestDirectorySync

def installManifest (manifest : Manifest) (previousGeneration : Nat) (faults : InstallFaults)
    (disk : Disk) : Outcome Error Unit × Disk :=
  if previousGeneration = maxUint64 ∨ manifest.generation ≠ previousGeneration + 1 then
    (.error (corruptManifest "generation must advance exactly once" none), disk)
  else
    match validateManifest manifest manifest.generation false with
    | .error e => (.error e, disk)
    | .ok () =>
      match encodeManifest manifestLibrary manifest with
      | .error e => (.error e, disk)
      | .ok encoded => manifestWords.install manifestFilename encoded faults disk

theorem encodeManifest_frame {json : ManifestLibrary}
    (h : manifest.Encodable) (hsmall : (json.marshal manifest.wire).length ≤ maxManifestJSON) :
    encodeManifest json manifest = .ok (manifestFrame (json.marshal manifest.wire)) := by
  rw [encodeManifest, h.validate (Nat.zero_le _)]
  exact if_neg (not_lt.mpr hsmall)

theorem encodeManifest_bytes (h : manifest.Encodable) :
    encodeManifest manifestLibrary manifest = .ok manifest.bytes :=
  encodeManifest_frame h h.payload_length

theorem installManifest_cases (h : manifest.Encodable)
    (previousGeneration : Nat) (faults : InstallFaults) (disk : Disk) :
    Installed disk .current manifest.bytes
      (installManifest manifest previousGeneration faults disk).1
      (installManifest manifest previousGeneration faults disk).2 := by
  unfold installManifest
  split
  · exact .of_error _
  · rw [h.validate le_rfl]
    simp only
    rw [encodeManifest_bytes h]
    exact manifestWords.install_cases .current manifest.bytes faults disk rfl

end GapDB
