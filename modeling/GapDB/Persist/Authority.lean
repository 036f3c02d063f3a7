import GapDB.Persist.Damage
import GapDB.Persist.Snapshot
import GapDB.Storelib.Codec

/-!
# The authority files

`IDENTITY`, the header of the WAL and `CURRENT` decide what a directory holds. Each of them has one
byte string for one value, and a checksum that shows a changed byte.
-/

namespace GapDB

open Storelib

variable {bs encoded : Bytes} {identity : Identity} {manifest : Manifest}

/-! ### The sealed header -/

theorem sealedHeader_sealed (magic : Bytes) (id : DatabaseID) (first second : Nat) :
    Sealed (sealedHeader magic id first second) :=
  sealed_append_crc _

theorem sealedHeader_long {magic : Bytes} (hmagic : magic.length = 8) (id : DatabaseID)
    (first second : Nat) : 4 ≤ (sealedHeader magic id first second).length := by
  rw [sealedHeader_length hmagic]
  decide

theorem ofBytes_slice_bytes (h : 28 ≤ bs.length) :
    slice bs 12 28 = (DatabaseID.ofBytes (slice bs 12 28)).bytes := by
  simp [DatabaseID.ofBytes, slice_length _ _ _ h]

/-! ### `IDENTITY` -/

theorem encodeIdentity_eq_ok (h : encodeIdentity identity = .ok bs) :
    ¬ identity.databaseID.isZero ∧ identity.generation ≠ 0 ∧ bs = identity.bytes := by
  rw [encodeIdentity, ite_error_eq_ok, ite_error_eq_ok, Except.ok.injEq] at h
  exact ⟨h.1, h.2.1, h.2.2.symm⟩

theorem decodeIdentity_eq_ok (h : decodeIdentity encoded = .ok identity) :
    encoded = identity.bytes ∧ encodeIdentity identity = .ok encoded := by
  simp only [decodeIdentity, ite_error_eq_ok, Except.ok.injEq] at h
  obtain ⟨hlength, hmagic, hversion, hsize, hreserved, hcrc, hnonzero, rfl⟩ := h
  push Not at hlength hmagic hversion hsize hreserved hcrc hnonzero
  have hlong : encoded.length = 64 := hlength
  have hbytes : encoded = Identity.bytes ⟨DatabaseID.ofBytes (slice encoded 12 28),
      uint (slice encoded 28 36), uint (slice encoded 36 44)⟩ :=
    eq_sealedHeader_of_fields (by decide) _ _ _ ⟨hlong, hmagic, hversion, hsize,
      ofBytes_slice_bytes (by omega), rfl, rfl, hreserved, hcrc⟩
  refine ⟨hbytes, ?_⟩
  rw [encodeIdentity, if_neg hnonzero.1, if_neg hnonzero.2, ← hbytes]

theorem sealed_of_decodeIdentity (h : decodeIdentity encoded = .ok identity) : Sealed encoded := by
  rw [(decodeIdentity_eq_ok h).1]
  exact sealedHeader_sealed _ _ _ _

/-- The counters of an identity are 64-bit words. -/
def Identity.Words (identity : Identity) : Prop :=
  identity.reservedRevisionEnd < 2 ^ 64 ∧ identity.generation < 2 ^ 64

theorem identity_canonical :
    Canonical encodeIdentity (fun _ : Unit => decodeIdentity) (fun _ => True)
      fun _ identity => identity.Words where
  undoes := by
    intro _ identity bs hwords h
    obtain ⟨hid, hgeneration, rfl⟩ := encodeIdentity_eq_ok h
    exact decodeIdentity_bytes ⟨hid, hwords.1, hgeneration, hwords.2⟩
  exact := by
    intro _ bs identity _ h
    exact (decodeIdentity_eq_ok h).2
  evident := by
    refine evident_of_sealed (fun identity bs h => ?_) fun _ bs identity h => ?_
    · obtain ⟨-, -, rfl⟩ := encodeIdentity_eq_ok h
      exact ⟨sealedHeader_long (by decide) _ _ _, sealedHeader_sealed _ _ _ _⟩
    · exact sealed_of_decodeIdentity h

/-! ### The header of the WAL -/

theorem encodeWALHeader_eq_ok {header : WALHeader} (h : encodeWALHeader header = .ok bs) :
    ¬ header.databaseID.isZero ∧ header.firstRevision ≠ 0 ∧ header.generation ≠ 0 ∧
      bs = header.bytes := by
  rw [encodeWALHeader, ite_error_eq_ok, Except.ok.injEq] at h
  push Not at h
  exact ⟨h.1.1, h.1.2.1, h.1.2.2, h.2.symm⟩

theorem decodeWALHeader_eq_ok {expectedID : DatabaseID} {header : WALHeader}
    (h : decodeWALHeader encoded expectedID = .ok header) :
    encoded = header.bytes ∧ header.databaseID = expectedID ∧ header.firstRevision ≠ 0 ∧
      header.generation ≠ 0 := by
  simp only [decodeWALHeader, ite_error_eq_ok, Except.ok.injEq] at h
  obtain ⟨hlength, hmagic, hversion, hsize, hcrc, hid, hnonzero, rfl⟩ := h
  push Not at hlength hmagic hversion hsize hcrc hid hnonzero
  have hlong : encoded.length = 64 := hlength
  exact ⟨eq_sealedHeader_of_fields (by decide) _ _ _ ⟨hlong, hmagic, hversion, hsize.1,
    ofBytes_slice_bytes (by omega), rfl, rfl, hsize.2, hcrc⟩, hid, hnonzero.1, hnonzero.2⟩

/-- The counters of a header are 64-bit words. -/
def WALHeader.Words (header : WALHeader) : Prop :=
  header.firstRevision < 2 ^ 64 ∧ header.generation < 2 ^ 64

/-- The decoder only compares the identifier with the expected one, so canonicity needs that one to
be an identifier. -/
theorem walHeader_canonical :
    Canonical encodeWALHeader (fun expectedID encoded => decodeWALHeader encoded expectedID)
      (fun expectedID => ¬ expectedID.isZero)
      fun expectedID header => header.databaseID = expectedID ∧ header.Words where
  undoes := by
    rintro _ header bs ⟨rfl, hwords⟩ h
    obtain ⟨hid, hfirst, hgeneration, rfl⟩ := encodeWALHeader_eq_ok h
    exact decodeWALHeader_bytes ⟨hid, ⟨hfirst, hwords.1⟩, hgeneration, hwords.2⟩
  exact := by
    intro expectedID bs header hexpected h
    obtain ⟨rfl, rfl, hfirst, hgeneration⟩ := decodeWALHeader_eq_ok h
    rw [encodeWALHeader, if_neg (by simp [hexpected, hfirst, hgeneration])]
    rfl
  evident := by
    have hread : ∀ expectedID bs header,
        (fun expectedID encoded => decodeWALHeader encoded expectedID) expectedID bs = .ok header →
          Sealed bs :=
      fun _ _ _ h => (sealed_of_decodeWALHeader h).2
    refine evident_of_sealed (fun header bs h => ?_) hread
    obtain ⟨-, -, -, rfl⟩ := encodeWALHeader_eq_ok h
    exact ⟨sealedHeader_long (by decide) _ _ _, sealedHeader_sealed _ _ _ _⟩

/-! ### `CURRENT` -/

/-- The counters of the fields are 64-bit words. -/
def ManifestJSON.Words (wire : ManifestJSON) : Prop :=
  wire.generation < 2 ^ 64 ∧ wire.snapshotRevision < 2 ^ 64

/-- The library reads back what it writes, up to the end, and reads counters of 64 bits. -/
structure ManifestLibrary.Lawful (json : ManifestLibrary) : Prop where
  reads : ∀ wire : ManifestJSON, wire.Plain →
    ∃ rest, json.decode (json.marshal wire) = some (wire, rest) ∧ json.ends rest = true
  words : ∀ payload wire rest, json.decode payload = some (wire, rest) → wire.Words

theorem manifestLibrary_lawful : manifestLibrary.Lawful where
  reads _ hplain := ⟨[], congrArg (Option.map _) (parseManifestJSON_payload hplain), rfl⟩
  words payload wire rest h := by
    have h : (parseManifestJSON payload).map (·, []) = some (wire, rest) := h
    obtain ⟨parsed, hparsed, hwire⟩ := Option.map_eq_some_iff.mp h
    obtain ⟨rfl, -⟩ := Prod.mk.inj hwire
    simp only [parseManifestJSON, Option.bind_eq_bind, Option.bind_eq_some_iff] at hparsed
    obtain ⟨_, _, _, _, _, _, ⟨generation, _⟩, hgeneration, _, _, _, _, _, _, ⟨revision, _⟩,
      hrevision, _, _, _, _, _, _, _, _, _, _, _, _, hparsed⟩ := hparsed
    split at hparsed
    · rw [← Option.some.inj hparsed]
      exact ⟨lt_of_numeral hgeneration, lt_of_numeral hrevision⟩
    · cases hparsed

theorem string_of_parseDatabaseID {value : Bytes} {id : DatabaseID}
    (h : parseDatabaseID value = some id) : value = id.string := by
  unfold parseDatabaseID at h
  split at h
  · cases h
  next hvalue =>
  push Not at hvalue
  obtain ⟨decoded, hdecoded, rfl⟩ := Option.map_eq_some_iff.mp h
  have hhex := hexEncode_of_hexDecode hdecoded (not_upper_of_toLower_eq hvalue.2)
  have hlength : decoded.length = 16 := by
    have hlen := congrArg List.length hhex
    rw [hexEncode_length, hvalue.1] at hlen
    omega
  rw [hhex, DatabaseID.string, DatabaseID.ofBytes]
  simp [hlength]

/-- What a manifest that passed its check is like, whatever the least generation was. -/
theorem encodable_of_validateManifest {minimum : Nat}
    (h : validateManifest manifest minimum false = .ok ())
    (hgeneration : manifest.generation < 2 ^ 64) (hrevision : manifest.snapshotRevision < 2 ^ 64) :
    manifest.Encodable := by
  obtain ⟨hsnapshot, hwal⟩ := files_of_validateManifest h
  simp only [validateManifest, ite_error_eq_ok, and_true] at h
  obtain ⟨hid, hzero, hstart, -, -, hsha, hhex⟩ := h
  push Not at hzero hstart hsha
  rw [Bool.not_eq_true, Option.isNone_eq_false_iff, Option.isSome_iff_exists] at hhex
  obtain ⟨digest, hdigest⟩ := hhex
  have hencoded := hexEncode_of_hexDecode hdigest (not_upper_of_toLower_eq hsha.2)
  have hlength : digest.length = 32 := by
    have hlen := congrArg List.length hencoded
    rw [hexEncode_length, hsha.1] at hlen
    omega
  have hnext : manifest.snapshotRevision + 1 < 2 ^ 64 := by
    have hmax := hstart.1
    simp only [maxUint64] at hmax
    omega
  refine ⟨hid, ⟨hzero.1 (by simp), hgeneration⟩, hnext, ?_, hsnapshot, hwal,
    digest, hlength, hencoded⟩
  rw [hstart.2]
  exact Nat.mod_eq_of_lt hnext

section

variable {json : ManifestLibrary}

theorem encodeManifest_eq_ok (h : encodeManifest json manifest = .ok bs) :
    validateManifest manifest 0 false = .ok () ∧
      (json.marshal manifest.wire).length ≤ maxManifestJSON ∧
      bs = manifestFrame (json.marshal manifest.wire) := by
  unfold encodeManifest at h
  split at h
  · cases h
  next hvalid =>
  simp only [ite_error_eq_ok, Except.ok.injEq] at h
  exact ⟨hvalid, not_lt.mp h.1, h.2.symm⟩

theorem decodeManifest_eq_ok (hjson : json.Lawful) {expectedID : DatabaseID} {minimum : Nat}
    (h : decodeManifest json encoded expectedID minimum = .ok manifest) :
    manifest.Encodable ∧ (json.marshal manifest.wire).length ≤ maxManifestJSON ∧
      encoded = manifestFrame (json.marshal manifest.wire) := by
  simp only [decodeManifest, ite_error_eq_ok] at h
  obtain ⟨hlong, hmagic, hversion, hflags, hlength, hcrc, h⟩ := h
  push Not at hlong hmagic hversion hflags hlength hcrc
  have hlong' : 20 ≤ encoded.length := hlong
  split at h
  · cases h
  next wire rest hdecode =>
  simp only [ite_error_eq_ok] at h
  obtain ⟨-, hcanonical, h⟩ := h
  push Not at hcanonical
  split at h
  · cases h
  next id hid =>
  rw [ite_error_eq_ok] at h
  obtain ⟨-, h⟩ := h
  split at h
  · cases h
  next hvalid =>
  rw [Except.ok.injEq] at h
  subst h
  obtain ⟨hgeneration, hrevision⟩ := hjson.words _ _ _ hdecode
  have hwire : Manifest.wire ⟨id, wire.generation, wire.snapshotFile, wire.snapshotRevision,
      wire.snapshotSHA256, wire.walFile, wire.walStartRevision⟩ = wire := by
    rw [Manifest.wire, ← string_of_parseDatabaseID hid]
  rw [hwire]
  have hcount : (json.marshal wire).length = uint (slice encoded 12 16) := by
    rw [hcanonical, slice_length _ _ _ (Nat.sub_le _ _)]
    simp only [manifestHeaderLen, manifestTrailer] at hlength
    omega
  refine ⟨encodable_of_validateManifest hvalid hgeneration hrevision, by omega, ?_⟩
  simp only [manifestHeaderLen, manifestTrailer] at hlength
  refine eq_append_crc (manifestBody_prefix_iff.mpr ⟨hmagic,
    slice_eq_putUint (by omega) rfl hversion, slice_eq_putUint (by omega) rfl hflags, ?_, ?_⟩)
    (by rw [manifestBody_length]; omega) hcrc
  · rw [hcount]
    exact slice_eq_word encoded 12 16 (by omega) rfl
  · rw [show 16 + (json.marshal wire).length = encoded.length - 4 by omega, hcanonical]

theorem manifestFrame_sealed (payload : Bytes) : Sealed (manifestFrame payload) :=
  sealed_append_crc _

/-- The counters of a manifest are 64-bit words. -/
def Manifest.Words (manifest : Manifest) : Prop :=
  manifest.generation < 2 ^ 64 ∧ manifest.snapshotRevision < 2 ^ 64

theorem manifest_canonical (hjson : json.Lawful) :
    Canonical (encodeManifest json)
      (fun (context : DatabaseID × Nat) encoded =>
        decodeManifest json encoded context.1 context.2)
      (fun _ => True)
      fun context manifest => manifest.databaseID = context.1 ∧
        context.2 ≤ manifest.generation ∧ manifest.Words where
  undoes := by
    rintro ⟨_, minimum⟩ manifest bs ⟨rfl, hminimum, hwords⟩ h
    obtain ⟨hvalid, hsmall, rfl⟩ := encodeManifest_eq_ok h
    have hencodable := encodable_of_validateManifest hvalid hwords.1 hwords.2
    obtain ⟨rest, hdecode, hends⟩ := hjson.reads _ hencodable.plain
    exact decodeManifest_frame hencodable hminimum rfl hsmall hdecode hends
  exact := by
    intro context bs manifest _ h
    obtain ⟨hencodable, hsmall, rfl⟩ := decodeManifest_eq_ok hjson h
    exact encodeManifest_frame hencodable hsmall
  evident := by
    have hread : ∀ (context : DatabaseID × Nat) bs manifest,
        decodeManifest json bs context.1 context.2 = .ok manifest → Sealed bs := by
      intro context bs manifest h
      rw [(decodeManifest_eq_ok hjson h).2.2]
      exact manifestFrame_sealed _
    refine evident_of_sealed (fun manifest bs h => ?_) hread
    obtain ⟨-, -, rfl⟩ := encodeManifest_eq_ok h
    refine ⟨?_, manifestFrame_sealed _⟩
    rw [manifestFrame_length]
    omega

end

/-- All three authority files are canonical and show a changed byte. -/
theorem authority_files_canonical (json : ManifestLibrary) (hjson : json.Lawful) :
    Canonical encodeIdentity (fun _ : Unit => decodeIdentity) (fun _ => True)
        (fun _ identity => identity.Words) ∧
      Canonical encodeWALHeader (fun expectedID encoded => decodeWALHeader encoded expectedID)
        (fun expectedID => ¬ expectedID.isZero)
        (fun expectedID header => header.databaseID = expectedID ∧ header.Words) ∧
      Canonical (encodeManifest json)
        (fun (context : DatabaseID × Nat) encoded =>
          decodeManifest json encoded context.1 context.2)
        (fun _ => True)
        (fun context manifest => manifest.databaseID = context.1 ∧
          context.2 ≤ manifest.generation ∧ manifest.Words) :=
  ⟨identity_canonical, walHeader_canonical, manifest_canonical hjson⟩

/-- The first manifest of a database, over the empty snapshot. -/
def sampleManifest : Manifest where
  databaseID := sampleID
  generation := 1
  snapshotFile := snapshotName 0
  snapshotRevision := 0
  snapshotSHA256 := hexEncode (({} : SnapshotState).digest sampleID)
  walFile := walName 1
  walStartRevision := 1

theorem sampleManifest_encodable : sampleManifest.Encodable where
  id := by decide
  generation := by decide
  revision := by decide
  start := rfl
  snapshotFile := rfl
  walFile := rfl
  digest := ⟨({} : SnapshotState).digest sampleID, sha256_length _, rfl⟩

theorem authority_files_canonical_sampleManifest :
    decodeManifest manifestLibrary sampleManifest.bytes sampleID 1 = .ok sampleManifest ∧
      ∀ (i : Nat) (hi : i < sampleManifest.bytes.length) (b : Byte),
        b ≠ sampleManifest.bytes[i] → ∀ manifest,
          decodeManifest manifestLibrary (sampleManifest.bytes.set i b) sampleID 1
            ≠ .ok manifest := by
  have hbytes := encodeManifest_bytes sampleManifest_encodable
  obtain ⟨_, _, hcanonical⟩ := authority_files_canonical manifestLibrary manifestLibrary_lawful
  exact ⟨hcanonical.undoes (sampleID, 1) _ _ ⟨rfl, le_rfl, by decide, by decide⟩ hbytes,
    hcanonical.evident (sampleID, 1) _ _ hbytes⟩

/-- Asked for the zero identifier, the decoder of the WAL header takes bytes that the encoder
refuses to write. -/
theorem zero_identifier_header_accepted :
    ∃ header : WALHeader, header.Words ∧
      decodeWALHeader header.bytes header.databaseID = .ok header ∧
      ∀ bs, encodeWALHeader header ≠ .ok bs := by
  refine ⟨⟨⟨List.replicate 16 0, rfl⟩, 1, 1⟩, ⟨by decide, by decide⟩, by decide +kernel, ?_⟩
  intro bs h
  exact (encodeWALHeader_eq_ok h).1 (by decide)

end GapDB
