import GapDB.Client.RecoveryCodec
import GapDB.Engine.RecoveryReads
import GapDB.Engine.Scans
import GapDB.Persist.Manifest

/-!
# Admission of a recovery snapshot

The engine counts the bytes of a snapshot before the request has an identity, with the largest one
there can be. The encoder counts again with the identity itself. What the engine admits the encoder
writes, and the client reads from it what was live.
-/

namespace GapDB

open Storelib DatabaseState RecoverySnapshotReply

theorem identityOk_string (id : DatabaseID) : IdentityOk id.string := by
  have hlength := id.string_length
  refine ⟨?_, by omega, validUtf8_of_ascii fun b hb => ?_⟩
  · intro hempty
    rw [hempty] at hlength
    cases hlength
  · have hdigit := mem_hexEncode hb
    omega

theorem frames_length (records : List Record) :
    (((writtenItems records).flatMap RecoveryItem.frame).length : Int)
      = (records.map recoveryRecordBytes).sum := by
  induction records with
  | nil => rfl
  | cons record records ih =>
    rw [writtenItems, List.map_cons, List.flatMap_cons, List.length_append, List.map_cons,
      List.sum_cons, ← ih, ← recoveryRecordFrame_length record (expiryBits record.expiresAt)]
    push_cast
    rfl

theorem header_length (reply : RecoverySnapshotReply) :
    reply.header.length = 2 + reply.databaseID.length + 2 + reply.requestID.length + 8 + 8 + 4 := by
  simp only [header, List.length_append, putUint_length]
  omega

/-- The hard ceiling on keys admits every request that the configured limit admits. -/
theorem validateRecoverySnapshotRequest_mono {request : RecoverySnapshotRequest} {limits : Limits}
    (hl : limits.Valid) (h : validateRecoverySnapshotRequest request limits = .ok ()) :
    validateRecoverySnapshotRequest request recoveryLimits = .ok () := by
  have hkeys := hl.keyBytes.2
  rw [validateRecoverySnapshotRequest, ite_error_eq_ok] at h ⊢
  refine ⟨?_, h.2⟩
  have hstart := h.1
  push Not at hstart ⊢
  exact ⟨hstart.1, hstart.2.1.trans hkeys, hstart.2.2⟩

section

variable {s : DatabaseState} {request : RecoverySnapshotRequest} {asOf : Time}
  {result : RecoverySnapshotResult} {requestID : Bytes}

/-- Live records are ones that the encoder takes. -/
theorem admittedFrom_matching (h : s.Indexed) (hd : s.Dated) :
    AdmittedFrom request s.current [] (s.matching request.start asOf) := by
  have hrecord : ∀ record ∈ s.matching request.start asOf,
      RecoveryRecordOk request s.current record := by
    intro record hmem
    obtain ⟨hfound, hstart, -⟩ := h.mem_matching.mp hmem
    have hkey := h.valid hfound
    exact ⟨hkey.nonempty, hkey.length.trans h.limits.keyBytes.2, hkey.utf8, hstart,
      hd.positive hfound, h.revision hfound⟩
  refine ⟨List.Pairwise.isChain ?_, hrecord⟩
  rw [List.pairwise_cons, List.pairwise_map]
  refine ⟨fun key hkey => ?_, h.matching_sorted⟩
  obtain ⟨record, hmem, rfl⟩ := List.mem_map.mp hkey
  obtain ⟨b, rest, hcons⟩ := List.exists_cons_of_ne_nil (hrecord record hmem).nonempty
  rw [hcons]
  exact List.nil_lt_cons b rest

theorem writesExpiry_matching (h : s.Indexed) (hd : s.Dated) (hasOf : 0 ≤ asOf) :
    ∀ record ∈ s.matching request.start asOf, WritesExpiry asOf record.expiresAt := by
  intro record hmem t ht
  obtain ⟨hfound, -, hlive⟩ := h.mem_matching.mp hmem
  have hafter : asOf < t := by
    simpa [recordExpired, ht, isExpired] using hlive
  exact ⟨hd.expiry hfound t ht, hasOf.trans hafter.le, hafter⟩

theorem Exports.encodes (hexports : s.Exports request asOf result) (h : s.Indexed) (hd : s.Dated)
    (hasOf : 0 ≤ asOf) (hclock : unixNanoRepresentable asOf) (hid : IdentityOk requestID)
    (hidLength : requestID.length ≤ 256) (hsome : result.records ≠ []) :
    ∃ payload, encodeRecoverySnapshot ⟨result, requestID⟩ request = .ok payload := by
  obtain ⟨hvalid, hexpected, rfl, hfits⟩ := hexports
  obtain ⟨hcount, hbytes⟩ := hfits.resolve_left hsome
  refine ⟨_, encodeRecoverySnapshot_eq_ok.mpr
    ⟨⟨validateRecoverySnapshotRequest_mono h.limits hvalid,
    hexpected.symm, hclock, hcount, identityOk_string _, hid, admittedFrom_matching h hd⟩,
    writesExpiry_matching h hd hasOf, ?_, rfl⟩⟩
  have hmagic : recoverySnapshotMagic.length = 8 := by decide
  have hframes := frames_length (s.matching request.start asOf)
  rw [withDigest_length, frame, List.length_append, List.length_append, header_length, hmagic,
    sha256Size]
  rw [recoveryReserved] at hbytes
  push_cast
  omega

end

/-- What the engine returns for a recovery snapshot with a record in it is encoded within the bound
of the request, whatever the identity of the request is, and the frame is decoded to exactly the
records with the prefix that are live at its instant. -/
theorem recoverySnapshot_admission {σ : Type} {config : Config} {s₀ s : DatabaseState}
    (hopen : newState config = .ok s₀) (hconfig : config.Recovered) (world : σ)
    (before : List (Request σ)) {world' : σ} (hs : (live s₀ world before).2 = (s, world'))
    (request : RecoverySnapshotRequest) (asOf : Time) (hasOf : 0 ≤ asOf)
    (hclock : unixNanoRepresentable asOf) (requestID : Bytes) (hid : requestID ≠ [])
    (hidLength : requestID.length ≤ 256) (hidUtf8 : validUtf8 requestID)
    (result : RecoverySnapshotResult) (hread : s.readRecoverySnapshot request asOf = .ok result)
    (hsome : result.records ≠ []) :
    ∃ payload, encodeRecoverySnapshot ⟨result, requestID⟩ request = .ok payload ∧
      (payload.length : Int) ≤ request.maxBytes ∧
      decodeRecoverySnapshot payload requestID request = .ok ⟨result, requestID⟩ ∧
      result.asOf = asOf ∧ result.records.Pairwise (fun a b => a.key < b.key) ∧
      ∀ record, record ∈ result.records ↔
        s.records record.key = some record ∧ request.start <+: record.key ∧
          recordExpired record asOf = false := by
  have hindexed₀ := indexed_of_newState hopen hconfig.current
  have hindexed : s.Indexed := by
    have hlive := hindexed₀.live world before
    rwa [hs] at hlive
  have hdated : s.Dated := by
    have hlive := (dated_of_newState hopen hconfig).live hindexed₀ world before
    rwa [hs] at hlive
  have hexports := hindexed.exports hread
  have hexpected : request.expectedRevision < 2 ^ 64 := by
    rw [hexports.expected]
    exact hindexed.current
  obtain ⟨payload, hpayload⟩ := Exports.encodes hexports hindexed hdated hasOf hclock
    ⟨hid, by omega, hidUtf8⟩ hidLength hsome
  refine ⟨payload, hpayload, (encodeRecoverySnapshot_eq_ok.mp hpayload).2.2.1,
    decode_encodeRecoverySnapshot hexpected hpayload, ?_, ?_, fun record => ?_⟩
  · rw [hexports.result]
  · rw [hexports.result]
    exact hindexed.matching_sorted
  · rw [hexports.result]
    exact hindexed.mem_matching

/-- Two keys in a new database, of which one has the prefix. -/
def sampleExport : RecoverySnapshotResult :=
  ⟨sampleID.string, 1, 5, [⟨[97], [1], 1, none⟩]⟩

theorem recoverySnapshot_admission_sampleExport :
    ∃ payload, encodeRecoverySnapshot ⟨sampleExport, ascii "r"⟩ ⟨[97], 1, 10, 1000⟩ = .ok payload ∧
      decodeRecoverySnapshot payload (ascii "r") ⟨[97], 1, 10, 1000⟩
        = .ok ⟨sampleExport, ascii "r"⟩ := by
  have hopen : newState (newDatabase sampleID defaultLimits)
      = .ok sampleEngine := rfl
  have hconfig : (newDatabase sampleID defaultLimits).Recovered :=
    ⟨by decide, by simp [newDatabase]⟩
  have hread : (live sampleEngine () ScanRun.sampleTwoKeys).2.1.readRecoverySnapshot
      ⟨[97], 1, 10, 1000⟩ 5 = .ok sampleExport := by
    rfl
  obtain ⟨payload, hencode, -, hdecode, -⟩ := recoverySnapshot_admission hopen hconfig ()
    ScanRun.sampleTwoKeys rfl ⟨[97], 1, 10, 1000⟩ 5 (by decide) (by decide) (ascii "r") (by decide)
    (by decide) (by decide) sampleExport hread (by decide)
  exact ⟨payload, hencode, hdecode⟩

end GapDB
