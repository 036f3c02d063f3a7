import GapDB.Persist.Snapshot

/-!
# The snapshot codec is canonical

What the decoder of `persist/snapshot.go` accepts is nothing but what the encoder writes, and what
the encoder writes depends on the records alone, not on the order in which it was given them.
-/

namespace GapDB

open Storelib

variable {limits : Limits} {previous : Option Key} {state : SnapshotState}

/-! ### What an accepted record consists of -/

/-- The decoder takes nothing but the encoding of the record it returns, and the record comes
behind the one before. -/
theorem decodeRecord_eq_ok {revision offset : Nat} {rest behind : Bytes} {record : Record}
    (h : decodeRecord limits revision previous offset rest = .ok (record, behind)) :
    rest = encodeRecord record ++ behind ∧ record.Storable limits revision ∧
      ∀ key, previous = some key → key < record.key := by
  simp only [decodeRecord, ite_error_eq_ok] at h
  obtain ⟨hlong, hflags, hlengths, hfields, h⟩ := h
  push Not at hlong hflags hlengths hfields
  obtain ⟨hflag, hreserved⟩ := hflags
  obtain ⟨hpositive, hmaxKey, hmaxValue, hkeyLength, hvalueLength⟩ := hlengths
  obtain ⟨hutf8, hassigned, hold, hsorted⟩ := hfields
  have hbefore : ∀ key, previous = some key → key < slice rest snapshotItemHeader
      (snapshotItemHeader + uint (slice rest 0 4)) := by
    rintro key rfl
    simpa using hsorted
  clear hsorted
  simp only [snapshotItemHeader] at hlong hkeyLength hvalueLength hutf8 hbefore h
  have hexpiryWord : uint (slice rest 24 32) < 2 ^ 64 := uint_slice_lt rest 8 (by omega) rfl
  generalize hk : uint (slice rest 0 4) = keyLength at *
  generalize hv : uint (slice rest 4 8) = valueLength at *
  have hkey : (slice rest 40 (40 + keyLength)).length = keyLength := by
    rw [slice_length _ _ _ (by omega)]
    omega
  have hvalue : (slice rest (40 + keyLength) (40 + keyLength + valueLength)).length
      = valueLength := by
    rw [slice_length _ _ _ (by omega)]
    omega
  generalize hkeyAt : slice rest 40 (40 + keyLength) = key at *
  generalize hvalueAt : slice rest (40 + keyLength) (40 + keyLength + valueLength) = value at *
  subst hkey hvalue
  -- the two accepted cases differ in the expiry only
  have hencodes : ∀ expiresAt, uint (slice rest 16 17) = expiryFlag expiresAt →
      uint (slice rest 24 32) = expiryWord expiresAt →
      (∀ t, expiresAt = some t → unixNanoRepresentable t) →
      rest = encodeRecord (newRecord key value (uint (slice rest 8 16)) expiresAt) ++
          rest.drop (40 + key.length + value.length) ∧
        (newRecord key value (uint (slice rest 8 16)) expiresAt).Storable limits revision ∧
        ∀ before, previous = some before → before < key := by
    intro expiresAt hset hexpiry hrepresentable
    have hparts : encodeRecord (newRecord key value (uint (slice rest 8 16)) expiresAt) <+: rest :=
      encodeRecord_prefix_iff.mpr ⟨slice_eq_putUint (by omega) rfl hk,
        slice_eq_putUint (by omega) rfl hv, slice_eq_word rest 8 16 (by omega) rfl,
        slice_eq_putUint (by omega) rfl hset, slice_eq_zeros (by omega) rfl hreserved.1,
        slice_eq_putUint (by omega) rfl hexpiry, slice_eq_zeros (by omega) rfl hreserved.2,
        hkeyAt, hvalueAt⟩
    rw [List.prefix_iff_eq_append, encodeRecord_length] at hparts
    exact ⟨hparts.symm, ⟨List.length_eq_zero_iff.not.mp hpositive, hutf8, hmaxKey, hmaxValue,
      hassigned, hold, hrepresentable⟩, hbefore⟩
  split at h
  · next hset =>
    obtain ⟨rfl, rfl⟩ := Prod.mk.inj (Except.ok.inj h)
    refine hencodes (some _) hset ?_ fun t ht => ?_
    · rw [expiryWord, Option.map_some, Option.getD_some, int64Bits_int64 hexpiryWord]
    · rw [← Option.some.inj ht]
      exact unixNanoRepresentable_int64 _
  · next hunset =>
    rw [ite_error_eq_ok, not_not, Except.ok.injEq, Prod.mk.injEq] at h
    obtain ⟨hzero, rfl, rfl⟩ := h
    refine hencodes none ?_ (eq_zero_of_int64_eq_zero hexpiryWord hzero) (by simp)
    change uint (slice rest 16 17) = 0
    omega

theorem decodeRecords_eq_ok {revision payloadEnd count : Nat}
    {rest behind : Bytes} {records : List Record}
    (h : decodeRecords limits revision payloadEnd count previous rest = .ok (records, behind)) :
    records.length = count ∧ rest = records.flatMap encodeRecord ++ behind ∧
      (∀ record ∈ records, record.Storable limits revision) ∧
      (records.map Record.key).Pairwise (· < ·) ∧
      ∀ key, previous = some key → ∀ record ∈ records, key < record.key := by
  induction count generalizing rest previous records with
  | zero =>
    rw [decodeRecords, Except.ok.injEq, Prod.mk.injEq] at h
    obtain ⟨rfl, rfl⟩ := h
    simp
  | succ count ih =>
    rw [decodeRecords] at h
    split at h
    · cases h
    next record middle hrecord =>
    split at h
    · cases h
    next records' behind' hrecords =>
    simp only [Except.ok.injEq, Prod.mk.injEq] at h
    obtain ⟨rfl, rfl⟩ := h
    obtain ⟨hbytes, hstorable, hbefore⟩ := decodeRecord_eq_ok hrecord
    obtain ⟨hlength, hmiddle, hstorables, hsorted, hnext⟩ := ih hrecords
    refine ⟨by rw [List.length_cons, hlength], ?_, List.forall_mem_cons.2 ⟨hstorable, hstorables⟩,
      ?_, fun key hkey => List.forall_mem_cons.2 ⟨hbefore key hkey, fun other hother =>
        (hbefore key hkey).trans (hnext record.key rfl other hother)⟩⟩
    · rw [hbytes, hmiddle, List.flatMap_cons, List.append_assoc]
    · rw [List.map_cons, List.pairwise_cons]
      refine ⟨fun key hmem => ?_, hsorted⟩
      obtain ⟨other, hother, rfl⟩ := List.mem_map.1 hmem
      exact hnext record.key rfl other hother

/-! ### What an accepted snapshot consists of -/

/-- The decoder accepts exactly the encoding of what it returns. -/
theorem decodeSnapshot_eq_ok {encoded digest : Bytes} {id : DatabaseID}
    (h : decodeSnapshot encoded id digest limits = .ok state) :
    state.Encodable limits ∧ encoded = state.bytes id ∧ digest = state.digest id := by
  simp only [decodeSnapshot, ite_error_eq_ok] at h
  obtain ⟨hsize, hmagic, hversion, hheader, hid, hlengths, hdigest, h⟩ := h
  push Not at hsize hmagic hversion hheader hid hlengths hdigest
  obtain ⟨hlong, hbound⟩ := hsize
  obtain ⟨hheaderSize, hreserved⟩ := hheader
  obtain ⟨hlength, -⟩ := hlengths
  obtain ⟨hexpected, hstored⟩ := hdigest
  split at h
  · cases h
  next records behind hrecords =>
  rw [ite_error_eq_ok, not_not] at h
  obtain ⟨rfl, h⟩ := h
  rw [Except.ok.injEq] at h
  obtain ⟨hcount, hpayload, hstorable, hsorted, -⟩ := decodeRecords_eq_ok hrecords
  rw [List.append_nil] at hpayload
  have hlong' : 96 ≤ encoded.length := hlong
  have hbound' : encoded.length ≤ 2 ^ 30 := hbound
  have hpayloadWord : uint (slice encoded 44 52) < 2 ^ 64 :=
    uint_slice_lt encoded 8 (by omega) rfl
  have hrevision : uint (slice encoded 28 36) < 2 ^ 64 := uint_slice_lt encoded 8 (by omega) rfl
  have hpayloadEnd : encoded.length - snapshotTrailer = 64 + (encoded.length - 96) := by
    simp only [snapshotTrailer]
    omega
  -- the payload length in the header is the number of bytes that the records take
  have hsum : (records.map Record.itemSize).sum = encoded.length - 96 := by
    have hlen := congrArg List.length hpayload
    rw [flatMap_encodeRecord_length, slice_length _ _ _ (Nat.sub_le _ _), hpayloadEnd,
      snapshotHeaderSize] at hlen
    omega
  have hdeclared : uint (slice encoded 44 52) = encoded.length - 96 := by
    simp only [u64, snapshotHeaderSize, snapshotTrailer] at hlength
    omega
  subst h
  have hdatabase : slice encoded 12 28 = id.bytes := by
    rw [← hid, DatabaseID.ofBytes]
    simp [slice_length _ _ _ (show 28 ≤ encoded.length by omega)]
  have hbytes : SnapshotState.payloadBytes ⟨uint (slice encoded 28 36), records⟩
      = encoded.length - 96 := hsum
  have hbody : SnapshotState.body ⟨uint (slice encoded 28 36), records⟩ id <+: encoded := by
    refine SnapshotState.body_prefix_iff.mpr ⟨hmagic, slice_eq_putUint (by omega) rfl hversion,
      slice_eq_putUint (by omega) rfl hheaderSize, hdatabase,
      slice_eq_word encoded 28 36 (by omega) rfl, ?_, ?_,
      slice_eq_zeros (by omega) rfl hreserved, ?_⟩
    · rw [hcount]
      exact slice_eq_word encoded 36 44 (by omega) rfl
    · rw [hbytes]
      exact slice_eq_putUint (by omega) rfl hdeclared
    · rw [hbytes, ← hpayloadEnd]
      exact hpayload
  have hslice := slice_of_isPrefix hbody
  rw [SnapshotState.body_length, hbytes, ← hpayloadEnd] at hslice
  refine ⟨⟨hrevision, hstorable, hsorted, ?_⟩, ?_, ?_⟩
  · rw [hbytes]
    simp only [snapshotHeaderSize, snapshotTrailer, maxSnapshotBytes]
    omega
  · rw [SnapshotState.bytes, SnapshotState.digest, ← hslice, hstored,
      slice_append_slice _ (Nat.zero_le _) (Nat.sub_le _ _), slice_exact _ _ rfl]
  · rw [SnapshotState.digest, ← hslice, hexpected]

/-! ### What the encoder depends on -/

/-- Records that are given in another order are written in the same one. -/
theorem SnapshotState.kept_of_perm {state' : SnapshotState} {asOf : Time}
    (hperm : state.records.Perm state'.records)
    (hdistinct : ((state.kept asOf).map Record.key).Nodup) :
    state'.kept asOf = state.kept asOf := by
  have hkept : (state.kept asOf).Perm (state'.kept asOf) :=
    (List.perm_insertionSort _ _).trans
      ((hperm.filter _).trans (List.perm_insertionSort _ _).symm)
  refine (hkept.eq_of_pairwise ?_ (List.pairwise_map.mp (state.kept_sorted asOf))
    (List.pairwise_map.mp (state'.kept_sorted asOf))).symm
  -- records of one snapshot that have the same key are the same
  intro a b ha hb hab hba
  exact List.inj_on_of_nodup_map hdistinct ha (hkept.mem_iff.mpr hb) (le_antisymm hab hba)

theorem snapshotPayload_of_storable {revision : Nat} {records : List Record}
    (h : ∀ record ∈ records, record.Storable limits revision)
    (hsorted : (records.map Record.key).Pairwise (· < ·))
    (hprevious : ∀ key, previous = some key → ∀ record ∈ records, key < record.key)
    {index payloadBytes : Nat}
    (hsum : payloadBytes + (records.map Record.itemSize).sum ≤ maxUint64) :
    snapshotPayload limits revision previous index payloadBytes records
      = .ok (payloadBytes + (records.map Record.itemSize).sum) := by
  induction records generalizing previous index payloadBytes with
  | nil => simp [snapshotPayload]
  | cons record records ih =>
    rw [List.forall_mem_cons] at h
    rw [List.map_cons, List.pairwise_cons] at hsorted
    rw [List.map_cons, List.sum_cons] at hsum ⊢
    have hrecord := h.1
    have hfields : ¬ (record.key = [] ∨ ¬ validUtf8 record.key ∨
        limits.maxKeyBytes < record.key.length ∨ limits.maxValueBytes < record.value.length ∨
        record.revision = 0 ∨ revision < record.revision) := by
      push Not
      exact ⟨hrecord.nonempty, hrecord.utf8, hrecord.keyLength, hrecord.valueLength,
        hrecord.assigned, hrecord.old⟩
    have hduplicate : ¬ previous = some record.key := by
      intro heq
      exact lt_irrefl _ (hprevious record.key heq record (by simp))
    have hexpiry : ¬ ¬ record.expiresAt.all unixNanoRepresentable = true := by
      have hrepresentable := hrecord.expiry
      cases hat : record.expiresAt with
      | none => simp
      | some t => simpa using hrepresentable t hat
    rw [snapshotPayload, if_neg hfields, if_neg hduplicate, if_neg hexpiry, if_neg (by omega),
      ih h.2 hsorted.2 ?_ (by omega), Nat.add_assoc]
    intro key hkey other hother
    rw [Option.some.injEq] at hkey
    subst hkey
    exact hsorted.1 other.key (List.mem_map_of_mem hother)

/-- A state whose records are sorted and have not expired is written as it is. -/
theorem encodeSnapshot_of_encodable {id : DatabaseID} (hid : ¬ id.isZero)
    (hkey : limits.maxKeyBytes ≠ 0) (hvalue : limits.maxValueBytes ≠ 0)
    (h : state.Encodable limits) {asOf : Time}
    (hlive : ∀ record ∈ state.records, ∀ t, record.expiresAt = some t → asOf < t) :
    encodeSnapshot id state asOf limits = .ok (state.bytes id, state.digest id) := by
  have hsize := h.size
  have hkept : state.kept asOf = state.records := by
    rw [SnapshotState.kept, List.filter_eq_self.mpr]
    · refine List.Pairwise.insertionSort_eq ?_
      exact (List.pairwise_map.mp h.sorted).imp fun hlt => le_of_lt hlt
    · intro record hrecord
      have hexpiry := hlive record hrecord
      cases hat : record.expiresAt with
      | none => rfl
      | some t => simpa using hexpiry t hat
  have hpayload : snapshotPayload limits state.revision none 0 0 state.records
      = .ok state.payloadBytes := by
    rw [snapshotPayload_of_storable h.records h.sorted (by simp), Nat.zero_add]
    · rfl
    · simp only [SnapshotState.payloadBytes, maxSnapshotBytes] at hsize
      simp only [maxUint64]
      omega
  have hrefused : ¬ (id.isZero ∨ limits.maxKeyBytes = 0 ∨ limits.maxValueBytes = 0) := by
    simp [hid, hkey, hvalue]
  have hbound : ¬ (maxSnapshotBytes < snapshotHeaderSize + snapshotTrailer + state.payloadBytes ∨
      maxInt < snapshotHeaderSize + snapshotTrailer + state.payloadBytes) := by
    simp only [maxSnapshotBytes] at hsize
    simp only [maxSnapshotBytes, maxInt]
    omega
  rw [encodeSnapshot, if_neg hrefused]
  simp only [hkept, hpayload]
  rw [if_neg hbound]

/-- Encoding and decoding a snapshot undo each other. The encoder sorts, so the order in which the
records are given does not matter; it refuses a zero identifier and zero limits, which the decoder
does not look at. -/
theorem snapshot_codec (id : DatabaseID) (limits : Limits) :
    (∀ (state : SnapshotState) (asOf : Time) (bytes digest : Bytes), state.revision < 2 ^ 64 →
      encodeSnapshot id state asOf limits = .ok (bytes, digest) →
        (∃ records, decodeSnapshot bytes id digest limits = .ok ⟨state.revision, records⟩ ∧
          (records.map Record.key).Pairwise (· < ·) ∧
          records.Perm
            (state.records.filter fun record => record.expiresAt.all fun t => asOf < t)) ∧
        ∀ records', state.records.Perm records' →
          encodeSnapshot id ⟨state.revision, records'⟩ asOf limits = .ok (bytes, digest)) ∧
    (¬ id.isZero → limits.maxKeyBytes ≠ 0 → limits.maxValueBytes ≠ 0 →
      ∀ (encoded digest : Bytes) (state : SnapshotState) (asOf : Time),
        decodeSnapshot encoded id digest limits = .ok state →
        (∀ record ∈ state.records, ∀ t, record.expiresAt = some t → asOf < t) →
        encodeSnapshot id state asOf limits = .ok (encoded, digest)) := by
  constructor
  · intro state asOf bytes digest hrevision h
    obtain ⟨hencodable, rfl, rfl⟩ := encodeSnapshot_eq_ok hrevision h
    refine ⟨⟨_, decodeSnapshot_bytes hencodable id, hencodable.sorted,
      List.perm_insertionSort _ _⟩, fun records' hperm => ?_⟩
    have hdistinct : ((state.kept asOf).map Record.key).Nodup :=
      hencodable.sorted.imp fun hlt => ne_of_lt hlt
    have hkept : SnapshotState.kept ⟨state.revision, records'⟩ asOf = state.kept asOf :=
      SnapshotState.kept_of_perm hperm hdistinct
    rw [← h, encodeSnapshot, encodeSnapshot]
    simp only [hkept]
  · intro hid hkey hvalue encoded digest state asOf h hlive
    obtain ⟨hencodable, rfl, rfl⟩ := decodeSnapshot_eq_ok h
    exact encodeSnapshot_of_encodable hid hkey hvalue hencodable hlive

def zeroID : DatabaseID := ⟨List.replicate 16 0, rfl⟩

theorem emptySnapshot_encodable (limits : Limits) : SnapshotState.Encodable limits {} :=
  ⟨by decide, by simp, by simp, by decide⟩

/-- The decoder accepts a snapshot of the zero identifier, and one under zero limits, that the
encoder would not write. -/
theorem snapshot_decoder_accepts_more :
    (decodeSnapshot (SnapshotState.bytes {} zeroID) zeroID (SnapshotState.digest {} zeroID)
          defaultLimits = .ok {} ∧
        ∀ asOf result, encodeSnapshot zeroID {} asOf defaultLimits ≠ .ok result) ∧
    ∀ id : DatabaseID, ∀ limits ∈ [{ defaultLimits with maxKeyBytes := 0 },
        { defaultLimits with maxValueBytes := 0 }],
      decodeSnapshot (SnapshotState.bytes {} id) id (SnapshotState.digest {} id) limits = .ok {} ∧
        ∀ asOf result, encodeSnapshot id {} asOf limits ≠ .ok result := by
  refine ⟨⟨decodeSnapshot_bytes (emptySnapshot_encodable _) zeroID, fun asOf result h => ?_⟩,
    fun id limits hlimits => ⟨decodeSnapshot_bytes (emptySnapshot_encodable _) id,
      fun asOf result h => ?_⟩⟩
  · rw [encodeSnapshot, if_pos (.inl (by decide))] at h
    cases h
  · have hzero : id.isZero ∨ limits.maxKeyBytes = 0 ∨ limits.maxValueBytes = 0 := by
      simp only [List.mem_cons, List.not_mem_nil, or_false] at hlimits
      rcases hlimits with rfl | rfl
      · exact .inr (.inl rfl)
      · exact .inr (.inr rfl)
    rw [encodeSnapshot, if_pos hzero] at h
    cases h

/-- Three records out of the order of their keys: at the instant 5 the second has an expiry to come
and the third is expired. -/
def sampleSnapshot : SnapshotState :=
  ⟨3, [⟨[99], [3], 3, none⟩, ⟨[97], [1, 1], 1, some 10⟩, ⟨[98], [2], 2, some 4⟩]⟩

theorem sampleSnapshot_encodes : encodeSnapshot sampleID sampleSnapshot 5 defaultLimits
    = .ok (SnapshotState.bytes ⟨3, sampleSnapshot.kept 5⟩ sampleID,
      SnapshotState.digest ⟨3, sampleSnapshot.kept 5⟩ sampleID) := by
  have hkept : sampleSnapshot.kept 5
      = [⟨[97], [1, 1], 1, some 10⟩, ⟨[99], [3], 3, none⟩] := by decide +kernel
  have hpayload : snapshotPayload defaultLimits 3 none 0 0 (sampleSnapshot.kept 5) = .ok 85 := by
    rw [hkept]; rfl
  rw [encodeSnapshot, if_neg (by decide)]
  simp only [show sampleSnapshot.revision = 3 from rfl, hpayload]
  exact if_neg (by decide)

theorem snapshot_codec_sampleSnapshot :
    ∃ bytes digest records, encodeSnapshot sampleID sampleSnapshot 5 defaultLimits
        = .ok (bytes, digest) ∧
      decodeSnapshot bytes sampleID digest defaultLimits = .ok ⟨3, records⟩ ∧
      records.Perm [⟨[99], [3], 3, none⟩, ⟨[97], [1, 1], 1, some 10⟩] ∧
      encodeSnapshot sampleID ⟨3, records⟩ 5 defaultLimits = .ok (bytes, digest) := by
  obtain ⟨⟨records, hdecode, -, hperm⟩, -⟩ := (snapshot_codec sampleID defaultLimits).1
    sampleSnapshot 5 _ _ (by decide) sampleSnapshot_encodes
  have hkept : records.Perm [⟨[99], [3], 3, none⟩, ⟨[97], [1, 1], 1, some 10⟩] := hperm
  refine ⟨_, _, records, sampleSnapshot_encodes, hdecode, hkept,
    (snapshot_codec sampleID defaultLimits).2 (by decide) (by decide) (by decide) _ _ _ 5 hdecode
      fun record hrecord t ht => ?_⟩
  rcases List.mem_pair.mp (hkept.mem_iff.mp hrecord) with rfl | rfl
  · cases ht
  · cases ht
    decide

end GapDB
