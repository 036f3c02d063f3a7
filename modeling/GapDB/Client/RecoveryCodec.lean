import GapDB.Client.RecoverySnapshot

/-!
# What a recovery snapshot frame holds

Encoder and decoder of the frame are characterised by one shape of payload. They differ in a single
field: for a record without an expiry the encoder writes -1 and the decoder takes any negative
number.
-/

namespace GapDB

open Storelib

variable {records : List Record} {identity requestID payload : Bytes}
    {reply : RecoverySnapshotReply} {expiresAt : Option Time}

/-! ### Records -/

/-- What both sides ask of a record, its expiry and its place apart. -/
structure RecoveryRecordOk (request : RecoverySnapshotRequest) (revision : Nat)
    (record : Record) : Prop where
  nonempty : record.key ≠ []
  length : record.key.length ≤ hardCeilings.maxKeyBytes
  utf8 : validUtf8 record.key
  matching : request.start <+: record.key
  positive : record.revision ≠ 0
  observed : record.revision ≤ revision

/-- The expiry that the decoder reads from the bits of the field. -/
def ReadsExpiry (asOf : Time) (bits : Nat) (expiresAt : Option Time) : Prop :=
  bits < 256 ^ 8 ∧
    match expiresAt with
    | none => int64 bits < 0
    | some t => int64 bits = t ∧ 0 ≤ t ∧ asOf < t

/-- Admitted records in the order of their keys, after the key `previous`. -/
def AdmittedFrom (request : RecoverySnapshotRequest) (revision : Nat) (previous : Key)
    (records : List Record) : Prop :=
  (previous :: records.map Record.key).IsChain (· < ·) ∧
    ∀ record ∈ records, RecoveryRecordOk request revision record

variable {request : RecoverySnapshotRequest} {revision : Nat} {asOf : Time} {previous : Key}

theorem admittedFrom_nil : AdmittedFrom request revision previous [] :=
  ⟨.singleton _, by simp⟩

theorem admittedFrom_cons {record : Record} :
    AdmittedFrom request revision previous (record :: records) ↔
      previous < record.key ∧ RecoveryRecordOk request revision record ∧
        AdmittedFrom request revision record.key records := by
  rw [AdmittedFrom, AdmittedFrom, List.map_cons, List.isChain_cons_cons, List.forall_mem_cons]
  tauto

theorem decodeRecoveryRecord_eq_ok {record : Record} {rest after : Bytes} :
    decodeRecoveryRecord request revision asOf previous rest = .ok (record, after) ↔
      previous < record.key ∧ RecoveryRecordOk request revision record ∧
        record.revision < 256 ^ 8 ∧ record.value.length < 256 ^ 4 ∧
        ∃ bits, ReadsExpiry asOf bits record.expiresAt ∧
          rest = recoveryRecordFrame record bits ++ after := by
  simp only [decodeRecoveryRecord, orFail_eq_ok, ite_error_eq_ok, Prod.exists, readUint_eq_some,
    readFull_eq_some]
  constructor
  · rintro ⟨keySize, r₁, ⟨-, rfl⟩, hsize, key, r₂, ⟨rfl, rfl⟩, hutf8, recordRevision, r₃,
      ⟨hrevision, rfl⟩, bits, r₄, ⟨hbits, rfl⟩, valueSize, r₅, ⟨hvalue, rfl⟩, value, r₆,
      ⟨rfl, rfl⟩, hmember, hexpiry⟩
    push Not at hsize hmember
    have hok : ∀ expiresAt,
        RecoveryRecordOk request revision ⟨key, value, recordRevision, expiresAt⟩ :=
      fun _ => ⟨List.length_eq_zero_iff.not.mp hsize.1, hsize.2, not_not.mp hutf8, hmember.2.1,
        hmember.2.2.1, hmember.2.2.2⟩
    split at hexpiry
    · next hpositive =>
      rw [ite_error_eq_ok, Except.ok.injEq, Prod.mk.injEq] at hexpiry
      obtain ⟨hlive, rfl, rfl⟩ := hexpiry
      exact ⟨hmember.1, hok _, hrevision, hvalue, bits,
        ⟨hbits, rfl, hpositive, not_not.mp hlive⟩, by simp [recoveryRecordFrame]⟩
    · next hnegative =>
      rw [Except.ok.injEq, Prod.mk.injEq] at hexpiry
      obtain ⟨rfl, rfl⟩ := hexpiry
      exact ⟨hmember.1, hok _, hrevision, hvalue, bits, ⟨hbits, not_le.mp hnegative⟩,
        by simp [recoveryRecordFrame]⟩
  · obtain ⟨key, value, recordRevision, expiresAt⟩ := record
    rintro ⟨hprevious, hok, hrevision, hvalue, bits, ⟨hbits, hexpiry⟩, rfl⟩
    have hkey : key.length ≤ hardCeilings.maxKeyBytes := hok.length
    have hceiling : hardCeilings.maxKeyBytes < 256 ^ 4 := by decide
    refine ⟨key.length, _, ⟨by omega, by rw [recoveryRecordFrame, List.append_assoc]⟩, ?_, key, _,
      ⟨rfl, by rw [List.append_assoc]⟩, not_not.mpr hok.utf8, recordRevision, _,
      ⟨hrevision, by rw [List.append_assoc]⟩, bits, _, ⟨hbits, by rw [List.append_assoc]⟩,
      value.length, _, ⟨hvalue, by rw [List.append_assoc]⟩, value, after, ⟨rfl, rfl⟩, ?_, ?_⟩
    · push Not
      exact ⟨List.length_eq_zero_iff.not.mpr hok.nonempty, hkey⟩
    · push Not
      exact ⟨hprevious, hok.matching, hok.positive, hok.observed⟩
    · cases expiresAt with
      | none => rw [if_neg (not_le.mpr hexpiry)]
      | some t =>
        obtain ⟨heq, hpositive, hlive⟩ := hexpiry
        rw [heq, if_pos hpositive, if_neg (not_not.mpr hlive)]

/-- A record with the bits of its expiry field. -/
abbrev RecoveryItem := Record × Nat

def RecoveryItem.frame (item : RecoveryItem) : Bytes := recoveryRecordFrame item.1 item.2

/-- Values of the source's types, with an expiry that is read from the bits. -/
def RecoveryItem.Reads (asOf : Time) (item : RecoveryItem) : Prop :=
  item.1.revision < 256 ^ 8 ∧ item.1.value.length < 256 ^ 4 ∧
    ReadsExpiry asOf item.2 item.1.expiresAt

theorem decodeRecoveryRecords_eq_ok {count : Nat} {rest after : Bytes} :
    decodeRecoveryRecords request revision asOf count previous rest = .ok (records, after) ↔
      records.length = count ∧ AdmittedFrom request revision previous records ∧
        ∃ items : List RecoveryItem, items.map Prod.fst = records ∧
          (∀ item ∈ items, item.Reads asOf) ∧ rest = items.flatMap RecoveryItem.frame ++ after := by
  induction count generalizing previous rest records with
  | zero =>
    rw [decodeRecoveryRecords, Except.ok.injEq, Prod.mk.injEq]
    constructor
    · rintro ⟨rfl, rfl⟩
      exact ⟨rfl, admittedFrom_nil, [], rfl, by simp, rfl⟩
    · rintro ⟨hlength, -, items, hitems, -, rfl⟩
      obtain rfl := List.length_eq_zero_iff.mp hlength
      obtain rfl := List.map_eq_nil_iff.mp hitems
      exact ⟨rfl, rfl⟩
  | succ count ih =>
    rw [decodeRecoveryRecords]
    constructor
    · intro h
      split at h
      · cases h
      next record left hrecord =>
      split at h
      · cases h
      next tail left' htail =>
      obtain ⟨rfl, rfl⟩ := Prod.mk.inj (Except.ok.inj h)
      obtain ⟨hlt, hok, hrevision, hvalue, bits, hbits, rfl⟩ :=
        decodeRecoveryRecord_eq_ok.mp hrecord
      obtain ⟨rfl, hadmitted, items, rfl, hreads, rfl⟩ := ih.mp htail
      refine ⟨rfl, admittedFrom_cons.mpr ⟨hlt, hok, hadmitted⟩, (record, bits) :: items,
        rfl, ?_, ?_⟩
      · exact List.forall_mem_cons.mpr ⟨⟨hrevision, hvalue, hbits⟩, hreads⟩
      · rw [List.flatMap_cons, List.append_assoc]
        rfl
    · rintro ⟨hlength, hadmitted, items, rfl, hreads, rfl⟩
      cases items with
      | nil => simp at hlength
      | cons item items =>
        rw [List.map_cons] at hadmitted hlength
        obtain ⟨hlt, hok, hadmitted⟩ := admittedFrom_cons.mp hadmitted
        obtain ⟨⟨hrevision, hvalue, hbits⟩, hreads⟩ := List.forall_mem_cons.mp hreads
        have hrecord : decodeRecoveryRecord request revision asOf previous
            ((item :: items).flatMap RecoveryItem.frame ++ after)
              = .ok (item.1, items.flatMap RecoveryItem.frame ++ after) := by
          refine decodeRecoveryRecord_eq_ok.mpr ⟨hlt, hok, hrevision, hvalue, item.2, hbits, ?_⟩
          rw [List.flatMap_cons, List.append_assoc]
          rfl
        have htail : decodeRecoveryRecords request revision asOf count item.1.key
            (items.flatMap RecoveryItem.frame ++ after) = .ok (items.map Prod.fst, after) :=
          ih.mpr ⟨by simpa using hlength, hadmitted, items, rfl, hreads, rfl⟩
        simp only [hrecord, htail, List.map_cons]

/-! ### The frame -/

theorem readFrameIdentity_eq_ok {rest after : Bytes} :
    readFrameIdentity rest = .ok (identity, after) ↔
      IdentityOk identity ∧ rest = putUint 2 identity.length ++ (identity ++ after) := by
  simp only [readFrameIdentity, orFail_eq_ok, ite_error_eq_ok, Prod.exists, readUint_eq_some,
    readFull_eq_some, Except.ok.injEq, Prod.mk.injEq]
  constructor
  · rintro ⟨size, r₁, ⟨hsize, rfl⟩, hzero, value, r₂, ⟨rfl, rfl⟩, hutf8, rfl, rfl⟩
    refine ⟨⟨List.length_eq_zero_iff.not.mp hzero, ?_, not_not.mp hutf8⟩, rfl⟩
    omega
  · rintro ⟨⟨hnonempty, hsize, hutf8⟩, rfl⟩
    exact ⟨identity.length, _, ⟨by omega, rfl⟩, List.length_eq_zero_iff.not.mpr hnonempty, identity,
      after, ⟨rfl, rfl⟩, not_not.mpr hutf8, rfl, rfl⟩

theorem readFrameIdentity_append (h : IdentityOk identity) (after : Bytes) :
    readFrameIdentity (putUint 2 identity.length ++ (identity ++ after)) = .ok (identity, after) :=
  readFrameIdentity_eq_ok.mpr ⟨h, rfl⟩

namespace RecoverySnapshotReply

/-- The fields before the records. -/
def header (reply : RecoverySnapshotReply) : Bytes :=
  putUint 2 reply.databaseID.length ++ (reply.databaseID ++ (putUint 2 reply.requestID.length ++
    (reply.requestID ++ (putUint 8 reply.observedRevision ++
      (putUint 8 (int64Bits (unixNano reply.asOf)) ++ putUint 4 reply.records.length)))))

/-- The frame with given bits in the expiry fields. -/
def frame (reply : RecoverySnapshotReply) (items : List RecoveryItem) : Bytes :=
  recoverySnapshotMagic ++ (reply.header ++ items.flatMap RecoveryItem.frame)

/-- The part under the digest and the digest. -/
def withDigest (bs : Bytes) : Bytes := bs ++ sha256 bs

/-- What encoder and decoder ask of a reply, the size of the frame apart. -/
structure Admitted (request : RecoverySnapshotRequest) (reply : RecoverySnapshotReply) : Prop where
  valid : validateRecoverySnapshotRequest request recoveryLimits = .ok ()
  revision : reply.observedRevision = request.expectedRevision
  asOf : unixNanoRepresentable reply.asOf
  count : reply.records.length ≤ request.maxRecords
  databaseID : IdentityOk reply.databaseID
  requestID : IdentityOk reply.requestID
  records : AdmittedFrom request reply.observedRevision [] reply.records

end RecoverySnapshotReply

open RecoverySnapshotReply

/-- The bounds of a request. -/
theorem recoveryRequest_bounds {limits : Limits}
    (h : validateRecoverySnapshotRequest request limits = .ok ()) :
    request.maxRecords ≤ 200000 ∧ request.maxBytes ≤ 2 ^ 28 := by
  rw [validateRecoverySnapshotRequest, ite_error_eq_ok, ite_error_eq_ok, ite_error_eq_ok,
    hardMaxRecoveryRecords, hardMaxRecoveryBytes] at h
  omega

theorem not_representable_zeroTime : unixNanoRepresentable zeroTime = false := by decide

theorem decodeRecoveryBody_eq_ok {body : Bytes}
    (hrequest : validateRecoverySnapshotRequest request recoveryLimits = .ok ()) :
    decodeRecoveryBody requestID request body = .ok reply ↔
      reply.Admitted request ∧ reply.requestID = requestID ∧ reply.observedRevision < 256 ^ 8 ∧
        ∃ items : List RecoveryItem, items.map Prod.fst = reply.records ∧
          (∀ item ∈ items, item.Reads reply.asOf) ∧
          body = reply.header ++ items.flatMap RecoveryItem.frame := by
  constructor
  · intro h
    rw [decodeRecoveryBody] at h
    split at h
    · cases h
    next databaseID r₁ hdatabase =>
    split at h
    · cases h
    next wireID r₂ hwire =>
    simp only [ite_error_eq_ok, orFail_eq_ok, Prod.exists, readUint_eq_some] at h
    obtain ⟨hsame, revision, r₃, ⟨hrevision, rfl⟩, bits, r₄, ⟨hbits, rfl⟩, count, r₅, ⟨hcount, rfl⟩,
      hheader, h⟩ := h
    split at h
    · cases h
    next records r₆ hrecords =>
    rw [ite_error_eq_ok, Except.ok.injEq] at h
    obtain ⟨hend, rfl⟩ := h
    push Not at hsame hheader hend
    obtain rfl := List.length_eq_zero_iff.mp hend.1
    obtain ⟨hdatabaseOk, rfl⟩ := readFrameIdentity_eq_ok.mp hdatabase
    obtain ⟨hwireOk, rfl⟩ := readFrameIdentity_eq_ok.mp hwire
    obtain ⟨rfl, hadmitted, items, hitems, hreads, rfl⟩ := decodeRecoveryRecords_eq_ok.mp hrecords
    have hasOf := unixNanoRepresentable_int64 bits
    have hword := int64Bits_int64 hbits
    generalize int64 bits = instant at *
    refine ⟨⟨hrequest, hheader.1, hasOf, hheader.2, hdatabaseOk, hwireOk, hadmitted⟩, hsame,
      hrevision, items, hitems, hreads, ?_⟩
    simp only [header, hword, List.append_assoc, List.append_nil]
  · obtain ⟨⟨databaseID, revision, asOf, records⟩, wireID⟩ := reply
    rintro ⟨hadmitted, rfl, hrevision, items, hitems, hreads, rfl⟩
    have hcount : (records.length : Int) ≤ request.maxRecords := hadmitted.count
    have hbounds := recoveryRequest_bounds hrequest
    have hrecords : decodeRecoveryRecords request revision asOf records.length []
        (items.flatMap RecoveryItem.frame) = .ok (records, []) :=
      decodeRecoveryRecords_eq_ok.mpr
        ⟨rfl, hadmitted.records, items, hitems, hreads, (List.append_nil _).symm⟩
    have hzero : asOf ≠ zeroTime := by
      rintro rfl
      have hasOf := hadmitted.asOf
      simp only [not_representable_zeroTime, Bool.false_eq_true] at hasOf
    simp only [decodeRecoveryBody, header, List.append_assoc,
      readFrameIdentity_append hadmitted.databaseID, readFrameIdentity_append hadmitted.requestID]
    have hcountWord : records.length < 256 ^ 4 := by omega
    have hinstant := int64_int64Bits hadmitted.asOf
    have hexpected := hadmitted.revision
    simp only at hinstant hexpected hrevision
    simp only [readUint_append hrevision, readUint_append (int64Bits_lt _),
      readUint_append hcountWord, orFail, hinstant, hrecords]
    simp [hexpected, hcount, hzero]

theorem withDigest_length (bs : Bytes) : (withDigest bs).length = bs.length + sha256Size := by
  rw [withDigest, List.length_append, sha256_length, sha256Size]

theorem decodeRecoverySnapshot_eq_ok :
    decodeRecoverySnapshot payload requestID request = .ok reply ↔
      reply.Admitted request ∧ reply.requestID = requestID ∧ reply.observedRevision < 256 ^ 8 ∧
        (payload.length : Int) ≤ request.maxBytes ∧
        ∃ items : List RecoveryItem, items.map Prod.fst = reply.records ∧
          (∀ item ∈ items, item.Reads reply.asOf) ∧ payload = withDigest (reply.frame items) := by
  have hmagic : recoverySnapshotMagic.length = 8 := by decide
  constructor
  · intro h
    rw [decodeRecoverySnapshot] at h
    split at h
    · cases h
    next hrequest =>
    rw [ite_error_eq_ok, ite_error_eq_ok, decodeRecoveryBody_eq_ok hrequest] at h
    obtain ⟨hframe, hdigest, hadmitted, hrequestID, hrevision, items, hitems, hreads, hbody⟩ := h
    push Not at hframe hdigest
    rw [hmagic, sha256Size] at hframe
    refine ⟨hadmitted, hrequestID, hrevision, hframe.2.1, items, hitems, hreads, ?_⟩
    have htake : reply.frame items = payload.take (payload.length - sha256Size) := by
      rw [frame, ← hbody, ← hframe.2.2, slice_append_slice _ (by decide)
        (by rw [sha256Size]; omega), slice, List.drop_zero, Nat.sub_zero]
    rw [withDigest, htake, hdigest, List.take_append_drop]
  · rintro ⟨hadmitted, hrequestID, hrevision, hsize, items, hitems, hreads, rfl⟩
    have hlength : (withDigest (reply.frame items)).length - sha256Size
        = (reply.frame items).length := by
      rw [withDigest_length, Nat.add_sub_cancel]
    have hlong : 8 ≤ (reply.frame items).length := by
      rw [frame, List.length_append, hmagic]
      omega
    have hbody : slice (withDigest (reply.frame items)) 8 (reply.frame items).length
        = reply.header ++ items.flatMap RecoveryItem.frame := by
      rw [withDigest, slice_append_left _ _ _ _ le_rfl, frame,
        slice_append_right _ _ _ _ hmagic.le, hmagic, Nat.sub_self]
      refine slice_exact _ _ ?_
      generalize reply.header ++ items.flatMap RecoveryItem.frame = body
      rw [List.length_append, hmagic, Nat.add_sub_cancel_left]
    rw [decodeRecoverySnapshot, hadmitted.valid]
    simp only [hlength, hbody]
    rw [ite_error_eq_ok, ite_error_eq_ok, decodeRecoveryBody_eq_ok hadmitted.valid]
    refine ⟨?_, ?_, hadmitted, hrequestID, hrevision, items, hitems, hreads, rfl⟩
    · push Not
      refine ⟨by rw [withDigest_length, hmagic]; omega, hsize, ?_⟩
      rw [withDigest, slice_append_left _ _ _ _ hlong, frame, slice_append_exact _ _ _ hmagic]
    · rw [withDigest, List.take_left, List.drop_left]
      exact not_not.mpr rfl

/-! ### The encoder -/

/-- An expiry that the encoder writes. -/
def WritesExpiry (asOf : Time) (expiresAt : Option Time) : Prop :=
  ∀ t, expiresAt = some t → unixNanoRepresentable t ∧ 0 ≤ t ∧ asOf < t

/-- The records with the bits the encoder writes. -/
def writtenItems (records : List Record) : List RecoveryItem :=
  records.map fun record => (record, expiryBits record.expiresAt)

theorem unixNano_eq {t : Time} (h : unixNanoRepresentable t) : unixNano t = t := by
  simpa [unixNanoRepresentable] using h

theorem any_expiry_iff :
    ¬ (expiresAt.any fun t => decide (¬ unixNanoRepresentable t ∨ unixNano t < 0 ∨
      ¬ reply.asOf < t))
        = true ↔ WritesExpiry reply.asOf expiresAt := by
  cases expiresAt with
  | none => simp [WritesExpiry]
  | some t =>
    simp only [WritesExpiry, Option.any_some, decide_eq_true_eq, Option.some.injEq, forall_eq']
    push Not
    constructor
    · rintro ⟨hrep, hpositive, hlive⟩
      exact ⟨hrep, by rwa [unixNano_eq hrep] at hpositive, hlive⟩
    · rintro ⟨hrep, hpositive, hlive⟩
      exact ⟨hrep, by rwa [unixNano_eq hrep], hlive⟩

theorem recoveryRecordFrame_length (record : Record) (bits : Nat) :
    ((recoveryRecordFrame record bits).length : Int) = recoveryRecordBytes record := by
  simp only [recoveryRecordFrame, recoveryRecordBytes, List.length_append, putUint_length]
  omega

theorem encodeRecoveryRecords_eq_ok {out : Bytes} (hbound : request.maxBytes ≤ 2 ^ 28)
    (hsize : (payload.length + sha256Size : Int) ≤ request.maxBytes) :
    encodeRecoveryRecords reply request records previous payload = .ok out ↔
      AdmittedFrom request reply.observedRevision previous records ∧
        (∀ record ∈ records, WritesExpiry reply.asOf record.expiresAt) ∧
        (out.length + sha256Size : Int) ≤ request.maxBytes ∧
        out = payload ++ (writtenItems records).flatMap RecoveryItem.frame := by
  induction records generalizing previous payload with
  | nil =>
    rw [encodeRecoveryRecords, Except.ok.injEq]
    constructor
    · rintro rfl
      exact ⟨admittedFrom_nil, by simp, hsize, by simp [writtenItems]⟩
    · rintro ⟨-, -, -, rfl⟩
      simp [writtenItems]
  | cons record records ih =>
    have hroom : (request.maxBytes - sha256Size - payload.length) % (2 ^ 64 : Nat)
        = request.maxBytes - sha256Size - payload.length :=
      Int.emod_eq_of_lt (by omega) (by omega)
    have hframe := recoveryRecordFrame_length record (expiryBits record.expiresAt)
    have hitems : payload ++ (writtenItems (record :: records)).flatMap RecoveryItem.frame
        = payload ++ recoveryRecordFrame record (expiryBits record.expiresAt) ++
          (writtenItems records).flatMap RecoveryItem.frame := by
      rw [writtenItems, List.map_cons, List.flatMap_cons, ← List.append_assoc]
      rfl
    rw [encodeRecoveryRecords, ite_error_eq_ok, ite_error_eq_ok, ite_error_eq_ok, any_expiry_iff,
      hroom, admittedFrom_cons, List.forall_mem_cons, hitems, not_lt]
    constructor
    · rintro ⟨hrecord, hfits, hexpiry, htail⟩
      push Not at hrecord
      obtain ⟨hadmitted, hexpiries, hout, rfl⟩ :=
        (ih (by rw [List.length_append]; push_cast; omega)).mp htail
      exact ⟨⟨hrecord.2.2.2.1, ⟨hrecord.1, hrecord.2.1, hrecord.2.2.1, hrecord.2.2.2.2.1,
        hrecord.2.2.2.2.2.1, hrecord.2.2.2.2.2.2.1⟩, hadmitted⟩, ⟨hexpiry, hexpiries⟩, hout, rfl⟩
    · rintro ⟨⟨hlt, hok, hadmitted⟩, ⟨hexpiry, hexpiries⟩, hout, rfl⟩
      have hfits : (payload.length + recoveryRecordBytes record + sha256Size : Int)
          ≤ request.maxBytes := by
        rw [List.length_append, List.length_append] at hout
        push_cast at hout
        omega
      have hvalue : (record.value.length : Int) ≤ recoveryRecordBytes record := by
        rw [recoveryRecordBytes]
        omega
      refine ⟨?_, by omega, hexpiry, (ih (by rw [List.length_append]; push_cast; omega)).mpr
        ⟨hadmitted, hexpiries, hout, rfl⟩⟩
      push Not
      exact ⟨hok.nonempty, hok.length, hok.utf8, hlt, hok.matching, hok.positive, hok.observed,
        by omega, by omega⟩

theorem recoverySnapshotHeaderBytes_of_ok {databaseID : Bytes}
    (hdatabase : IdentityOk databaseID) (hrequest : IdentityOk requestID) :
    recoverySnapshotHeaderBytes databaseID requestID
      = .ok (recoverySnapshotMagic.length + 2 + databaseID.length + 2 + requestID.length +
        8 + 8 + 4 +
          sha256Size : Nat) := by
  have hmagic : recoverySnapshotMagic.length = 8 := by decide
  have hdatabaseSize := hdatabase.2.1
  have hrequestSize := hrequest.2.1
  rw [recoverySnapshotHeaderBytes, if_neg (by simp [hdatabase, hrequest]), if_neg]
  rw [hmagic, sha256Size, maxInt]
  omega

theorem identities_of_headerBytes {databaseID : Bytes} {size : Int}
    (h : recoverySnapshotHeaderBytes databaseID requestID = .ok size) :
    IdentityOk databaseID ∧ IdentityOk requestID := by
  rw [recoverySnapshotHeaderBytes, ite_error_eq_ok] at h
  exact not_or.mp h.1 |>.imp not_not.mp not_not.mp

theorem writeIdentity_of_ok (h : IdentityOk identity) :
    writeIdentity payload identity = .ok (payload ++ (putUint 2 identity.length ++ identity)) := by
  rw [writeIdentity, if_neg (not_not.mpr h)]

theorem encodeRecoverySnapshot_eq_ok : encodeRecoverySnapshot reply request = .ok payload ↔
      reply.Admitted request ∧
        (∀ record ∈ reply.records, WritesExpiry reply.asOf record.expiresAt) ∧
        (payload.length : Int) ≤ request.maxBytes ∧
        payload = withDigest (reply.frame (writtenItems reply.records)) := by
  have hmagic : recoverySnapshotMagic.length = 8 := by decide
  -- the payload before the records, as the encoder collects it
  have hstart : ∀ rest, recoverySnapshotMagic ++
      (putUint 2 reply.databaseID.length ++ reply.databaseID) ++
        (putUint 2 reply.requestID.length ++ reply.requestID) ++
          (putUint 8 reply.observedRevision ++ (putUint 8 (int64Bits (unixNano reply.asOf)) ++
            putUint 4 reply.records.length)) ++ rest
      = recoverySnapshotMagic ++ (reply.header ++ rest) := by
    intro rest
    simp only [header, List.append_assoc]
  constructor
  · intro h
    rw [encodeRecoverySnapshot] at h
    split at h
    · cases h
    next hrequest =>
    rw [ite_error_eq_ok] at h
    obtain ⟨hidentity, h⟩ := h
    push Not at hidentity
    split at h
    · cases h
    next size hheader =>
    obtain ⟨hdatabase, hwire⟩ := identities_of_headerBytes hheader
    rw [ite_error_eq_ok, ite_error_eq_ok, writeIdentity_of_ok hdatabase] at h
    simp only [writeIdentity_of_ok hwire, ite_error_eq_ok] at h
    obtain ⟨-, hasOf, hsize, h⟩ := h
    split at h
    · cases h
    next out hout =>
    obtain ⟨hadmitted, hexpiries, hlength, rfl⟩ :=
      (encodeRecoveryRecords_eq_ok (recoveryRequest_bounds hrequest).2 (not_lt.mp hsize)).mp hout
    obtain rfl := Except.ok.inj h
    rw [hstart] at hlength ⊢
    refine ⟨⟨hrequest, hidentity.1, not_not.mp hasOf, hidentity.2.2.1, hdatabase, hwire, hadmitted⟩,
      hexpiries, ?_, rfl⟩
    rw [← withDigest, withDigest_length]
    exact_mod_cast hlength
  · rintro ⟨hadmitted, hexpiries, hlength, rfl⟩
    have hbounds := recoveryRequest_bounds hadmitted.valid
    have hcount := hadmitted.count
    have hzero : reply.asOf ≠ zeroTime := by
      intro heq
      have hasOf := hadmitted.asOf
      simp only [heq, not_representable_zeroTime, Bool.false_eq_true] at hasOf
    rw [withDigest_length, frame] at hlength
    have hfits : ((recoverySnapshotMagic ++ reply.header).length + sha256Size : Int)
        ≤ request.maxBytes := by
      rw [← List.append_assoc, List.length_append] at hlength
      push_cast at hlength
      omega
    have hheaderSize : (recoverySnapshotMagic ++ reply.header).length
        = 8 + 2 + reply.databaseID.length + 2 + reply.requestID.length + 8 + 8 + 4 := by
      simp only [header, List.length_append, putUint_length, hmagic]
      omega
    have hstart' := hstart []
    simp only [List.append_nil] at hstart'
    rw [encodeRecoverySnapshot, hadmitted.valid]
    simp only [recoverySnapshotHeaderBytes_of_ok hadmitted.databaseID hadmitted.requestID,
      writeIdentity_of_ok hadmitted.databaseID, writeIdentity_of_ok hadmitted.requestID, hstart']
    have hout := (encodeRecoveryRecords_eq_ok hbounds.2 hfits).mpr
      ⟨hadmitted.records, hexpiries, by exact_mod_cast (List.append_assoc _ _ _ ▸ hlength), rfl⟩
    rw [if_neg, if_neg, if_neg (not_not.mpr hadmitted.asOf), if_neg (not_lt.mpr hfits), hout]
    · simp only [frame, withDigest, List.append_assoc]
    · rw [hmagic]
      omega
    · push Not
      exact ⟨hadmitted.revision, hzero, hcount, by omega⟩

/-! ### The expiry fields -/

/-- The expiry fields of the records to come. -/
def recoveryExpiries : Nat → Bytes → Option (List Int)
  | 0, _ => some []
  | count + 1, rest =>
    (readUint 4 rest).bind fun (keySize, rest) =>
    (readFull keySize rest).bind fun (_, rest) =>
    (readUint 8 rest).bind fun (_, rest) =>
    (readUint 8 rest).bind fun (expires, rest) =>
    (readUint 4 rest).bind fun (valueSize, rest) =>
    (readFull valueSize rest).bind fun (_, rest) =>
    (recoveryExpiries count rest).map fun expiries => int64 expires :: expiries

/-- The expiry fields of a frame, none if it is cut short. -/
def payloadExpiries (payload : Bytes) : List Int :=
  ((readFull 8 payload).bind fun (_, rest) =>
    (readUint 2 rest).bind fun (databaseBytes, rest) =>
    (readFull databaseBytes rest).bind fun (_, rest) =>
    (readUint 2 rest).bind fun (requestBytes, rest) =>
    (readFull requestBytes rest).bind fun (_, rest) =>
    (readFull 16 rest).bind fun (_, rest) =>
    (readUint 4 rest).bind fun (count, rest) =>
    recoveryExpiries count rest).getD []

/-- No expiry field holds a negative number other than -1. -/
def CanonicalExpiries (payload : Bytes) : Prop :=
  ∀ expires ∈ payloadExpiries payload, expires < 0 → expires = -1

instance (payload : Bytes) : Decidable (CanonicalExpiries payload) := by
  unfold CanonicalExpiries
  infer_instance

variable {items : List RecoveryItem}

theorem recoveryExpiries_items (hkeys : ∀ item ∈ items, item.1.key.length < 256 ^ 4)
    (hreads : ∀ item ∈ items, item.Reads asOf) (after : Bytes) :
    recoveryExpiries items.length (items.flatMap RecoveryItem.frame ++ after)
      = some (items.map fun item => int64 item.2) := by
  induction items with
  | nil => rfl
  | cons item items ih =>
    obtain ⟨⟨hrevision, hvalue, hbits, -⟩, hreads⟩ := List.forall_mem_cons.mp hreads
    obtain ⟨hkey, hkeys⟩ := List.forall_mem_cons.mp hkeys
    simp only [List.length_cons, recoveryExpiries, List.flatMap_cons, RecoveryItem.frame,
      recoveryRecordFrame, List.append_assoc, readUint_append hkey, readUint_append hrevision,
      readUint_append hbits, readUint_append hvalue, readFull_append, Option.bind_some]
    rw [ih hkeys hreads, Option.map_some, List.map_cons]

theorem RecoverySnapshotReply.Admitted.key_lt (h : reply.Admitted request)
    (hitems : items.map Prod.fst = reply.records) :
    ∀ item ∈ items, item.1.key.length < 256 ^ 4 := by
  intro item hitem
  have hmem : item.1 ∈ reply.records := hitems ▸ List.mem_map_of_mem hitem
  have hkey := (h.records.2 item.1 hmem).length
  have hceiling : hardCeilings.maxKeyBytes < 256 ^ 4 := by decide
  omega

theorem payloadExpiries_frame (h : reply.Admitted request)
    (hitems : items.map Prod.fst = reply.records) (hreads : ∀ item ∈ items, item.Reads reply.asOf) :
    payloadExpiries (withDigest (reply.frame items)) = items.map fun item => int64 item.2 := by
  have hmagic : recoverySnapshotMagic.length = 8 := by decide
  have hbounds := recoveryRequest_bounds h.valid
  have hdatabase : reply.databaseID.length < 256 ^ 2 := by have := h.databaseID.2.1; omega
  have hrequest : reply.requestID.length < 256 ^ 2 := by have := h.requestID.2.1; omega
  have hcount : reply.records.length < 256 ^ 4 := by have := h.count; omega
  have hlength : reply.records.length = items.length := by rw [← hitems, List.length_map]
  have hstart : ∀ rest, readFull 8 (recoverySnapshotMagic ++ rest)
      = some (recoverySnapshotMagic, rest) :=
    fun rest => readFull_eq_some.mpr ⟨hmagic, rfl⟩
  have hwords : ∀ rest, readFull 16 (putUint 8 reply.observedRevision ++
      (putUint 8 (int64Bits (unixNano reply.asOf)) ++ rest))
        = some (putUint 8 reply.observedRevision ++
          putUint 8 (int64Bits (unixNano reply.asOf)), rest) :=
    fun rest => readFull_eq_some.mpr ⟨by simp, by rw [List.append_assoc]⟩
  simp only [payloadExpiries, withDigest, frame, header, List.append_assoc, hstart,
    readUint_append hdatabase, readUint_append hrequest, readUint_append hcount, readFull_append,
    hwords, Option.bind_some]
  rw [hlength, recoveryExpiries_items (h.key_lt hitems) hreads, Option.getD_some]

/-- The bits of a field that is none of the many for no expiry are the encoder's. -/
theorem ReadsExpiry.bits_eq {bits : Nat}
    (h : ReadsExpiry asOf bits expiresAt) (hcanonical : int64 bits < 0 → int64 bits = -1) :
    bits = expiryBits expiresAt := by
  obtain ⟨hbits, hexpiry⟩ := h
  have hword := int64Bits_int64 hbits
  cases expiresAt with
  | none =>
    rw [hcanonical hexpiry] at hword
    exact hword.symm
  | some t =>
    rw [hexpiry.1] at hword
    exact hword.symm

theorem ReadsExpiry.writes {bits : Nat}
    (h : ReadsExpiry asOf bits expiresAt) : WritesExpiry asOf expiresAt := by
  rintro t rfl
  obtain ⟨-, heq, hpositive, hlive⟩ := h
  refine ⟨?_, hpositive, hlive⟩
  rw [← heq]
  exact unixNanoRepresentable_int64 bits

theorem WritesExpiry.reads (h : WritesExpiry asOf expiresAt) :
    ReadsExpiry asOf (expiryBits expiresAt) expiresAt := by
  refine ⟨int64Bits_lt _, ?_⟩
  cases expiresAt with
  | none =>
    show int64 (expiryBits none) < 0
    decide
  | some t =>
    obtain ⟨hrep, hpositive, hlive⟩ := h t rfl
    exact ⟨int64_int64Bits hrep, hpositive, hlive⟩

/-- A record's frame is part of the payload. -/
theorem value_length_le {item : RecoveryItem} (h : item ∈ items) :
    item.1.value.length ≤ (items.flatMap RecoveryItem.frame).length := by
  induction items with
  | nil => cases h
  | cons first items ih =>
    rw [List.flatMap_cons, List.length_append]
    rcases List.mem_cons.mp h with rfl | hmem
    · simp only [RecoveryItem.frame, recoveryRecordFrame, List.length_append]
      omega
    · have hle := ih hmem
      omega

theorem writtenItems_reads (h : reply.Admitted request)
    (hrevision : request.expectedRevision < 2 ^ 64)
    (hexpiries : ∀ record ∈ reply.records, WritesExpiry reply.asOf record.expiresAt)
    (hsize : ((withDigest (reply.frame (writtenItems reply.records))).length : Int)
      ≤ request.maxBytes) :
    ∀ item ∈ writtenItems reply.records, item.Reads reply.asOf := by
  intro item hitem
  have hvalue := value_length_le hitem
  have hbounds := recoveryRequest_bounds h.valid
  obtain ⟨record, hrecord, rfl⟩ := List.mem_map.mp hitem
  have hobserved := (h.records.2 record hrecord).observed
  have hexpected := h.revision
  refine ⟨?_, ?_, (hexpiries record hrecord).reads⟩
  · show record.revision < 256 ^ 8
    omega
  · rw [withDigest_length, frame, List.length_append, List.length_append] at hsize
    push_cast at hsize
    omega

theorem writtenItems_records (records : List Record) :
    (writtenItems records).map Prod.fst = records := by
  rw [writtenItems, List.map_map]
  exact List.map_id'' (fun _ => rfl) records

theorem decode_encodeRecoverySnapshot (hrevision : request.expectedRevision < 2 ^ 64)
    (h : encodeRecoverySnapshot reply request = .ok payload) :
    decodeRecoverySnapshot payload reply.requestID request = .ok reply := by
  obtain ⟨hadmitted, hexpiries, hsize, rfl⟩ := encodeRecoverySnapshot_eq_ok.mp h
  refine decodeRecoverySnapshot_eq_ok.mpr ⟨hadmitted, rfl, ?_, hsize, _,
    writtenItems_records _, writtenItems_reads hadmitted hrevision hexpiries hsize, rfl⟩
  rw [hadmitted.revision]
  exact hrevision

/-- With -1 in every field for no expiry, the items read are the items written. -/
theorem eq_writtenItems (hreads : ∀ item ∈ items, item.Reads asOf)
    (hcanonical : ∀ item ∈ items, int64 item.2 < 0 → int64 item.2 = -1) :
    items = writtenItems (items.map Prod.fst) :=
  calc items = items.map id := (List.map_id _).symm
    _ = items.map fun item => (item.1, expiryBits item.1.expiresAt) :=
      List.map_congr_left fun item hitem =>
        Prod.ext rfl ((hreads item hitem).2.2.bits_eq (hcanonical item hitem))
    _ = writtenItems (items.map Prod.fst) := by
      rw [writtenItems, List.map_map]
      rfl

/-- The encoder writes -1 for a record without expiry, and a date for every other. -/
theorem canonicalExpiries_encode (hrevision : request.expectedRevision < 2 ^ 64)
    (h : encodeRecoverySnapshot reply request = .ok payload) : CanonicalExpiries payload := by
  obtain ⟨hadmitted, hexpiries, hsize, rfl⟩ := encodeRecoverySnapshot_eq_ok.mp h
  rw [CanonicalExpiries, payloadExpiries_frame hadmitted (writtenItems_records _)
    (writtenItems_reads hadmitted hrevision hexpiries hsize), List.forall_mem_map]
  intro item hitem hnegative
  obtain ⟨record, hrecord, rfl⟩ := List.mem_map.mp hitem
  have hreads := (hexpiries record hrecord).reads
  cases hexpires : record.expiresAt with
  | none => exact (by decide : int64 (expiryBits none) = -1)
  | some t =>
    rw [hexpires] at hreads
    simp only [hexpires, hreads.2.1] at hnegative
    exact absurd hnegative (not_lt.mpr hreads.2.2.1)

/-- The frame of a recovery snapshot stands for the reply that was encoded, and a frame that is
accepted is the frame of its reply if and only if it writes "no expiry" as -1 throughout. -/
theorem recoverySnapshot_codec (request : RecoverySnapshotRequest)
    (hrevision : request.expectedRevision < 2 ^ 64) :
    (∀ reply payload, encodeRecoverySnapshot reply request = .ok payload →
      decodeRecoverySnapshot payload reply.requestID request = .ok reply) ∧
    (∀ payload requestID reply, decodeRecoverySnapshot payload requestID request = .ok reply →
      (encodeRecoverySnapshot reply request = .ok payload ↔ CanonicalExpiries payload)) := by
  refine ⟨fun reply payload h => decode_encodeRecoverySnapshot hrevision h, ?_⟩
  intro payload requestID reply h
  refine ⟨canonicalExpiries_encode hrevision, fun hcanonical => ?_⟩
  obtain ⟨hadmitted, -, -, hsize, items, hitems, hreads, rfl⟩ := decodeRecoverySnapshot_eq_ok.mp h
  rw [CanonicalExpiries, payloadExpiries_frame hadmitted hitems hreads, List.forall_mem_map]
    at hcanonical
  have hwritten := eq_writtenItems hreads hcanonical
  rw [hitems] at hwritten
  refine encodeRecoverySnapshot_eq_ok.mpr ⟨hadmitted, fun record hrecord => ?_, hsize, ?_⟩
  · rw [← hitems] at hrecord
    obtain ⟨item, hitem, rfl⟩ := List.mem_map.mp hrecord
    exact (hreads item hitem).2.2.writes
  · rw [← hwritten]

/-! ### A frame that the encoder does not write -/

def sampleRecoveryRequest : RecoverySnapshotRequest := ⟨ascii "k", 1, 1, 1000⟩

def sampleRecoveryReply : RecoverySnapshotReply :=
  ⟨⟨ascii "d", 1, 0, [⟨ascii "k", [], 1, none⟩]⟩, ascii "r"⟩

/-- The record with the number -2 in place of -1. -/
def sampleRecoveryItems : List RecoveryItem := [(⟨ascii "k", [], 1, none⟩, int64Bits (-2))]

def sampleRecoveryPayload : Bytes := withDigest (sampleRecoveryReply.frame sampleRecoveryItems)

theorem sampleRecoveryReply_admitted : sampleRecoveryReply.Admitted sampleRecoveryRequest where
  valid := by decide
  revision := rfl
  asOf := by decide
  count := by decide
  databaseID := by decide
  requestID := by decide
  records := by
    refine admittedFrom_cons.mpr ⟨by decide, ?_, admittedFrom_nil⟩
    exact ⟨by decide, by decide, by decide, by decide, by decide, by decide⟩

theorem sampleRecoveryItems_read :
    ∀ item ∈ sampleRecoveryItems, item.Reads sampleRecoveryReply.asOf := by
  intro item hitem
  obtain rfl := List.mem_singleton.mp hitem
  exact ⟨by decide, by decide, by decide, by decide⟩

theorem sampleRecovery_written :
    ∀ record ∈ sampleRecoveryReply.records,
      WritesExpiry sampleRecoveryReply.asOf record.expiresAt := by
  intro record hrecord
  obtain rfl := List.mem_singleton.mp hrecord
  rintro t ⟨⟩

theorem sampleRecoveryReply_encodes :
    encodeRecoverySnapshot sampleRecoveryReply sampleRecoveryRequest
      = .ok (withDigest (sampleRecoveryReply.frame
        (writtenItems sampleRecoveryReply.records))) := by
  refine encodeRecoverySnapshot_eq_ok.mpr
    ⟨sampleRecoveryReply_admitted, sampleRecovery_written, ?_, rfl⟩
  rw [withDigest_length]
  decide

theorem sampleRecoveryPayload_decodes :
    decodeRecoverySnapshot sampleRecoveryPayload (ascii "r") sampleRecoveryRequest
      = .ok sampleRecoveryReply := by
  refine decodeRecoverySnapshot_eq_ok.mpr ⟨sampleRecoveryReply_admitted, rfl, by decide, ?_, _, rfl,
    sampleRecoveryItems_read, rfl⟩
  rw [sampleRecoveryPayload, withDigest_length]
  decide

theorem sampleRecoveryPayload_noncanonical : ¬ CanonicalExpiries sampleRecoveryPayload := by
  have hfields : payloadExpiries sampleRecoveryPayload = [-2] :=
    payloadExpiries_frame sampleRecoveryReply_admitted rfl sampleRecoveryItems_read
  intro hcanonical
  have hminus := hcanonical (-2) (by rw [hfields]; decide) (by decide)
  exact absurd hminus (by decide)

theorem noncanonical_expiry_accepted :
    decodeRecoverySnapshot sampleRecoveryPayload (ascii "r") sampleRecoveryRequest
        = .ok sampleRecoveryReply ∧
      ¬ CanonicalExpiries sampleRecoveryPayload ∧
      ∃ payload, encodeRecoverySnapshot sampleRecoveryReply sampleRecoveryRequest = .ok payload ∧
        payload ≠ sampleRecoveryPayload := by
  refine ⟨sampleRecoveryPayload_decodes, sampleRecoveryPayload_noncanonical, _,
    sampleRecoveryReply_encodes, fun heq => sampleRecoveryPayload_noncanonical ?_⟩
  rw [← heq]
  exact canonicalExpiries_encode (by decide) sampleRecoveryReply_encodes

/-- Both halves, the second at the frame that is written and at the one that is not. -/
theorem recoverySnapshot_codec_sample :
    ∃ payload, encodeRecoverySnapshot sampleRecoveryReply sampleRecoveryRequest = .ok payload ∧
      decodeRecoverySnapshot payload (ascii "r") sampleRecoveryRequest = .ok sampleRecoveryReply ∧
      CanonicalExpiries payload ∧
      encodeRecoverySnapshot sampleRecoveryReply sampleRecoveryRequest
        ≠ .ok sampleRecoveryPayload := by
  obtain ⟨hundoes, hexact⟩ := recoverySnapshot_codec sampleRecoveryRequest (by decide)
  have hdecoded := hundoes _ _ sampleRecoveryReply_encodes
  exact ⟨_, sampleRecoveryReply_encodes, hdecoded,
    (hexact _ _ _ hdecoded).mp sampleRecoveryReply_encodes, fun hencoded =>
      sampleRecoveryPayload_noncanonical
        ((hexact _ _ _ sampleRecoveryPayload_decodes).mp hencoded)⟩

end GapDB
