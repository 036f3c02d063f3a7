import GapDB.Persist.Common
import GapDB.Storelib.Utf8
import Mathlib.Algebra.Order.BigOperators.Group.List

/-!
# Commit frames

The WAL header and commit frame codec of `persist/wal.go`. A frame is written as the
concatenation of its fields; the decoder reads the same fields from byte positions.
-/

namespace GapDB

open Storelib

variable {limits : Limits} {rest : Bytes}

def walHeaderSize : Nat := 64

def frameHeaderSize : Nat := 28

def frameTrailer : Nat := 4

def effectHeader : Nat := 20

structure WALHeader where
  databaseID : DatabaseID
  firstRevision : Nat
  generation : Nat
deriving DecidableEq

structure Effect where
  kind : ChangeKind
  key : Key
  value : Bytes := []
  expiresAt : Option Time := none
deriving DecidableEq, Repr

structure CommitFrame where
  revision : Nat
  effects : List Effect
deriving DecidableEq, Repr

/-! ### The WAL header -/

def walMagic : Bytes := ascii "GAPWAL01"

def encodeWALHeader (header : WALHeader) : Except Error Bytes :=
  if header.databaseID.isZero ∨ header.firstRevision = 0 ∨ header.generation = 0 then
    .error (corruptWAL "WAL header fields must be nonzero" [] 0 none)
  else .ok (sealedHeader walMagic header.databaseID header.firstRevision header.generation)

def decodeWALHeader (encoded : Bytes) (expectedID : DatabaseID) : Except Error WALHeader :=
  let version := uint (slice encoded 8 10)
  let id := DatabaseID.ofBytes (slice encoded 12 28)
  let header : WALHeader := ⟨id, uint (slice encoded 28 36), uint (slice encoded 36 44)⟩
  if encoded.length ≠ walHeaderSize then
    .error (corruptWAL "WAL header size is not 64" [] 0 none)
  else if slice encoded 0 8 ≠ walMagic then
    .error (corruptWAL "WAL magic does not match GAPWAL01" [] 0 none)
  else if version ≠ storageVersion then .error (unknownStorageFormat (ascii "WAL") version)
  else if uint (slice encoded 10 12) ≠ walHeaderSize ∨ ¬ allZero (slice encoded 44 60) then
    .error (corruptWAL "WAL header length or reserved bytes are invalid" [] 0 none)
  else if crc32c (slice encoded 0 60) ≠ uint (slice encoded 60 64) then
    .error (corruptWAL "WAL header CRC32C mismatch" [] 0 none)
  else if id ≠ expectedID then .error (databaseIDMismatch expectedID id (ascii "WAL"))
  else if header.firstRevision = 0 ∨ header.generation = 0 then
    .error (corruptWAL "WAL first revision and generation must be nonzero" [] 0 none)
  else .ok header

/-- A header that `EncodeWALHeader` accepts and 64-bit fields can hold. -/
structure WALHeader.Encodable (header : WALHeader) : Prop where
  id : ¬ header.databaseID.isZero
  firstRevision : header.firstRevision ≠ 0 ∧ header.firstRevision < 2 ^ 64
  generation : header.generation ≠ 0 ∧ header.generation < 2 ^ 64

def WALHeader.bytes (header : WALHeader) : Bytes :=
  sealedHeader walMagic header.databaseID header.firstRevision header.generation

theorem WALHeader.bytes_length (header : WALHeader) : header.bytes.length = 64 :=
  sealedHeader_length (by decide) _ _ _

theorem encodeWALHeader_bytes {header : WALHeader} (h : header.Encodable) :
    encodeWALHeader header = .ok header.bytes := by
  have hid := h.id
  have hfirst := h.firstRevision.1
  have hgeneration := h.generation.1
  simp [encodeWALHeader, WALHeader.bytes, hid, hfirst, hgeneration]

theorem decodeWALHeader_bytes {header : WALHeader} (h : header.Encodable) :
    decodeWALHeader header.bytes header.databaseID = .ok header := by
  have f := sealedHeader_fields (by decide : walMagic.length = 8) header.databaseID
    header.firstRevision header.generation h.firstRevision.2 h.generation.2
  have hfirst := h.firstRevision.1
  have hgeneration := h.generation.1
  simp [decodeWALHeader, WALHeader.bytes, f.length, f.magic, f.version, f.size, f.id, f.first,
    f.second, f.reserved, f.crc, walHeaderSize, hfirst, hgeneration]

/-! ### Validity of a commit -/

def keyTooLarge (key : Key) (limits : Limits) : Error :=
  { code := .keyTooLarge, message := "Key exceeds the configured limit.", retry := .never,
    field := "key", receivedBytes := key.length, maximumBytes := limits.maxKeyBytes,
    safeActions := [.reduceKey, .abort] }

def validateEffectPayload (effect : Effect) (limits : Limits) : Except Error Unit :=
  match effect.kind with
  | .put =>
    if limits.maxValueBytes < effect.value.length then
      .error { code := .valueTooLarge, message := "Value exceeds the configured limit.",
               retry := .never, field := "value_base64", receivedBytes := effect.value.length,
               maximumBytes := limits.maxValueBytes, safeActions := [.reduceValue, .abort] }
    else if ¬ effect.expiresAt.all unixNanoRepresentable then
      .error (corruptWAL "put expiry cannot be represented as Unix nanoseconds" [] 0 none)
    else .ok ()
  | .delete | .expire =>
    if effect.value.length ≠ 0 ∨ effect.expiresAt ≠ none then
      .error (corruptWAL "delete/expire cannot carry value or expiry" [] 0 none)
    else .ok ()

def validateEffects (limits : Limits) : List (Key × Nat) → Nat → List Effect → Except Error Unit
  | _, _, [] => .ok ()
  | seen, index, effect :: effects =>
    if effect.key = [] ∨ ¬ validUtf8 effect.key then
      .error (corruptWAL "effect key is empty or invalid UTF-8" [] 0 none)
    else if limits.maxKeyBytes < effect.key.length then .error (keyTooLarge effect.key limits)
    else match seen.lookup effect.key with
      | some previous =>
        .error { code := .duplicateKey, message := "A key occurs more than once in the commit.",
                 retry := .never, key := effect.key, mutationIndexes := [previous, index],
                 safeActions := [.deduplicateBatch, .abort] }
      | none =>
        andThen (validateEffectPayload effect limits) <|
          validateEffects limits ((effect.key, index) :: seen) (index + 1) effects

def validateCommit (commit : CommitFrame) (limits : Limits) : Except Error Unit :=
  if commit.revision = 0 then .error (corruptWAL "commit revision must be nonzero" [] 0 none)
  else if commit.effects.length = 0 then
    .error (corruptWAL "commit must contain at least one mutation" [] 0 none)
  else if limits.maxBatchOperations < commit.effects.length then
    .error { code := .batchTooLarge, message :=
      "WAL commit exceeds the configured operation limit.",
             retry := .never, receivedOperations := commit.effects.length,
             maximumOperations := limits.maxBatchOperations, safeActions := [.splitBatch, .abort] }
  else validateEffects limits [] 0 commit.effects

/-- A put fits and can be dated; a removal carries nothing. -/
def Effect.Payload (limits : Limits) (e : Effect) : Prop :=
  match e.kind with
  | .put => e.value.length ≤ limits.maxValueBytes ∧ ∀ t ∈ e.expiresAt, unixNanoRepresentable t
  | .delete | .expire => e.value = [] ∧ e.expiresAt = none

structure Effect.Valid (limits : Limits) (e : Effect) : Prop where
  nonempty : e.key ≠ []
  utf8 : validUtf8 e.key
  length : e.key.length ≤ limits.maxKeyBytes
  payload : e.Payload limits

structure CommitFrame.Valid (limits : Limits) (c : CommitFrame) : Prop where
  revision : c.revision ≠ 0
  nonempty : c.effects ≠ []
  operations : c.effects.length ≤ limits.maxBatchOperations
  distinct : (c.effects.map Effect.key).Nodup
  effects : ∀ e ∈ c.effects, e.Valid limits

variable {e : Effect}

theorem validateEffectPayload_eq_ok :
    validateEffectPayload e limits = .ok () ↔ e.Payload limits := by
  have hexpiry : (¬ ¬ e.expiresAt.all unixNanoRepresentable = true) ↔
      ∀ t ∈ e.expiresAt, unixNanoRepresentable t := by
    cases e.expiresAt <;> simp
  cases hk : e.kind <;>
    simp only [validateEffectPayload, Effect.Payload, hk, ite_error_eq_ok, hexpiry, not_lt, not_or,
      not_not, List.length_eq_zero_iff, and_true]

variable {es : List Effect}

theorem validateEffects_eq_ok {seen : List (Key × Nat)} {index : Nat} :
    validateEffects limits seen index es = .ok () ↔
      (es.map Effect.key).Nodup ∧ (∀ e ∈ es, e.key ∉ seen.map Prod.fst) ∧
      ∀ e ∈ es, e.Valid limits := by
  induction es generalizing seen index with
  | nil => simp [validateEffects]
  | cons e es ih =>
    have hvalid : e.Valid limits ↔ (¬ (e.key = [] ∨ ¬ validUtf8 e.key)) ∧
        (¬ limits.maxKeyBytes < e.key.length) ∧ e.Payload limits := by
      rw [not_or, not_not, not_lt]
      exact ⟨fun h => ⟨⟨h.nonempty, h.utf8⟩, h.length, h.payload⟩,
        fun ⟨⟨h₁, h₂⟩, h₃, h₄⟩ => ⟨h₁, h₂, h₃, h₄⟩⟩
    simp only [validateEffects, ite_error_eq_ok, List.forall_mem_cons, hvalid]
    cases hseen : seen.lookup e.key with
    | some previous =>
      have hmem : e.key ∈ seen.map Prod.fst := lookup_isSome_iff_mem.mp (by simp [hseen])
      exact iff_of_false (fun h => by cases h.2.2) fun h => h.2.1.1 hmem
    | none =>
      have hmem : e.key ∉ seen.map Prod.fst := fun h => by
        simpa [hseen] using lookup_isSome_iff_mem.mpr h
      simp only [andThen_eq_ok, validateEffectPayload_eq_ok, ih, List.map_cons, List.nodup_cons,
        List.mem_cons, not_or]
      constructor
      · rintro ⟨hkey, hlength, hpayload, hnodup, hfresh, hes⟩
        refine ⟨⟨fun h => ?_, hnodup⟩, ⟨hmem, fun x hx => (hfresh x hx).2⟩,
          ⟨hkey, hlength, hpayload⟩, hes⟩
        obtain ⟨x, hx, hxe⟩ := List.mem_map.mp h
        exact (hfresh x hx).1 hxe
      · rintro ⟨⟨hhead, hnodup⟩, ⟨_, hfresh⟩, ⟨hkey, hlength, hpayload⟩, hes⟩
        exact ⟨hkey, hlength, hpayload, hnodup, fun x hx =>
          ⟨fun h => hhead (List.mem_map.mpr ⟨x, hx, h⟩), hfresh x hx⟩, hes⟩

variable {c : CommitFrame}

theorem validateCommit_eq_ok : validateCommit c limits = .ok () ↔ c.Valid limits := by
  simp only [validateCommit, ite_error_eq_ok, validateEffects_eq_ok, not_lt,
    List.length_eq_zero_iff, List.map_nil, List.not_mem_nil, not_false_eq_true, implies_true,
    true_and]
  exact ⟨fun ⟨h₁, h₂, h₃, h₄, h₅⟩ => ⟨h₁, h₂, h₃, h₄, h₅⟩,
    fun h => ⟨h.revision, h.nonempty, h.operations, h.distinct, h.effects⟩⟩

/-! ### Encoding -/

/-- The two's complement bits of a signed word. -/
def int64Bits (i : Int) : Nat := (i % (2 ^ 64 : Nat)).toNat

def int64 (bits : Nat) : Int := (bits : Int).bmod (2 ^ 64)

def ChangeKind.byte : ChangeKind → Nat
  | .put => 1
  | .delete => 2
  | .expire => 3

def Effect.size (e : Effect) : Nat := effectHeader + e.key.length + e.value.length

def effectPayloadLength : Nat → List Effect → Except Error Nat
  | total, [] => .ok total
  | total, e :: es =>
    if maxUint64 - e.size < total then
      .error (corruptWAL "mutation payload length overflows" [] 0 none)
    else effectPayloadLength (total + e.size) es

def expiryFlag (expiresAt : Option Time) : Nat := if expiresAt.isSome then 1 else 0

def expiryWord (expiresAt : Option Time) : Nat :=
  (expiresAt.map fun t => int64Bits (unixNano t)).getD 0

/-- Kind, flags, two reserved bytes, the two lengths and the expiry. -/
def effectFixed (e : Effect) : Bytes :=
  putUint 1 e.kind.byte ++ (putUint 1 (expiryFlag e.expiresAt) ++ (putUint 2 0 ++
    (putUint 4 e.key.length ++ (putUint 4 e.value.length ++ putUint 8 (expiryWord e.expiresAt)))))

def encodeEffect (e : Effect) : Bytes := effectFixed e ++ (e.key ++ e.value)

def frameMagic : Bytes := ascii "CMIT"

def frameBody (commit : CommitFrame) (total payloadLength : Nat) : Bytes :=
  frameMagic ++ (putUint 2 storageVersion ++ (putUint 2 0 ++ (putUint 4 total ++
    (putUint 8 commit.revision ++ (putUint 4 commit.effects.length ++
      (putUint 4 payloadLength ++ commit.effects.flatMap encodeEffect))))))

def saturatedInt (n : Nat) : Nat := if maxInt < n then maxInt else n

def encodeCommitFrame (commit : CommitFrame) (limits : Limits) : Except Error Bytes :=
  andThen (validateCommit commit limits) <|
  match effectPayloadLength 0 commit.effects with
  | .error e => .error e
  | .ok payloadLength =>
    let total := u64 (frameHeaderSize + frameTrailer + payloadLength)
    if limits.commitBytes < total ∨ maxUint32 < total then
      .error { code := .batchTooLarge,
               message := "WAL commit frame exceeds the configured byte limit.",
               retry := .never, receivedBytes := saturatedInt total,
               maximumBytes := limits.commitBytes, safeActions := [.splitBatch, .abort] }
    else
      let body := frameBody commit total payloadLength
      .ok (body ++ putUint 4 (crc32c body))

def CommitFrame.payloadSize (c : CommitFrame) : Nat := (c.effects.map Effect.size).sum

/-- The length of the encoded frame. -/
def CommitFrame.size (c : CommitFrame) : Nat := frameHeaderSize + frameTrailer + c.payloadSize

/-- The encoded frame, where it exists. -/
def CommitFrame.bytes (c : CommitFrame) : Bytes :=
  frameBody c c.size c.payloadSize ++ putUint 4 (crc32c (frameBody c c.size c.payloadSize))

/-- A commit whose revision and frame length are 64-bit words, as of every commit in memory. -/
structure CommitFrame.Representable (c : CommitFrame) : Prop where
  revision : c.revision < 2 ^ 64
  size : c.size < 2 ^ 64

/-- A commit that `EncodeCommitFrame` accepts and whose revision is a 64-bit word. -/
structure CommitFrame.Encodable (limits : Limits) (c : CommitFrame) : Prop where
  valid : c.Valid limits
  size : c.size ≤ limits.commitBytes
  word : c.size < 2 ^ 32
  revision : c.revision < 2 ^ 64

theorem CommitFrame.Encodable.of_valid (hl : limits.Valid) (hvalid : c.Valid limits)
    (hsize : c.size ≤ limits.maxBatchBytes) (hrevision : c.revision < 2 ^ 64) :
    c.Encodable limits := by
  have hbatch := hl.batchBytes
  have hframe := hl.frameBytes
  exact ⟨hvalid, by rwa [hl.commitBytes_eq], by omega, hrevision⟩

theorem effectPayloadLength_eq {total : Nat} (h : total + (es.map Effect.size).sum ≤ maxUint64) :
    effectPayloadLength total es = .ok (total + (es.map Effect.size).sum) := by
  induction es generalizing total with
  | nil => simp [effectPayloadLength]
  | cons e es ih =>
    simp only [List.map_cons, List.sum_cons] at h ⊢
    rw [effectPayloadLength, if_neg (by omega), ih (by omega)]
    congr 1
    omega

theorem Effect.Valid.value_length_le (h : e.Valid limits) :
    e.value.length ≤ limits.maxValueBytes := by
  have hp := h.payload
  unfold Effect.Payload at hp
  split at hp
  · exact hp.1
  all_goals simp [hp.1]

theorem Effect.Valid.size_le (hl : limits.Valid) (h : e.Valid limits) : e.size ≤ 2 ^ 27 := by
  have hkeys := hl.keyBytes
  have hvalues := hl.valueBytes
  have hlength := h.length
  have hvalue := h.value_length_le
  simp only [Effect.size, effectHeader]
  omega

/-- Within valid limits no length computation of the encoder can overflow. -/
theorem CommitFrame.Valid.payloadSize_lt (hl : limits.Valid)
    (h : c.Valid limits) : c.payloadSize < 2 ^ 60 := by
  have hops := hl.operations
  have hsum : (c.effects.map Effect.size).sum ≤ (c.effects.map Effect.size).length • 2 ^ 27 := by
    apply List.sum_le_card_nsmul
    intro n hn
    obtain ⟨e, he, rfl⟩ := List.mem_map.mp hn
    exact (h.effects e he).size_le hl
  have hcount := h.operations
  simp only [List.length_map, nsmul_eq_mul, Nat.cast_id] at hsum
  simp only [CommitFrame.payloadSize]
  omega

/-- What the encoder accepts, whatever the limits. -/
theorem encodeCommitFrame_eq_ok_iff (hc : c.size < 2 ^ 64) {bs : Bytes} :
    encodeCommitFrame c limits = .ok bs ↔
      c.Valid limits ∧ c.size ≤ limits.commitBytes ∧ c.size < 2 ^ 32 ∧ bs = c.bytes := by
  have hfull : c.size = 32 + c.payloadSize := rfl
  have hlength : effectPayloadLength 0 c.effects = .ok c.payloadSize := by
    rw [effectPayloadLength_eq]
    · simp [CommitFrame.payloadSize]
    · rw [Nat.zero_add]
      simp only [CommitFrame.payloadSize] at hfull
      simp only [maxUint64]
      omega
  have htotal : u64 (frameHeaderSize + frameTrailer + c.payloadSize) = c.size := Nat.mod_eq_of_lt hc
  rw [encodeCommitFrame, andThen_eq_ok, validateCommit_eq_ok]
  simp only [hlength, htotal, ite_error_eq_ok, Except.ok.injEq]
  rw [show (¬ (limits.commitBytes < c.size ∨ maxUint32 < c.size)) ↔
    c.size ≤ limits.commitBytes ∧ c.size < 2 ^ 32 by simp only [maxUint32]; omega]
  rw [and_assoc]
  refine and_congr_right fun _ => and_congr_right fun _ => and_congr_right fun _ => ?_
  exact eq_comm

theorem encodeCommitFrame_eq_ok (hl : limits.Valid) {bs : Bytes} :
    encodeCommitFrame c limits = .ok bs ↔
      c.Valid limits ∧ c.size ≤ limits.maxBatchBytes ∧ bs = c.bytes := by
  have hbatch := hl.batchBytes
  have hframe := hl.frameBytes
  have hword : c.Valid limits → c.size < 2 ^ 64 := by
    intro hvalid
    have hlt := hvalid.payloadSize_lt hl
    rw [show c.size = 32 + c.payloadSize from rfl]
    omega
  constructor
  · intro h
    have hvalid : c.Valid limits := by
      rw [encodeCommitFrame, andThen_eq_ok, validateCommit_eq_ok] at h
      exact h.1
    obtain ⟨-, hsize, -, hbytes⟩ := (encodeCommitFrame_eq_ok_iff (hword hvalid)).mp h
    rw [hl.commitBytes_eq] at hsize
    exact ⟨hvalid, hsize, hbytes⟩
  · rintro ⟨hvalid, hsize, hbytes⟩
    refine (encodeCommitFrame_eq_ok_iff (hword hvalid)).mpr ⟨hvalid, ?_, by omega, hbytes⟩
    rwa [hl.commitBytes_eq]

theorem encodeCommitFrame_bytes (h : c.Encodable limits) :
    encodeCommitFrame c limits = .ok c.bytes :=
  (encodeCommitFrame_eq_ok_iff (h.word.trans (by decide))).mpr ⟨h.valid, h.size, h.word, rfl⟩

@[simp] theorem effectFixed_length (e : Effect) : (effectFixed e).length = 20 := by
  simp [effectFixed]

@[simp] theorem encodeEffect_length (e : Effect) : (encodeEffect e).length = e.size := by
  simp only [encodeEffect, List.length_append, effectFixed_length, Effect.size, effectHeader]
  omega

theorem flatMap_encodeEffect_length (es : List Effect) :
    (es.flatMap encodeEffect).length = (es.map Effect.size).sum := by
  induction es with
  | nil => rfl
  | cons e es ih => simp [ih]

theorem frameBody_length (c : CommitFrame) (total payloadLength : Nat) :
    (frameBody c total payloadLength).length = frameHeaderSize + c.payloadSize := by
  have hmagic : frameMagic.length = 4 := by decide
  simp only [frameBody, List.length_append, putUint_length, hmagic, flatMap_encodeEffect_length,
    CommitFrame.payloadSize, frameHeaderSize]
  omega

@[simp] theorem CommitFrame.bytes_length (c : CommitFrame) : c.bytes.length = c.size := by
  simp only [CommitFrame.bytes, List.length_append, frameBody_length, putUint_length,
    CommitFrame.size, frameTrailer]
  omega

/-- Every effect takes at least its fixed header. -/
theorem CommitFrame.effects_length_mul_le (c : CommitFrame) :
    20 * c.effects.length ≤ c.payloadSize := by
  unfold CommitFrame.payloadSize
  induction c.effects with
  | nil => simp
  | cons e es ih =>
    simp only [List.length_cons, List.map_cons, List.sum_cons, Effect.size, effectHeader]
    omega

/-! ### Decoding -/

/-- One turn of the decoding loop: the effect at `offset` and the payload behind it. -/
def decodeEffect (limits : Limits) (offset : Nat) (rest : Bytes) :
    Except Error (Effect × Bytes) :=
  let kind := uint (slice rest 0 1)
  let flags := uint (slice rest 1 2)
  let keyLength := uint (slice rest 4 8)
  let valueLength := uint (slice rest 8 12)
  let expiryNanos := int64 (uint (slice rest 12 20))
  let remaining := rest.length - effectHeader
  let key := slice rest effectHeader (effectHeader + keyLength)
  let value := slice rest (effectHeader + keyLength) (effectHeader + keyLength + valueLength)
  let behind := rest.drop (effectHeader + keyLength + valueLength)
  if rest.length < effectHeader then
    .error (corruptWAL "mutation header exceeds the payload" [] offset none)
  else if 1 < flags ∨ ¬ allZero (slice rest 2 4) then
    .error (corruptWAL "mutation flags or reserved bytes are invalid" [] offset none)
  else if limits.maxKeyBytes < keyLength ∨ limits.maxValueBytes < valueLength
      ∨ remaining < keyLength ∨ remaining - keyLength < valueLength then
    .error (corruptWAL "mutation key/value lengths exceed bounds" [] (offset + effectHeader) none)
  else if key = [] ∨ ¬ validUtf8 key then
    .error (corruptWAL "mutation key is empty or invalid UTF-8" [] (offset + effectHeader) none)
  else if kind = 1 then
    if flags = 1 then .ok (⟨.put, key, value, some expiryNanos⟩, behind)
    else if expiryNanos ≠ 0 then
      .error (corruptWAL "put expiry value is nonzero without its flag" []
        (offset + effectHeader) none)
    else .ok (⟨.put, key, value, none⟩, behind)
  else if kind = 2 ∨ kind = 3 then
    if valueLength ≠ 0 ∨ flags ≠ 0 ∨ expiryNanos ≠ 0 then
      .error (corruptWAL "delete/expire carries a value or expiry" [] (offset + effectHeader) none)
    else .ok (⟨if kind = 2 then .delete else .expire, key, [], none⟩, behind)
  else .error (corruptWAL "mutation kind is unknown" [] (offset + effectHeader) none)

def decodeEffects (limits : Limits) (payloadEnd : Nat) :
    Nat → Bytes → Except Error (List Effect × Bytes)
  | 0, rest => .ok ([], rest)
  | count + 1, rest =>
    match decodeEffect limits (payloadEnd - rest.length) rest with
    | .error e => .error e
    | .ok (effect, behind) =>
      match decodeEffects limits payloadEnd count behind with
      | .error e => .error e
      | .ok (effects, behind) => .ok (effect :: effects, behind)

def decodeCommitFrame (encoded : Bytes) (limits : Limits) : Except Error CommitFrame :=
  let version := uint (slice encoded 4 6)
  let total := uint (slice encoded 8 12)
  let payloadLength := uint (slice encoded 24 28)
  let count := uint (slice encoded 20 24)
  let payloadEnd := encoded.length - frameTrailer
  if encoded.length < frameHeaderSize + frameTrailer then
    .error (corruptWAL "commit frame is shorter than its fixed fields" [] 0 none)
  else if slice encoded 0 4 ≠ frameMagic then
    .error (corruptWAL "commit magic does not match CMIT" [] 0 none)
  else if version ≠ storageVersion then .error (unknownStorageFormat (ascii "WAL") version)
  else if uint (slice encoded 6 8) ≠ 0 then
    .error (corruptWAL "commit flags are nonzero" [] 0 none)
  else if total ≠ encoded.length ∨ total ≠ frameHeaderSize + frameTrailer + payloadLength
      ∨ limits.commitBytes < total then
    .error (corruptWAL "commit frame lengths are inconsistent or exceed limits" [] 0 none)
  else if count = 0 ∨ limits.maxBatchOperations < count ∨ payloadLength / effectHeader < count then
    .error (corruptWAL "mutation count is outside limits or impossible for payload" [] 0 none)
  else if crc32c (slice encoded 0 payloadEnd) ≠ uint (slice encoded payloadEnd encoded.length) then
    .error (corruptWAL "commit frame CRC32C mismatch" [] 0 none)
  else
    match decodeEffects limits payloadEnd count (slice encoded frameHeaderSize payloadEnd) with
    | .error e => .error e
    | .ok (effects, behind) =>
      let commit : CommitFrame := ⟨uint (slice encoded 12 20), effects⟩
      if behind ≠ [] then
        .error (corruptWAL "mutation payload has trailing bytes" [] (payloadEnd - behind.length)
          none)
      else match validateCommit commit limits with
        | .error _ => .error (corruptWAL "decoded commit violates mutation invariants" [] 0 none)
        | .ok () => .ok commit

theorem int64_int64Bits {t : Time} (h : unixNanoRepresentable t) :
    int64 (int64Bits (unixNano t)) = t :=
  bmod_toNat_emod (Nat.two_pow_pos 64) (beq_iff_eq.mp h)

theorem int64_zero : int64 0 = 0 := Int.zero_bmod

theorem int64Bits_lt (i : Int) : int64Bits i < 256 ^ 8 := by
  have h := Int.emod_lt_of_pos i (b := (2 ^ 64 : Nat)) (by simp)
  have h₀ : 0 ≤ i % (2 ^ 64 : Nat) := Int.emod_nonneg _ (by simp)
  simp only [int64Bits]
  omega

theorem expiryFlag_le (expiresAt : Option Time) : expiryFlag expiresAt ≤ 1 := by
  unfold expiryFlag
  split <;> decide

theorem expiryWord_lt (expiresAt : Option Time) : expiryWord expiresAt < 256 ^ 8 := by
  cases expiresAt with
  | none => decide
  | some t => exact int64Bits_lt _

/-- What stands at the front of an encoded effect. -/
theorem encodeEffect_prefix_iff {bs : Bytes} : encodeEffect e <+: bs ↔
    slice bs 0 1 = putUint 1 e.kind.byte ∧ slice bs 1 2 = putUint 1 (expiryFlag e.expiresAt) ∧
      slice bs 2 4 = putUint 2 0 ∧ slice bs 4 8 = putUint 4 e.key.length ∧
      slice bs 8 12 = putUint 4 e.value.length ∧
      slice bs 12 20 = putUint 8 (expiryWord e.expiresAt) ∧
      slice bs 20 (20 + e.key.length) = e.key ∧
      slice bs (20 + e.key.length) (20 + e.key.length + e.value.length) = e.value := by
  have h := @carries_iff bs 0 [putUint 1 e.kind.byte, putUint 1 (expiryFlag e.expiresAt),
    putUint 2 0, putUint 4 e.key.length, putUint 4 e.value.length,
    putUint 8 (expiryWord e.expiresAt), e.key, e.value]
  simpa [Carries, encodeEffect, effectFixed] using h.symm

theorem decodeEffect_encodeEffect (h : e.Valid limits)
    (hword : e.size < 2 ^ 32) (offset : Nat) (behind : Bytes) :
    decodeEffect limits offset (encodeEffect e ++ behind) = .ok (e, behind) := by
  have hkey := h.length
  have hvalue := h.value_length_le
  have hbyte : e.kind.byte < 256 ^ 1 := by cases e.kind <;> decide
  have hflag := expiryFlag_le e.expiresAt
  have hlength := encodeEffect_length e
  have hbehind : (encodeEffect e ++ behind).drop (20 + e.key.length + e.value.length) = behind :=
    List.drop_left' hlength
  simp only [Effect.size, effectHeader] at hword hlength
  obtain ⟨hkind, hflags, hreserved, hkeyLength, hvalueLength, hexpiry, hkeyAt, hvalueAt⟩ :=
    encodeEffect_prefix_iff.mp (List.prefix_append (encodeEffect e) behind)
  simp only [decodeEffect, effectHeader, List.length_append, hlength, hkind, hflags, hreserved,
    hkeyLength, hvalueLength, hexpiry, uint_putUint hbyte,
    uint_putUint (show expiryFlag e.expiresAt < 256 ^ 1 by omega),
    uint_putUint (show e.key.length < 256 ^ 4 by omega),
    uint_putUint (show e.value.length < 256 ^ 4 by omega), uint_putUint (expiryWord_lt _),
    hkeyAt, hvalueAt, hbehind, allZero_putUint]
  rw [if_neg (by omega), if_neg (by simpa using hflag), if_neg (by omega),
    if_neg (by simp [h.nonempty, h.utf8])]
  obtain ⟨kind, key, value, expiresAt⟩ := e
  have hpayload := h.payload
  cases kind with
  | put =>
    cases expiresAt with
    | none => simp [ChangeKind.byte, expiryFlag, expiryWord, int64_zero]
    | some t =>
      have ht := int64_int64Bits (hpayload.2 t rfl)
      simp [ChangeKind.byte, expiryFlag, expiryWord, ht]
  | delete | expire =>
    obtain ⟨hv, ht⟩ := hpayload
    simp only at hv ht
    subst hv ht
    simp [ChangeKind.byte, expiryFlag, expiryWord, int64_zero]

theorem decodeEffects_flatMap
    (h : ∀ e ∈ es, e.Valid limits) (hword : ∀ e ∈ es, e.size < 2 ^ 32) (payloadEnd : Nat)
    (behind : Bytes) :
    decodeEffects limits payloadEnd es.length (es.flatMap encodeEffect ++ behind)
      = .ok (es, behind) := by
  induction es with
  | nil => rfl
  | cons e es ih =>
    rw [List.forall_mem_cons] at h hword
    rw [List.length_cons, decodeEffects, List.flatMap_cons, List.append_assoc,
      decodeEffect_encodeEffect h.1 hword.1]
    simp only [ih h.2 hword.2]

/-- What the decoder and the scanner read from an encoded frame. -/
structure FrameFields (c : CommitFrame) (bs : Bytes) : Prop where
  length : bs.length = c.size
  magic : slice bs 0 4 = frameMagic
  version : uint (slice bs 4 6) = storageVersion
  flags : uint (slice bs 6 8) = 0
  total : uint (slice bs 8 12) = c.size
  revision : uint (slice bs 12 20) = c.revision
  count : uint (slice bs 20 24) = c.effects.length
  payloadLength : uint (slice bs 24 28) = c.payloadSize
  payload : slice bs frameHeaderSize (c.size - frameTrailer) = c.effects.flatMap encodeEffect
  crc : crc32c (slice bs 0 (c.size - frameTrailer))
    = uint (slice bs (c.size - frameTrailer) c.size)

theorem frameBody_prefix_iff {bs : Bytes} {total payloadLength : Nat} :
    frameBody c total payloadLength <+: bs ↔
      slice bs 0 4 = frameMagic ∧ slice bs 4 6 = putUint 2 storageVersion ∧
        slice bs 6 8 = putUint 2 0 ∧ slice bs 8 12 = putUint 4 total ∧
        slice bs 12 20 = putUint 8 c.revision ∧ slice bs 20 24 = putUint 4 c.effects.length ∧
        slice bs 24 28 = putUint 4 payloadLength ∧
        slice bs 28 (28 + c.payloadSize) = c.effects.flatMap encodeEffect := by
  have hmagic : frameMagic.length = 4 := by decide
  have h := @carries_iff bs 0 [frameMagic, putUint 2 storageVersion, putUint 2 0, putUint 4 total,
    putUint 8 c.revision, putUint 4 c.effects.length, putUint 4 payloadLength,
    c.effects.flatMap encodeEffect]
  simp only [Carries, hmagic, putUint_length, flatMap_encodeEffect_length] at h
  simpa [frameBody, CommitFrame.payloadSize] using h.symm

theorem CommitFrame.Encodable.fields (h : c.Encodable limits) : FrameFields c c.bytes := by
  have hword := h.word
  have hcount := c.effects_length_mul_le
  have hfull : c.size = 32 + c.payloadSize := rfl
  have hend : c.size - frameTrailer = 28 + c.payloadSize := by rw [frameTrailer]; omega
  have hsealed : Sealed c.bytes := sealed_append_crc _
  rw [Sealed, c.bytes_length] at hsealed
  obtain ⟨hmagic, hversion, hflags, htotal, hrevision, hcountAt, hpayloadLength, hpayload⟩ :=
    frameBody_prefix_iff.mp (List.prefix_append (frameBody c c.size c.payloadSize)
      (putUint 4 (crc32c (frameBody c c.size c.payloadSize))))
  rw [← CommitFrame.bytes] at *
  exact
    { length := c.bytes_length, magic := hmagic, payload := hend ▸ hpayload, crc := hsealed
      version := by rw [hversion, uint_putUint (by decide)]
      flags := by rw [hflags, uint_putUint (by decide)]
      total := by rw [htotal, uint_putUint (by omega)]
      revision := by rw [hrevision, uint_putUint h.revision]
      count := by rw [hcountAt, uint_putUint (by omega)]
      payloadLength := by rw [hpayloadLength, uint_putUint (by omega)] }

theorem CommitFrame.Encodable.effect_size_lt (h : c.Encodable limits) :
    ∀ e ∈ c.effects, e.size < 2 ^ 32 := by
  intro e he
  have hword := h.word
  have hle : e.size ≤ c.payloadSize := List.le_sum_of_mem (List.mem_map_of_mem he)
  rw [show c.size = 32 + c.payloadSize from rfl] at hword
  omega

/-- Decoding an encoded commit gives the commit back. -/
theorem decodeCommitFrame_bytes (h : c.Encodable limits) :
    decodeCommitFrame c.bytes limits = .ok c := by
  have f := h.fields
  have hfull : c.size = 32 + c.payloadSize := rfl
  have hcount : ¬ (c.effects.length = 0 ∨ limits.maxBatchOperations < c.effects.length ∨
      c.payloadSize / effectHeader < c.effects.length) := by
    have hfit := c.effects_length_mul_le
    have hne := List.length_pos_iff.mpr h.valid.nonempty
    have hops := h.valid.operations
    simp only [effectHeader]
    omega
  have hlengths : ¬ (c.size ≠ c.size ∨ c.size ≠ frameHeaderSize + frameTrailer + c.payloadSize ∨
      limits.commitBytes < c.size) := by
    have hsize := h.size
    simp only [frameHeaderSize, frameTrailer]
    omega
  have hlong : ¬ c.size < frameHeaderSize + frameTrailer := by
    simp only [frameHeaderSize, frameTrailer]
    omega
  have hpayload := decodeEffects_flatMap h.valid.effects h.effect_size_lt (c.size - frameTrailer) []
  rw [List.append_nil] at hpayload
  simp only [decodeCommitFrame, f.length, f.magic, f.version, f.flags, f.total, f.revision,
    f.count, f.payloadLength]
  rw [if_neg hlong, if_neg (by simp), if_neg (by simp), if_neg (by simp), if_neg hlengths,
    if_neg hcount, if_neg (not_not.mpr f.crc)]
  rw [f.payload, hpayload]
  simp [validateCommit_eq_ok.mpr h.valid]

/-! ### What an accepted frame consists of -/

theorem unixNano_int64 (bits : Nat) : unixNano (int64 bits) = int64 bits := Int.bmod_bmod ..

theorem int64Bits_int64 {bits : Nat} (h : bits < 2 ^ 64) :
    int64Bits (unixNano (int64 bits)) = bits := by
  have hemod : int64 bits % ((2 ^ 64 : Nat) : Int) = (bits : Int) % ((2 ^ 64 : Nat) : Int) :=
    Int.bmod_emod ..
  rw [unixNano_int64, int64Bits, hemod, ← Int.natCast_emod, Int.toNat_natCast,
    Nat.mod_eq_of_lt h]

theorem unixNanoRepresentable_int64 (bits : Nat) : unixNanoRepresentable (int64 bits) = true := by
  rw [unixNanoRepresentable, unixNano_int64, beq_self_eq_true]

theorem eq_zero_of_int64_eq_zero {bits : Nat} (h : bits < 2 ^ 64) (hzero : int64 bits = 0) :
    bits = 0 := by
  have hbits := int64Bits_int64 h
  rw [hzero] at hbits
  exact hbits.symm

/-- The decoder takes nothing but the encoding of the effect it returns. -/
theorem decodeEffect_eq_ok {offset : Nat} {behind : Bytes}
    (h : decodeEffect limits offset rest = .ok (e, behind)) :
    rest = encodeEffect e ++ behind := by
  simp only [decodeEffect, ite_error_eq_ok] at h
  obtain ⟨hlong, hflags, hlengths, -, h⟩ := h
  simp only [effectHeader] at hlong hlengths h
  push Not at hlong hflags hlengths
  obtain ⟨hflag, hreserved⟩ := hflags
  obtain ⟨-, -, hkeyLength, hvalueLength⟩ := hlengths
  have hexpiryWord : uint (slice rest 12 20) < 2 ^ 64 := uint_slice_lt rest 8 (by omega) rfl
  generalize hk : uint (slice rest 4 8) = keyLength at *
  generalize hv : uint (slice rest 8 12) = valueLength at *
  have hkey : (slice rest 20 (20 + keyLength)).length = keyLength := by
    rw [slice_length _ _ _ (by omega)]
    omega
  have hvalue : (slice rest (20 + keyLength) (20 + keyLength + valueLength)).length
      = valueLength := by
    rw [slice_length _ _ _ (by omega)]
    omega
  generalize hkeyAt : slice rest 20 (20 + keyLength) = key at *
  generalize hvalueAt : slice rest (20 + keyLength) (20 + keyLength + valueLength) = value at *
  subst hkey hvalue
  -- in every accepted case the words of the fixed part are those of the effect
  have hencodes : ∀ kind expiresAt, uint (slice rest 0 1) = kind.byte →
      uint (slice rest 1 2) = expiryFlag expiresAt →
      uint (slice rest 12 20) = expiryWord expiresAt →
      rest = encodeEffect ⟨kind, key, value, expiresAt⟩ ++
        rest.drop (20 + key.length + value.length) := by
    intro kind expiresAt hkind hset hexpiry
    have hparts : encodeEffect ⟨kind, key, value, expiresAt⟩ <+: rest :=
      encodeEffect_prefix_iff.mpr ⟨slice_eq_putUint (by omega) rfl hkind,
        slice_eq_putUint (by omega) rfl hset, slice_eq_zeros (by omega) rfl hreserved,
        slice_eq_putUint (by omega) rfl hk, slice_eq_putUint (by omega) rfl hv,
        slice_eq_putUint (by omega) rfl hexpiry, hkeyAt, hvalueAt⟩
    rw [List.prefix_iff_eq_append, encodeEffect_length] at hparts
    exact hparts.symm
  split at h
  · next hkind =>
    split at h
    · next hset =>
      obtain ⟨rfl, rfl⟩ := Prod.mk.inj (Except.ok.inj h)
      refine hencodes .put (some _) hkind hset ?_
      rw [expiryWord, Option.map_some, Option.getD_some, int64Bits_int64 hexpiryWord]
    · next hunset =>
      rw [ite_error_eq_ok, not_not, Except.ok.injEq, Prod.mk.injEq] at h
      obtain ⟨hzero, rfl, rfl⟩ := h
      refine hencodes .put none hkind ?_ (eq_zero_of_int64_eq_zero hexpiryWord hzero)
      change uint (slice rest 1 2) = 0
      omega
  · split at h
    · next hkind =>
      rw [ite_error_eq_ok, Except.ok.injEq, Prod.mk.injEq] at h
      obtain ⟨hbare, rfl, rfl⟩ := h
      push Not at hbare
      obtain ⟨hempty, hunset, hzero⟩ := hbare
      obtain rfl := List.length_eq_zero_iff.mp hempty
      refine hencodes _ none ?_ hunset (eq_zero_of_int64_eq_zero hexpiryWord hzero)
      rcases hkind with hdelete | hexpire
      · rw [if_pos hdelete, hdelete]
        rfl
      · rw [if_neg (by omega), hexpire]
        rfl
    · cases h

theorem decodeEffects_eq_ok {payloadEnd count : Nat} {behind : Bytes}
    (h : decodeEffects limits payloadEnd count rest = .ok (es, behind)) :
    es.length = count ∧ rest = es.flatMap encodeEffect ++ behind := by
  induction count generalizing rest es with
  | zero =>
    rw [decodeEffects, Except.ok.injEq, Prod.mk.injEq] at h
    obtain ⟨rfl, rfl⟩ := h
    exact ⟨rfl, rfl⟩
  | succ count ih =>
    rw [decodeEffects] at h
    split at h
    · cases h
    next e middle heffect =>
    split at h
    · cases h
    next es' behind' heffects =>
    simp only [Except.ok.injEq, Prod.mk.injEq] at h
    obtain ⟨rfl, rfl⟩ := h
    obtain ⟨hlength, hmiddle⟩ := ih heffects
    refine ⟨by rw [List.length_cons, hlength], ?_⟩
    rw [decodeEffect_eq_ok heffect, hmiddle, List.flatMap_cons, List.append_assoc]

/-- The decoder accepts exactly the encoding of what it returns. -/
theorem decodeCommitFrame_eq_ok {encoded : Bytes}
    (h : decodeCommitFrame encoded limits = .ok c) : c.Encodable limits ∧ encoded = c.bytes := by
  simp only [decodeCommitFrame, ite_error_eq_ok] at h
  obtain ⟨hlong, hmagic, hversion, hflags, hlengths, -, hcrc, h⟩ := h
  push Not at hlong hmagic hversion hflags hlengths hcrc
  have hlong' : 32 ≤ encoded.length := hlong
  obtain ⟨htotal, hpayload, hmaximum⟩ := hlengths
  rw [htotal] at hpayload hmaximum
  split at h
  · cases h
  next es behind heffects =>
  rw [ite_error_eq_ok, not_not] at h
  obtain ⟨rfl, h⟩ := h
  split at h
  · cases h
  next hvalidate =>
  rw [Except.ok.injEq] at h
  obtain ⟨hcount, heffects⟩ := decodeEffects_eq_ok heffects
  rw [List.append_nil] at heffects
  subst h
  have hend : encoded.length - frameTrailer = 28 + uint (slice encoded 24 28) := by
    simp only [frameHeaderSize, frameTrailer] at hpayload ⊢
    omega
  have hpayloadSize : (CommitFrame.mk (uint (slice encoded 12 20)) es).payloadSize
      = uint (slice encoded 24 28) := by
    have hlen := congrArg List.length heffects
    rw [flatMap_encodeEffect_length, slice_length _ _ _ (by omega), hend, frameHeaderSize] at hlen
    rw [CommitFrame.payloadSize, ← hlen]
    omega
  have hsize : (CommitFrame.mk (uint (slice encoded 12 20)) es).size = encoded.length := by
    rw [CommitFrame.size, hpayloadSize, hpayload]
  have hword : uint (slice encoded 8 12) < 2 ^ 32 := uint_slice_lt encoded 4 (by omega) rfl
  have hrevision : uint (slice encoded 12 20) < 2 ^ 64 := uint_slice_lt encoded 8 (by omega) rfl
  rw [htotal] at hword
  refine ⟨⟨validateCommit_eq_ok.mp hvalidate, hsize.trans_le hmaximum, hsize.trans_lt hword,
    hrevision⟩, ?_⟩
  -- the header fields, the payload and the checksum, in the order in which they were written
  refine eq_append_crc (frameBody_prefix_iff.mpr ⟨hmagic, slice_eq_putUint (by omega) rfl hversion,
    slice_eq_putUint (by omega) rfl hflags, ?_, slice_eq_word encoded 12 20 (by omega) rfl, ?_, ?_,
    ?_⟩) ?_ ?_
  · rw [hsize]
    exact slice_eq_putUint (by omega) rfl htotal
  · rw [hcount]
    exact slice_eq_word encoded 20 24 (by omega) rfl
  · rw [hpayloadSize]
    exact slice_eq_word encoded 24 28 (by omega) rfl
  · rw [hpayloadSize, ← hend]
    exact heffects
  · rw [frameBody_length, hpayloadSize, hpayload]
    simp only [frameHeaderSize, frameTrailer]
    omega
  · exact hcrc

/-- Commits and the frames that encode them determine each other. -/
theorem commitFrame_codec (limits : Limits) :
    (∀ (c : CommitFrame) (bs : Bytes), c.Representable → encodeCommitFrame c limits = .ok bs →
      decodeCommitFrame bs limits = .ok c) ∧
    (∀ (bs : Bytes) (c : CommitFrame), decodeCommitFrame bs limits = .ok c →
      encodeCommitFrame c limits = .ok bs) ∧
    ∀ (bs bs' : Bytes) (c : CommitFrame), decodeCommitFrame bs limits = .ok c →
      decodeCommitFrame bs' limits = .ok c → bs = bs' := by
  refine ⟨fun c bs hc h => ?_, fun bs c h => ?_, fun bs bs' c h h' => ?_⟩
  · obtain ⟨hvalid, hsize, hword, rfl⟩ := (encodeCommitFrame_eq_ok_iff hc.size).mp h
    exact decodeCommitFrame_bytes ⟨hvalid, hsize, hword, hc.revision⟩
  · obtain ⟨hfits, rfl⟩ := decodeCommitFrame_eq_ok h
    have hword := hfits.word
    exact (encodeCommitFrame_eq_ok_iff (by omega)).mpr ⟨hfits.valid, hfits.size, hword, rfl⟩
  · rw [(decodeCommitFrame_eq_ok h).2, (decodeCommitFrame_eq_ok h').2]

/-- A commit with a put and a removal. -/
def pairCommit : CommitFrame := ⟨7, [⟨.put, [97], [1, 2], none⟩, ⟨.delete, [98], [], none⟩]⟩

theorem commitFrame_codec_pairCommit :
    pairCommit.Representable ∧
      encodeCommitFrame pairCommit defaultLimits = .ok pairCommit.bytes ∧
      decodeCommitFrame pairCommit.bytes defaultLimits = .ok pairCommit := by
  have hc : pairCommit.Representable := ⟨by decide, by decide⟩
  have hencode : encodeCommitFrame pairCommit defaultLimits = .ok pairCommit.bytes :=
    (encodeCommitFrame_eq_ok_iff hc.size).mpr
      ⟨validateCommit_eq_ok.mp (by decide +kernel), by decide, by decide, rfl⟩
  exact ⟨hc, hencode, (commitFrame_codec defaultLimits).1 _ _ hc hencode⟩

end GapDB
