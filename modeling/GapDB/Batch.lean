import GapDB.Options
import Mathlib.Data.List.Nodup

/-!
# Admission of a batch

The validators of `gapdb/types.go` and `engine/mutation.go`, and the declarative reading of
what they accept.
-/

namespace GapDB

open Storelib

variable {limits : Limits}

def maxDiagnosticKeyBytes : Nat := 256

def batchBaseBytes : Nat := 32

def batchOperationBytes : Nat := 20

def AckMode.valid (ack : AckMode) : Bool := ack == .memory || ack == .durable

/-- The longest valid prefix of at most `end_` bytes. -/
def validPrefixEnd (key : Key) : Nat → Nat
  | 0 => 0
  | end_ + 1 => if validUtf8 (key.take (end_ + 1)) then end_ + 1 else validPrefixEnd key end_

def diagnosticKey (key : Key) : Key :=
  if key.length ≤ maxDiagnosticKeyBytes then key
  else key.take (validPrefixEnd key maxDiagnosticKeyBytes)

def validateKey (key : Key) (limits : Limits) : Except Error Unit :=
  if key = [] then .error (invalidField "key" "must not be empty")
  else if ¬ validUtf8 key then .error (invalidField "key" "must be valid UTF-8")
  else if limits.maxKeyBytes < key.length then
    .error { code := .keyTooLarge, message := "Key exceeds the configured limit.",
             retry := .never, field := "key", receivedBytes := key.length,
             maximumBytes := limits.maxKeyBytes, safeActions := [.reduceKey, .abort] }
  else .ok ()

def Condition.validate (c : Condition) : Except Error Unit :=
  match c.kind with
  | .any | .absent =>
    if c.expectedRevision ≠ 0 then
      .error (invalidField "condition.expected_revision" "is valid only for revision conditions")
    else .ok ()
  | .revision =>
    if c.expectedRevision = 0 then
      .error (invalidField "condition.expected_revision" "must be greater than zero")
    else .ok ()
  | .unknown => .error (invalidField "condition.kind" "must be any, absent, or revision")

def Assertion.validate (a : Assertion) (limits : Limits) : Except Error Unit :=
  andThen (validateKey a.key limits) <|
  match a.condition.kind with
  | .absent =>
    if a.condition.expectedRevision ≠ 0 then
      .error (invalidField "condition.expected_revision" "is valid only for revision assertions")
    else .ok ()
  | .revision =>
    if a.condition.expectedRevision = 0 then
      .error (invalidField "condition.expected_revision" "must be greater than zero")
    else .ok ()
  | .any | .unknown =>
    .error (invalidField "condition.kind" "assertions require absent or revision")

def valueTooLarge (received maximum : Nat) : Error :=
  { code := .valueTooLarge, message := "Value exceeds the configured limit.", retry := .never,
    field := "value_base64", receivedBytes := received, maximumBytes := maximum,
    safeActions := [.reduceValue, .abort] }

def Mutation.validatePayload (m : Mutation) (limits : Limits) : Except Error Unit :=
  match m.kind with
  | .put =>
    if limits.maxValueBytes < m.valueBytes.length then
      .error (valueTooLarge m.valueBytes.length limits.maxValueBytes)
    else .ok ()
  | .delete =>
    if m.condition.kind ≠ .revision then
      .error (invalidField "condition.kind" "delete requires a revision condition")
    else if m.value ≠ none ∨ m.expiresAt ≠ none then
      .error (invalidField "mutation" "delete cannot carry a value or expiry")
    else .ok ()
  | .unknown => .error (invalidField "mutation.kind" "must be put or delete")

def Mutation.validate (m : Mutation) (limits : Limits) : Except Error Unit :=
  andThen (validateKey m.key limits) <| andThen m.condition.validate <|
    m.validatePayload limits

def expiryNotFuture (expiresAt effectiveNow : Time) : Error :=
  { code := .expiryNotFuture, message := "Expiry must be later than the effective current time.",
    retry := .afterReconcile, suppliedExpiry := some expiresAt,
    effectiveTime := some effectiveNow, safeActions := [.chooseFutureExpiry, .abort] }

def Mutation.validateAt (m : Mutation) (limits : Limits) (effectiveNow : Time) :
    Except Error Unit :=
  andThen (m.validate limits) <|
  match m.expiresAt with
  | some expiresAt =>
    if ¬ effectiveNow < expiresAt then .error (expiryNotFuture expiresAt effectiveNow)
    else .ok ()
  | none => .ok ()

structure BatchKey where
  assertion : Bool
  index : Nat

def batchBytesError (received maximum : Nat) : Error :=
  { code := .batchTooLarge, message := "Batch exceeds the configured byte limit.",
    retry := .never, receivedBytes := received, maximumBytes := maximum,
    safeActions := [.splitBatch, .abort] }

def duplicateKey (key : Key) : Error :=
  { code := .duplicateKey, message := "A key occurs more than once in the batch.",
    retry := .never, key := diagnosticKey key, safeActions := [.deduplicateBatch, .abort] }

/-- One turn of the admission loops: what a listed operation contributes. -/
structure Entry where
  key : Key
  origin : BatchKey
  duplicate : BatchKey → Error
  check : Except Error Unit
  addition : Nat

def Assertion.entry (limits : Limits) (i : Nat) (a : Assertion) : Entry where
  key := a.key
  origin := ⟨true, i⟩
  duplicate first :=
    { duplicateKey a.key with
      assertionIndex := some i
      mutationIndex := if first.assertion then none else some first.index }
  check := a.validate limits
  addition := batchOperationBytes + a.key.length

def Mutation.entry (limits : Limits) (i : Nat) (m : Mutation) : Entry where
  key := m.key
  origin := ⟨false, i⟩
  duplicate first :=
    { duplicateKey m.key with
      mutationIndex := some i
      assertionIndex := if first.assertion then some first.index else none
      mutationIndexes := if first.assertion then [] else [first.index, i] }
  check := m.validate limits
  addition := batchOperationBytes + m.key.length + m.valueBytes.length

def admitEntries (limits : Limits) : List (Key × BatchKey) → Nat → List Entry → Except Error Unit
  | _, _, [] => .ok ()
  | seen, approximateBytes, e :: es =>
    match seen.lookup e.key with
    | some first => .error (e.duplicate first)
    | none =>
      andThen e.check <|
      if limits.maxBatchBytes < approximateBytes
          ∨ limits.maxBatchBytes - approximateBytes < e.addition then
        .error (batchBytesError (approximateBytes + e.addition) limits.maxBatchBytes)
      else admitEntries limits ((e.key, e.origin) :: seen) (approximateBytes + e.addition) es

/-- The assertion loop followed by the mutation loop. -/
def Batch.entries (b : Batch) (limits : Limits) : List Entry :=
  b.assertions.mapIdx (Assertion.entry limits) ++ b.mutations.mapIdx (Mutation.entry limits)

def Batch.validate (b : Batch) (limits : Limits) : Except Error Unit :=
  let operationCount := b.assertions.length + b.mutations.length
  if ¬ b.ack.valid then .error (invalidField "ack" "must be memory or durable")
  else if b.mutations.length = 0 then
    .error (invalidField "mutations" "must contain at least one mutation")
  else if operationCount < b.assertions.length ∨ limits.maxBatchOperations < operationCount then
    .error { code := .batchTooLarge, message := "Batch exceeds the configured operation limit.",
             retry := .never, receivedOperations := operationCount,
             maximumOperations := limits.maxBatchOperations, safeActions := [.splitBatch, .abort] }
  else admitEntries limits [] batchBaseBytes (b.entries limits)

def Batch.validateAt (b : Batch) (limits : Limits) (effectiveNow : Time) : Except Error Unit :=
  andThen (b.validate limits) <|
    checkAll (fun m => Mutation.validateAt m limits effectiveNow) b.mutations

/-- The loop of `validateBatchAt`: the encoded size of the mutations, from `total` on. -/
def encodedBytes (maximum : Nat) : Nat → List Mutation → Except Error Nat
  | total, [] => .ok total
  | total, m :: ms =>
    let addition := 20 + m.key.length + m.valueBytes.length
    if ¬ m.expiresAt.all unixNanoRepresentable then
      .error (invalidField "expires_at" "must be representable as signed Unix nanoseconds")
    else if maxUint64 - total < addition then .error (batchBytesError maxInt maximum)
    else encodedBytes maximum (total + addition) ms

def validateBatchAt (batch : Batch) (limits : Limits) (now : Time) : Except Error Unit :=
  andThen (batch.validateAt limits now) <|
  let maximum := limits.commitBytes
  match encodedBytes maximum 32 batch.mutations with
  | .error e => .error e
  | .ok total =>
    if maximum < total ∨ maxUint32 < total then
      .error (batchBytesError (if maxInt < total then maxInt else total) maximum)
    else .ok ()

/-! ### What the validators accept -/

structure ValidKey (limits : Limits) (key : Key) : Prop where
  nonempty : key ≠ []
  utf8 : validUtf8 key
  length : key.length ≤ limits.maxKeyBytes

theorem validateKey_eq_ok {key : Key} : validateKey key limits = .ok () ↔ ValidKey limits key := by
  simp only [validateKey, ite_error_eq_ok, and_true, not_not, not_lt]
  exact ⟨fun ⟨h₁, h₂, h₃⟩ => ⟨h₁, h₂, h₃⟩, fun ⟨h₁, h₂, h₃⟩ => ⟨h₁, h₂, h₃⟩⟩

/-- A revision condition names a revision; the others name none. -/
def Condition.Valid (c : Condition) : Prop :=
  match c.kind with
  | .any | .absent => c.expectedRevision = 0
  | .revision => c.expectedRevision ≠ 0
  | .unknown => False

theorem Condition.validate_eq_ok {c : Condition} : c.validate = .ok () ↔ c.Valid := by
  obtain ⟨kind, expected⟩ := c
  cases kind <;> simp [Condition.validate, Condition.Valid]

structure Assertion.Valid (limits : Limits) (a : Assertion) : Prop where
  key : ValidKey limits a.key
  condition : a.condition.Valid
  notAny : a.condition.kind ≠ .any

theorem Assertion.validate_eq_ok {a : Assertion} : a.validate limits = .ok () ↔ a.Valid limits := by
  obtain ⟨key, kind, expected⟩ := a
  rw [Assertion.validate, andThen_eq_ok, validateKey_eq_ok]
  constructor
  · rintro ⟨hkey, h⟩
    refine ⟨hkey, ?_, ?_⟩ <;> cases kind <;> simp_all [Condition.Valid]
  · rintro ⟨hkey, hcondition, hany⟩
    refine ⟨hkey, ?_⟩
    cases kind <;> simp_all [Condition.Valid]

/-- A put carries a value within bounds; a delete names a revision and carries nothing. -/
def Mutation.Payload (limits : Limits) (m : Mutation) : Prop :=
  match m.kind with
  | .put => m.valueBytes.length ≤ limits.maxValueBytes
  | .delete => m.condition.kind = .revision ∧ m.value = none ∧ m.expiresAt = none
  | .unknown => False

structure Mutation.Valid (limits : Limits) (m : Mutation) : Prop where
  key : ValidKey limits m.key
  condition : m.condition.Valid
  payload : m.Payload limits

theorem Mutation.validatePayload_eq_ok {m : Mutation} :
    m.validatePayload limits = .ok () ↔ m.Payload limits := by
  cases hk : m.kind with
  | put => simp only [Mutation.validatePayload, Mutation.Payload, hk, ite_error_eq_ok, not_lt,
      and_true]
  | delete =>
    simp only [Mutation.validatePayload, Mutation.Payload, hk, ite_error_eq_ok, not_not, not_or,
      and_true]
  | unknown => simp [Mutation.validatePayload, Mutation.Payload, hk]

theorem Mutation.validate_eq_ok {m : Mutation} : m.validate limits = .ok () ↔ m.Valid limits := by
  simp only [Mutation.validate, andThen_eq_ok, validateKey_eq_ok, Condition.validate_eq_ok,
    validatePayload_eq_ok]
  exact ⟨fun ⟨h₁, h₂, h₃⟩ => ⟨h₁, h₂, h₃⟩, fun ⟨h₁, h₂, h₃⟩ => ⟨h₁, h₂, h₃⟩⟩

/-- The size a mutation is charged with. -/
def Mutation.bytes (m : Mutation) : Nat := 20 + m.key.length + m.valueBytes.length

def Assertion.bytes (a : Assertion) : Nat := 20 + a.key.length

/-- What it means for a batch to be valid at an effective time. -/
structure Batch.Valid (limits : Limits) (now : Time) (b : Batch) : Prop where
  ack : b.ack ≠ .unknown
  nonempty : b.mutations ≠ []
  operations : b.assertions.length + b.mutations.length ≤ limits.maxBatchOperations
  distinct : (b.assertions.map Assertion.key ++ b.mutations.map Mutation.key).Nodup
  assertions : ∀ a ∈ b.assertions, a.Valid limits
  mutations : ∀ m ∈ b.mutations, m.Valid limits
  bytes : 32 + (b.assertions.map Assertion.bytes).sum + (b.mutations.map Mutation.bytes).sum
    ≤ limits.maxBatchBytes
  future : ∀ m ∈ b.mutations, ∀ t ∈ m.expiresAt, now < t ∧ unixNanoRepresentable t

theorem admitEntries_eq_ok {seen : List (Key × BatchKey)} {n : Nat} {es : List Entry} :
    admitEntries limits seen n es = .ok () ↔
      (es.map Entry.key).Nodup ∧ (∀ e ∈ es, e.key ∉ seen.map Prod.fst) ∧
      (∀ e ∈ es, e.check = .ok ()) ∧
      (es = [] ∨ n + (es.map Entry.addition).sum ≤ limits.maxBatchBytes) := by
  induction es generalizing seen n with
  | nil => simp [admitEntries]
  | cons e es ih =>
    rw [admitEntries]
    cases hseen : seen.lookup e.key with
    | some first =>
      have hmem : e.key ∈ seen.map Prod.fst := lookup_isSome_iff_mem.mp (by simp [hseen])
      simp only [List.forall_mem_cons]
      exact iff_of_false (by simp) fun h => h.2.1.1 hmem
    | none =>
      have hmem : e.key ∉ seen.map Prod.fst := fun h => by
        simpa [hseen] using lookup_isSome_iff_mem.mpr h
      simp only [andThen_eq_ok, ite_error_eq_ok, ih, List.map_cons, List.nodup_cons,
        List.mem_cons, not_or, List.sum_cons, forall_eq_or_imp]
      constructor
      · rintro ⟨hcheck, hfit, hnodup, hfresh, hchecks, hbytes⟩
        refine ⟨⟨?_, hnodup⟩, ⟨hmem, fun x hx => (hfresh x hx).2⟩, ⟨hcheck, hchecks⟩, .inr ?_⟩
        · intro h
          obtain ⟨x, hx, hkey⟩ := List.mem_map.mp h
          exact (hfresh x hx).1 hkey
        · rcases hbytes with rfl | hbytes
          · simp only [List.map_nil, List.sum_nil]
            omega
          · omega
      · rintro ⟨⟨hhead, hnodup⟩, ⟨_, hfresh⟩, ⟨hcheck, hchecks⟩, hbytes⟩
        have hbytes := hbytes.resolve_left (by simp)
        refine ⟨hcheck, by omega, hnodup, fun x hx => ⟨?_, hfresh x hx⟩, hchecks, .inr (by omega)⟩
        exact fun h => hhead (List.mem_map.mpr ⟨x, hx, h⟩)

theorem Batch.entries_map {γ : Type*} (b : Batch) (limits : Limits) (g : Entry → γ)
    (onAssertion : Assertion → γ) (onMutation : Mutation → γ)
    (ha : ∀ i a, g (Assertion.entry limits i a) = onAssertion a)
    (hm : ∀ i m, g (Mutation.entry limits i m) = onMutation m) :
    (b.entries limits).map g = b.assertions.map onAssertion ++ b.mutations.map onMutation := by
  rw [Batch.entries, List.map_append, map_mapIdx ha, map_mapIdx hm]

theorem Batch.validate_eq_ok {b : Batch} : b.validate limits = .ok () ↔
      b.ack ≠ .unknown ∧ b.mutations ≠ [] ∧
      b.assertions.length + b.mutations.length ≤ limits.maxBatchOperations ∧
      (b.assertions.map Assertion.key ++ b.mutations.map Mutation.key).Nodup ∧
      (∀ a ∈ b.assertions, a.Valid limits) ∧ (∀ m ∈ b.mutations, m.Valid limits) ∧
      32 + (b.assertions.map Assertion.bytes).sum + (b.mutations.map Mutation.bytes).sum
        ≤ limits.maxBatchBytes := by
  have hack : (¬ ¬ b.ack.valid = true) ↔ b.ack ≠ .unknown := by
    cases b.ack <;> decide
  have hkeys := b.entries_map limits Entry.key Assertion.key Mutation.key
    (fun _ _ => rfl) fun _ _ => rfl
  have hchecks := b.entries_map limits Entry.check (·.validate limits) (·.validate limits)
    (fun _ _ => rfl) fun _ _ => rfl
  have hbytes := b.entries_map limits Entry.addition Assertion.bytes Mutation.bytes
    (fun _ _ => rfl) fun _ _ => rfl
  have hcheck : (∀ e ∈ b.entries limits, e.check = .ok ()) ↔
      (∀ a ∈ b.assertions, a.Valid limits) ∧ ∀ m ∈ b.mutations, m.Valid limits := by
    calc (∀ e ∈ b.entries limits, e.check = .ok ())
        ↔ ∀ c ∈ (b.entries limits).map Entry.check, c = .ok () := by rw [List.forall_mem_map]
      _ ↔ _ := by
        rw [hchecks, List.forall_mem_append, List.forall_mem_map, List.forall_mem_map]
        simp only [Assertion.validate_eq_ok, Mutation.validate_eq_ok]
  have hnil : b.entries limits = [] → b.mutations = [] := by
    simp [Batch.entries]
  simp only [Batch.validate, ite_error_eq_ok, hack, admitEntries_eq_ok, hkeys, hcheck, hbytes,
    List.sum_append, List.map_nil, List.not_mem_nil, not_false_eq_true, implies_true, true_and,
    List.length_eq_zero_iff, batchBaseBytes]
  constructor
  · rintro ⟨h₁, h₂, h₃, h₄, ⟨h₅, h₆⟩, h₇⟩
    have h₇ := h₇.resolve_left fun h => h₂ (hnil h)
    exact ⟨h₁, h₂, by omega, h₄, h₅, h₆, by omega⟩
  · rintro ⟨h₁, h₂, h₃, h₄, h₅, h₆, h₇⟩
    exact ⟨h₁, h₂, by omega, h₄, ⟨h₅, h₆⟩, .inr (by omega)⟩

theorem encodedBytes_eq_ok {maximum total n : Nat} {ms : List Mutation} :
    encodedBytes maximum total ms = .ok n ↔
      (∀ m ∈ ms, ∀ t ∈ m.expiresAt, unixNanoRepresentable t) ∧
      (ms = [] ∨ total + (ms.map Mutation.bytes).sum ≤ maxUint64) ∧
      n = total + (ms.map Mutation.bytes).sum := by
  induction ms generalizing total with
  | nil =>
    simpa [encodedBytes] using eq_comm
  | cons m ms ih =>
    have hexpiry : (¬ ¬ m.expiresAt.all unixNanoRepresentable = true) ↔
        ∀ t ∈ m.expiresAt, unixNanoRepresentable t := by
      cases m.expiresAt <;> simp
    simp only [encodedBytes, ite_error_eq_ok, ih, hexpiry, List.forall_mem_cons, List.map_cons,
      List.sum_cons, Mutation.bytes]
    constructor
    · rintro ⟨hm, hfit, hms, hbytes, rfl⟩
      refine ⟨⟨hm, hms⟩, .inr ?_, by omega⟩
      rcases hbytes with rfl | hbytes
      · simp only [List.map_nil, List.sum_nil]
        omega
      · omega
    · rintro ⟨⟨hm, hms⟩, hbytes, rfl⟩
      have hbytes := hbytes.resolve_left (by simp)
      exact ⟨hm, by omega, hms, .inr (by omega), by omega⟩

theorem Batch.validateAt_eq_ok {b : Batch} {now : Time} : b.validateAt limits now = .ok () ↔
      b.validate limits = .ok () ∧ ∀ m ∈ b.mutations, ∀ t ∈ m.expiresAt, now < t := by
  have hm : ∀ m : Mutation, m.validateAt limits now = .ok () ↔
      m.validate limits = .ok () ∧ ∀ t ∈ m.expiresAt, now < t := by
    intro m
    rw [Mutation.validateAt, andThen_eq_ok]
    cases m.expiresAt <;> simp
  simp only [Batch.validateAt, andThen_eq_ok, checkAll_eq_ok, hm]
  constructor
  · exact fun ⟨hb, hms⟩ => ⟨hb, fun m hm => (hms m hm).2⟩
  · exact fun ⟨hb, hms⟩ => ⟨hb, fun m hm =>
      ⟨Mutation.validate_eq_ok.mpr ((Batch.validate_eq_ok.mp hb).2.2.2.2.2.1 m hm), hms m hm⟩⟩

/-- The validators accept exactly the valid batches. -/
theorem validateBatchAt_eq_ok {b : Batch} (hl : limits.Valid) {now : Time} :
    validateBatchAt b limits now = .ok () ↔ b.Valid limits now := by
  have hbatch := hl.batchBytes
  have hframe := hl.frameBytes
  constructor
  · intro h
    rw [validateBatchAt, andThen_eq_ok, Batch.validateAt_eq_ok, Batch.validate_eq_ok] at h
    obtain ⟨⟨⟨hack, hne, hops, hnodup, hassert, hmut, hbytes⟩, hfuture⟩, h⟩ := h
    refine ⟨hack, hne, hops, hnodup, hassert, hmut, hbytes, fun m hm t ht =>
      ⟨hfuture m hm t ht, ?_⟩⟩
    cases hn : encodedBytes limits.commitBytes 32 b.mutations with
    | error e => simp [hn] at h
    | ok n => exact (encodedBytes_eq_ok.mp hn).1 m hm t ht
  · intro h
    have hbytes := h.bytes
    have hn : encodedBytes limits.commitBytes 32 b.mutations
        = .ok (32 + (b.mutations.map Mutation.bytes).sum) :=
      encodedBytes_eq_ok.mpr ⟨fun m hm t ht => (h.future m hm t ht).2,
        .inr (by simp only [maxUint64]; omega), rfl⟩
    rw [validateBatchAt, andThen_eq_ok, Batch.validateAt_eq_ok, Batch.validate_eq_ok]
    refine ⟨⟨⟨h.ack, h.nonempty, h.operations, h.distinct, h.assertions, h.mutations, hbytes⟩,
      fun m hm t ht => (h.future m hm t ht).1⟩, ?_⟩
    dsimp only
    rw [hn]
    simp only [hl.commitBytes_eq, ite_error_eq_ok, and_true]
    simp only [maxUint32]
    omega

end GapDB
