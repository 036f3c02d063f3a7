import GapDB.Client.Responses
import GapDB.Engine.State
import GapDB.Server.Replies
import GapDB.Storelib.Utf8Text

/-!
# Diagnostics about assertions

The response for a batch whose assertion failed, or whose assertion repeats a key. The key that is
reported is cut at a character, every other part has a bounded size, and so the response stays below
the bound that both codecs put on it.
-/

namespace GapDB

open Storelib

/-! ### The reported key -/

/-- The longest valid text of at most `limit` bytes that a key begins with. -/
structure LongestValidPrefix (limit : Nat) (key reported : Bytes) : Prop where
  isPrefix : reported <+: key
  length_le : reported.length ≤ limit
  valid : validUtf8 reported = true
  longest : ∀ other, other <+: key → other.length ≤ limit → validUtf8 other = true →
    other.length ≤ reported.length

theorem validPrefixEnd_spec (key : Key) (limit : Nat) :
    validPrefixEnd key limit ≤ limit ∧ validUtf8 (key.take (validPrefixEnd key limit)) = true ∧
      ∀ m ≤ limit, validUtf8 (key.take m) = true → m ≤ validPrefixEnd key limit := by
  induction limit with
  | zero => exact ⟨le_rfl, rfl, fun m hm _ => hm⟩
  | succ limit ih =>
    rw [validPrefixEnd]
    split
    · next hvalid => exact ⟨le_rfl, hvalid, fun m hm _ => hm⟩
    · next hinvalid =>
      obtain ⟨hle, hvalid, hlongest⟩ := ih
      refine ⟨hle.trans (Nat.le_succ limit), hvalid, fun m hm hm' => ?_⟩
      rcases Nat.le_succ_iff.mp hm with hm | rfl
      · exact hlongest m hm hm'
      · exact absurd hm' hinvalid

theorem longestValidPrefix_diagnosticKey {key : Key} (hkey : validUtf8 key = true) :
    LongestValidPrefix 256 key (diagnosticKey key) := by
  rw [diagnosticKey, maxDiagnosticKeyBytes]
  split
  · next hshort => exact ⟨List.prefix_rfl, hshort, hkey, fun other hother _ _ => hother.length_le⟩
  · next hlong =>
    obtain ⟨hle, hvalid, hlongest⟩ := validPrefixEnd_spec key 256
    have hlength : (key.take (validPrefixEnd key 256)).length = validPrefixEnd key 256 := by
      rw [List.length_take]
      omega
    refine ⟨List.take_prefix _ _, by omega, hvalid, fun other hother hother' hvalid' => ?_⟩
    rw [List.prefix_iff_eq_take] at hother
    rw [hother] at hvalid'
    rw [hlength]
    exact hlongest other.length hother' hvalid'

/-- The first character of a key is within the bound. -/
theorem LongestValidPrefix.ne_nil {key reported : Bytes} (h : LongestValidPrefix 256 key reported)
    (hkey : validUtf8 key = true) (hne : key ≠ []) : reported ≠ [] := by
  obtain ⟨cs, rfl⟩ := exists_utf8 key hkey
  cases cs with
  | nil => exact absurd rfl hne
  | cons c cs =>
    have hpos := utf8Char_length_pos c
    have hfour : (utf8Char c).length ≤ 4 := by
      rw [utf8Char, List.length_map, String.length_utf8EncodeChar]
      exact Char.utf8Size_le_four c
    have hvalid : validUtf8 (utf8Char c) = true := by
      have h := validUtf8_utf8 [c]
      rwa [utf8_cons, utf8_nil, List.append_nil] at h
    have hlength := h.longest (utf8Char c) (List.prefix_append _ _) (by omega) hvalid
    rintro rfl
    exact absurd (hpos.trans_le hlength) (lt_irrefl _)

section

variable {key : Bytes}

theorem bytesText_ne_empty (hkey : validUtf8 key = true) (hne : key ≠ []) :
    (bytesText key == "") = false := by
  refine beq_eq_false_iff_ne.mpr fun hempty => hne ?_
  rw [← toList_bytesText hkey, hempty]
  rfl

theorem WireError.key_of_text {e : WireError} (hkey : validUtf8 key = true)
    (htext : e .key = bytesText key) : e.key = key := by
  show ((e .key : String).toUTF8.data.toList.map fun b => Fin.ofNat 256 b.toNat) = key
  rw [htext, utf8_toUTF8, toList_bytesText hkey]

/-- An error whose key is already bounded is written as it is. -/
theorem WireError.bounded_of_short {e : WireError} (hkey : validUtf8 key = true)
    (hshort : key.length ≤ 256) (htext : e .key = bytesText key) : e.bounded = e := by
  unfold WireError.bounded
  split
  · rw [WireError.key_of_text hkey htext, boundedAssertionDiagnosticKey,
      if_pos (show key.length ≤ maxAssertionDiagnosticKeyBytes from hshort), ← htext]
    exact Function.update_eq_self _ _
  · rfl

end

/-! ### Errors about assertions -/

/-- `structuredError` on an error that has its structure: the actions are those of its code. -/
def structuredError (e : Error) : Error :=
  match errorDefinitions.find? fun definition => definition.code = e.code with
  | some definition => { e with safeActions := definition.safeActions }
  | none => e

/-- What an error about an assertion has, for both codecs to accept it with the key `reported`. -/
structure WireError.Reports (e : WireError) (reported : Key) : Prop where
  key : e .key = bytesText reported
  inRange : e.InRange
  classified : ∃ definition, e.Classified definition
  index : ∃ i : Nat, e.assertionIndex = some (Int.ofNat i)
  evidence : ∃ schema, errorSchema e.code = some schema ∧ schema.Admits e.members
  alternatives : validateAlternativeEvidence e.code e.members = .ok ()
  length_le : e.json.text.length ≤ 2000

theorem WireError.Reports.accepted {go : GoLibrary} {e : WireError} {reported : Key}
    (h : e.Reports reported) (hgo : go.Inverts) (hvalid : validUtf8 reported = true)
    (hshort : reported.length ≤ 256) : decodeStructuredError go e.json.text = .ok e := by
  obtain ⟨definition, hclassified⟩ := h.classified
  obtain ⟨schema, hschema, hadmits⟩ := h.evidence
  obtain ⟨i, hi⟩ := h.index
  refine decodeStructuredError_json hgo h.inRange hclassified ⟨?_, ?_⟩ hschema hadmits
    h.alternatives
  · rw [hi]
    rintro ⟨index, hindex, hneg⟩
    obtain rfl := Option.some.inj hindex
    exact absurd hneg (Int.not_lt.mpr (Int.natCast_nonneg i))
  · have hkey : diagnosticKey e.key = e.key := by
      rw [WireError.key_of_text hvalid h.key]
      exact if_pos hshort
    rintro ⟨_, hlarge | hother⟩
    · have := h.length_le
      rw [maxAssertionDiagnosticBytes] at hlarge
      omega
    · exact hother hkey.symm

/-- The error of a failed assertion. -/
def assertionFailure (key : Key) (index : Nat) (kind : ConditionKind)
    (expected actual : Option Nat) : Error :=
  { code := .conditionFailed, message := "Atomic batch assertion failed.",
    retry := .afterReconcile, key, assertionIndex := some index, condition := some kind,
    expectedRevision := expected, actualRevision := actual,
    actualState := if actual.isSome then "" else "absent",
    safeActions := [.get, .rebuildBatch, .abort] }

/-- The error of a key that an assertion repeats. -/
def duplicateFailure (key : Key) (assertion : Nat) (mutation : Option Nat) : Error :=
  { code := .duplicateKey, message := "A key occurs more than once in the batch.",
    retry := .never, key, assertionIndex := some assertion, mutationIndex := mutation,
    safeActions := [.deduplicateBatch, .abort] }

section

variable (formatTime : Time → String) {reported : Key}

theorem memberLength_key_le (hvalid : validUtf8 reported = true) (hshort : reported.length ≤ 256) :
    Json.memberLength ("key", .string (bytesText reported)) ≤ 1545 := by
  have hname : (utf8 (Json.quote "key")).length = 5 := by decide +kernel
  have htext := Json.utf8_quote_length_le (bytesText reported)
  rw [toList_bytesText hvalid] at htext
  rw [Json.memberLength, Json.text_string_length, hname]
  omega

/-! A repeated key -/

variable {assertion : Nat} {mutation : Option Nat}

theorem duplicateFailure_sets (hvalid : validUtf8 reported = true) (hshort : reported.length ≤ 256)
    (hassertion : assertion < 2 ^ 63) (hmutation : ∀ i ∈ mutation, i < 2 ^ 63) :
    ((duplicateFailure reported assertion mutation).wire formatTime).Sets [(.code, 25),
      (.message, 54), (.retry, 16), (.key, 1545), (.assertionIndex, 42), (.mutationIndex, 42),
      (.safeActions, 45)] where
  only f hf := by
    cases f <;> first | rfl | exact absurd (by decide) hf
  inRange := by
    simp only [List.forall_mem_cons, List.not_mem_nil, false_imp_iff, implies_true, and_true]
    refine ⟨trivial, trivial, trivial, trivial, fun i hi => ?_, fun i hi => ?_, trivial⟩
    · obtain rfl := Option.some.inj hi
      exact Json.isInt64_ofNat hassertion
    · obtain ⟨n, hn, rfl⟩ := Option.map_eq_some_iff.mp hi
      exact Json.isInt64_ofNat (hmutation n hn)
  length_le := by
    simp only [List.forall_mem_cons, List.not_mem_nil, false_imp_iff, implies_true, and_true]
    refine ⟨.inr ?_, .inr ?_, .inr ?_, .inr (memberLength_key_le hvalid hshort),
      .inr (memberLength_int_le hassertion (by decide +kernel)), ?_, .inr ?_⟩
    · exact (by decide +kernel : Json.memberLength ("code", .string "DUPLICATE_KEY") ≤ 25)
    · exact (by decide +kernel : Json.memberLength ("message",
        .string "A key occurs more than once in the batch.") ≤ 54)
    · exact (by decide +kernel : Json.memberLength ("retry", .string "never") ≤ 16)
    · cases mutation with
      | none => exact .inl ⟨rfl, rfl⟩
      | some i => exact .inr (memberLength_int_le (hmutation i rfl) (by decide +kernel))
    · exact (by decide +kernel : Json.memberLength ("safe_actions",
        .array [.string "deduplicate_batch", .string "abort"]) ≤ 45)

theorem duplicateFailure_reports (hvalid : validUtf8 reported = true) (hne : reported ≠ [])
    (hshort : reported.length ≤ 256) (hassertion : assertion < 2 ^ 63)
    (hmutation : ∀ i ∈ mutation, i < 2 ^ 63) :
    ((duplicateFailure reported assertion mutation).wire formatTime).Reports reported where
  key := rfl
  inRange := (duplicateFailure_sets formatTime hvalid hshort hassertion hmutation).wire_inRange
  classified := ⟨⟨.duplicateKey, .never, [.deduplicateBatch, .abort]⟩,
    (by decide : "A key occurs more than once in the batch." ≠ ""), rfl, rfl, rfl⟩
  index := ⟨assertion, rfl⟩
  evidence := by
    refine ⟨evidenceOf .duplicateKey, rfl, (duplicateFailure_sets formatTime hvalid hshort
      hassertion hmutation).admits (by decide) ?_ ?_⟩
    · intro f hf
      obtain rfl := List.mem_singleton.mp hf
      exact bytesText_ne_empty hvalid hne
    · intro group hgroup
      obtain rfl := List.mem_singleton.mp hgroup
      exact ⟨.assertionIndex, by decide, rfl⟩
  alternatives := rfl
  length_le := (duplicateFailure_sets formatTime hvalid hshort hassertion
    hmutation).json_length_le (by decide) (by decide)

/-! A failed assertion -/

variable {index : Nat} {kind : ConditionKind} {expected actual : Option Nat}

theorem assertionFailure_sets (hvalid : validUtf8 reported = true) (hshort : reported.length ≤ 256)
    (hindex : index < 2 ^ 63) (hexpected : ∀ n ∈ expected, n < 2 ^ 64)
    (hactual : ∀ n ∈ actual, n < 2 ^ 64) :
    ((assertionFailure reported index kind expected actual).wire formatTime).Sets [(.code, 26),
      (.message, 43), (.retry, 26), (.key, 1545), (.assertionIndex, 42), (.condition, 23),
      (.expectedRevision, 42), (.actualRevision, 42), (.actualState, 24), (.safeActions, 47)] where
  only f hf := by
    cases f <;> first | rfl | exact absurd (by decide) hf
  inRange := by
    simp only [List.forall_mem_cons, List.not_mem_nil, false_imp_iff, implies_true, and_true]
    refine ⟨trivial, trivial, trivial, trivial, fun i hi => ?_, trivial, hexpected, hactual,
      trivial, trivial⟩
    obtain rfl := Option.some.inj hi
    exact Json.isInt64_ofNat hindex
  length_le := by
    have hrevision : ∀ {name : String} {revision : Option Nat},
        (utf8 (Json.quote name)).length + 22 ≤ 42 → (∀ n ∈ revision, n < 2 ^ 64) →
        Json.isEmpty .uintPointer revision = true ∧ false = false ∨
          Json.memberLength (name, Json.encodeValue .uintPointer revision) ≤ 42 := by
      intro name revision hname hlt
      cases revision with
      | none => exact .inl ⟨rfl, rfl⟩
      | some n => exact .inr (memberLength_uint_le (hlt n rfl) hname)
    have hkinds : ∀ kind ∈ [ConditionKind.any, .absent, .revision, .unknown],
        Json.memberLength ("condition", .string kind.text) ≤ 23 := by decide +kernel
    simp only [List.forall_mem_cons, List.not_mem_nil, false_imp_iff, implies_true, and_true]
    refine ⟨.inr ?_, .inr ?_, .inr ?_, .inr (memberLength_key_le hvalid hshort),
      .inr (memberLength_int_le hindex (by decide +kernel)),
      .inr (hkinds kind (by cases kind <;> decide)), hrevision (by decide +kernel) hexpected,
      hrevision (by decide +kernel) hactual, ?_, .inr ?_⟩
    · exact (by decide +kernel : Json.memberLength ("code", .string "CONDITION_FAILED") ≤ 26)
    · exact (by decide +kernel : Json.memberLength ("message",
        .string "Atomic batch assertion failed.") ≤ 43)
    · exact (by decide +kernel : Json.memberLength ("retry", .string "after_reconcile") ≤ 26)
    · cases actual with
      | none =>
        exact .inr (by decide +kernel : Json.memberLength ("actual_state", .string "absent") ≤ 24)
      | some n => exact .inl ⟨rfl, rfl⟩
    · exact (by decide +kernel : Json.memberLength ("safe_actions",
        .array [.string "get", .string "rebuild_batch", .string "abort"]) ≤ 47)

/-- The condition of an assertion and the revision it expects go together. -/
def ExpectedOf (kind : ConditionKind) (expected : Option Nat) : Prop :=
  kind = .absent ∧ expected = none ∨ kind = .revision ∧ ∃ n, expected = some n ∧ n ≠ 0 ∧ n < 2 ^ 64

theorem ExpectedOf.lt (h : ExpectedOf kind expected) : ∀ n ∈ expected, n < 2 ^ 64 := by
  rcases h with ⟨_, rfl⟩ | ⟨_, n, rfl, _, hn⟩
  · exact fun _ h => nomatch h
  · intro m hm
    obtain rfl := Option.some.inj hm
    exact hn

theorem assertionFailure_alternatives (hkind : ExpectedOf kind expected) :
    validateAlternativeEvidence
      ((assertionFailure reported index kind expected actual).wire formatTime).code
      ((assertionFailure reported index kind expected actual).wire formatTime).members
        = .ok () := by
  generalize he : (assertionFailure reported index kind expected actual).wire formatTime = e
  have hcode : ErrorCode.ofText e.code = some .conditionFailed := by
    rw [← he]
    rfl
  have hmutation : e.members.lookup ErrorField.mutationIndex.name = none := by
    rw [← he]
    exact WireError.lookup_of_empty rfl rfl
  have hassertion : e.members.lookup ErrorField.assertionIndex.name
      = some (.number (Json.intLiteral (Int.ofNat index))) := by
    rw [← he]
    exact WireError.lookup_of_nonempty rfl
  rcases hkind with ⟨rfl, rfl⟩ | ⟨rfl, n, rfl, hne, hn⟩
  · have hcondition : e.members.lookup ErrorField.condition.name = some (.string "absent") := by
      rw [← he]
      exact WireError.lookup_of_nonempty rfl
    have hexpected : e.members.lookup ErrorField.expectedRevision.name = none := by
      rw [← he]
      exact WireError.lookup_of_empty rfl rfl
    simp only [validateAlternativeEvidence, hcode, hmutation, hassertion, hcondition, hexpected]
    rfl
  · have hcondition : e.members.lookup ErrorField.condition.name = some (.string "revision") := by
      rw [← he]
      exact WireError.lookup_of_nonempty rfl
    have hexpected : e.members.lookup ErrorField.expectedRevision.name
        = some (.number (Json.natLiteral n)) := by
      rw [← he]
      exact WireError.lookup_of_nonempty rfl
    have hrevision : rawRevision (some (.number (Json.natLiteral n))) = some n :=
      Json.parseUint_natLiteral hn
    simp only [validateAlternativeEvidence, hcode, hmutation, hassertion, hcondition, hexpected,
      hrevision]
    exact (if_neg Bool.false_ne_true).trans ((if_pos rfl).trans (if_neg (by simp [hne])))

theorem assertionFailure_reports (hvalid : validUtf8 reported = true) (hne : reported ≠ [])
    (hshort : reported.length ≤ 256) (hindex : index < 2 ^ 63) (hkind : ExpectedOf kind expected)
    (hactual : ∀ n ∈ actual, n < 2 ^ 64) :
    ((assertionFailure reported index kind expected actual).wire formatTime).Reports reported where
  key := rfl
  inRange := (assertionFailure_sets formatTime hvalid hshort hindex hkind.lt hactual).wire_inRange
  classified := ⟨⟨.conditionFailed, .afterReconcile, [.get, .rebuildBatch, .abort]⟩,
    (by decide : "Atomic batch assertion failed." ≠ ""), rfl, rfl, rfl⟩
  index := ⟨index, rfl⟩
  evidence := by
    refine ⟨evidenceOf .conditionFailed, rfl, (assertionFailure_sets formatTime hvalid hshort
      hindex hkind.lt hactual).admits (by decide) ?_ ?_⟩
    · intro f hf
      rcases List.mem_pair.mp hf with rfl | rfl
      · exact bytesText_ne_empty hvalid hne
      · rcases hkind with ⟨rfl, _⟩ | ⟨rfl, _⟩
        · rfl
        · rfl
    · intro group hgroup
      rcases List.mem_pair.mp hgroup with rfl | rfl
      · exact ⟨.assertionIndex, by decide, rfl⟩
      · cases actual with
        | none => exact ⟨.actualState, by decide, rfl⟩
        | some n => exact ⟨.actualRevision, by decide, rfl⟩
  alternatives := assertionFailure_alternatives formatTime hkind
  length_le := (assertionFailure_sets formatTime hvalid hshort hindex hkind.lt
    hactual).json_length_le (by decide) (by decide)

end

/-! ### The response of a batch -/

/-- An error of a batch that is about one of its assertions, and the key of that assertion. -/
inductive AssertionDiagnostic (limits : Limits) : Key → Error → Prop
  | failed {assertion : Assertion} {record : Option Record} {live : Bool} {index : Nat} {e : Error}
      (valid : assertion.validate limits = .ok ())
      (expected : assertion.condition.expectedRevision < 2 ^ 64)
      (actual : revisionOf record < 2 ^ 64) (index_lt : index < limits.maxBatchOperations)
      (error : assertionConditionError assertion record live index = some e) :
      AssertionDiagnostic limits assertion.key e
  | repeated {assertion : Assertion} {index : Nat} {first : BatchKey}
      (valid : validateKey assertion.key limits = .ok ())
      (index_lt : index < limits.maxBatchOperations)
      (first_lt : first.index < limits.maxBatchOperations) :
      AssertionDiagnostic limits assertion.key ((assertion.entry limits index).duplicate first)
  | asserted {mutation : Mutation} {index : Nat} {first : BatchKey}
      (assertion : first.assertion = true) (valid : validateKey mutation.key limits = .ok ())
      (index_lt : index < limits.maxBatchOperations)
      (first_lt : first.index < limits.maxBatchOperations) :
      AssertionDiagnostic limits mutation.key ((mutation.entry limits index).duplicate first)

/-- What `writeFailure` sends for an error of a batch. -/
def batchFailure (go : ResponseLibrary) (requestID : String) (id : DatabaseID) (e : Error) :
    Response :=
  { schemaVersion := protocolSchemaVersion, ok := false, requestID,
    databaseID := bytesText id.string, operation := "atomic_batch",
    error := some ((structuredError e).wire go.formatTime) }

theorem assertionConditionError_eq_some {assertion : Assertion} {limits : Limits}
    {record : Option Record} {live : Bool} {index : Nat} {e : Error}
    (hvalid : assertion.validate limits = .ok ())
    (hexpected : assertion.condition.expectedRevision < 2 ^ 64)
    (hactual : revisionOf record < 2 ^ 64)
    (h : assertionConditionError assertion record live index = some e) :
    ∃ kind expected actual, ExpectedOf kind expected ∧ (∀ n ∈ actual, n < 2 ^ 64) ∧
      e = assertionFailure (diagnosticKey assertion.key) index kind expected actual := by
  have hlive : ∀ n ∈ (if live then some (revisionOf record) else none), n < 2 ^ 64 := by
    intro n hn
    split at hn
    · obtain rfl := Option.some.inj hn
      exact hactual
    · cases hn
  have hstate : (if live = true then "" else "absent")
      = if (if live then some (revisionOf record) else none).isSome then "" else "absent" := by
    cases live <;> rfl
  rw [Assertion.validate, andThen_eq_ok] at hvalid
  have hcondition := hvalid.2
  cases hkind : assertion.condition.kind with
  | absent =>
    simp only [assertionConditionError, hkind] at h
    split at h
    · cases h
    · refine ⟨.absent, none, _, .inl ⟨rfl, rfl⟩, hlive, ?_⟩
      rw [← Option.some.inj h, assertionFailure, ← hstate]
      rfl
  | revision =>
    simp only [assertionConditionError, hkind] at h
    simp only [hkind, ite_error_eq_ok] at hcondition
    split at h
    · cases h
    · refine ⟨.revision, some assertion.condition.expectedRevision, _,
        .inr ⟨rfl, _, rfl, hcondition.1, hexpected⟩, hlive, ?_⟩
      rw [← Option.some.inj h, assertionFailure, ← hstate]
      rfl
  | any | unknown =>
    rw [hkind] at hcondition
    cases hcondition

/-- The error on the wire reports the longest valid beginning of the key. -/
theorem AssertionDiagnostic.reports {limits : Limits} {key : Key} {e : Error}
    (hlimits : limits.Valid) (h : AssertionDiagnostic limits key e) (formatTime : Time → String) :
    LongestValidPrefix 256 key (diagnosticKey key) ∧
      ((structuredError e).wire formatTime).Reports (diagnosticKey key) := by
  have hoperations := hlimits.operations.2
  have hprefix : ∀ {key : Key}, validateKey key limits = .ok () →
      LongestValidPrefix 256 key (diagnosticKey key) ∧ diagnosticKey key ≠ [] := by
    intro key hkey
    obtain ⟨hne, hvalid, _⟩ := validateKey_eq_ok.mp hkey
    have hlongest := longestValidPrefix_diagnosticKey hvalid
    exact ⟨hlongest, hlongest.ne_nil hvalid hne⟩
  cases h with
  | @failed assertion _ _ _ _ hassertion hexpected hactual hindex herror =>
    have hkey : validateKey assertion.key limits = .ok () := by
      rw [Assertion.validate, andThen_eq_ok] at hassertion
      exact hassertion.1
    obtain ⟨hlongest, hne⟩ := hprefix hkey
    obtain ⟨kind, expected, actual, hkind, hactual, rfl⟩ :=
      assertionConditionError_eq_some hassertion hexpected hactual herror
    exact ⟨hlongest, assertionFailure_reports formatTime hlongest.valid hne hlongest.length_le
      (by omega) hkind hactual⟩
  | @repeated assertion index first hkey hindex hfirst =>
    obtain ⟨hlongest, hne⟩ := hprefix hkey
    have herror : structuredError ((assertion.entry limits index).duplicate first)
        = duplicateFailure (diagnosticKey assertion.key) index
            (if first.assertion then none else some first.index) := rfl
    rw [herror]
    refine ⟨hlongest, duplicateFailure_reports formatTime hlongest.valid hne hlongest.length_le
      (by omega) ?_⟩
    intro i hi
    split at hi
    · cases hi
    · obtain rfl := Option.some.inj hi
      omega
  | @asserted mutation index first hassertion hkey hindex hfirst =>
    obtain ⟨hlongest, hne⟩ := hprefix hkey
    have herror : structuredError ((mutation.entry limits index).duplicate first)
        = duplicateFailure (diagnosticKey mutation.key) first.index (some index) := by
      simp only [Mutation.entry, hassertion, if_true]
      rfl
    rw [herror]
    refine ⟨hlongest, duplicateFailure_reports formatTime hlongest.valid hne hlongest.length_le
      (by omega) ?_⟩
    intro i hi
    obtain rfl := Option.some.inj hi
    omega

/-- A key of 258 bytes, with a character of two bytes on the bound. -/
def longKey : Key := List.replicate 255 97 ++ [195, 169, 97]

end GapDB
