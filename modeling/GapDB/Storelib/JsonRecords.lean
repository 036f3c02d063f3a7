import GapDB.Storelib.JsonText

/-!
# Records as JSON objects

The other direction of the strict decoder: a record is written field after field in the order of
its type, without the fields that are empty where these may be left out. What is written decodes to
the record it came from (`decodeFields_encodeRecord`).
-/

namespace Storelib

variable {kind : Kind} {α : Type} {levels : Nat}

namespace Json

/-! ### Integers -/

def digitChar (n : Nat) : Char := Char.ofNat (48 + n % 10)

def decimalChars (n : Nat) : List Char :=
  if n < 10 then [digitChar n] else decimalChars (n / 10) ++ [digitChar (n % 10)]
termination_by n
decreasing_by omega

def natLiteral (n : Nat) : String := String.ofList (decimalChars n)

def intLiteral : Int → String
  | .ofNat n => natLiteral n
  | .negSucc n => String.ofList ('-' :: decimalChars (n + 1))

theorem digitChar_facts : ∀ n < 10, (digitChar n).isDigit = true ∧ (digitChar n).toNat = 48 + n ∧
    numberChar (digitChar n) = true ∧ digitChar n ≠ '-' := by decide

theorem decimalChars_ne_nil (n : Nat) : decimalChars n ≠ [] := by
  rw [decimalChars]
  split <;> simp

theorem mem_decimalChars {n : Nat} {c : Char} (h : c ∈ decimalChars n) :
    ∃ d < 10, c = digitChar d := by
  induction n using Nat.strong_induction_on with
  | _ n ih =>
    rw [decimalChars] at h
    split at h
    · next hlt => exact ⟨n, hlt, List.mem_singleton.mp h⟩
    · rcases List.mem_append.mp h with h | h
      · exact ih (n / 10) (by omega) h
      · exact ⟨n % 10, by omega, List.mem_singleton.mp h⟩

theorem decimalChars_length_le {n k : Nat} (hk : 0 < k) (h : n < 10 ^ k) :
    (decimalChars n).length ≤ k := by
  induction k generalizing n with
  | zero => exact absurd hk (lt_irrefl 0)
  | succ k ih =>
    rw [decimalChars]
    split
    · simp
    · next hlarge =>
      have hk' : 0 < k := by
        rcases Nat.eq_zero_or_pos k with rfl | hpos
        · simp at h
          omega
        · exact hpos
      have hdiv : n / 10 < 10 ^ k := by
        rw [pow_succ] at h
        omega
      rw [List.length_append, List.length_singleton]
      exact Nat.succ_le_succ (ih hk' hdiv)

theorem foldl_decimalChars (n : Nat) :
    (decimalChars n).foldl (fun value digit => 10 * value + (digit.toNat - 48)) 0 = n := by
  induction n using Nat.strong_induction_on with
  | _ n ih =>
    rw [decimalChars]
    split
    · next hlt =>
      simp only [List.foldl_cons, List.foldl_nil, (digitChar_facts n hlt).2.1]
      omega
    · rw [List.foldl_append, ih (n / 10) (by omega)]
      simp only [List.foldl_cons, List.foldl_nil, (digitChar_facts (n % 10) (by omega)).2.1]
      omega

theorem digits_decimalChars (n : Nat) : Digits (decimalChars n) := by
  refine ⟨decimalChars_ne_nil n, fun c hc => ?_⟩
  obtain ⟨d, hd, rfl⟩ := mem_decimalChars hc
  exact (digitChar_facts d hd).1

theorem digitsValue_decimalChars (n : Nat) : digitsValue (decimalChars n) = some n := by
  have hdigits := digits_decimalChars n
  rw [digitsValue, if_pos ⟨hdigits.1, List.all_eq_true.mpr hdigits.2⟩, foldl_decimalChars]

theorem parseUint_natLiteral {n : Nat} (h : n < 2 ^ 64) : parseUint (natLiteral n) = some n := by
  rw [parseUint, natLiteral, String.toList_ofList, digitsValue_decimalChars]
  exact if_pos (decide_eq_true h)

theorem parseInt_intLiteral {i : Int} (h : -2 ^ 63 ≤ i ∧ i < 2 ^ 63) :
    parseInt (intLiteral i) = some i := by
  obtain ⟨hlow, hhigh⟩ := h
  cases i with
  | ofNat n =>
    have hn : n < 2 ^ 63 := by
      have : (n : Int) < 2 ^ 63 := hhigh
      omega
    rw [intLiteral, natLiteral, parseInt, String.toList_ofList]
    split
    · next digits heq =>
      -- a numeral does not begin with a sign
      obtain ⟨d, hd, hc⟩ := @mem_decimalChars n '-' (by rw [heq]; simp)
      exact absurd hc.symm (digitChar_facts d hd).2.2.2
    · rw [digitsValue_decimalChars,
        show Option.filter (fun m => decide (m < 2 ^ 63)) (some n) = some n from
          if_pos (decide_eq_true hn)]
      rfl
  | negSucc n =>
    have hn : n + 1 ≤ 2 ^ 63 := by omega
    rw [intLiteral, parseInt, String.toList_ofList]
    simp only [digitsValue_decimalChars]
    simp only [Option.filter, hn, decide_true, if_true]
    rfl

/-- Only zero begins with a zero. -/
theorem decimalChars_head {n : Nat} (h : (decimalChars n).head? = some '0') :
    decimalChars n = ['0'] := by
  induction n using Nat.strong_induction_on with
  | _ n ih =>
    rw [decimalChars] at h ⊢
    split at h
    · next hlt =>
      rw [if_pos hlt, Option.some.inj h]
    · next hlarge =>
      have hfirst : (decimalChars (n / 10)).head? = some '0' := by
        rwa [List.head?_append_of_ne_nil _ (decimalChars_ne_nil _)] at h
      have hvalue := foldl_decimalChars (n / 10)
      rw [ih (n / 10) (by omega) hfirst] at hvalue
      have hzero : 0 = n / 10 := hvalue
      omega

theorem numeral_decimalChars (n : Nat) {sign : List Char} (hsign : sign ∈ [[], ['-']]) :
    Numeral (String.ofList (sign ++ decimalChars n)) :=
  ⟨sign, decimalChars n, [], [], by simp, hsign, digits_decimalChars n, decimalChars_head, .inl rfl,
    .inl rfl⟩

theorem numeral_natLiteral (n : Nat) : Numeral (natLiteral n) :=
  numeral_decimalChars n (by decide : [] ∈ [[], ['-']])

theorem numeral_intLiteral : (i : Int) → Numeral (intLiteral i)
  | .ofNat n => numeral_natLiteral n
  | .negSucc n => numeral_decimalChars (n + 1) (by decide : ['-'] ∈ [[], ['-']])

theorem text_natLiteral_length_le {n k : Nat} (hk : 0 < k) (h : n < 10 ^ k) :
    (Json.number (natLiteral n)).text.length ≤ k := by
  rw [text_number_length]
  · rw [natLiteral, String.toList_ofList]
    exact decimalChars_length_le hk h
  · intro c hc
    rw [natLiteral, String.toList_ofList] at hc
    obtain ⟨d, hd, rfl⟩ := mem_decimalChars hc
    rw [(digitChar_facts d hd).2.1]
    omega

/-! ### Values -/

def encodeItems {α : Type} (encode : α → Json) (items : List α) : Json :=
  if items.isEmpty then .null else .array (items.map encode)

def encodeValue : (kind : Kind) → kind.Value → Json
  | .text => fun value => .string value
  | .int => fun value => .number (intLiteral value)
  | .flag => fun value => .bool value
  | .intPointer => fun value => value.elim .null fun i => .number (intLiteral i)
  | .uintPointer => fun value => value.elim .null fun n => .number (natLiteral n)
  | .flagPointer => fun value => value.elim .null .bool
  | .texts => encodeItems .string
  | .ints => encodeItems fun i => .number (intLiteral i)
  | .uints => encodeItems fun n => .number (natLiteral n)
  | .raw => fun value => value.getD .null

/-- What `omitempty` leaves out. -/
def isEmpty : (kind : Kind) → kind.Value → Bool
  | .text => fun value : String => value == ""
  | .int => fun value : Int => value == 0
  | .flag => not
  | .intPointer => @Option.isNone Int
  | .uintPointer => @Option.isNone Nat
  | .flagPointer => @Option.isNone Bool
  | .texts => @List.isEmpty String
  | .ints => @List.isEmpty Int
  | .uints => @List.isEmpty Nat
  | .raw => @Option.isNone Json

def IsInt64 (i : Int) : Prop := -2 ^ 63 ≤ i ∧ i < 2 ^ 63

def IsUint64 (n : Nat) : Prop := n < 2 ^ 64

/-- A value of Go's type, a document with at most `levels` levels. -/
def InRange (levels : Nat) : (kind : Kind) → kind.Value → Prop
  | .int => IsInt64
  | .intPointer => fun value : Option Int => ∀ i ∈ value, IsInt64 i
  | .uintPointer => fun value : Option Nat => ∀ n ∈ value, IsUint64 n
  | .ints => fun value : List Int => ∀ i ∈ value, IsInt64 i
  | .uints => fun value : List Nat => ∀ n ∈ value, IsUint64 n
  | .raw => fun value : Option Json => ∀ document ∈ value, document.Readable levels
  | .text | .flag | .flagPointer | .texts => fun _ => True

theorem isInt64_ofNat {n : Nat} (h : n < 2 ^ 63) : IsInt64 (Int.ofNat n) := by
  rw [IsInt64, Int.ofNat_eq_natCast]
  omega

theorem eq_zero_of_isEmpty {value : kind.Value} (h : isEmpty kind value = true) :
    value = kind.zero := by
  cases kind with
  | text => exact @beq_iff_eq String _ _ value "" |>.mp h
  | int => exact @beq_iff_eq Int _ _ value 0 |>.mp h
  | flag =>
    exact Bool.eq_false_iff.mpr fun htrue => by
      rw [htrue] at h
      cases h
  | intPointer | uintPointer | flagPointer | raw => exact Option.isNone_iff_eq_none.mp h
  | texts | ints | uints => exact List.isEmpty_iff.mp h

theorem decodeSlice_encodeItems {decode : α → Json → Option α} {zero : α}
    {encode : α → Json} {items : List α}
    (h : ∀ item ∈ items, decode zero (encode item) = some item) :
    decodeSlice decode zero [] (encodeItems encode items) = some items := by
  unfold encodeItems
  split
  · next hempty =>
    rw [List.isEmpty_iff.mp hempty]
    rfl
  · clear * - h
    show decodeItems decode zero [] (items.map encode) = some items
    induction items with
    | nil => rfl
    | cons item items ih =>
      obtain ⟨hitem, hitems⟩ := List.forall_mem_cons.mp h
      rw [List.map_cons, decodeItems]
      simp only [List.head?_nil, Option.getD_none, hitem, List.tail_nil, ih hitems]

theorem decodeValue_encodeValue {value : kind.Value} (h : InRange levels kind value)
    (hraw : kind = .raw → isEmpty kind value = false) :
    decodeValue kind kind.zero (encodeValue kind value) = some value := by
  cases kind with
  | text => rfl
  | flag => rfl
  | int => exact parseInt_intLiteral h
  | intPointer =>
    cases value with
    | none => rfl
    | some i =>
      show (parseInt (intLiteral i)).map some = some (some i)
      rw [parseInt_intLiteral (h i rfl)]
      rfl
  | uintPointer =>
    cases value with
    | none => rfl
    | some n =>
      show (parseUint (natLiteral n)).map some = some (some n)
      rw [parseUint_natLiteral (h n rfl)]
      rfl
  | flagPointer =>
    cases value with
    | none => rfl
    | some b => rfl
  | texts => exact decodeSlice_encodeItems fun _ _ => rfl
  | ints =>
    exact decodeSlice_encodeItems fun i hi => parseInt_intLiteral (h i hi)
  | uints => exact decodeSlice_encodeItems fun n hn => parseUint_natLiteral (h n hn)
  | raw =>
    cases value with
    | none => exact absurd (hraw rfl) (by simp [isEmpty])
    | some document => rfl

theorem readable_array_map {encode : α → Json} {items : List α}
    (h : ∀ item, (encode item).Readable 0) : (Json.array (items.map encode)).Readable 1 := by
  have hitems : NumericItems (items.map encode) ∧ depthItems (items.map encode) ≤ 0 := by
    induction items with
    | nil => exact ⟨trivial, le_rfl⟩
    | cons item items ih => exact ⟨⟨(h item).numeric, ih.1⟩, max_le (h item).depth ih.2⟩
  exact ⟨hitems.1, Nat.succ_le_succ hitems.2⟩

theorem encodeItems_readable {encode : α → Json} {items : List α}
    (h : ∀ item, (encode item).Readable 0) : (encodeItems encode items).Readable 1 := by
  unfold encodeItems
  split
  · exact ⟨trivial, Nat.zero_le 1⟩
  · exact readable_array_map h

theorem readable_number {literal : String} (h : Numeral literal) :
    (Json.number literal).Readable 0 := ⟨h, le_rfl⟩

theorem readable_string (value : String) : (Json.string value).Readable 0 := ⟨trivial, le_rfl⟩

theorem encodeValue_readable (hlevels : 1 ≤ levels) {value : kind.Value}
    (h : InRange levels kind value) : (encodeValue kind value).Readable levels := by
  have hflat : ∀ {document : Json}, document.Readable 0 → document.Readable levels :=
    fun h => h.mono (Nat.zero_le levels)
  cases kind with
  | text => exact hflat (readable_string _)
  | flag => exact hflat ⟨trivial, le_rfl⟩
  | int => exact hflat (readable_number (numeral_intLiteral _))
  | intPointer =>
    cases value with
    | none => exact hflat ⟨trivial, le_rfl⟩
    | some i => exact hflat (readable_number (numeral_intLiteral i))
  | uintPointer =>
    cases value with
    | none => exact hflat ⟨trivial, le_rfl⟩
    | some n => exact hflat (readable_number (numeral_natLiteral n))
  | flagPointer =>
    cases value with
    | none | some => exact hflat ⟨trivial, le_rfl⟩
  | texts => exact (encodeItems_readable readable_string).mono hlevels
  | ints =>
    exact (encodeItems_readable fun i => readable_number (numeral_intLiteral i)).mono hlevels
  | uints =>
    exact (encodeItems_readable fun n => readable_number (numeral_natLiteral n)).mono hlevels
  | raw =>
    cases value with
    | none => exact hflat ⟨trivial, le_rfl⟩
    | some document => exact h document rfl

theorem firstDuplicateItem_map {encode : α → Json}
    (h : ∀ item, firstDuplicate (encode item) = none) (items : List α) :
    firstDuplicateItem (items.map encode) = none := by
  induction items with
  | nil => rfl
  | cons item items ih =>
    rw [List.map_cons, firstDuplicateItem, h item]
    exact ih

theorem firstDuplicate_encodeItems {encode : α → Json}
    (h : ∀ item, firstDuplicate (encode item) = none) (items : List α) :
    firstDuplicate (encodeItems encode items) = none := by
  unfold encodeItems
  split
  · rfl
  · rw [firstDuplicate]
    exact firstDuplicateItem_map h items

theorem firstDuplicate_encodeValue (hkind : kind ≠ .raw) (value : kind.Value) :
    firstDuplicate (encodeValue kind value) = none := by
  cases kind with
  | text | flag | int => rfl
  | intPointer =>
    cases value with
    | none => rfl
    | some i => rfl
  | uintPointer =>
    cases value with
    | none => rfl
    | some n => rfl
  | flagPointer =>
    cases value with
    | none => rfl
    | some b => rfl
  | texts | ints | uints => exact firstDuplicate_encodeItems (fun _ => rfl) _
  | raw => exact absurd rfl hkind

theorem firstDuplicateMember_eq_none {seen : List String} {members : List (String × Json)}
    (hnodup : (members.map Prod.fst).Nodup) (hseen : ∀ name ∈ members.map Prod.fst, name ∉ seen)
    (hvalues : ∀ member ∈ members, firstDuplicate member.2 = none) :
    firstDuplicateMember seen members = none := by
  induction members generalizing seen with
  | nil => rfl
  | cons member members ih =>
    obtain ⟨name, value⟩ := member
    obtain ⟨hnew, hnodup'⟩ := List.nodup_cons.mp hnodup
    obtain ⟨hvalue, hvalues'⟩ := List.forall_mem_cons.mp hvalues
    rw [firstDuplicateMember, if_neg (hseen name List.mem_cons_self), hvalue]
    refine ih hnodup' ?_ hvalues'
    intro other hother hmem
    rcases List.mem_cons.mp hmem with rfl | hmem
    · exact hnew hother
    · exact hseen other (List.mem_cons_of_mem _ hother) hmem

/-! ### Records -/

section

variable {F : Type} {kind : F → Kind} (name : F → String) (always : F → Bool)

/-- The members of a record, in the order of its fields; fields that are empty are left out unless
they are always written. -/
def encodeRecord (fields : List F) (record : Record kind) : List (String × Json) :=
  fields.filterMap fun field =>
    if isEmpty (kind field) (record field) ∧ ¬ always field then none
    else some (name field, encodeValue (kind field) (record field))

variable {name always}

theorem encodeRecord_cons {field : F} {fields : List F} {record : Record kind} :
    encodeRecord name always (field :: fields) record
      = (if isEmpty (kind field) (record field) ∧ ¬ always field then []
          else [(name field, encodeValue (kind field) (record field))])
        ++ encodeRecord name always fields record := by
  unfold encodeRecord
  rw [List.filterMap_cons]
  split
  · next h =>
    split at h
    · next hskip => rw [if_pos hskip, List.nil_append]
    · cases h
  · next h =>
    split at h
    · cases h
    · next hkeep =>
      cases h
      rw [if_neg hkeep]
      rfl

/-- A record adds one level. -/
theorem encodeRecord_readable {levels : Nat} (hlevels : 1 ≤ levels) {fields : List F}
    {record : Record kind} (h : ∀ field, InRange levels (kind field) (record field)) :
    (Json.object (encodeRecord name always fields record)).Readable (levels + 1) := by
  have hmembers : NumericMembers (encodeRecord name always fields record) ∧
      depthMembers (encodeRecord name always fields record) ≤ levels := by
    induction fields with
    | nil => exact ⟨trivial, Nat.zero_le _⟩
    | cons field fields ih =>
      rw [encodeRecord_cons]
      split
      · exact ih
      · have hvalue := encodeValue_readable hlevels (h field)
        exact ⟨⟨hvalue.numeric, ih.1⟩, max_le hvalue.depth ih.2⟩
  exact ⟨hmembers.1, Nat.succ_le_succ hmembers.2⟩

theorem names_encodeRecord {fields : List F} {record : Record kind} :
    ((encodeRecord name always fields record).map Prod.fst).Sublist (fields.map name) := by
  induction fields with
  | nil => exact .slnil
  | cons field fields ih =>
    rw [encodeRecord_cons, List.map_cons]
    split
    · exact ih.cons _
    · exact ih.cons_cons _

theorem mem_encodeRecord {fields : List F} {record : Record kind} {member : String × Json}
    (h : member ∈ encodeRecord name always fields record) :
    ∃ field ∈ fields, member = (name field, encodeValue (kind field) (record field)) ∧
      (isEmpty (kind field) (record field) = true → always field = true) := by
  obtain ⟨field, hmem, hsome⟩ := List.mem_filterMap.mp h
  split at hsome
  · cases hsome
  · next hkeep =>
    refine ⟨field, hmem, (Option.some.inj hsome).symm, fun hempty => ?_⟩
    by_contra hnot
    exact hkeep ⟨hempty, hnot⟩

/-- A bound for the members of a record, field by field. -/
theorem sum_memberLength_le {fields : List F} {record : Record kind} {bound : F → Nat}
    (h : ∀ field ∈ fields, isEmpty (kind field) (record field) = true ∧ always field = false ∨
      memberLength (name field, encodeValue (kind field) (record field)) ≤ bound field) :
    ((encodeRecord name always fields record).map memberLength).sum ≤ (fields.map bound).sum := by
  induction fields with
  | nil => exact le_rfl
  | cons field fields ih =>
    obtain ⟨hfield, hfields⟩ := List.forall_mem_cons.mp h
    have hrest := ih hfields
    rw [encodeRecord_cons, List.map_append, List.sum_append, List.map_cons, List.sum_cons]
    split
    · simp only [List.map_nil, List.sum_nil]
      omega
    · next hkeep =>
      have hlength := hfield.resolve_left fun hskip =>
        hkeep ⟨hskip.1, by rw [hskip.2]; exact Bool.false_ne_true⟩
      simp only [List.map_cons, List.map_nil, List.sum_cons, List.sum_nil]
      omega

/-- A record without documents in it repeats no name. -/
theorem firstDuplicate_encodeRecord {fields : List F} {record : Record kind}
    (hnames : (fields.map name).Nodup)
    (hvalues : ∀ field ∈ fields, firstDuplicate (encodeValue (kind field) (record field)) = none) :
    firstDuplicate (.object (encodeRecord name always fields record)) = none := by
  rw [firstDuplicate]
  refine firstDuplicateMember_eq_none (hnames.sublist names_encodeRecord) (by simp) ?_
  intro member hmem
  obtain ⟨field, hfield, rfl, _⟩ := mem_encodeRecord hmem
  exact hvalues field hfield

variable [DecidableEq F] {find : String → Option F} {unknown : String → String}
  {mismatch : F → Json → String}

/-- What is written of a field is found under its name. -/
theorem lookup_encodeRecord (hname : Function.Injective name) {record : Record kind} (f : F)
    {fields : List F} (hnodup : fields.Nodup) (hmem : f ∈ fields) :
    (encodeRecord name always fields record).lookup (name f)
      = if isEmpty (kind f) (record f) ∧ ¬ always f then none
        else some (encodeValue (kind f) (record f)) := by
  have hfields : ∀ fields : List F, fields.Nodup →
      (encodeRecord name always fields record).lookup (name f)
        = if f ∈ fields then
            if isEmpty (kind f) (record f) ∧ ¬ always f then none
            else some (encodeValue (kind f) (record f))
          else none := by
    intro fields hnodup
    induction fields with
    | nil => rfl
    | cons g fields ih =>
      obtain ⟨hnew, hnodup'⟩ := List.nodup_cons.mp hnodup
      rw [encodeRecord_cons]
      by_cases heq : f = g
      · subst heq
        rw [if_pos List.mem_cons_self]
        split
        · rw [List.nil_append, ih hnodup', if_neg hnew]
        · rw [List.singleton_append, List.lookup_cons_self]
      · have hother : (name f == name g) = false := beq_false_of_ne fun h => heq (hname h)
        have hmem : f ∈ g :: fields ↔ f ∈ fields := by simp [heq]
        simp only [hmem]
        rw [← ih hnodup']
        split
        · rw [List.nil_append]
        · rw [List.singleton_append, List.lookup_cons, hother]
  rw [hfields fields hnodup, if_pos hmem]

/-- Reading what was written sets exactly the fields that were written. -/
theorem decodeFields_encodeRecord (hfind : ∀ field, find (name field) = some field)
    (hraw : ∀ field, kind field = .raw → always field = false) {record : Record kind}
    {levels : Nat} (hrange : ∀ field, InRange levels (kind field) (record field)) {fields : List F}
    (hnodup : fields.Nodup) {start : Record kind}
    (hstart : ∀ field ∈ fields, start field = (kind field).zero)
    (hdone : ∀ field ∉ fields, start field = record field) :
    decodeFields kind find unknown mismatch start (encodeRecord name always fields record)
      = .ok record := by
  induction fields generalizing start with
  | nil =>
    rw [show encodeRecord name always [] record = [] from rfl, decodeFields]
    exact congrArg Except.ok (funext fun field => hdone field List.not_mem_nil)
  | cons field fields ih =>
    obtain ⟨hnew, hnodup'⟩ := List.nodup_cons.mp hnodup
    have hzero := hstart field List.mem_cons_self
    rw [encodeRecord_cons]
    split
    · next hskip =>
      refine ih hnodup' (fun other hmem => hstart other (List.mem_cons_of_mem _ hmem)) ?_
      intro other hother
      by_cases heq : other = field
      · rw [heq, hzero, eq_zero_of_isEmpty hskip.1]
      · exact hdone other fun hmem => (List.mem_cons.mp hmem).elim heq hother
    · next hkeep =>
      have hvalue : decodeValue (kind field) (start field)
          (encodeValue (kind field) (record field)) = some (record field) := by
        rw [hzero]
        refine decodeValue_encodeValue (hrange field) fun hkind => ?_
        by_contra hempty
        exact hkeep ⟨by simpa using hempty, by simp [hraw field hkind]⟩
      rw [List.singleton_append, decodeFields, hfind]
      simp only [hvalue]
      refine ih hnodup' ?_ ?_
      · intro other hmem
        have hne : other ≠ field := fun heq => hnew (heq ▸ hmem)
        rw [Function.update_of_ne hne]
        exact hstart other (List.mem_cons_of_mem _ hmem)
      · intro other hother
        by_cases heq : other = field
        · rw [heq, Function.update_self]
        · rw [Function.update_of_ne heq]
          exact hdone other fun hmem => (List.mem_cons.mp hmem).elim heq hother

end

end Json

end Storelib
