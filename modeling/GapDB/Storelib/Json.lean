import GapDB.Storelib.Checks
import Mathlib.Data.List.Nodup
import Mathlib.Tactic.Ring

/-!
# JSON documents and strict decoding into records

A document is a tree whose objects keep their members in the order of the text, so that a
repeated name can be seen and refused. A record type is given by its fields and their kinds;
decoding writes the members of an object into it one after another.
-/

namespace Storelib

inductive Json where
  | null
  | bool (value : Bool)
  | number (literal : String)
  | string (value : String)
  | array (items : List Json)
  | object (members : List (String × Json))

namespace Json

/-! ### Repeated names -/

mutual

/-- The first name that an object of the document repeats, in the order of the text. -/
def firstDuplicate : Json → Option String
  | .array items => firstDuplicateItem items
  | .object members => firstDuplicateMember [] members
  | _ => none

def firstDuplicateItem : List Json → Option String
  | [] => none
  | item :: items =>
    match firstDuplicate item with
    | some name => some name
    | none => firstDuplicateItem items

def firstDuplicateMember (seen : List String) : List (String × Json) → Option String
  | [] => none
  | (name, value) :: members =>
    if name ∈ seen then some name
    else
      match firstDuplicate value with
      | some inner => some inner
      | none => firstDuplicateMember (name :: seen) members

end

theorem names_nodup_of_firstDuplicateMember {seen : List String} {members : List (String × Json)}
    (h : firstDuplicateMember seen members = none) :
    (members.map Prod.fst).Nodup ∧ ∀ name ∈ members.map Prod.fst, name ∉ seen := by
  induction members generalizing seen with
  | nil => simp
  | cons member members ih =>
    obtain ⟨name, value⟩ := member
    rw [firstDuplicateMember] at h
    by_cases hseen : name ∈ seen
    · simp [hseen] at h
    · rw [if_neg hseen] at h
      cases hvalue : firstDuplicate value with
      | some inner => simp [hvalue] at h
      | none =>
        rw [hvalue] at h
        obtain ⟨hnodup, hnew⟩ := ih h
        -- the names seen from here on differ from this one and from those before it
        have hname : name ∉ members.map Prod.fst := fun hmem =>
          hnew name hmem List.mem_cons_self
        refine ⟨List.nodup_cons.mpr ⟨hname, hnodup⟩, ?_⟩
        intro other hother
        rcases List.mem_cons.mp hother with rfl | hother
        · exact hseen
        · exact fun hmem => hnew other hother (List.mem_cons_of_mem _ hmem)

theorem names_nodup {members : List (String × Json)}
    (h : firstDuplicate (.object members) = none) : (members.map Prod.fst).Nodup := by
  rw [firstDuplicate] at h
  exact (names_nodup_of_firstDuplicateMember h).1

/-! ### Numbers -/

def digitsValue (digits : List Char) : Option Nat :=
  if digits ≠ [] ∧ digits.all Char.isDigit then
    some (digits.foldl (fun value digit => 10 * value + (digit.toNat - 48)) 0)
  else none

/-- A literal read as an unsigned 64-bit integer; a fraction or an exponent is refused. -/
def parseUint (literal : String) : Option Nat :=
  (digitsValue literal.toList).filter (· < 2 ^ 64)

/-- A literal read as a signed 64-bit integer. -/
def parseInt (literal : String) : Option Int :=
  match literal.toList with
  | '-' :: digits => ((digitsValue digits).filter (· ≤ 2 ^ 63)).map fun n => -(n : Int)
  | digits => ((digitsValue digits).filter (· < 2 ^ 63)).map fun n => (n : Int)

example : parseInt "-12" = some (-12) ∧ parseUint "1e3" = none ∧
    parseUint "18446744073709551616" = none := by decide

/-! ### Record fields -/

/-- The kinds of record fields. -/
inductive Kind where
  | text | int | flag | intPointer | uintPointer | flagPointer | texts | ints | uints
  /-- The member as it stands, to be decoded later. -/
  | raw
deriving DecidableEq

def Kind.Value : Kind → Type
  | .text => String
  | .int => Int
  | .flag => Bool
  | .intPointer => Option Int
  | .uintPointer => Option Nat
  | .flagPointer => Option Bool
  | .texts => List String
  | .ints => List Int
  | .uints => List Nat
  | .raw => Option Json

def Kind.zero : (kind : Kind) → kind.Value
  | .text => ""
  | .int => (0 : Int)
  | .flag => false
  | .intPointer => none
  | .uintPointer => none
  | .flagPointer => none
  | .texts => []
  | .ints => []
  | .uints => []
  | .raw => none

/-- A scalar: `null` leaves what was there. -/
def decodeText (previous : String) : Json → Option String
  | .string value => some value
  | .null => some previous
  | _ => none

def decodeInt (previous : Int) : Json → Option Int
  | .number literal => parseInt literal
  | .null => some previous
  | _ => none

def decodeUint (previous : Nat) : Json → Option Nat
  | .number literal => parseUint literal
  | .null => some previous
  | _ => none

def decodeFlag (previous : Bool) : Json → Option Bool
  | .bool value => some value
  | .null => some previous
  | _ => none

/-- A pointer: `null` clears it, any other value goes to what it points to. -/
def decodePointer {α : Type} (decode : α → Json → Option α) (zero : α) (previous : Option α) :
    Json → Option (Option α)
  | .null => some none
  | value => (decode (previous.getD zero) value).map some

def decodeItems {α : Type} (decode : α → Json → Option α) (zero : α) :
    List α → List Json → Option (List α)
  | _, [] => some []
  | previous, item :: items =>
    match decode (previous.head?.getD zero) item, decodeItems decode zero previous.tail items with
    | some value, some values => some (value :: values)
    | _, _ => none

/-- A slice: `null` clears it, an array overwrites it item by item. -/
def decodeSlice {α : Type} (decode : α → Json → Option α) (zero : α) (previous : List α) :
    Json → Option (List α)
  | .null => some []
  | .array items => decodeItems decode zero previous items
  | _ => none

def decodeValue : (kind : Kind) → kind.Value → Json → Option kind.Value
  | .text => decodeText
  | .int => decodeInt
  | .flag => decodeFlag
  | .intPointer => decodePointer decodeInt 0
  | .uintPointer => decodePointer decodeUint 0
  | .flagPointer => decodePointer decodeFlag false
  | .texts => decodeSlice decodeText ""
  | .ints => decodeSlice decodeInt 0
  | .uints => decodeSlice decodeUint 0
  | .raw => fun _ value => some (some value)

/-! ### Records -/

section

variable {F : Type} [DecidableEq F] (kind : F → Kind)

/-- A record with the fields `F`. -/
abbrev Record := (field : F) → (kind field).Value

def Record.zero : Record kind := fun field => (kind field).zero

-- how names are matched to fields, and the two errors of the decoder
variable (find : String → Option F) (unknown : String → String) (mismatch : F → Json → String)

/-- Decodes the members of an object into a record, refusing unknown names. -/
def decodeFields : Record kind → List (String × Json) → Except String (Record kind)
  | record, [] => .ok record
  | record, (name, value) :: members =>
    match find name with
    | none => .error (unknown name)
    | some field =>
      match decodeValue (kind field) (record field) value with
      | none => .error (mismatch field value)
      | some decoded => decodeFields (Function.update record field decoded) members

/-- Decodes the members of an object one after another into what `decode` makes of them. -/
def decodeMembers {α : Type} (decode : F → α → Json → Except String α) :
    α → List (String × Json) → Except String α
  | done, [] => .ok done
  | done, (name, value) :: members =>
    match find name with
    | none => .error (unknown name)
    | some field =>
      match decode field done value with
      | .error reason => .error reason
      | .ok next => decodeMembers decode next members

/-- What a field holds after an optional member was decoded into it. -/
def decodeMember (kind : Kind) (previous : kind.Value) : Option Json → Option kind.Value
  | none => some previous
  | some value => decodeValue kind previous value

variable {kind find unknown mismatch}

theorem decodeFields_cons {record decoded : Record kind} {name : String} {value : Json}
    {members : List (String × Json)} {field : F} (hfind : find name = some field)
    (h : decodeFields kind find unknown mismatch record ((name, value) :: members) = .ok decoded) :
    ∃ x, decodeValue (kind field) (record field) value = some x ∧
      decodeFields kind find unknown mismatch (Function.update record field x) members
        = .ok decoded := by
  rw [decodeFields, hfind] at h
  cases hvalue : decodeValue (kind field) (record field) value with
  | none => simp [hvalue] at h
  | some x =>
    simp only [hvalue] at h
    exact ⟨x, rfl, h⟩

/-- With exact and distinct names, a field holds the decoding of the member of its name. -/
theorem decodeFields_member {name : F → String} (hfind : ∀ field, find (name field) = some field)
    {record decoded : Record kind} {members : List (String × Json)}
    (hexact : ∀ other ∈ members.map Prod.fst, ∃ field, name field = other)
    (hnodup : (members.map Prod.fst).Nodup)
    (h : decodeFields kind find unknown mismatch record members = .ok decoded) (field : F) :
    decodeMember (kind field) (record field) (members.lookup (name field))
      = some (decoded field) := by
  induction members generalizing record with
  | nil =>
    rw [decodeFields, Except.ok.injEq] at h
    subst h
    rfl
  | cons member members ih =>
    obtain ⟨other, value⟩ := member
    obtain ⟨written, rfl⟩ := hexact other (by simp)
    obtain ⟨x, hvalue, hrest⟩ := decodeFields_cons (hfind written) h
    have hexact' : ∀ other ∈ members.map Prod.fst, ∃ field, name field = other :=
      fun other hother => hexact other (List.mem_cons_of_mem _ hother)
    obtain ⟨hnew, hnodup'⟩ := List.nodup_cons.mp hnodup
    have hfield := ih hexact' hnodup' hrest
    by_cases heq : field = written
    · -- no later member writes this field again
      subst heq
      have hlater : members.lookup (name field) = none := by
        rw [← Option.not_isSome_iff_eq_none, lookup_isSome_iff_mem]
        exact hnew
      rw [hlater, Function.update_self, decodeMember] at hfield
      rw [List.lookup_cons_self, decodeMember, hvalue, hfield]
    · have hname : name field ≠ name written := by
        intro hsame
        have hfound := hfind field
        rw [hsame, hfind written] at hfound
        exact heq (Option.some.inj hfound).symm
      rw [Function.update_of_ne heq] at hfield
      rw [List.lookup_cons, beq_false_of_ne hname]
      exact hfield

end

end Json

end Storelib
