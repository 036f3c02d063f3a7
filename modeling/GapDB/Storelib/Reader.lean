import GapDB.Storelib.Bytes
import GapDB.Storelib.Checks

/-!
# Reading from the front

A reader takes a word or a number of bytes from the front of a byte string and returns what is left.
Each succeeds on exactly one shape of input, so that a decoder made of readers can be turned around
field by field.
-/

namespace Storelib

variable {ε α β : Type*}

def readFull (n : Nat) (rest : Bytes) : Option (Bytes × Bytes) :=
  if rest.length < n then none else some (rest.take n, rest.drop n)

def readUint (w : Nat) (rest : Bytes) : Option (Nat × Bytes) :=
  (readFull w rest).map fun (word, rest) => (uint word, rest)

/-- What follows a read, which fails with `e` if the read does. -/
def orFail (e : ε) (x : Option α) (next : α → Except ε β) : Except ε β :=
  match x with
  | none => .error e
  | some a => next a

theorem orFail_eq_ok {e : ε} {x : Option α} {next : α → Except ε β} {b : β} :
    orFail e x next = .ok b ↔ ∃ a, x = some a ∧ next a = .ok b := by
  cases x with
  | none | some => simp [orFail]

theorem readFull_eq_some {n : Nat} {rest bs after : Bytes} :
    readFull n rest = some (bs, after) ↔ bs.length = n ∧ rest = bs ++ after := by
  rw [readFull]
  constructor
  · intro h
    split at h
    · cases h
    · obtain ⟨rfl, rfl⟩ := Prod.mk.inj (Option.some.inj h)
      exact ⟨List.length_take_of_le (by omega), (List.take_append_drop _ _).symm⟩
  · rintro ⟨rfl, rfl⟩
    rw [if_neg (by simp), List.take_left, List.drop_left]

theorem readUint_eq_some {w n : Nat} {rest after : Bytes} :
    readUint w rest = some (n, after) ↔ n < 256 ^ w ∧ rest = putUint w n ++ after := by
  rw [readUint, Option.map_eq_some_iff]
  constructor
  · rintro ⟨⟨word, left⟩, hread, heq⟩
    obtain ⟨rfl, rfl⟩ := Prod.mk.inj heq
    obtain ⟨rfl, rfl⟩ := readFull_eq_some.mp hread
    exact ⟨uint_lt word, by rw [putUint_uint]⟩
  · rintro ⟨hn, rfl⟩
    refine ⟨(putUint w n, after), readFull_eq_some.mpr ⟨putUint_length w n, rfl⟩, ?_⟩
    show (uint (putUint w n), after) = (n, after)
    rw [uint_putUint hn]

theorem readFull_append (bs after : Bytes) : readFull bs.length (bs ++ after) = some (bs, after) :=
  readFull_eq_some.mpr ⟨rfl, rfl⟩

theorem readUint_append {w n : Nat} (h : n < 256 ^ w) (after : Bytes) :
    readUint w (putUint w n ++ after) = some (n, after) :=
  readUint_eq_some.mpr ⟨h, rfl⟩

end Storelib
