import GapDB.Storelib.Bytes

/-!
# Append-only logs

A log is the concatenation of its encoded records. Whatever prefix of it survives is a
whole number of records followed by a torn one.
-/

namespace Storelib

variable {α : Type*} {encode : α → Bytes}

/-- The concatenated encodings. -/
def logBytes (encode : α → Bytes) (xs : List α) : Bytes := xs.flatMap encode

@[simp] theorem logBytes_nil : logBytes encode ([] : List α) = [] := rfl

@[simp] theorem logBytes_cons (x : α) (xs : List α) :
    logBytes encode (x :: xs) = encode x ++ logBytes encode xs := rfl

@[simp] theorem logBytes_append (xs ys : List α) :
    logBytes encode (xs ++ ys) = logBytes encode xs ++ logBytes encode ys :=
  List.flatMap_append

/-- `torn` is nothing, or a proper part of the encoding of one record. -/
def Torn (encode : α → Bytes) (p : α → Prop) (torn : Bytes) : Prop :=
  torn = [] ∨ ∃ x, p x ∧ torn <+: encode x ∧ torn.length < (encode x).length

theorem Torn.of_prefix {p : α → Prop} {torn bs : Bytes} (h : Torn encode p torn)
    (hbs : bs <+: torn) : Torn encode p bs := by
  rcases h with rfl | ⟨x, hx, hpre, hlen⟩
  · exact .inl (List.prefix_nil.mp hbs)
  · exact .inr ⟨x, hx, hbs.trans hpre, hbs.length_le.trans_lt hlen⟩

theorem logBytes_take_length_le (encode : α → Bytes) (xs : List α) {i j : Nat} (h : i ≤ j) :
    (logBytes encode (xs.take i)).length ≤ (logBytes encode (xs.take j)).length := by
  have hsplit : xs.take j = xs.take i ++ (xs.take j).drop i := by
    conv_lhs => rw [← List.take_append_drop i (xs.take j), List.take_take, min_eq_left h]
  rw [hsplit, logBytes_append, List.length_append]
  omega

/-- `bs` is what `k` whole records and a torn one leave behind. -/
structure Cut (encode : α → Bytes) (p : α → Prop) (xs : List α) (bs : Bytes) (k : Nat)
    (torn : Bytes) : Prop where
  le : k ≤ xs.length
  bytes : bs = logBytes encode (xs.take k) ++ torn
  torn : Torn encode p torn
  /-- Every record whose bytes are all there is among the whole ones. -/
  whole : ∀ j ≤ xs.length, (logBytes encode (xs.take j)).length ≤ bs.length → j ≤ k

/-- Every prefix of a log that ends in a torn record is a cut of it. -/
theorem exists_cut {p : α → Prop} {xs : List α} {bs tail : Bytes} (hp : ∀ x ∈ xs, p x)
    (htail : Torn encode p tail) (h : bs <+: logBytes encode xs ++ tail) :
    ∃ k torn, Cut encode p xs bs k torn := by
  induction xs generalizing bs with
  | nil => exact ⟨0, bs, le_rfl, rfl, htail.of_prefix h, fun j hj _ => hj⟩
  | cons x xs ih =>
    rw [logBytes_cons, List.append_assoc] at h
    rw [List.forall_mem_cons] at hp
    by_cases hlt : bs.length < (encode x).length
    · -- the cut falls inside the first record
      have hpre : bs <+: encode x :=
        List.prefix_of_prefix_length_le h (List.prefix_append _ _) (by omega)
      refine ⟨0, bs, Nat.zero_le _, rfl, .inr ⟨x, hp.1, hpre, hlt⟩, fun j _ hj => ?_⟩
      by_contra hpos
      have hmono := logBytes_take_length_le encode (x :: xs) (show 1 ≤ j by omega)
      simp only [List.take_succ_cons, List.take_zero, logBytes_cons, logBytes_nil,
        List.append_nil] at hmono
      omega
    · obtain ⟨rest, rfl⟩ : encode x <+: bs :=
        List.prefix_of_prefix_length_le (List.prefix_append _ _) h (by omega)
      obtain ⟨k, torn, hcut⟩ := ih hp.2 ((List.prefix_append_right_inj _).mp h)
      refine ⟨k + 1, torn, by simpa using hcut.le, ?_, hcut.torn, fun j hj hlen => ?_⟩
      · rw [List.take_succ_cons, logBytes_cons, List.append_assoc, ← hcut.bytes]
      · cases j with
        | zero => omega
        | succ j =>
          rw [List.take_succ_cons, logBytes_cons, List.length_append, List.length_append] at hlen
          have := hcut.whole j (by simpa using hj) (by omega)
          omega

end Storelib
