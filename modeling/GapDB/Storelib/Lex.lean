import Mathlib.Data.List.Lex
import Mathlib.Data.List.TakeWhile
import Mathlib.Order.Lattice

/-!
# Ranges of a sorted list

The strings with a given prefix are an interval of the lexicographic order. In a sorted list, what
satisfies a condition that is closed upwards stands at the end, and what satisfies one that is
closed downwards stands at the front.
-/

namespace Storelib

section

variable {α : Type*} [LinearOrder α]

theorem cons_le_cons_iff {a b : α} {as bs : List α} :
    a :: as ≤ b :: bs ↔ a < b ∨ a = b ∧ as ≤ bs := by
  rw [← not_lt, List.cons_lt_cons_iff, not_or, not_and, not_lt, not_lt]
  constructor
  · rintro ⟨hle, hrest⟩
    rcases hle.lt_or_eq with hlt | heq
    · exact .inl hlt
    · exact .inr ⟨heq, hrest heq.symm⟩
  · rintro (hlt | ⟨rfl, hle⟩)
    · exact ⟨hlt.le, fun heq => absurd (heq ▸ hlt) (lt_irrefl _)⟩
    · exact ⟨le_rfl, fun _ => hle⟩

theorem le_of_isPrefix {start key : List α} (h : start <+: key) : start ≤ key := by
  induction start generalizing key with
  | nil => exact not_lt.mp (List.not_lt_nil _)
  | cons b start ih =>
    obtain ⟨rest, rfl⟩ := h
    exact cons_le_cons_iff.mpr (.inr ⟨rfl, ih (List.prefix_append _ _)⟩)

theorem isPrefix_between {start a b : List α} (ha : start ≤ a) (hab : a ≤ b) (hb : start <+: b) :
    start <+: a := by
  induction start generalizing a b with
  | nil => exact List.nil_prefix
  | cons c start ih =>
    obtain ⟨rest, rfl⟩ := hb
    cases a with
    | nil => exact absurd (List.nil_lt_cons c start) (not_lt.mpr ha)
    | cons d a =>
      rcases cons_le_cons_iff.mp ha with hlt | ⟨rfl, hstart⟩
      · rcases cons_le_cons_iff.mp hab with hlt' | ⟨rfl, -⟩
        · exact absurd (hlt.trans hlt') (lt_irrefl _)
        · exact absurd hlt (lt_irrefl _)
      · rcases cons_le_cons_iff.mp hab with hlt' | ⟨-, hrest⟩
        · exact absurd hlt' (lt_irrefl _)
        · exact List.cons_prefix_cons.mpr ⟨rfl, ih hstart hrest (List.prefix_append _ _)⟩

end

section

variable {α : Type*} [Preorder α] {l : List α} {p : α → Bool}

/-- A search for a condition that is closed upwards finds everything that satisfies it. -/
theorem drop_findIdx_eq_filter (hsorted : l.Pairwise (· < ·))
    (hup : ∀ a b, a < b → p a = true → p b = true) : l.drop (l.findIdx p) = l.filter p := by
  induction l with
  | nil => rfl
  | cons a l ih =>
    obtain ⟨hhead, htail⟩ := List.pairwise_cons.mp hsorted
    by_cases ha : p a = true
    · have hall : l.filter p = l := List.filter_eq_self.mpr fun b hb => hup a b (hhead b hb) ha
      rw [List.findIdx_cons, ha, List.filter_cons_of_pos ha, hall]
      rfl
    · rw [Bool.not_eq_true] at ha
      rw [List.findIdx_cons, ha, List.filter_cons_of_neg (by simp [ha]), ← ih htail]
      rfl

/-- What satisfies a condition that is closed downwards in the list comes first. -/
theorem takeWhile_eq_filter (hsorted : l.Pairwise (· < ·))
    (hdown : ∀ a ∈ l, ∀ b ∈ l, a < b → p b = true → p a = true) : l.takeWhile p = l.filter p := by
  induction l with
  | nil => rfl
  | cons a l ih =>
    obtain ⟨hhead, htail⟩ := List.pairwise_cons.mp hsorted
    by_cases ha : p a = true
    · rw [List.takeWhile_cons_of_pos ha, List.filter_cons_of_pos ha, ih htail fun b hb c hc =>
        hdown b (List.mem_cons_of_mem _ hb) c (List.mem_cons_of_mem _ hc)]
    · rw [List.takeWhile_cons_of_neg ha, List.filter_cons_of_neg ha, eq_comm,
        List.filter_eq_nil_iff]
      exact fun b hb hp =>
        ha (hdown a List.mem_cons_self b (List.mem_cons_of_mem _ hb) (hhead b hb) hp)

end

end Storelib
