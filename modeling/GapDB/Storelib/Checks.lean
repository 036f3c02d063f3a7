import Mathlib.Logic.Basic

/-!
# Chains of checks

A validator is a chain of checks, each of which reports its error or passes on to the
next. These rules read off what a chain that passed has established.
-/

namespace Storelib

variable {ε α β : Type*}

theorem ite_error_eq_ok {p : Prop} [Decidable p] {e : ε} {x : Except ε α} {a : α} :
    (if p then .error e else x) = .ok a ↔ ¬ p ∧ x = .ok a := by
  by_cases h : p <;> simp [h]

/-- One check after another: the second runs only if the first passed. -/
def andThen (x : Except ε Unit) (y : Except ε α) : Except ε α :=
  match x with
  | .error e => .error e
  | .ok () => y

theorem andThen_eq_ok {x : Except ε Unit} {y : Except ε α} {a : α} :
    andThen x y = .ok a ↔ x = .ok () ∧ y = .ok a := by
  cases x with
  | error | ok => simp [andThen]

/-- The first failing element of a list decides. -/
def checkAll (f : α → Except ε Unit) : List α → Except ε Unit
  | [] => .ok ()
  | x :: xs => andThen (f x) (checkAll f xs)

theorem checkAll_eq_ok {f : α → Except ε Unit} {xs : List α} :
    checkAll f xs = .ok () ↔ ∀ x ∈ xs, f x = .ok () := by
  induction xs with
  | nil => simp [checkAll]
  | cons x xs ih => simp [checkAll, andThen_eq_ok, ih]

/-- Every error of a computation has the property `p`. -/
def FailsOnly (p : ε → Prop) (x : Except ε α) : Prop := ∀ e, x = .error e → p e

namespace FailsOnly

variable {p : ε → Prop}

theorem ok (a : α) : FailsOnly p (.ok a) := fun _ h => nomatch h

theorem error {e : ε} (h : p e) : FailsOnly (α := α) p (.error e) := by
  intro other hother
  rwa [← Except.error.inj hother]

theorem ite {c : Prop} [Decidable c] {x y : Except ε α} (hx : FailsOnly p x) (hy : FailsOnly p y) :
    FailsOnly p (if c then x else y) := by
  split
  · exact hx
  · exact hy

/-- A check that fails with such an error, and then the rest. -/
theorem guard {c : Prop} [Decidable c] {e : ε} {x : Except ε α} (he : p e) (hx : FailsOnly p x) :
    FailsOnly p (if c then .error e else x) := (error he).ite hx

theorem andThen {x : Except ε Unit} {y : Except ε α} (hx : FailsOnly p x) (hy : FailsOnly p y) :
    FailsOnly p (andThen x y) := by
  cases x with
  | error e => exact error (hx e rfl)
  | ok u => exact hy

theorem map {β : Type*} {x : Except ε α} (hx : FailsOnly p x) (f : α → β) :
    FailsOnly p (x.map f) := by
  cases x with
  | error e => exact error (hx e rfl)
  | ok a => exact ok (f a)

theorem checkAll {f : α → Except ε Unit} (h : ∀ x, FailsOnly p (f x)) (xs : List α) :
    FailsOnly p (checkAll f xs) := by
  induction xs with
  | nil => exact ok ()
  | cons x xs ih => exact (h x).andThen ih

end FailsOnly

theorem lookup_isSome_iff_mem {κ : Type*} [BEq κ] [LawfulBEq κ] {seen : List (κ × α)} {key : κ} :
    (seen.lookup key).isSome ↔ key ∈ seen.map Prod.fst := by
  rw [← not_iff_not, Bool.not_eq_true, Option.isSome_eq_false_iff, Option.isNone_iff_eq_none,
    List.lookup_eq_none_iff]
  simp only [bne_iff_ne, ne_eq, List.mem_map, not_exists, not_and]
  exact forall₂_congr fun p _ => not_congr eq_comm

/-- An index that the observation `g` does not see can be forgotten. -/
theorem map_mapIdx {γ : Type*} {f : Nat → α → β} {g : β → γ} {h : α → γ}
    (hf : ∀ i a, g (f i a) = h a) (xs : List α) : (xs.mapIdx f).map g = xs.map h :=
  List.ext_getElem (by simp) fun i _ _ => by simp [hf]

/-- A fallible map that succeeds everywhere succeeds on the list. -/
theorem mapM_eq_ok {ε α : Type*} {f : α → Except ε α} {xs : List α}
    (h : ∀ x ∈ xs, f x = .ok x) : xs.mapM f = .ok xs := by
  induction xs with
  | nil => rfl
  | cons x xs ih =>
    rw [List.forall_mem_cons] at h
    rw [List.mapM_cons, h.1, ih h.2]
    rfl

end Storelib
