import Mathlib.Logic.Function.Basic
import Mathlib.Data.List.Nodup

/-!
# Maps changed by lists of writes

A finite map is a function into `Option`; a write sets one key or, with `none`, removes it.
A transaction is a list of writes, and a history is their concatenation.
-/

namespace Storelib

variable {κ ρ : Type*} [DecidableEq κ]

variable {m : κ → Option ρ} {ws : List (κ × Option ρ)}

/-- Perform the writes from left to right. -/
def writeAll (m : κ → Option ρ) (ws : List (κ × Option ρ)) : κ → Option ρ :=
  ws.foldl (fun m w => Function.update m w.1 w.2) m

@[simp] theorem writeAll_nil (m : κ → Option ρ) : writeAll m [] = m := rfl

@[simp] theorem writeAll_cons (m : κ → Option ρ) (w : κ × Option ρ) (ws : List (κ × Option ρ)) :
    writeAll m (w :: ws) = writeAll (Function.update m w.1 w.2) ws := rfl

theorem writeAll_append (m : κ → Option ρ) (ws vs : List (κ × Option ρ)) :
    writeAll m (ws ++ vs) = writeAll (writeAll m ws) vs :=
  List.foldl_append

/-- What is found was there or was written. -/
theorem writeAll_eq_some {k : κ} {r : ρ}
    (h : writeAll m ws k = some r) : m k = some r ∨ (k, some r) ∈ ws := by
  induction ws generalizing m with
  | nil => exact .inl h
  | cons w ws ih =>
    rw [writeAll_cons] at h
    rcases ih h with hfound | hmem
    · by_cases hk : k = w.1
      · rw [hk, Function.update_self] at hfound
        exact .inr (List.mem_cons.mpr (.inl (Prod.ext hk hfound.symm)))
      · rw [Function.update_of_ne hk] at hfound
        exact .inl hfound
    · exact .inr (List.mem_cons_of_mem _ hmem)

/-- A key that is not written keeps its value. -/
theorem writeAll_of_not_mem {k : κ} (h : k ∉ ws.map Prod.fst) : writeAll m ws k = m k := by
  induction ws generalizing m with
  | nil => rfl
  | cons w ws ih =>
    simp only [List.map_cons, List.mem_cons, not_or] at h
    rw [writeAll_cons, ih h.2, Function.update_of_ne h.1]

/-- A key that is written once has the value written. -/
theorem writeAll_of_mem {w : κ × Option ρ}
    (hw : w ∈ ws) (hnodup : (ws.map Prod.fst).Nodup) : writeAll m ws w.1 = w.2 := by
  induction ws generalizing m with
  | nil => simp at hw
  | cons v ws ih =>
    rw [List.map_cons, List.nodup_cons] at hnodup
    rw [writeAll_cons]
    rcases List.mem_cons.mp hw with rfl | hmem
    · rw [writeAll_of_not_mem hnodup.1, Function.update_self]
    · exact ih hmem hnodup.2

/-- What a key holds after the writes depends on the map only at that key. -/
theorem writeAll_congr {n : κ → Option ρ} {k : κ} (h : m k = n k) (ws : List (κ × Option ρ)) :
    writeAll m ws k = writeAll n ws k := by
  induction ws generalizing m n with
  | nil => exact h
  | cons w ws ih =>
    refine ih ?_
    by_cases hk : k = w.1
    · subst hk
      simp
    · simp [Function.update_of_ne hk, h]

/-- A key that is written does not depend on the map. -/
theorem writeAll_of_written (m n : κ → Option ρ) {k : κ}
    (h : k ∈ ws.map Prod.fst) : writeAll m ws k = writeAll n ws k := by
  induction ws generalizing m n with
  | nil => simp at h
  | cons w ws ih =>
    rw [writeAll_cons, writeAll_cons]
    by_cases hk : k ∈ ws.map Prod.fst
    · exact ih _ _ hk
    · refine writeAll_congr ?_ ws
      rw [List.map_cons, List.mem_cons] at h
      rw [h.resolve_right hk, Function.update_self, Function.update_self]

/-- Writes to other keys can be left out. -/
theorem writeAll_filter {p : κ → Bool} {k : κ} (hk : p k = true) (m : κ → Option ρ)
    (ws : List (κ × Option ρ)) : writeAll m (ws.filter fun w => p w.1) k = writeAll m ws k := by
  induction ws generalizing m with
  | nil => rfl
  | cons w ws ih =>
    by_cases hw : p w.1 = true
    · rw [List.filter_cons, if_pos hw, writeAll_cons, writeAll_cons, ih]
    · rw [List.filter_cons, if_neg hw, ih, writeAll_cons]
      refine writeAll_congr (Function.update_of_ne ?_ _ _).symm ws
      rintro rfl
      exact hw hk

/-- Writing commutes with a change of what the entries are. -/
theorem map_writeAll {ρ' : Type*} (f : ρ → ρ') (m : κ → Option ρ) (ws : List (κ × Option ρ)) :
    (fun k => (writeAll m ws k).map f)
      = writeAll (fun k => (m k).map f) (ws.map fun w => (w.1, w.2.map f)) := by
  induction ws generalizing m with
  | nil => rfl
  | cons w ws ih =>
    rw [writeAll_cons, ih, List.map_cons, writeAll_cons]
    congr 1
    funext k
    by_cases hk : k = w.1
    · subst hk
      simp
    · simp [Function.update_of_ne hk]

/-! ### Maps that have lost entries -/

/-- The map `m` is `full`, except that it may lack entries that are gone. -/
def Faded (gone : ρ → Prop) (full m : κ → Option ρ) : Prop :=
  ∀ k, m k = full k ∨ m k = none ∧ ∃ r, full k = some r ∧ gone r

section

omit [DecidableEq κ]

variable {gone gone' : ρ → Prop} {full m' : κ → Option ρ}

theorem Faded.refl (m : κ → Option ρ) : Faded gone m m := fun _ => .inl rfl

theorem Faded.mono (h : Faded gone full m) (himp : ∀ r, gone r → gone' r) : Faded gone' full m := by
  intro k
  refine (h k).imp_right ?_
  rintro ⟨hnone, r, hr, hgone⟩
  exact ⟨hnone, r, hr, himp r hgone⟩

theorem Faded.trans (h : Faded gone full m) (h' : Faded gone m m') : Faded gone full m' := by
  intro k
  rcases h' k with heq | ⟨hnone, r, hr, hgone⟩
  · rw [heq]
    exact h k
  · rcases h k with heq | ⟨hlost, _⟩
    · exact .inr ⟨hnone, r, heq ▸ hr, hgone⟩
    · rw [hr] at hlost
      cases hlost

end

/-- Later writes do not bring back what is gone. -/
theorem Faded.writeAll {gone : ρ → Prop} {full : κ → Option ρ} (h : Faded gone full m)
    (ws : List (κ × Option ρ)) : Faded gone (writeAll full ws) (writeAll m ws) := by
  intro k
  by_cases hk : k ∈ ws.map Prod.fst
  · exact .inl (writeAll_of_written m full hk)
  · rw [writeAll_of_not_mem hk, writeAll_of_not_mem hk]
    exact h k

end Storelib
