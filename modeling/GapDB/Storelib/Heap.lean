import Mathlib.Logic.Equiv.Basic
import Mathlib.Order.Nat

/-!
# Binary heaps in an array

The order of a binary heap and the two repairs of it. Position `i` is loose when the heap is
ordered everywhere else and nothing is lost by leaving `i` out; swapping the loose position with
its parent or with its smaller child moves the looseness there.
-/

namespace Storelib.Heap

def parent (i : ℕ) : ℕ := (i - 1) / 2

theorem parent_lt {i : ℕ} (h : 0 < i) : parent i < i := by
  unfold parent
  omega

section

variable {α : Type*} {a a' : ℕ → α} {i j : ℕ} (hswap : ∀ k, a' k = a (Equiv.swap i j k))

include hswap

theorem swapped_left : a' i = a j := by rw [hswap, Equiv.swap_apply_left]

theorem swapped_right : a' j = a i := by rw [hswap, Equiv.swap_apply_right]

theorem swapped_of_ne {k : ℕ} (hi : k ≠ i) (hj : k ≠ j) : a' k = a k := by
  rw [hswap, Equiv.swap_apply_of_ne_of_ne hi hj]

end

variable {α : Type*} [Preorder α] {a : ℕ → α} {n i j : ℕ}

/-- Nothing among the first `n` is smaller than its parent. -/
def Ordered (a : ℕ → α) (n : ℕ) : Prop := ∀ k, 0 < k → k < n → a (parent k) ≤ a k

structure Loose (a : ℕ → α) (n i : ℕ) : Prop where
  away : ∀ k, 0 < k → k < n → k ≠ i → parent k ≠ i → a (parent k) ≤ a k
  across : ∀ k, 0 < k → k < n → parent k = i → 0 < i → a (parent i) ≤ a k

/-- Position `i` is in order with its children. -/
def Below (a : ℕ → α) (n i : ℕ) : Prop := ∀ k, 0 < k → k < n → parent k = i → a i ≤ a k

/-- Position `i` is in order with its parent. -/
def Above (a : ℕ → α) (i : ℕ) : Prop := 0 < i → a (parent i) ≤ a i

theorem Ordered.mono {m : ℕ} (h : Ordered a n) (hm : m ≤ n) : Ordered a m :=
  fun k hk hlt => h k hk (hlt.trans_le hm)

theorem Ordered.root_le (h : Ordered a n) : ∀ k, k < n → a 0 ≤ a k := by
  intro k
  induction k using Nat.strong_induction_on with
  | h k ih =>
    intro hk
    rcases Nat.eq_zero_or_pos k with rfl | hpos
    · exact le_refl _
    · have hparent : parent k < k := by unfold parent; omega
      exact (ih _ hparent (hparent.trans hk)).trans (h k hpos hk)

theorem Loose.ordered (h : Loose a n i) (hbelow : Below a n i) (habove : Above a i) :
    Ordered a n := by
  intro k hk hlt
  by_cases hki : k = i
  · subst hki
    exact habove hk
  · by_cases hparent : parent k = i
    · rw [hparent]
      exact hbelow k hk hlt hparent
    · exact h.away k hk hlt hki hparent

/-- Any change of one position of a heap leaves that position loose. -/
theorem Ordered.loose {b : ℕ → α} (h : Ordered a n) (hb : ∀ k, k < n → k ≠ i → b k = a k) :
    Loose b n i where
  away k hk hlt hki hparent := by
    have hlt' : parent k < n := by unfold parent; omega
    rw [hb k hlt hki, hb _ hlt' hparent]
    exact h k hk hlt
  across k hk hlt hparent hi := by
    have hik : i < k := by subst hparent; unfold parent; omega
    have hpi : parent i < i := by unfold parent; omega
    rw [hb k hlt hik.ne', hb _ (by omega) hpi.ne]
    exact (h i hi (by omega)).trans (hparent ▸ h k hk hlt)

section

variable {a' : ℕ → α} (hswap : ∀ k, a' k = a (Equiv.swap i j k))

include hswap

/-- One step of sifting up: the parent `i` of `j` becomes the loose position. -/
theorem Loose.swap_up (h : Loose a n j) (hj : 0 < j) (hn : j < n)
    (hparent : parent j = i) (hle : a j ≤ a i) : Loose a' n i ∧ Below a' n i := by
  have hij : i < j := by subst hparent; unfold parent; omega
  -- the sibling of `j` was in order with `i`
  have hsibling : ∀ k, 0 < k → k < n → parent k = i → k ≠ j → a i ≤ a k := by
    intro k hk hlt hk' hne
    have haway := h.away k hk hlt hne (by omega)
    rwa [hk'] at haway
  have hgrand : 0 < i → a (parent i) ≤ a i := fun hi =>
    h.away i hi (by omega) hij.ne (by unfold parent at *; omega)
  refine ⟨⟨?_, ?_⟩, ?_⟩
  · intro k hk hlt hki hpk
    have hkj : k ≠ j := fun heq => hpk (heq ▸ hparent)
    rw [swapped_of_ne hswap hki hkj]
    by_cases hpj : parent k = j
    · rw [hpj, swapped_right hswap, ← hparent]
      exact h.across k hk hlt hpj hj
    · rw [swapped_of_ne hswap hpk hpj]
      exact h.away k hk hlt hkj hpj
  · intro k hk hlt hpk hi
    have hpi : parent i < i := by unfold parent; omega
    rw [swapped_of_ne hswap hpi.ne (by omega)]
    by_cases hkj : k = j
    · rw [hkj, swapped_right hswap]
      exact hgrand hi
    · have hik : i < k := by subst hpk; unfold parent; omega
      rw [swapped_of_ne hswap hik.ne' hkj]
      exact (hgrand hi).trans (hsibling k hk hlt hpk hkj)
  · intro k hk hlt hpk
    rw [swapped_left hswap]
    by_cases hkj : k = j
    · rw [hkj, swapped_right hswap]
      exact hle
    · have hik : i < k := by subst hpk; unfold parent; omega
      rw [swapped_of_ne hswap hik.ne' hkj]
      exact hle.trans (hsibling k hk hlt hpk hkj)

/-- One step of sifting down: the smaller child `j` of `i` becomes the loose position. -/
theorem Loose.swap_down (h : Loose a n i) (hj : 0 < j) (hn : j < n) (hparent : parent j = i)
    (hle : a j ≤ a i) (hsmaller : ∀ k, 0 < k → k < n → parent k = i → a j ≤ a k) :
    Loose a' n j ∧ Above a' j := by
  have hij : i < j := by subst hparent; unfold parent; omega
  refine ⟨⟨?_, ?_⟩, ?_⟩
  · intro k hk hlt hkj hpk
    by_cases hki : k = i
    · subst hki
      have hpk' : parent k < k := by unfold parent; omega
      rw [swapped_left hswap, swapped_of_ne hswap hpk'.ne hpk]
      exact h.across j hj hn hparent hk
    · rw [swapped_of_ne hswap hki hkj]
      by_cases hpi : parent k = i
      · rw [hpi, swapped_left hswap]
        exact hsmaller k hk hlt hpi
      · rw [swapped_of_ne hswap hpi hpk]
        exact h.away k hk hlt hki hpi
  · intro k hk hlt hpk _
    have hjk : j < k := by subst hpk; unfold parent; omega
    rw [hparent, swapped_left hswap, swapped_of_ne hswap (by omega) hjk.ne']
    have haway := h.away k hk hlt (by omega) (by omega)
    rwa [hpk] at haway
  · intro _
    rw [hparent, swapped_left hswap, swapped_right hswap]
    exact hle

end

end Storelib.Heap
