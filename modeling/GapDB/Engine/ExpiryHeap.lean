import GapDB.Engine.Expiry
import GapDB.Storelib.Heap
import Mathlib

/-!
# The expiry heap

The operations of `container/heap` on the candidates: they rearrange the slots, keep every
candidate's position right, and leave the earliest candidate in front.
-/

namespace GapDB.ExpirySchedule

open Storelib Storelib.Heap

variable {s s' s'' : ExpirySchedule} {n i j : Nat}

/-- The pointer in a slot of the heap. -/
def slot (s : ExpirySchedule) (i : Nat) : Nat := s.expiries.getD i 0

def time (s : ExpirySchedule) (i : Nat) : Time := (s.item i).at_

/-- What `Less` compares: the instant, then the key, then the revision. -/
def candidateRank (c : ExpiryCandidate) : Time ×ₗ (Key ×ₗ Nat) :=
  toLex (c.at_, toLex (c.key, c.revision))

def rank (s : ExpirySchedule) (i : Nat) : Time ×ₗ (Key ×ₗ Nat) := candidateRank (s.item i)

/-- The candidates are the same up to their positions. -/
structure Keeps (s s' : ExpirySchedule) : Prop where
  at_ : ∀ p, (s'.candidates p).at_ = (s.candidates p).at_
  key : ∀ p, (s'.candidates p).key = (s.candidates p).key
  revision : ∀ p, (s'.candidates p).revision = (s.candidates p).revision
  fresh : s'.fresh = s.fresh
  byKey : s'.expiryByKey = s.expiryByKey

theorem Keeps.refl (s : ExpirySchedule) : s.Keeps s :=
  ⟨fun _ => rfl, fun _ => rfl, fun _ => rfl, rfl, rfl⟩

theorem Keeps.trans (h : s.Keeps s') (h' : s'.Keeps s'') : s.Keeps s'' :=
  ⟨fun p => (h'.at_ p).trans (h.at_ p), fun p => (h'.key p).trans (h.key p),
    fun p => (h'.revision p).trans (h.revision p), h'.fresh.trans h.fresh, h'.byKey.trans h.byKey⟩

/-- No pointer occurs twice, and every candidate in the heap knows its slot. -/
structure Placed (s : ExpirySchedule) : Prop where
  nodup : s.expiries.Nodup
  index : ∀ i, i < s.expiries.length → (s.item i).index = i

theorem Placed.slot_inj (h : s.Placed) (hi : i < s.expiries.length) (hj : j < s.expiries.length)
    (heq : s.slot i = s.slot j) : i = j := by
  have hi' := h.index i hi
  have hj' := h.index j hj
  have hitem : s.item i = s.item j := congrArg s.candidates heq
  rw [hitem, hj'] at hi'
  exact_mod_cast hi'.symm

/-- The first `n` slots were rearranged. -/
structure Sifts (n : Nat) (s s' : ExpirySchedule) : Prop extends Keeps s s' where
  perm : s'.expiries.Perm s.expiries
  rest : ∀ k, n ≤ k → s'.slot k = s.slot k
  placed : s.Placed → s'.Placed

theorem Sifts.refl (n : Nat) (s : ExpirySchedule) : Sifts n s s :=
  ⟨.refl s, .refl _, fun _ _ => rfl, id⟩

theorem Sifts.trans (h : Sifts n s s') (h' : Sifts n s' s'') : Sifts n s s'' :=
  ⟨h.toKeeps.trans h'.toKeeps, h'.perm.trans h.perm,
    fun k hk => (h'.rest k hk).trans (h.rest k hk), h'.placed ∘ h.placed⟩

/-! ### The order -/

theorem candidateLess_iff (a b : ExpiryCandidate) :
    candidateLess a b = true ↔ candidateRank a < candidateRank b := by
  unfold candidateLess candidateRank
  rw [Prod.Lex.toLex_lt_toLex, Prod.Lex.toLex_lt_toLex]
  split
  · next hat =>
    split
    · next hkey => simp [hat, hkey]
    · next hkey => simp [hat, hkey]
  · next hat => simp [hat]

theorem rank_le_of_less (h : s.less i j = true) : s.rank i ≤ s.rank j :=
  le_of_lt ((candidateLess_iff _ _).mp h)

theorem rank_le_of_not_less (h : ¬ s.less i j = true) : s.rank j ≤ s.rank i :=
  not_lt.mp fun hlt => h ((candidateLess_iff _ _).mpr hlt)

theorem time_le_of_rank_le (h : s.rank i ≤ s.rank j) : s.time i ≤ s.time j := by
  unfold rank candidateRank at h
  rw [Prod.Lex.toLex_le_toLex] at h
  rcases h with hlt | ⟨heq, _⟩
  · exact le_of_lt hlt
  · exact le_of_eq heq

/-! ### Swapping -/

theorem setIndex_keeps (s : ExpirySchedule) (pointer : Nat) (index : Int) :
    s.Keeps (s.setIndex pointer index) := by
  have hcases : ∀ p, (s.setIndex pointer index).candidates p = s.candidates p ∨
      (s.setIndex pointer index).candidates p = { s.candidates p with index } := by
    intro p
    unfold setIndex
    by_cases hp : p = pointer
    · subst hp
      exact .inr (Function.update_self ..)
    · exact .inl (Function.update_of_ne hp ..)
  refine ⟨fun p => ?_, fun p => ?_, fun p => ?_, rfl, rfl⟩
  all_goals rcases hcases p with h | h <;> rw [h]

theorem swap_keeps (s : ExpirySchedule) (i j : Nat) : s.Keeps (s.swap i j) := by
  unfold swap
  refine Keeps.trans ?_ ((setIndex_keeps _ _ _).trans (setIndex_keeps _ _ _))
  exact ⟨fun _ => rfl, fun _ => rfl, fun _ => rfl, rfl, rfl⟩

theorem swap_slot (hi : i < s.expiries.length) (hj : j < s.expiries.length) (k : Nat) :
    (s.swap i j).slot k = s.slot (Equiv.swap i j k) := by
  show ((s.expiries.set i (s.expiries.getD j 0)).set j (s.expiries.getD i 0)).getD k 0
    = s.expiries.getD (Equiv.swap i j k) 0
  rw [Equiv.swap_apply_def]
  grind

theorem Keeps.candidateRank (h : s.Keeps s') (p : Nat) :
    candidateRank (s'.candidates p) = candidateRank (s.candidates p) := by
  unfold ExpirySchedule.candidateRank
  rw [h.at_, h.key, h.revision]

theorem swap_rank (hi : i < s.expiries.length) (hj : j < s.expiries.length) (k : Nat) :
    (s.swap i j).rank k = s.rank (Equiv.swap i j k) := by
  show ExpirySchedule.candidateRank ((s.swap i j).candidates ((s.swap i j).slot k)) = _
  rw [(swap_keeps s i j).candidateRank, swap_slot hi hj]
  rfl

theorem swap_perm (hi : i < s.expiries.length) (hj : j < s.expiries.length) :
    (s.swap i j).expiries.Perm s.expiries := by
  show ((s.expiries.set i (s.expiries.getD j 0)).set j (s.expiries.getD i 0)).Perm s.expiries
  have hset := List.set_set_perm hi hj
  simpa [hi, hj] using hset

theorem swap_length : (s.swap i j).expiries.length = s.expiries.length := by
  show ((s.expiries.set i _).set j _).length = _
  simp

theorem swap_index (s : ExpirySchedule) (i j : Nat) (p : Nat) :
    ((s.swap i j).candidates p).index
      = if p = s.slot i then (j : Int) else if p = s.slot j then (i : Int)
        else (s.candidates p).index := by
  unfold swap setIndex slot
  simp only [Function.update_apply]
  split <;> split <;> simp_all

theorem swap_sifts (hi : i < n) (hj : j < n) (hn : n ≤ s.expiries.length) :
    Sifts n s (s.swap i j) := by
  have hi' : i < s.expiries.length := by omega
  have hj' : j < s.expiries.length := by omega
  refine ⟨swap_keeps s i j, swap_perm hi' hj', fun k hk => ?_, fun h => ?_⟩
  · rw [swap_slot hi' hj', Equiv.swap_apply_of_ne_of_ne (by omega) (by omega)]
  · refine ⟨(swap_perm hi' hj').nodup_iff.mpr h.nodup, fun k hk => ?_⟩
    rw [swap_length] at hk
    show ((s.swap i j).candidates ((s.swap i j).slot k)).index = k
    rw [swap_index, swap_slot hi' hj']
    -- slot `j` now holds what slot `i` held, and the other way round
    by_cases hkj : k = j
    · rw [hkj, Equiv.swap_apply_right, if_pos rfl]
    · by_cases hki : k = i
      · rw [hki, Equiv.swap_apply_left, if_pos rfl, if_neg]
        intro heq
        exact hkj (hki.trans (h.slot_inj hj' hi' heq).symm)
      · rw [Equiv.swap_apply_of_ne_of_ne hki hkj, if_neg, if_neg]
        · exact h.index k hk
        · exact fun heq => hkj (h.slot_inj hk hj' heq)
        · exact fun heq => hki (h.slot_inj hk hi' heq)

/-! ### Sifting -/

theorem up_spec (hj : j < n) (hn : n ≤ s.expiries.length) :
    Sifts n s (s.up j) ∧ (Loose s.rank n j → Below s.rank n j → Ordered (s.up j).rank n) := by
  induction j using Nat.strong_induction_on generalizing s with
  | _ j ih =>
    rw [up]
    by_cases hstop : (j - 1) / 2 = j ∨ ¬ s.less j ((j - 1) / 2) = true
    · rw [dif_pos hstop]
      refine ⟨.refl n s, fun hloose hbelow => hloose.ordered hbelow fun hpos => ?_⟩
      rcases hstop with hroot | hless
      · omega
      · exact rank_le_of_not_less hless
    · rw [dif_neg hstop]
      obtain ⟨hroot, hless⟩ := not_or.mp hstop
      have hpos : 0 < j := by omega
      have hsifts : Sifts n s (s.swap ((j - 1) / 2) j) := swap_sifts (by omega) hj hn
      have hn' : n ≤ (s.swap ((j - 1) / 2) j).expiries.length := by rwa [swap_length]
      obtain ⟨hrest, horder⟩ := ih ((j - 1) / 2) (by omega) (by omega) hn'
      refine ⟨hsifts.trans hrest, fun hloose _ => ?_⟩
      have hparent : (j - 1) / 2 < s.expiries.length := by omega
      have hstep := hloose.swap_up (swap_rank hparent (by omega)) hpos hj rfl
        (rank_le_of_less (not_not.mp hless))
      exact horder hstep.1 hstep.2

/-- The child that `down` picks is the smaller one. -/
theorem smaller_child (h : 2 * i + 1 < n)
    (hj : j = if 2 * i + 2 < n ∧ s.less (2 * i + 2) (2 * i + 1) then 2 * i + 2 else 2 * i + 1) :
    i < j ∧ j < n ∧ parent j = i ∧ ∀ k, 0 < k → k < n → parent k = i → s.rank j ≤ s.rank k := by
  by_cases hright : 2 * i + 2 < n ∧ s.less (2 * i + 2) (2 * i + 1) = true
  · rw [if_pos hright] at hj
    subst hj
    refine ⟨by omega, hright.1, by unfold parent; omega, fun k hk _ hparent => ?_⟩
    have hk' : k = 2 * i + 1 ∨ k = 2 * i + 2 := by unfold parent at hparent; omega
    rcases hk' with rfl | rfl
    · exact rank_le_of_less hright.2
    · exact le_refl _
  · rw [if_neg hright] at hj
    subst hj
    refine ⟨by omega, h, by unfold parent; omega, fun k hk hlt hparent => ?_⟩
    have hk' : k = 2 * i + 1 ∨ k = 2 * i + 2 := by unfold parent at hparent; omega
    rcases hk' with rfl | rfl
    · exact le_refl _
    · exact rank_le_of_not_less fun hless => hright ⟨hlt, hless⟩

/-- What `down` does from position `i`: it stays there, or moves on and leaves the heap ordered. -/
structure Descends (n i : Nat) (s : ExpirySchedule) (r : ExpirySchedule × Nat) : Prop where
  sifts : Sifts n s r.1
  le : i ≤ r.2
  stays : r.2 = i → r.1 = s ∧ Below s.rank n i
  moves : i < r.2 → Loose s.rank n i → Ordered r.1.rank n
  ordered : Loose s.rank n i → Above s.rank i → Ordered r.1.rank n

theorem downFrom_spec (hn : n ≤ s.expiries.length) : Descends n i s (s.downFrom n i) := by
  induction hm : n - i using Nat.strong_induction_on generalizing s i with
  | _ m ih =>
    rw [downFrom]
    by_cases hleaf : n ≤ 2 * i + 1
    · rw [dif_pos hleaf]
      have hbelow : Below s.rank n i := by
        intro k hk hlt hparent
        unfold parent at hparent
        omega
      exact ⟨.refl n s, le_refl _, fun _ => ⟨rfl, hbelow⟩,
        fun h => absurd h (lt_irrefl _), fun hloose habove => hloose.ordered hbelow habove⟩
    · rw [dif_neg hleaf]
      generalize hj : (if 2 * i + 2 < n ∧ s.less (2 * i + 2) (2 * i + 1) = true then 2 * i + 2
        else 2 * i + 1) = j
      obtain ⟨hij, hjn, hparent, hsmaller⟩ := smaller_child (by omega) hj.symm
      by_cases hless : s.less j i = true
      · rw [if_pos hless]
        have hsifts : Sifts n s (s.swap i j) := swap_sifts (by omega) hjn hn
        have hn' : n ≤ (s.swap i j).expiries.length := by rwa [swap_length]
        have hrest := ih (n - j) (by omega) hn' rfl
        -- after the swap only the order below `j` is open
        have hmoved : Loose s.rank n i → Ordered ((s.swap i j).downFrom n j).1.rank n := by
          intro hloose
          have hstep := hloose.swap_down (swap_rank (by omega) (by omega)) (by omega) hjn hparent
            (rank_le_of_less hless) hsmaller
          exact hrest.ordered hstep.1 hstep.2
        have hle := hrest.le
        exact ⟨hsifts.trans hrest.sifts, by omega, fun h => by omega, fun _ => hmoved,
          fun hloose _ => hmoved hloose⟩
      · rw [if_neg hless]
        have hbelow : Below s.rank n i := fun k hk hlt hk' =>
          (rank_le_of_not_less hless).trans (hsmaller k hk hlt hk')
        exact ⟨.refl n s, le_refl _, fun _ => ⟨rfl, hbelow⟩,
          fun h => absurd h (lt_irrefl _), fun hloose habove => hloose.ordered hbelow habove⟩

/-- A loose position is repaired by sifting down or else up. -/
theorem settle_spec (hi : i < n) (hn : n ≤ s.expiries.length) (hloose : Loose s.rank n i) :
    Sifts n s (if (s.down i n).2 then (s.down i n).1 else (s.down i n).1.up i) ∧
      Ordered (if (s.down i n).2 then (s.down i n).1 else (s.down i n).1.up i).rank n := by
  have hdescends : Descends n i s (s.downFrom n i) := downFrom_spec hn
  unfold down
  generalize s.downFrom n i = r at hdescends ⊢
  obtain ⟨s', final⟩ := r
  simp only
  by_cases hmoved : i < final
  · simp only [hmoved, decide_true, if_true]
    exact ⟨hdescends.sifts, hdescends.moves hmoved hloose⟩
  · simp only [hmoved, decide_false, Bool.false_eq_true, if_false]
    have hle := hdescends.le
    simp only at hle
    obtain ⟨hsame, hbelow⟩ := hdescends.stays (by simp only; omega)
    simp only at hsame
    subst hsame
    obtain ⟨hsifts, hordered⟩ := up_spec hi hn
    exact ⟨hsifts, hordered hloose hbelow⟩

/-! ### The operations of the heap -/

/-- Every candidate knows its slot, and none ranks before its parent. -/
structure Heaped (s : ExpirySchedule) : Prop where
  placed : s.Placed
  ordered : Ordered s.rank s.expiries.length

/-- The pointer `p` was taken out of the heap. -/
structure Popped (p : Nat) (s s' : ExpirySchedule) : Prop where
  keeps : s.Keeps s'
  perm : (p :: s'.expiries).Perm s.expiries
  heaped : s'.Heaped

theorem popLast_spec (hplaced : s.Placed) (hne : s.expiries ≠ [])
    (hordered : Ordered s.rank (s.expiries.length - 1)) :
    s.popLast.1 = s.slot (s.expiries.length - 1) ∧ Popped s.popLast.1 s s.popLast.2 := by
  have hlength : 0 < s.expiries.length := List.length_pos_iff.mpr hne
  have hlast : s.popLast.1 = s.slot (s.expiries.length - 1) := by
    show s.expiries.getLastD 0 = s.expiries.getD (s.expiries.length - 1) 0
    grind
  have hslot : ∀ k, k < s.expiries.length - 1 → s.popLast.2.slot k = s.slot k := by
    intro k hk
    show s.expiries.dropLast.getD k 0 = s.expiries.getD k 0
    grind
  have hlen : s.popLast.2.expiries.length = s.expiries.length - 1 := List.length_dropLast
  have hkeeps : s.Keeps s.popLast.2 := by
    refine Keeps.trans ?_ (setIndex_keeps _ _ _)
    exact ⟨fun _ => rfl, fun _ => rfl, fun _ => rfl, rfl, rfl⟩
  have hitem : ∀ k, k < s.expiries.length - 1 → s.popLast.2.item k = s.item k := by
    intro k hk
    show s.popLast.2.candidates (s.popLast.2.slot k) = s.candidates (s.slot k)
    rw [hslot k hk]
    have hneq : s.slot k ≠ s.popLast.1 := by
      intro heq
      have hsame := hplaced.slot_inj (by omega) (by omega) (heq.trans hlast)
      omega
    exact Function.update_of_ne hneq ..
  have hperm : (s.popLast.1 :: s.popLast.2.expiries).Perm s.expiries := by
    have hsplit : s.expiries.dropLast ++ [s.popLast.1] = s.expiries := by
      show s.expiries.dropLast ++ [s.expiries.getLastD 0] = s.expiries
      rw [List.getLastD_eq_getLast?, List.getLast?_eq_some_getLast hne]
      exact List.dropLast_append_getLast hne
    have hrotate : (s.popLast.1 :: s.expiries.dropLast).Perm
        (s.expiries.dropLast ++ [s.popLast.1]) := (List.perm_append_singleton _ _).symm
    rwa [hsplit] at hrotate
  refine ⟨hlast, hkeeps, hperm, ⟨?_, ?_⟩, ?_⟩
  · exact (List.nodup_cons.mp (hperm.nodup_iff.mpr hplaced.nodup)).2
  · intro k hk
    rw [hlen] at hk
    rw [hitem k hk]
    exact hplaced.index k (by omega)
  · rw [hlen]
    intro k hk hlt
    have hparent := parent_lt hk
    unfold rank
    rw [hitem k hlt, hitem _ (by omega)]
    exact hordered k hk hlt

theorem Sifts.length (h : Sifts n s s') : s'.expiries.length = s.expiries.length :=
  h.perm.length_eq

theorem Sifts.popped {p : Nat} (h : Sifts n s s') (hp : Popped p s' s'') : Popped p s s'' :=
  ⟨h.toKeeps.trans hp.keeps, hp.perm.trans h.perm, hp.heaped⟩

/-- The swap with the last slot leaves position `i` of the rest loose. -/
theorem Heaped.loose_swap (h : s.Heaped) (hi : i < s.expiries.length) :
    Loose (s.swap i (s.expiries.length - 1)).rank (s.expiries.length - 1) i := by
  refine (h.ordered.mono (Nat.sub_le _ 1)).loose fun k hk hki => ?_
  rw [swap_rank hi (by omega), Equiv.swap_apply_of_ne_of_ne hki (by omega)]

theorem pop_spec (h : s.Heaped) (hne : s.expiries ≠ []) :
    s.pop.1 = s.slot 0 ∧ Popped s.pop.1 s s.pop.2 := by
  have hlength : 0 < s.expiries.length := List.length_pos_iff.mpr hne
  have hlast : s.expiries.length - 1 < s.expiries.length := by omega
  have hswap : Sifts s.expiries.length s (s.swap 0 (s.expiries.length - 1)) :=
    swap_sifts hlength hlast (le_refl _)
  have hdown : Descends (s.expiries.length - 1) 0 (s.swap 0 (s.expiries.length - 1))
      ((s.swap 0 (s.expiries.length - 1)).downFrom (s.expiries.length - 1) 0) :=
    downFrom_spec (by rw [hswap.length]; omega)
  have hordered := hdown.ordered (h.loose_swap hlength) fun hpos => absurd hpos (lt_irrefl _)
  have hpop : s.pop = ((s.swap 0 (s.expiries.length - 1)).downFrom
      (s.expiries.length - 1) 0).1.popLast := rfl
  rw [hpop]
  generalize (s.swap 0 (s.expiries.length - 1)).downFrom (s.expiries.length - 1) 0 = r
    at hdown hordered ⊢
  have hlen : r.1.expiries.length = s.expiries.length := hdown.sifts.length.trans hswap.length
  have hne' : r.1.expiries ≠ [] := List.length_pos_iff.mp (by omega)
  obtain ⟨hfirst, hpopped⟩ := popLast_spec (hdown.sifts.placed (hswap.placed h.placed)) hne'
    (by rw [hlen]; exact hordered)
  refine ⟨?_, hswap.popped (hdown.sifts.popped hpopped)⟩
  -- what was in front is now in the last slot
  rw [hfirst, hlen, hdown.sifts.rest _ (le_refl _), swap_slot hlength hlast,
    Equiv.swap_apply_right]

theorem remove_spec (h : s.Heaped) (hi : i < s.expiries.length) :
    Popped (s.slot i) s (s.remove i) := by
  have hlast : s.expiries.length - 1 < s.expiries.length := by omega
  have hremove : s.remove i = (if s.expiries.length - 1 ≠ i then
      if ((s.swap i (s.expiries.length - 1)).down i (s.expiries.length - 1)).2 then
        ((s.swap i (s.expiries.length - 1)).down i (s.expiries.length - 1)).1
      else ((s.swap i (s.expiries.length - 1)).down i (s.expiries.length - 1)).1.up i
    else s).popLast.2 := rfl
  rw [hremove]
  by_cases hlasti : s.expiries.length - 1 = i
  · rw [if_neg (not_not.mpr hlasti)]
    obtain ⟨hfirst, hpopped⟩ := popLast_spec h.placed (List.length_pos_iff.mp (by omega))
      (h.ordered.mono (Nat.sub_le _ 1))
    rw [hfirst, hlasti] at hpopped
    exact hpopped
  · have hswap : Sifts s.expiries.length s (s.swap i (s.expiries.length - 1)) :=
      swap_sifts hi hlast (le_refl _)
    obtain ⟨hsifts, hordered⟩ := settle_spec (s := s.swap i (s.expiries.length - 1))
      (by omega) (by rw [hswap.length]; omega) (h.loose_swap hi)
    rw [if_pos hlasti]
    generalize (if ((s.swap i (s.expiries.length - 1)).down i (s.expiries.length - 1)).2 = true then
        ((s.swap i (s.expiries.length - 1)).down i (s.expiries.length - 1)).1
      else ((s.swap i (s.expiries.length - 1)).down i (s.expiries.length - 1)).1.up i) = s'
      at hsifts hordered ⊢
    have hlen : s'.expiries.length = s.expiries.length := hsifts.length.trans hswap.length
    have hne : s'.expiries ≠ [] := List.length_pos_iff.mp (by omega)
    obtain ⟨hfirst, hpopped⟩ := popLast_spec (hsifts.placed (hswap.placed h.placed)) hne
      (by rw [hlen]; exact hordered)
    rw [hfirst, hlen, hsifts.rest _ (le_refl _), swap_slot hi hlast, Equiv.swap_apply_right]
      at hpopped
    exact hswap.popped (hsifts.popped hpopped)

theorem fix_spec (hplaced : s.Placed) (hi : i < s.expiries.length)
    (hloose : Loose s.rank s.expiries.length i) :
    s.Keeps (s.fix i) ∧ (s.fix i).expiries.Perm s.expiries ∧ (s.fix i).Heaped := by
  obtain ⟨hsifts, hordered⟩ := settle_spec hi (le_refl _) hloose
  have hfix : s.fix i = if (s.down i s.expiries.length).2 then (s.down i s.expiries.length).1
      else (s.down i s.expiries.length).1.up i := rfl
  rw [hfix]
  exact ⟨hsifts.toKeeps, hsifts.perm, hsifts.placed hplaced, by rw [hsifts.length]; exact hordered⟩

theorem push_spec {p : Nat} (h : s.Heaped) (hp : p ∉ s.expiries) :
    s.Keeps (s.push p) ∧ (s.push p).expiries.Perm (p :: s.expiries) ∧ (s.push p).Heaped := by
  let grown : ExpirySchedule :=
    { s with expiries := s.expiries ++ [p] }.setIndex p s.expiries.length
  have hkeeps : s.Keeps grown := by
    refine Keeps.trans ?_ (setIndex_keeps _ _ _)
    exact ⟨fun _ => rfl, fun _ => rfl, fun _ => rfl, rfl, rfl⟩
  have hlen : grown.expiries.length = s.expiries.length + 1 := List.length_append
  have hperm : grown.expiries.Perm (p :: s.expiries) := List.perm_append_singleton _ _
  have hslot : ∀ k, k < s.expiries.length → grown.slot k = s.slot k := by
    intro k hk
    show (s.expiries ++ [p]).getD k 0 = s.expiries.getD k 0
    grind
  have hend : grown.slot s.expiries.length = p := by
    show (s.expiries ++ [p]).getD s.expiries.length 0 = p
    grind
  have hitem : ∀ k, k < s.expiries.length → grown.item k = s.item k := by
    intro k hk
    show grown.candidates (grown.slot k) = s.candidates (s.slot k)
    rw [hslot k hk]
    have hmem : s.slot k ∈ s.expiries := by
      show s.expiries.getD k 0 ∈ s.expiries
      grind
    have hneq : s.slot k ≠ p := fun heq => hp (heq ▸ hmem)
    exact Function.update_of_ne hneq ..
  have hplaced : grown.Placed := by
    refine ⟨hperm.nodup_iff.mpr (List.nodup_cons.mpr ⟨hp, h.placed.nodup⟩), fun k hk => ?_⟩
    by_cases hk' : k < s.expiries.length
    · rw [hitem k hk']
      exact h.placed.index k hk'
    · obtain rfl : k = s.expiries.length := by omega
      show (grown.candidates (grown.slot s.expiries.length)).index = s.expiries.length
      have hwritten : grown.candidates p
          = { s.candidates p with index := s.expiries.length } := Function.update_self ..
      rw [hend, hwritten]
  -- the new last slot has no children
  have hloose : Loose grown.rank (s.expiries.length + 1) s.expiries.length := by
    constructor
    · intro k hk hlt hne _
      have hparent := parent_lt hk
      unfold rank
      rw [hitem k (by omega), hitem _ (by omega)]
      exact h.ordered k hk (by omega)
    · intro k hk hlt hparent _
      have hlt' := parent_lt hk
      omega
  have hbelow : Below grown.rank (s.expiries.length + 1) s.expiries.length := by
    intro k hk hlt hparent
    have hlt' := parent_lt hk
    omega
  obtain ⟨hsifts, hordered⟩ := up_spec (s := grown) (j := s.expiries.length)
    (Nat.lt_succ_self _) (by rw [hlen])
  have hpush : s.push p = grown.up s.expiries.length := rfl
  rw [hpush]
  refine ⟨hkeeps.trans hsifts.toKeeps, hsifts.perm.trans hperm, hsifts.placed hplaced, ?_⟩
  rw [hsifts.length, hlen]
  exact hordered hloose hbelow

end GapDB.ExpirySchedule
