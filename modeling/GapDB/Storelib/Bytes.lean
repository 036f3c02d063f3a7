import Mathlib.Data.List.Lex
import Mathlib.Data.Fin.Basic
import Mathlib.Tactic.Ring

/-!
# Byte strings and big-endian words

Byte strings are lists of `Fin 256`, ordered lexicographically. `putUint w n`
writes the `w` low-order bytes of `n` most significant first, `uint` reads such a
word back, and `slice` is the half-open sub-string a decoder reads a field from.
-/

namespace Storelib

abbrev Byte := Fin 256

abbrev Bytes := List Byte

instance byteNeZero : NeZero 256 := ⟨by decide⟩

instance byteLawful : LawfulBEq Byte := inferInstance

instance bytesLawful : LawfulBEq Bytes := inferInstance

/-- The bytes of an ASCII literal. -/
def ascii (s : String) : Bytes := s.toList.map fun c => Fin.ofNat 256 c.toNat

/-- The `w` low-order bytes of `n`, most significant first. -/
def putUint : Nat → Nat → Bytes
  | 0, _ => []
  | w + 1, n => Fin.ofNat 256 (n / 256 ^ w) :: putUint w n

/-- The number a big-endian byte string denotes. -/
def uint (bs : Bytes) : Nat := bs.foldl (fun acc b => 256 * acc + b.val) 0

/-- The bytes at the positions `i ≤ p < j`. -/
def slice (bs : Bytes) (i j : Nat) : Bytes := (bs.drop i).take (j - i)

def allZero (bs : Bytes) : Bool := bs.all (· == 0)

@[simp] theorem putUint_length (w n : Nat) : (putUint w n).length = w := by
  induction w with
  | zero => rfl
  | succ w ih => simp [putUint, ih]

private theorem foldl_shift (bs : Bytes) (acc : Nat) :
    bs.foldl (fun acc b => 256 * acc + b.val) acc = acc * 256 ^ bs.length + uint bs := by
  induction bs generalizing acc with
  | nil => simp [uint]
  | cons b bs ih =>
    simp only [List.foldl_cons, List.length_cons, uint]
    rw [ih, ih (256 * 0 + b.val)]
    ring

theorem uint_cons (b : Byte) (bs : Bytes) :
    uint (b :: bs) = b.val * 256 ^ bs.length + uint bs := by
  have h := foldl_shift bs b.val
  simpa [uint] using h

theorem uint_lt (bs : Bytes) : uint bs < 256 ^ bs.length := by
  induction bs with
  | nil => simp [uint]
  | cons b bs ih =>
    rw [uint_cons, List.length_cons, Nat.pow_succ]
    have hb : b.val * 256 ^ bs.length ≤ 255 * 256 ^ bs.length :=
      Nat.mul_le_mul_right _ (by omega)
    omega

/-- Writing keeps exactly the low-order part. -/
theorem uint_putUint_mod (w n : Nat) : uint (putUint w n) = n % 256 ^ w := by
  induction w with
  | zero => simp [putUint, uint, Nat.mod_one]
  | succ w ih =>
    rw [putUint, uint_cons, putUint_length, ih, Nat.mod_pow_succ]
    simp only [Fin.ofNat_eq_cast, Fin.val_natCast]
    ring

theorem uint_putUint {w n : Nat} (h : n < 256 ^ w) : uint (putUint w n) = n := by
  rw [uint_putUint_mod, Nat.mod_eq_of_lt h]

theorem putUint_mod (w n : Nat) : putUint w (n % 256 ^ w) = putUint w n := by
  suffices h : ∀ k, w ≤ k → putUint w (n % 256 ^ k) = putUint w n from h w le_rfl
  induction w with
  | zero => intro k _; rfl
  | succ w ih =>
    intro k hk
    rw [putUint, putUint, ih k (by omega)]
    congr 1
    have hsplit : 256 ^ k = 256 ^ w * (256 * 256 ^ (k - w - 1)) := by
      rw [← Nat.pow_succ', ← Nat.pow_add]
      congr 1
      omega
    apply Fin.ext
    simp only [Fin.ofNat_eq_cast, Fin.val_natCast]
    rw [hsplit, Nat.mod_mul_right_div_self, Nat.mod_mul_right_mod]

/-- A word of full width is the encoding of the number it denotes. -/
theorem putUint_uint (bs : Bytes) : putUint bs.length (uint bs) = bs := by
  induction bs with
  | nil => rfl
  | cons b bs ih =>
    have hpos : 0 < 256 ^ bs.length := Nat.pow_pos (by decide)
    have hlt := uint_lt bs
    have hdiv : (b.val * 256 ^ bs.length + uint bs) / 256 ^ bs.length = b.val := by
      rw [Nat.add_comm, Nat.add_mul_div_right _ _ hpos, Nat.div_eq_of_lt hlt, Nat.zero_add]
    have hmod : (b.val * 256 ^ bs.length + uint bs) % 256 ^ bs.length = uint bs := by
      rw [Nat.add_comm, Nat.add_mul_mod_self_right, Nat.mod_eq_of_lt hlt]
    rw [uint_cons, List.length_cons, putUint, hdiv, ← putUint_mod, hmod, ih]
    congr 1
    apply Fin.ext
    simp [Fin.ofNat_eq_cast]

/-- Two's complement: a number in the signed range survives its unsigned representative. -/
theorem bmod_toNat_emod {m : Nat} {i : Int} (hm : 0 < m) (hi : i.bmod m = i) :
    (((i.bmod m % (m : Int)).toNat : Nat) : Int).bmod m = i := by
  have hnonneg : 0 ≤ i % (m : Int) := Int.emod_nonneg _ (by omega)
  rw [hi, Int.toNat_of_nonneg hnonneg, Int.emod_bmod, hi]

theorem slice_length (bs : Bytes) (i j : Nat) (h : j ≤ bs.length) :
    (slice bs i j).length = j - i := by
  simp only [slice, List.length_take, List.length_drop]
  omega

/-- A slice that ends inside a prefix does not see what follows it. -/
theorem slice_append_left (as bs : Bytes) (i j : Nat) (h : j ≤ as.length) :
    slice (as ++ bs) i j = slice as i j := by
  by_cases hi : i ≤ as.length
  · simp only [slice, List.drop_append_of_le_length hi]
    rw [List.take_append_of_le_length (by simp only [List.length_drop]; omega)]
  · have hz : j - i = 0 := by omega
    simp [slice, hz]

/-- A slice that starts behind a prefix does not see that prefix. -/
theorem slice_append_right (as bs : Bytes) (i j : Nat) (h : as.length ≤ i) :
    slice (as ++ bs) i j = slice bs (i - as.length) (j - as.length) := by
  have hj : j - as.length - (i - as.length) = j - i := by omega
  simp only [slice, hj, List.drop_append, List.drop_of_length_le h, List.nil_append]

/-- The leading field of a concatenation. -/
theorem slice_append_exact (as bs : Bytes) (j : Nat) (h : as.length = j) :
    slice (as ++ bs) 0 j = as := by
  subst h
  simp [slice]

theorem slice_of_isPrefix {as bs : Bytes} (h : as <+: bs) : slice bs 0 as.length = as := by
  obtain ⟨behind, rfl⟩ := h
  exact slice_append_exact _ _ _ rfl

theorem slice_exact (as : Bytes) (j : Nat) (h : as.length = j) : slice as 0 j = as := by
  subst h
  simp [slice]

theorem slice_take (bs : Bytes) (i j n : Nat) (h : j ≤ n) :
    slice (bs.take n) i j = slice bs i j := by
  simp only [slice, List.drop_take, List.take_take]
  congr 1
  omega

/-- Two words of the same width that denote the same number are the same. -/
theorem uint_injective {as bs : Bytes} (hlen : as.length = bs.length) (h : uint as = uint bs) :
    as = bs := by
  rw [← putUint_uint as, ← putUint_uint bs, hlen, h]

/-! ### Reading a byte string back as its fields -/

theorem slice_append_drop (bs : Bytes) {i j : Nat} (h : i ≤ j) :
    slice bs i j ++ bs.drop j = bs.drop i := by
  have hdrop : bs.drop j = (bs.drop i).drop (j - i) := by
    rw [List.drop_drop]
    congr 1
    omega
  rw [slice, hdrop, List.take_append_drop]

/-- Two neighbouring slices. -/
theorem slice_append_slice (bs : Bytes) {i j k : Nat} (hij : i ≤ j) (hjk : j ≤ k) :
    slice bs i j ++ slice bs j k = slice bs i k := by
  have hsplit : bs.drop i = slice bs i j ++ (slice bs j k ++ bs.drop k) := by
    rw [slice_append_drop bs hjk, slice_append_drop bs hij]
  have hwhole := slice_append_drop bs (hij.trans hjk)
  rw [hsplit, ← List.append_assoc] at hwhole
  exact (List.append_cancel_right hwhole).symm

/-- A word is what was written if it has the width and denotes the number. -/
theorem slice_eq_putUint {bs : Bytes} {i j w n : Nat} (hlen : j ≤ bs.length) (hw : j - i = w)
    (h : uint (slice bs i j) = n) : slice bs i j = putUint w n := by
  have hword := putUint_uint (slice bs i j)
  rw [slice_length bs i j hlen, hw, h] at hword
  exact hword.symm

/-- A field is the word it is read as. -/
theorem slice_eq_word (bs : Bytes) (i j : Nat) {w : Nat} (hlen : j ≤ bs.length) (hw : j - i = w) :
    slice bs i j = putUint w (uint (slice bs i j)) :=
  slice_eq_putUint hlen hw rfl

theorem uint_slice_lt (bs : Bytes) {i j : Nat} (w : Nat) (hlen : j ≤ bs.length) (hw : j - i = w) :
    uint (slice bs i j) < 256 ^ w := by
  have h := uint_lt (slice bs i j)
  rwa [slice_length bs i j hlen, hw] at h

theorem uint_of_allZero {bs : Bytes} (h : allZero bs) : uint bs = 0 := by
  induction bs with
  | nil => rfl
  | cons b bs ih =>
    simp only [allZero, List.all_cons, Bool.and_eq_true, beq_iff_eq] at h
    rw [uint_cons, ih (by simpa [allZero] using h.2), h.1]
    simp

/-- Reserved bytes that are zero, as they were written. -/
theorem slice_eq_zeros {bs : Bytes} {i j w : Nat} (hlen : j ≤ bs.length) (hw : j - i = w)
    (h : allZero (slice bs i j)) : slice bs i j = putUint w 0 :=
  slice_eq_putUint hlen hw (uint_of_allZero h)

theorem allZero_putUint (w : Nat) : allZero (putUint w 0) = true := by
  induction w with
  | zero => rfl
  | succ w ih =>
    rw [putUint, Nat.zero_div]
    simpa [allZero] using ih

theorem eq_replicate_of_allZero {bs : Bytes} (h : allZero bs) :
    bs = List.replicate bs.length 0 := by
  rw [List.eq_replicate_iff]
  refine ⟨rfl, fun b hb => ?_⟩
  simpa using List.all_eq_true.mp h b hb

/-! ### The parts of a byte string -/

/-- From position `i` on these parts stand one behind the other. -/
def Carries (bs : Bytes) : Nat → List Bytes → Prop
  | _, [] => True
  | i, part :: parts => slice bs i (i + part.length) = part ∧ Carries bs (i + part.length) parts

theorem carries_iff {bs : Bytes} {i : Nat} {parts : List Bytes} :
    Carries bs i parts ↔ parts.flatten <+: bs.drop i := by
  induction parts generalizing i with
  | nil => simp [Carries]
  | cons part parts ih =>
    rw [Carries, ih, slice, Nat.add_sub_cancel_left, ← List.drop_drop, List.flatten_cons]
    constructor
    · rintro ⟨hpart, hparts⟩
      rw [← List.take_append_drop part.length (bs.drop i), hpart]
      exact (List.prefix_append_right_inj part).mpr hparts
    · rintro ⟨behind, hdrop⟩
      rw [← hdrop, List.append_assoc, List.take_left, List.drop_left]
      exact ⟨rfl, List.prefix_append _ _⟩

/-- A byte string of the right length that carries all its parts. -/
theorem eq_flatten_iff {bs : Bytes} {parts : List Bytes} :
    bs = parts.flatten ↔ bs.length = parts.flatten.length ∧ Carries bs 0 parts := by
  rw [carries_iff, List.drop_zero]
  constructor
  · rintro rfl
    exact ⟨rfl, List.prefix_rfl⟩
  · rintro ⟨hlength, hparts⟩
    exact (hparts.eq_of_length hlength.symm).symm

/-! ### Slices around a changed byte -/

theorem slice_set_of_lt (bs : Bytes) (b : Byte) {p i j : Nat} (h : p < i) :
    slice (bs.set p b) i j = slice bs i j := by
  rw [slice, slice, List.drop_set, if_pos h]

theorem slice_set_of_le (bs : Bytes) (b : Byte) {p i j : Nat} (h : j ≤ p) :
    slice (bs.set p b) i j = slice bs i j := by
  by_cases hp : p < i
  · exact slice_set_of_lt bs b hp
  · rw [slice, slice, List.drop_set, if_neg hp, List.take_set, List.set_eq_of_length_le]
    simp only [List.length_take]
    omega

theorem slice_set_inside (bs : Bytes) (b : Byte) {p i j : Nat} (hi : i ≤ p) :
    slice (bs.set p b) i j = (slice bs i j).set (p - i) b := by
  rw [slice, slice, List.drop_set, if_neg (not_lt.mpr hi), List.take_set]

end Storelib
