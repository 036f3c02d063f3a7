import GapDB.Storelib.Bytes
import Mathlib.Data.List.TakeWhile

/-!
# Numbers and byte strings as text

Decimal numerals of fixed and of least width, lowercase hexadecimal, and the pieces of a strict
parser: a literal, a quoted string without escapes, and a numeral.
-/

namespace Storelib

variable {n : Nat} {b : Byte} {bs : Bytes}

/-! ### Decimal numerals -/

def digit (n : Nat) : Byte := Fin.ofNat 256 (48 + n % 10)

def isDigit (b : Byte) : Bool := 48 ≤ b.val && b.val ≤ 57

/-- The `w` low-order decimal digits of `n`, most significant first. -/
def paddedDecimal : Nat → Nat → Bytes
  | 0, _ => []
  | w + 1, n => digit (n / 10 ^ w) :: paddedDecimal w n

/-- The number a string of digits denotes. -/
def decimalValue (bs : Bytes) : Nat := bs.foldl (fun acc b => 10 * acc + (b.val - 48)) 0

/-- The numeral of a number below `10 ^ 20`, without leading zeros. -/
def decimal (n : Nat) : Bytes :=
  match (paddedDecimal 20 n).dropWhile (· == 48) with
  | [] => [48]
  | digits => digits

theorem digit_val (n : Nat) : (digit n).val = 48 + n % 10 := by
  simp only [digit, Fin.ofNat_eq_cast, Fin.val_natCast]
  omega

theorem isDigit_digit (n : Nat) : isDigit (digit n) = true := by
  simp only [isDigit, digit_val, Bool.and_eq_true, decide_eq_true_eq]
  omega

@[simp] theorem paddedDecimal_length (w n : Nat) : (paddedDecimal w n).length = w := by
  induction w with
  | zero => rfl
  | succ w ih => simp [paddedDecimal, ih]

theorem isDigit_of_mem_padded {w : Nat} (h : b ∈ paddedDecimal w n) : isDigit b = true := by
  induction w with
  | zero => simp [paddedDecimal] at h
  | succ w ih =>
    rcases List.mem_cons.mp h with rfl | h
    · exact isDigit_digit _
    · exact ih h

private theorem foldl_decimal (bs : Bytes) (acc : Nat) :
    bs.foldl (fun acc b => 10 * acc + (b.val - 48)) acc
      = acc * 10 ^ bs.length + decimalValue bs := by
  induction bs generalizing acc with
  | nil => simp [decimalValue]
  | cons b bs ih =>
    simp only [List.foldl_cons, List.length_cons, decimalValue]
    rw [ih, ih (10 * 0 + (b.val - 48))]
    ring

theorem decimalValue_cons (b : Byte) (bs : Bytes) :
    decimalValue (b :: bs) = (b.val - 48) * 10 ^ bs.length + decimalValue bs := by
  simpa [decimalValue] using foldl_decimal bs (b.val - 48)

theorem decimalValue_padded_mod (w n : Nat) : decimalValue (paddedDecimal w n) = n % 10 ^ w := by
  induction w with
  | zero => simp [paddedDecimal, decimalValue, Nat.mod_one]
  | succ w ih =>
    rw [paddedDecimal, decimalValue_cons, paddedDecimal_length, ih, digit_val, Nat.mod_pow_succ]
    have hdigit : 48 + n / 10 ^ w % 10 - 48 = n / 10 ^ w % 10 := by omega
    rw [hdigit]
    ring

theorem decimalValue_padded {w : Nat} (h : n < 10 ^ w) : decimalValue (paddedDecimal w n) = n := by
  rw [decimalValue_padded_mod, Nat.mod_eq_of_lt h]

theorem paddedDecimal_injective {w m : Nat} (hm : m < 10 ^ w) (hn : n < 10 ^ w)
    (h : paddedDecimal w m = paddedDecimal w n) : m = n := by
  rw [← decimalValue_padded hm, h, decimalValue_padded hn]

/-- Leading zeros do not count. -/
theorem decimalValue_dropWhile (bs : Bytes) :
    decimalValue (bs.dropWhile (· == 48)) = decimalValue bs := by
  induction bs with
  | nil => rfl
  | cons b bs ih =>
    by_cases hb : b = 48
    · subst hb
      rw [List.dropWhile_cons_of_pos (by simp), ih, decimalValue_cons]
      simp
    · rw [List.dropWhile_cons_of_neg (by simpa using hb)]

theorem decimal_eq (n : Nat) :
    decimal n = [48] ∧ (paddedDecimal 20 n).dropWhile (· == 48) = [] ∨
      decimal n = (paddedDecimal 20 n).dropWhile (· == 48) := by
  unfold decimal
  split
  · next h => exact .inl ⟨rfl, h⟩
  · exact .inr rfl

theorem decimalValue_decimal (h : n < 10 ^ 20) : decimalValue (decimal n) = n := by
  have hvalue := decimalValue_dropWhile (paddedDecimal 20 n)
  rw [decimalValue_padded h] at hvalue
  rcases decimal_eq n with ⟨heq, hnil⟩ | heq
  · rw [hnil] at hvalue
    rw [heq, ← hvalue]
    rfl
  · rw [heq, hvalue]

theorem isDigit_of_mem_decimal (h : b ∈ decimal n) : isDigit b = true := by
  rcases decimal_eq n with ⟨heq, _⟩ | heq
  · rw [heq, List.mem_singleton] at h
    subst h
    decide
  · rw [heq] at h
    exact isDigit_of_mem_padded ((List.dropWhile_suffix _).subset h)

theorem decimal_length_le (n : Nat) : (decimal n).length ≤ 20 := by
  rcases decimal_eq n with ⟨heq, _⟩ | heq
  · simp [heq]
  · rw [heq]
    simpa using (List.dropWhile_suffix (fun b : Byte => b == 48)
      (l := paddedDecimal 20 n)).length_le

/-- Filling the numeral up with zeros gives the numeral of fixed width. -/
theorem replicate_append_decimal (n : Nat) :
    List.replicate (20 - (decimal n).length) (48 : Byte) ++ decimal n = paddedDecimal 20 n := by
  have hsplit := List.takeWhile_append_dropWhile (p := fun b : Byte => b == 48)
    (l := paddedDecimal 20 n)
  have hzeros : (paddedDecimal 20 n).takeWhile (· == 48)
      = List.replicate ((paddedDecimal 20 n).takeWhile (· == 48)).length 48 :=
    List.eq_replicate_of_mem fun b hb => by simpa using List.mem_takeWhile_imp hb
  have hlength := congrArg List.length hsplit
  rw [List.length_append, paddedDecimal_length] at hlength
  rcases decimal_eq n with ⟨heq, hnil⟩ | heq
  · rw [hnil, List.append_nil] at hsplit
    rw [hnil, List.length_nil, Nat.add_zero] at hlength
    rw [heq, ← hsplit, hzeros, hlength]
    rfl
  · rw [heq]
    conv_rhs => rw [← hsplit, hzeros]
    congr 2
    omega

/-! ### Hexadecimal -/

def hexDigit (n : Nat) : Byte := if n < 10 then Fin.ofNat 256 (48 + n) else Fin.ofNat 256 (87 + n)

def hexEncode (bs : Bytes) : Bytes :=
  bs.flatMap fun b => [hexDigit (b.val / 16), hexDigit (b.val % 16)]

/-- The value of a hexadecimal digit of either case. -/
def hexValue (b : Byte) : Option Nat :=
  if 48 ≤ b.val ∧ b.val ≤ 57 then some (b.val - 48)
  else if 97 ≤ b.val ∧ b.val ≤ 102 then some (b.val - 87)
  else if 65 ≤ b.val ∧ b.val ≤ 70 then some (b.val - 55)
  else none

def hexDecode : Bytes → Option Bytes
  | [] => some []
  | [_] => none
  | high :: low :: rest =>
    match hexValue high, hexValue low, hexDecode rest with
    | some h, some l, some decoded => some (Fin.ofNat 256 (16 * h + l) :: decoded)
    | _, _, _ => none

def toLower (bs : Bytes) : Bytes :=
  bs.map fun b => if 65 ≤ b.val ∧ b.val ≤ 90 then Fin.ofNat 256 (b.val + 32) else b

theorem hexValue_hexDigit : ∀ n < 16, hexValue (hexDigit n) = some n := by decide

theorem hexDecode_hexEncode (bs : Bytes) : hexDecode (hexEncode bs) = some bs := by
  induction bs with
  | nil => rfl
  | cons b bs ih =>
    have hhigh := hexValue_hexDigit (b.val / 16) (by omega)
    have hlow := hexValue_hexDigit (b.val % 16) (by omega)
    change hexDecode (hexDigit (b.val / 16) :: hexDigit (b.val % 16) :: hexEncode bs) = _
    rw [hexDecode, hhigh, hlow, ih]
    simp only [Option.some.injEq, List.cons.injEq, and_true]
    apply Fin.ext
    simp only [Fin.ofNat_eq_cast, Fin.val_natCast]
    omega

theorem hexEncode_length (bs : Bytes) : (hexEncode bs).length = 2 * bs.length := by
  induction bs with
  | nil => rfl
  | cons b bs ih =>
    change (hexDigit _ :: hexDigit _ :: hexEncode bs).length = _
    simp only [List.length_cons, ih]
    omega

theorem hexDigit_cases : ∀ n < 16, 48 ≤ (hexDigit n).val ∧ (hexDigit n).val ≤ 57 ∨
    97 ≤ (hexDigit n).val ∧ (hexDigit n).val ≤ 102 := by decide

theorem mem_hexEncode (h : b ∈ hexEncode bs) :
    48 ≤ b.val ∧ b.val ≤ 57 ∨ 97 ≤ b.val ∧ b.val ≤ 102 := by
  obtain ⟨c, _, hb⟩ := List.mem_flatMap.mp h
  simp only [List.mem_cons, List.not_mem_nil, or_false] at hb
  rcases hb with rfl | rfl
  · exact hexDigit_cases _ (by omega)
  · exact hexDigit_cases _ (by omega)

theorem toLower_hexEncode (bs : Bytes) : toLower (hexEncode bs) = hexEncode bs := by
  have hid : ∀ b ∈ hexEncode bs,
      (if 65 ≤ b.val ∧ b.val ≤ 90 then Fin.ofNat 256 (b.val + 32) else b) = b := by
    intro b hb
    have := mem_hexEncode hb
    rw [if_neg (by omega)]
  rw [toLower, List.map_congr_left hid, List.map_id']

/-- A lowercase digit is the digit of its value. -/
theorem hexDigit_of_hexValue (h : hexValue b = some n)
    (hlower : ¬ (65 ≤ b.val ∧ b.val ≤ 90)) : n < 16 ∧ hexDigit n = b := by
  unfold hexValue at h
  split at h
  · next hdigit =>
    rw [Option.some.injEq] at h
    subst h
    refine ⟨by omega, Fin.ext ?_⟩
    rw [hexDigit, if_pos (by omega)]
    simp only [Fin.ofNat_eq_cast, Fin.val_natCast]
    omega
  · split at h
    · next hletter =>
      rw [Option.some.injEq] at h
      subst h
      refine ⟨by omega, Fin.ext ?_⟩
      rw [hexDigit, if_neg (by omega)]
      simp only [Fin.ofNat_eq_cast, Fin.val_natCast]
      omega
    · split at h
      · next hupper => exact absurd ⟨hupper.1, by omega⟩ hlower
      · cases h

theorem not_upper_of_toLower_eq (h : bs = toLower bs) : ∀ b ∈ bs, ¬ (65 ≤ b.val ∧ b.val ≤ 90) := by
  intro b hb hupper
  rw [h, toLower, List.mem_map] at hb
  obtain ⟨c, -, hc⟩ := hb
  split at hc
  · have hval := congrArg Fin.val hc
    simp only [Fin.ofNat_eq_cast, Fin.val_natCast] at hval
    omega
  · next hlower => exact hlower (hc ▸ hupper)

/-- Lowercase hexadecimal is the encoding of what it decodes to. -/
theorem hexEncode_of_hexDecode {decoded : Bytes} (h : hexDecode bs = some decoded)
    (hlower : ∀ b ∈ bs, ¬ (65 ≤ b.val ∧ b.val ≤ 90)) : bs = hexEncode decoded := by
  fun_induction hexDecode bs generalizing decoded with
  | case1 =>
    rw [Option.some.injEq] at h
    subst h
    rfl
  | case2 => cases h
  | case3 high low rest m l decoded' hrest hl hm ih =>
    rw [Option.some.injEq] at h
    subst h
    simp only [List.forall_mem_cons] at hlower
    obtain ⟨hm16, hhigh⟩ := hexDigit_of_hexValue hm hlower.1
    obtain ⟨hl16, hlow⟩ := hexDigit_of_hexValue hl hlower.2.1
    have hval : (Fin.ofNat 256 (16 * m + l)).val = 16 * m + l := by
      simp only [Fin.ofNat_eq_cast, Fin.val_natCast]
      omega
    have hdiv : (16 * m + l) / 16 = m := by omega
    have hmod : (16 * m + l) % 16 = l := by omega
    change _ = hexDigit _ :: hexDigit _ :: hexEncode decoded'
    rw [hval, hdiv, hmod, hhigh, hlow, ← ih hrest hlower.2.2]
  | case4 => cases h

/-! ### Strict parsing -/

/-- What follows the literal. -/
def expect (literal bs : Bytes) : Option Bytes :=
  if literal.isPrefixOf bs then some (bs.drop literal.length) else none

@[simp] theorem expect_append (literal rest : Bytes) :
    expect literal (literal ++ rest) = some rest := by
  simp [expect, List.isPrefixOf_iff_prefix]

/-- Printable characters that stand for themselves in a quoted string. -/
def plain (b : Byte) : Bool :=
  32 ≤ b.val && b.val < 127 && !([34, 38, 60, 62, 92].contains b.val)

/-- A quoted string without escapes, and what follows it. -/
def quoted (bs : Bytes) : Option (Bytes × Bytes) :=
  match bs with
  | [] => none
  | quote :: rest =>
    match rest.dropWhile plain with
    | [] => none
    | close :: rest' =>
      if quote = 34 ∧ close = 34 then some (rest.takeWhile plain, rest') else none

theorem quoted_append {s : Bytes} (h : ∀ b ∈ s, plain b = true) (rest : Bytes) :
    quoted (34 :: (s ++ 34 :: rest)) = some (s, rest) := by
  have hdrop : (s ++ 34 :: rest).dropWhile plain = 34 :: rest := by
    rw [List.dropWhile_append_of_pos h]
    rfl
  have htake : (s ++ 34 :: rest).takeWhile plain = s := by
    rw [List.takeWhile_append_of_pos h]
    simp [plain]
  simp only [quoted, hdrop, htake]
  rfl

/-- A numeral of least width for a 64-bit number, and what follows it. -/
def numeral (bs : Bytes) : Option (Nat × Bytes) :=
  let digits := bs.takeWhile isDigit
  let value := decimalValue digits
  if digits = decimal value ∧ value < 2 ^ 64 then some (value, bs.dropWhile isDigit) else none

theorem numeral_append (hn : n < 2 ^ 64) (hb : isDigit b = false)
    (rest : Bytes) : numeral (decimal n ++ b :: rest) = some (n, b :: rest) := by
  have hdigits : ∀ c ∈ decimal n, isDigit c = true := fun c => isDigit_of_mem_decimal
  have htake : (decimal n ++ b :: rest).takeWhile isDigit = decimal n := by
    rw [List.takeWhile_append_of_pos hdigits]
    simp [hb]
  have hdrop : (decimal n ++ b :: rest).dropWhile isDigit = b :: rest := by
    rw [List.dropWhile_append_of_pos hdigits]
    simp [hb]
  have hvalue : decimalValue (decimal n) = n := decimalValue_decimal (hn.trans (by decide))
  simp only [numeral, htake, hdrop, hvalue, true_and, if_pos hn]

/-! ### What a strict parser has read -/

theorem lt_of_numeral {rest : Bytes} (h : numeral bs = some (n, rest)) : n < 2 ^ 64 := by
  simp only [numeral] at h
  split at h
  · next hvalue =>
    rw [Option.some.injEq, Prod.mk.injEq] at h
    exact h.1 ▸ hvalue.2
  · cases h

end Storelib
