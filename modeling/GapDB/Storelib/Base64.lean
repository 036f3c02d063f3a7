import GapDB.Storelib.Bytes

/-!
# Base64 for URLs, without padding

Three bytes are four digits of six bits; one or two bytes at the end are two or three digits whose
unused bits are zero. A decoder passes over line ends, so that a caller who wants one text per
value has to encode again and compare.
-/

namespace Storelib

def urlSymbol (n : Nat) : Byte :=
  Fin.ofNat 256
    (if n < 26 then 65 + n
    else if n < 52 then 97 + (n - 26)
    else if n < 62 then 48 + (n - 52)
    else if n = 62 then 45
    else 95)

def urlValue (b : Byte) : Option Nat :=
  if 65 ≤ b.val ∧ b.val ≤ 90 then some (b.val - 65)
  else if 97 ≤ b.val ∧ b.val ≤ 122 then some (b.val - 97 + 26)
  else if 48 ≤ b.val ∧ b.val ≤ 57 then some (b.val - 48 + 52)
  else if b.val = 45 then some 62
  else if b.val = 95 then some 63
  else none

def isLineEnd (b : Byte) : Bool := b == 10 || b == 13

/-- The six-bit digits of a byte string. -/
def sextets : Bytes → List Nat
  | a :: b :: c :: bs =>
    a.val / 4 :: (a.val % 4 * 16 + b.val / 16) :: (b.val % 16 * 4 + c.val / 64) :: c.val % 64 ::
      sextets bs
  | [a, b] => [a.val / 4, a.val % 4 * 16 + b.val / 16, b.val % 16 * 4]
  | [a] => [a.val / 4, a.val % 4 * 16]
  | [] => []

/-- The byte string of a list of six-bit digits; unused bits have to be zero. -/
def ofSextets : List Nat → Option Bytes
  | w :: x :: y :: z :: rest =>
    (ofSextets rest).map
      ([Fin.ofNat 256 (w * 4 + x / 16), Fin.ofNat 256 (x % 16 * 16 + y / 4),
        Fin.ofNat 256 (y % 4 * 64 + z)] ++ ·)
  | [w, x, y] =>
    if y % 4 = 0 then some [Fin.ofNat 256 (w * 4 + x / 16), Fin.ofNat 256 (x % 16 * 16 + y / 4)]
    else none
  | [w, x] => if x % 16 = 0 then some [Fin.ofNat 256 (w * 4 + x / 16)] else none
  | [_] => none
  | [] => some []

def base64Encode (bs : Bytes) : Bytes := (sextets bs).map urlSymbol

def base64Decode (text : Bytes) : Option Bytes :=
  ((text.filter fun b => !isLineEnd b).mapM urlValue).bind ofSextets

/-- The number of digits for `n` bytes. -/
def base64Length (n : Nat) : Nat := n / 3 * 4 + (n % 3 * 8 + 5) / 6

/-! ### The round trip -/

theorem urlSymbol_spec {n : Nat} (h : n < 64) :
    urlValue (urlSymbol n) = some n ∧ isLineEnd (urlSymbol n) = false := by
  have hall : ∀ n : Fin 64, urlValue (urlSymbol n) = some n.val ∧
      isLineEnd (urlSymbol n) = false := by decide +kernel
  exact hall ⟨n, h⟩

theorem urlSymbol_ascii {n : Nat} (h : n < 64) : (urlSymbol n).val < 128 := by
  have hall : ∀ n : Fin 64, (urlSymbol n).val < 128 := by decide +kernel
  exact hall ⟨n, h⟩

theorem sextets_lt (bs : Bytes) : ∀ n ∈ sextets bs, n < 64 := by
  fun_induction sextets bs with
  | case1 a b c bs ih =>
    intro n hn
    simp only [List.mem_cons] at hn
    rcases hn with rfl | rfl | rfl | rfl | hn
    · omega
    · omega
    · omega
    · omega
    · exact ih n hn
  | case2 | case3 =>
    intro n hn
    simp only [List.mem_cons, List.not_mem_nil, or_false] at hn
    omega
  | case4 => simp

theorem ofSextets_sextets (bs : Bytes) : ofSextets (sextets bs) = some bs := by
  have hbyte : ∀ (b : Byte) (n : Nat), n = b.val → Fin.ofNat 256 n = b := by
    rintro b n rfl
    apply Fin.ext
    simp only [Fin.ofNat_eq_cast, Fin.val_natCast]
    omega
  fun_induction sextets bs with
  | case1 a b c bs ih =>
    rw [ofSextets, ih, hbyte a _ (by omega), hbyte b _ (by omega), hbyte c _ (by omega)]
    rfl
  | case2 a b =>
    rw [ofSextets, if_pos (by omega), hbyte a _ (by omega), hbyte b _ (by omega)]
  | case3 a => rw [ofSextets, if_pos (by omega), hbyte a _ (by omega)]
  | case4 => rfl

theorem mapM_urlValue {digits : List Nat} (h : ∀ n ∈ digits, n < 64) :
    (digits.map urlSymbol).mapM urlValue = some digits := by
  induction digits with
  | nil => rfl
  | cons n digits ih =>
    rw [List.map_cons, List.mapM_cons, (urlSymbol_spec (h n List.mem_cons_self)).1,
      ih fun n hn => h n (List.mem_cons_of_mem _ hn)]
    rfl

theorem base64Decode_encode (bs : Bytes) : base64Decode (base64Encode bs) = some bs := by
  have hends : (base64Encode bs).filter (fun b => !isLineEnd b) = base64Encode bs := by
    rw [List.filter_eq_self]
    intro b hb
    obtain ⟨n, hn, rfl⟩ := List.mem_map.mp hb
    rw [(urlSymbol_spec (sextets_lt bs n hn)).2]
    rfl
  rw [base64Decode, hends, base64Encode, mapM_urlValue (sextets_lt bs)]
  exact ofSextets_sextets bs

theorem base64Encode_length (bs : Bytes) : (base64Encode bs).length = base64Length bs.length := by
  rw [base64Encode, List.length_map]
  fun_induction sextets bs with
  | case1 a b c bs ih =>
    simp only [List.length_cons, ih, base64Length]
    omega
  | case2 | case3 => simp [base64Length]
  | case4 => rfl

theorem base64Length_mono {m n : Nat} (h : m ≤ n) : base64Length m ≤ base64Length n := by
  unfold base64Length
  omega

end Storelib
