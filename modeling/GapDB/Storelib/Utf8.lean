import GapDB.Storelib.Bytes

/-!
# Well-formed UTF-8

`validUtf8` accepts exactly the byte sequences of the Unicode standard's table of
well-formed UTF-8: no overlong form, no surrogate, nothing above U+10FFFF.
-/

namespace Storelib

def within (low high b : Byte) : Bool := decide (low ≤ b) && decide (b ≤ high)

def continuation (b : Byte) : Bool := within 0x80 0xBF b

/-- The second byte a three-byte sequence may have after `b`. -/
def second3 (b next : Byte) : Bool :=
  if b = 0xE0 then within 0xA0 0xBF next
  else if b = 0xED then within 0x80 0x9F next
  else continuation next

/-- The second byte a four-byte sequence may have after `b`. -/
def second4 (b next : Byte) : Bool :=
  if b = 0xF0 then within 0x90 0xBF next
  else if b = 0xF4 then within 0x80 0x8F next
  else continuation next

def validUtf8 : Bytes → Bool
  | [] => true
  | [b] => within 0x00 0x7F b
  | [b, c] =>
    (within 0x00 0x7F b && validUtf8 [c]) || (within 0xC2 0xDF b && continuation c)
  | [b, c, d] =>
    (within 0x00 0x7F b && validUtf8 [c, d])
      || (within 0xC2 0xDF b && continuation c && validUtf8 [d])
      || (within 0xE0 0xEF b && second3 b c && continuation d)
  | b :: c :: d :: e :: rest =>
    (within 0x00 0x7F b && validUtf8 (c :: d :: e :: rest))
      || (within 0xC2 0xDF b && continuation c && validUtf8 (d :: e :: rest))
      || (within 0xE0 0xEF b && second3 b c && continuation d && validUtf8 (e :: rest))
      || (within 0xF0 0xF4 b && second4 b c && continuation d && continuation e
          && validUtf8 rest)

-- U+20AC is accepted, the surrogate U+D800 and an overlong slash are not.
example : validUtf8 [0xE2, 0x82, 0xAC] = true ∧ validUtf8 [0xED, 0xA0, 0x80] = false ∧
    validUtf8 [0xC0, 0xAF] = false := by decide

/-- A byte of ASCII in front of valid text. -/
theorem validUtf8_cons {b : Byte} {rest : Bytes} (hb : b.val < 128) (h : validUtf8 rest) :
    validUtf8 (b :: rest) := by
  have hwithin : within 0x00 0x7F b = true := by
    simp only [within, Bool.and_eq_true, decide_eq_true_eq]
    exact ⟨Fin.zero_le _, Nat.lt_succ_iff.mp hb⟩
  match rest with
  | [] => exact hwithin
  | [c] => simp only [validUtf8, hwithin, Bool.true_and, Bool.or_eq_true]; exact .inl h
  | [c, d] =>
    rw [validUtf8, hwithin, h]
    rfl
  | c :: d :: e :: rest =>
    rw [validUtf8, hwithin, h]
    rfl

theorem validUtf8_of_ascii {bs : Bytes} (h : ∀ b ∈ bs, b.val < 128) : validUtf8 bs := by
  induction bs with
  | nil => rfl
  | cons b bs ih =>
    obtain ⟨hb, hbs⟩ := List.forall_mem_cons.mp h
    exact validUtf8_cons hb (ih hbs)

end Storelib
