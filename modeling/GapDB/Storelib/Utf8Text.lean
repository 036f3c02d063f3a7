import GapDB.Storelib.JsonText

/-!
# Valid UTF-8 is the encoding of a text

The converse of `validUtf8_utf8`: well-formed bytes are the encoding of characters, so the text of a
byte string and its bytes determine each other.
-/

namespace Storelib

theorem exists_char {v : Nat} (h : v.isValidChar) : ∃ c : Char, c.val.toNat = v := by
  refine ⟨Char.ofNat v, ?_⟩
  rw [Char.ofNat, dif_pos h]
  rfl

section

variable {a b c d : Byte}

theorem exists_utf8Char_one (hb : b.val < 128) : ∃ char, utf8Char char = [b] := by
  obtain ⟨char, hv⟩ := exists_char (v := b.val) (.inl (by omega))
  refine ⟨char, ?_⟩
  rw [utf8Char_of_ascii (by show char.val.toNat < 128; omega)]
  show [Fin.ofNat 256 char.val.toNat] = [b]
  rw [hv, Fin.ofNat_val_eq_self]

theorem exists_utf8Char_two (hb : within 0xC2 0xDF b) (hc : continuation c) :
    ∃ char, utf8Char char = [b, c] := by
  rw [within_iff] at hb
  rw [continuation, within_iff] at hc
  have hC2 : ((0xC2 : Byte) : Nat) = 194 := rfl
  have hDF : ((0xDF : Byte) : Nat) = 223 := rfl
  have h80 : ((0x80 : Byte) : Nat) = 128 := rfl
  have hBF : ((0xBF : Byte) : Nat) = 191 := rfl
  obtain ⟨char, hv⟩ := exists_char (v := (b.val - 192) * 64 + (c.val - 128)) (.inl (by omega))
  refine ⟨char, ?_⟩
  rw [utf8Char, String.utf8EncodeChar]
  simp only [hv]
  rw [if_neg (by omega), if_pos (by omega)]
  simp only [List.map_cons, List.map_nil]
  rw [(byteOf_eq_iff (by omega) b).mpr (by omega), (byteOf_eq_iff (by omega) c).mpr (by omega)]

theorem exists_utf8Char_three (hb : within 0xE0 0xEF b) (hc : second3 b c) (hd : continuation d) :
    ∃ char, utf8Char char = [b, c, d] := by
  have hE0 : ((0xE0 : Byte) : Nat) = 224 := rfl
  have hEF : ((0xEF : Byte) : Nat) = 239 := rfl
  have hED : ((0xED : Byte) : Nat) = 237 := rfl
  have hA0 : ((0xA0 : Byte) : Nat) = 160 := rfl
  have h9F : ((0x9F : Byte) : Nat) = 159 := rfl
  have h80 : ((0x80 : Byte) : Nat) = 128 := rfl
  have hBF : ((0xBF : Byte) : Nat) = 191 := rfl
  rw [within_iff] at hb
  rw [continuation, within_iff] at hd
  -- no overlong form below 0xA0, no surrogate above 0x9F
  have hc : 128 ≤ c.val ∧ c.val ≤ 191 ∧ (b.val = 224 → 160 ≤ c.val) ∧
      (b.val = 237 → c.val ≤ 159) := by
    rw [second3] at hc
    split at hc
    · next heq =>
      rw [← Fin.val_inj] at heq
      rw [within_iff] at hc
      omega
    next hne =>
    rw [← Fin.val_inj] at hne
    split at hc
    · next heq =>
      rw [← Fin.val_inj] at heq
      rw [within_iff] at hc
      omega
    · next hne' =>
      rw [← Fin.val_inj] at hne'
      rw [continuation, within_iff] at hc
      omega
  have hvalid : ((b.val - 224) * 4096 + (c.val - 128) * 64 + (d.val - 128)).isValidChar := by
    rw [Nat.isValidChar]
    omega
  obtain ⟨char, hv⟩ := exists_char hvalid
  refine ⟨char, ?_⟩
  rw [utf8Char, String.utf8EncodeChar]
  simp only [hv]
  rw [if_neg (by omega), if_neg (by omega), if_pos (by omega)]
  simp only [List.map_cons, List.map_nil]
  rw [(byteOf_eq_iff (by omega) b).mpr (by omega), (byteOf_eq_iff (by omega) c).mpr (by omega),
    (byteOf_eq_iff (by omega) d).mpr (by omega)]

theorem exists_utf8Char_four (ha : within 0xF0 0xF4 a) (hb : second4 a b) (hc : continuation c)
    (hd : continuation d) : ∃ char, utf8Char char = [a, b, c, d] := by
  have hF0 : ((0xF0 : Byte) : Nat) = 240 := rfl
  have hF4 : ((0xF4 : Byte) : Nat) = 244 := rfl
  have h90 : ((0x90 : Byte) : Nat) = 144 := rfl
  have h8F : ((0x8F : Byte) : Nat) = 143 := rfl
  have h80 : ((0x80 : Byte) : Nat) = 128 := rfl
  have hBF : ((0xBF : Byte) : Nat) = 191 := rfl
  rw [within_iff] at ha
  rw [continuation, within_iff] at hc hd
  -- no overlong form below 0x90, nothing above U+10FFFF
  have hb : 128 ≤ b.val ∧ b.val ≤ 191 ∧ (a.val = 240 → 144 ≤ b.val) ∧
      (a.val = 244 → b.val ≤ 143) := by
    rw [second4] at hb
    split at hb
    · next heq =>
      rw [← Fin.val_inj] at heq
      rw [within_iff] at hb
      omega
    next hne =>
    rw [← Fin.val_inj] at hne
    split at hb
    · next heq =>
      rw [← Fin.val_inj] at heq
      rw [within_iff] at hb
      omega
    · next hne' =>
      rw [← Fin.val_inj] at hne'
      rw [continuation, within_iff] at hb
      omega
  have hvalid : ((a.val - 240) * 262144 + (b.val - 128) * 4096 + (c.val - 128) * 64
      + (d.val - 128)).isValidChar := by
    rw [Nat.isValidChar]
    omega
  obtain ⟨char, hv⟩ := exists_char hvalid
  refine ⟨char, ?_⟩
  rw [utf8Char, String.utf8EncodeChar]
  simp only [hv]
  rw [if_neg (by omega), if_neg (by omega), if_neg (by omega)]
  simp only [List.map_cons, List.map_nil]
  rw [(byteOf_eq_iff (by omega) a).mpr (by omega), (byteOf_eq_iff (by omega) b).mpr (by omega),
    (byteOf_eq_iff (by omega) c).mpr (by omega), (byteOf_eq_iff (by omega) d).mpr (by omega)]

end

/-- Valid bytes are the encoding of a text. -/
theorem exists_utf8 (bs : Bytes) (h : validUtf8 bs = true) : ∃ cs, utf8 cs = bs := by
  have hfirst : ∀ {first rest : Bytes}, (∃ char, utf8Char char = first) →
      (∃ cs, utf8 cs = rest) → ∃ cs, utf8 cs = first ++ rest := by
    rintro first rest ⟨char, rfl⟩ ⟨cs, rfl⟩
    exact ⟨char :: cs, rfl⟩
  have hascii : ∀ {b : Byte}, within 0x00 0x7F b = true → b.val < 128 := by
    intro b hb
    have := (within_iff.mp hb).2
    have h7F : ((0x7F : Byte) : Nat) = 127 := rfl
    omega
  -- the induction follows the recursion of the validator
  fun_induction validUtf8 bs with
  | case1 => exact ⟨[], rfl⟩
  | case2 b => exact hfirst (exists_utf8Char_one (hascii h)) ⟨[], rfl⟩
  | case3 b c ih =>
    simp only [Bool.or_eq_true, Bool.and_eq_true] at h
    rcases h with ⟨hb, hc⟩ | ⟨hb, hc⟩
    · exact hfirst (exists_utf8Char_one (hascii hb)) (ih hc)
    · exact hfirst (exists_utf8Char_two hb hc) ⟨[], rfl⟩
  | case4 b c d ih₁ ih₂ =>
    simp only [Bool.or_eq_true, Bool.and_eq_true] at h
    rcases h with (⟨hb, hrest⟩ | ⟨⟨hb, hc⟩, hrest⟩) | ⟨⟨hb, hc⟩, hd⟩
    · exact hfirst (exists_utf8Char_one (hascii hb)) (ih₁ hrest)
    · exact hfirst (exists_utf8Char_two hb hc) (ih₂ hrest)
    · exact hfirst (exists_utf8Char_three hb hc hd) ⟨[], rfl⟩
  | case5 b c d e rest ih₁ ih₂ ih₃ ih₄ =>
    simp only [Bool.or_eq_true, Bool.and_eq_true] at h
    rcases h with ((⟨hb, hrest⟩ | ⟨⟨hb, hc⟩, hrest⟩) | ⟨⟨⟨hb, hc⟩, hd⟩, hrest⟩) |
      ⟨⟨⟨⟨hb, hc⟩, hd⟩, he⟩, hrest⟩
    · exact hfirst (exists_utf8Char_one (hascii hb)) (ih₁ hrest)
    · exact hfirst (exists_utf8Char_two hb hc) (ih₂ hrest)
    · exact hfirst (exists_utf8Char_three hb hc hd) (ih₃ hrest)
    · exact hfirst (exists_utf8Char_four hb hc hd he) (ih₄ hrest)

/-- The bytes of a text. -/
theorem utf8_toUTF8 (s : String) :
    (s.toUTF8.data.toList.map fun b => Fin.ofNat 256 b.toNat) = utf8 s.toList := by
  have hbytes : s.toUTF8 = (s.toList.flatMap String.utf8EncodeChar).toByteArray := by
    conv_lhs => rw [← String.ofList_toList (s := s)]
    exact String.toByteArray_ofList
  rw [hbytes, List.data_toByteArray, utf8, List.map_flatMap]
  rfl

end Storelib
