import GapDB.Storelib.Base64
import GapDB.Storelib.Crc32

/-!
# One changed digit of a sealed text

Another digit of six bits changes one byte, or the low bits of one byte and the high bits of the
next. The checksum shows such a change wherever it falls, also where the checksum itself begins.
-/

namespace Storelib

variable {a a' : Byte} {register : BitVec 32} {bs bs' : Bytes}

/-! ### The register is linear -/

theorem crcBit_xor (x y : BitVec 32) : crcBit (x ^^^ y) = crcBit x ^^^ crcBit y := by
  unfold crcBit
  rw [BitVec.getLsbD_xor, BitVec.ushiftRight_xor_distrib]
  by_cases hx : x.getLsbD 0
  · by_cases hy : y.getLsbD 0
    · rw [hx, hy, if_neg (by decide), if_pos rfl, if_pos rfl]
      have hself : castagnoli ^^^ castagnoli = 0#32 := BitVec.xor_self
      rw [show (x >>> 1 ^^^ castagnoli) ^^^ (y >>> 1 ^^^ castagnoli)
        = (x >>> 1 ^^^ y >>> 1) ^^^ (castagnoli ^^^ castagnoli) by ac_rfl, hself, BitVec.xor_zero]
    · rw [Bool.not_eq_true] at hy
      rw [hx, hy, if_pos (by decide), if_pos rfl, if_neg (by decide)]
      ac_rfl
  · rw [Bool.not_eq_true] at hx
    by_cases hy : y.getLsbD 0
    · rw [hx, hy, if_pos (by decide), if_neg (by decide), if_pos rfl]
      ac_rfl
    · rw [Bool.not_eq_true] at hy
      rw [hx, hy, if_neg (by decide), if_neg (by decide), if_neg (by decide)]

theorem crcBits_xor (n : Nat) (x y : BitVec 32) :
    crcBits n (x ^^^ y) = crcBits n x ^^^ crcBits n y := by
  induction n generalizing x y with
  | zero => rfl
  | succ n ih => rw [crcBits, crcBit_xor, ih, crcBits, crcBits]

/-- Two bytes that agree in their high half differ in a number below sixteen. -/
theorem exists_low_difference (h : a.val / 16 = a'.val / 16) : ∃ m : Fin 16, (m = 0 → a = a') ∧
      BitVec.ofNat 32 a.val = BitVec.ofNat 32 a'.val ^^^ BitVec.ofNat 32 m.val := by
  have hlow : (a.val ^^^ a'.val) / 2 ^ 4 = 0 := by
    rw [Nat.xor_div_two_pow]
    simp [h]
  refine ⟨⟨a.val ^^^ a'.val, by omega⟩, fun hzero => ?_, ?_⟩
  · have hxor : a.val ^^^ a'.val = 0 := congrArg Fin.val hzero
    apply Fin.ext
    calc a.val = (a.val ^^^ a'.val) ^^^ a'.val := by
          rw [Nat.xor_assoc, Nat.xor_self, Nat.xor_zero]
      _ = a'.val := by rw [hxor, Nat.zero_xor]
  · rw [← BitVec.ofNat_xor]
    congr 1
    change a.val = a'.val ^^^ (a.val ^^^ a'.val)
    rw [Nat.xor_comm a.val, ← Nat.xor_assoc, Nat.xor_self, Nat.zero_xor]

/-- What a difference below sixteen makes of the register reaches beyond its lowest byte and
beyond its highest one. -/
theorem crcBits_small : ∀ m : Fin 16, m ≠ 0 →
    256 ≤ (crcBits 8 (BitVec.ofNat 32 m.val)).toNat ∧
      (crcBits 8 (BitVec.ofNat 32 m.val)).toNat % 2 ^ 24 ≠ 0 := by
  decide +kernel

theorem crcByte_difference {m : Fin 16}
    (h : BitVec.ofNat 32 a.val = BitVec.ofNat 32 a'.val ^^^ BitVec.ofNat 32 m.val) :
    crcByte register a = crcByte register a' ^^^ crcBits 8 (BitVec.ofNat 32 m.val) := by
  rw [crcByte, crcByte, ← crcBits_xor, h, BitVec.xor_assoc]

/-- Two neighbouring bytes of which the first keeps its high half are told apart. -/
theorem crcByte_pair_injective {b b' : Byte} (hhigh : a.val / 16 = a'.val / 16)
    (h : crcByte (crcByte register a) b = crcByte (crcByte register a') b') : a = a' ∧ b = b' := by
  obtain ⟨m, hzero, hm⟩ := exists_low_difference hhigh
  have hsame : a = a' := by
    apply hzero
    by_contra hne
    -- the difference would have to be undone by one byte
    have hxor := crcBits_injective 8 h
    rw [crcByte_difference hm] at hxor
    have hbyte : crcBits 8 (BitVec.ofNat 32 m.val)
        = BitVec.ofNat 32 (b.val ^^^ b'.val) := by
      rw [BitVec.ofNat_xor]
      have hcancel := congrArg (fun r => crcByte register a' ^^^ (r ^^^ BitVec.ofNat 32 b.val)) hxor
      have hleft : crcByte register a' ^^^ (crcByte register a' ^^^
          crcBits 8 (BitVec.ofNat 32 m.val) ^^^ BitVec.ofNat 32 b.val ^^^ BitVec.ofNat 32 b.val)
          = crcBits 8 (BitVec.ofNat 32 m.val) := by
        rw [BitVec.xor_assoc _ (BitVec.ofNat 32 b.val), BitVec.xor_self, BitVec.xor_zero,
          ← BitVec.xor_assoc, BitVec.xor_self, BitVec.zero_xor]
      have hright : crcByte register a' ^^^ (crcByte register a' ^^^ BitVec.ofNat 32 b'.val ^^^
          BitVec.ofNat 32 b.val) = BitVec.ofNat 32 b.val ^^^ BitVec.ofNat 32 b'.val := by
        rw [BitVec.xor_assoc (crcByte register a'), ← BitVec.xor_assoc, BitVec.xor_self,
          BitVec.zero_xor, BitVec.xor_comm]
      rw [hleft, hright] at hcancel
      exact hcancel
    have hlarge := (crcBits_small m hne).1
    have hsmall : b.val ^^^ b'.val < 2 ^ 8 := Nat.xor_lt_two_pow b.isLt b'.isLt
    rw [hbyte, BitVec.toNat_ofNat] at hlarge
    omega
  subst hsame
  exact ⟨rfl, crcByte_right_injective _ h⟩

/-- Two bytes in front of the same three bytes of the checksum agree if they keep their high
half. -/
theorem crcByte_low_injective (hhigh : a.val / 16 = a'.val / 16)
    (h : (~~~ (crcByte register a)).toNat % 2 ^ 24 = (~~~ (crcByte register a')).toNat % 2 ^ 24) :
    a = a' := by
  obtain ⟨m, hzero, hm⟩ := exists_low_difference hhigh
  apply hzero
  by_contra hne
  refine (crcBits_small m hne).2 ?_
  have hxor : (~~~ (crcByte register a)).toNat ^^^ (~~~ (crcByte register a')).toNat
      = (crcBits 8 (BitVec.ofNat 32 m.val)).toNat := by
    rw [← BitVec.toNat_xor, crcByte_difference hm]
    congr 1
    rw [← BitVec.not_xor_left, ← BitVec.not_xor_right, BitVec.not_not,
      BitVec.xor_comm (crcByte register a'), BitVec.xor_assoc, BitVec.xor_self, BitVec.xor_zero]
  rw [← hxor, Nat.xor_mod_two_pow, h, Nat.xor_self]

/-! ### Bytes that differ in one digit -/

/-- The bytes differ in one place, or in two neighbouring ones of which the first keeps its high
half. -/
inductive Differs : Bytes → Bytes → Prop where
  | one (before after : Bytes) (a a' : Byte) (ne : a ≠ a') :
      Differs (before ++ a :: after) (before ++ a' :: after)
  | two (before after : Bytes) (a b a' b' : Byte) (high : a.val / 16 = a'.val / 16)
      (ne : a ≠ a' ∨ b ≠ b') : Differs (before ++ a :: b :: after) (before ++ a' :: b' :: after)

theorem Differs.append_left (h : Differs bs bs') (front : Bytes) :
    Differs (front ++ bs) (front ++ bs') := by
  cases h with
  | one before after a a' ne =>
    rw [← List.append_assoc, ← List.append_assoc]
    exact .one _ after a a' ne
  | two before after a b a' b' high ne =>
    rw [← List.append_assoc, ← List.append_assoc]
    exact .two _ after a b a' b' high ne

theorem sextets_injective : Function.Injective sextets := by
  intro bs bs' h
  have hsame := ofSextets_sextets bs
  rw [h, ofSextets_sextets bs', Option.some.injEq] at hsame
  exact hsame.symm

/-- The number of digits tells the number of bytes. -/
theorem length_of_sextets_length
    (h : (sextets bs).length = (sextets bs').length) : bs.length = bs'.length := by
  have hlength : ∀ bs : Bytes, (sextets bs).length = base64Length bs.length := by
    intro bs
    have hencode := base64Encode_length bs
    rwa [base64Encode, List.length_map] at hencode
  rw [hlength, hlength, base64Length, base64Length] at h
  omega

private theorem byte_eq (h : a.val = a'.val) : a = a' := Fin.ext h

private theorem byte_ne (h : a.val ≠ a'.val) : a ≠ a' := fun heq => h (heq ▸ rfl)

/-- One other digit is a change of one byte, or of two neighbouring ones. -/
theorem differs_of_sextets_set {i n : Nat} (hi : i < (sextets bs).length)
    (hn : n ≠ (sextets bs)[i]) (h : sextets bs' = (sextets bs).set i n) : Differs bs bs' := by
  have hlength : bs'.length = bs.length :=
    length_of_sextets_length (by rw [h, List.length_set])
  fun_induction sextets bs generalizing bs' i with
  | case1 a b c bs ih =>
    obtain _ | ⟨a', _ | ⟨b', _ | ⟨c', rest⟩⟩⟩ := bs'
    iterate 3 simp at hlength
    obtain _ | _ | _ | _ | i := i
    · simp only [sextets, List.set_cons_zero, List.cons.injEq, List.getElem_cons_zero] at h hn
      obtain ⟨h₁, h₂, h₃, h₄, hrest⟩ := h
      obtain rfl := sextets_injective hrest
      obtain rfl : b = b' := byte_eq (by omega)
      obtain rfl : c = c' := byte_eq (by omega)
      exact .one [] (b :: c :: rest) a a' (byte_ne (by omega))
    · simp only [sextets, List.set_cons_succ, List.set_cons_zero, List.cons.injEq,
        List.getElem_cons_succ, List.getElem_cons_zero] at h hn
      obtain ⟨h₁, h₂, h₃, h₄, hrest⟩ := h
      obtain rfl := sextets_injective hrest
      obtain rfl : c = c' := byte_eq (by omega)
      refine .two [] (c :: rest) a b a' b' (by omega) ?_
      by_cases ha : a.val = a'.val
      · exact .inr (byte_ne (by omega))
      · exact .inl (byte_ne ha)
    · simp only [sextets, List.set_cons_succ, List.set_cons_zero, List.cons.injEq,
        List.getElem_cons_succ, List.getElem_cons_zero] at h hn
      obtain ⟨h₁, h₂, h₃, h₄, hrest⟩ := h
      obtain rfl := sextets_injective hrest
      obtain rfl : a = a' := byte_eq (by omega)
      refine .two [a] rest b c b' c' (by omega) ?_
      by_cases hb : b.val = b'.val
      · exact .inr (byte_ne (by omega))
      · exact .inl (byte_ne hb)
    · simp only [sextets, List.set_cons_succ, List.set_cons_zero, List.cons.injEq,
        List.getElem_cons_succ, List.getElem_cons_zero] at h hn
      obtain ⟨h₁, h₂, h₃, h₄, hrest⟩ := h
      obtain rfl := sextets_injective hrest
      obtain rfl : a = a' := byte_eq (by omega)
      obtain rfl : b = b' := byte_eq (by omega)
      exact .one [a, b] rest c c' (byte_ne (by omega))
    · simp only [sextets, List.set_cons_succ, List.cons.injEq, List.getElem_cons_succ,
        List.length_cons, Nat.add_lt_add_iff_right] at h hn hi hlength
      obtain ⟨h₁, h₂, h₃, h₄, hrest⟩ := h
      obtain rfl : a = a' := byte_eq (by omega)
      obtain rfl : b = b' := byte_eq (by omega)
      obtain rfl : c = c' := byte_eq (by omega)
      exact (ih hi hn hrest (by omega)).append_left [a, b, c]
  | case2 a b =>
    obtain ⟨a', b', rfl⟩ : ∃ a' b', bs' = [a', b'] := List.length_eq_two.mp hlength
    obtain _ | _ | _ | i := i
    · simp only [sextets, List.set_cons_zero, List.cons.injEq, List.getElem_cons_zero] at h hn
      obtain ⟨h₁, h₂, h₃, -⟩ := h
      obtain rfl : b = b' := byte_eq (by omega)
      exact .one [] [b] a a' (byte_ne (by omega))
    · simp only [sextets, List.set_cons_succ, List.set_cons_zero, List.cons.injEq,
        List.getElem_cons_succ, List.getElem_cons_zero] at h hn
      obtain ⟨h₁, h₂, h₃, -⟩ := h
      refine .two [] [] a b a' b' (by omega) ?_
      by_cases ha : a.val = a'.val
      · exact .inr (byte_ne (by omega))
      · exact .inl (byte_ne ha)
    · simp only [sextets, List.set_cons_succ, List.set_cons_zero, List.cons.injEq,
        List.getElem_cons_succ, List.getElem_cons_zero] at h hn
      obtain ⟨h₁, h₂, h₃, -⟩ := h
      obtain rfl : a = a' := byte_eq (by omega)
      exact .one [a] [] b b' (byte_ne (by omega))
    · simp only [List.length_cons, List.length_nil] at hi
      omega
  | case3 a =>
    obtain ⟨a', rfl⟩ : ∃ a', bs' = [a'] := List.length_eq_one_iff.mp hlength
    refine .one [] [] a a' (byte_ne ?_)
    intro heq
    have hsame : [a'] = [a] := by rw [byte_eq heq]
    rw [hsame] at h
    have hget := List.getElem_of_eq h hi
    rw [List.getElem_set_self] at hget
    exact hn hget.symm
  | case4 => simp at hi

/-! ### No such change is sealed -/

theorem not_sealed_of_differs (h : Sealed bs) (hlen : 4 ≤ bs.length)
    (hdiffers : Differs bs bs') : ¬ Sealed bs' := by
  intro h'
  cases hdiffers with
  | one before after a a' ne =>
    have hset : (before ++ a :: after).set before.length a' = before ++ a' :: after := by
      rw [List.set_append_right _ _ le_rfl, Nat.sub_self, List.set_cons_zero]
    rw [← hset] at h'
    refine not_sealed_set h hlen (by simp) ?_ h'
    rw [List.getElem_append_right le_rfl]
    simpa using ne.symm
  | two before after a b a' b' high ne =>
    suffices hsame : a = a' ∧ b = b' from ne.elim (fun hne => hne hsame.1) fun hne => hne hsame.2
    simp only [List.length_append, List.length_cons] at hlen
    by_cases hbody : 4 ≤ after.length
    · -- both bytes are under the checksum
      obtain ⟨middle, trailer, rfl, htrailer⟩ : ∃ middle trailer, after = middle ++ trailer ∧
          trailer.length = 4 :=
        ⟨after.take (after.length - 4), after.drop (after.length - 4),
          (List.take_append_drop _ _).symm, by rw [List.length_drop]; omega⟩
      rw [← List.cons_append, ← List.cons_append, ← List.append_assoc,
        sealed_append_iff htrailer] at h h'
      rw [← h', crc32c, crc32c] at h
      have hregister := BitVec.not_inj.mp (BitVec.eq_of_toNat_eq h)
      simp only [List.foldl_append, List.foldl_cons] at hregister
      exact crcByte_pair_injective high (foldl_crcByte_injective _ hregister)
    · by_cases hsplit : after.length = 3
      · -- the first byte is the last one under the checksum, the second the first one of it
        have htrailer : ∀ c : Byte, (c :: after).length = 4 := fun c => by
          rw [List.length_cons, hsplit]
        have hlow : ∀ c : Byte, uint (c :: after) % 2 ^ 24 = uint after := by
          intro c
          have hlt := uint_lt after
          rw [uint_cons, hsplit]
          rw [hsplit] at hlt
          omega
        rw [List.append_cons, sealed_append_iff (htrailer _)] at h h'
        have hcrc : crc32c (before ++ [a]) % 2 ^ 24 = crc32c (before ++ [a']) % 2 ^ 24 := by
          rw [h, h', hlow, hlow]
        simp only [crc32c, List.foldl_append, List.foldl_cons, List.foldl_nil] at hcrc
        obtain rfl := crcByte_low_injective high hcrc
        rw [h] at h'
        have hword := uint_injective (by simp) h'
        rw [List.cons.injEq] at hword
        exact ⟨rfl, hword.1⟩
      · -- both bytes belong to the checksum
        obtain ⟨body, front, rfl, hfront⟩ : ∃ body front, before = body ++ front ∧
            front.length + after.length = 2 :=
          ⟨before.take (before.length - (2 - after.length)),
            before.drop (before.length - (2 - after.length)), (List.take_append_drop _ _).symm,
            by rw [List.length_drop]; omega⟩
        have htrailer : ∀ c d : Byte, (front ++ c :: d :: after).length = 4 := by
          intro c d
          simp only [List.length_append, List.length_cons]
          omega
        rw [List.append_assoc, sealed_append_iff (htrailer _ _)] at h h'
        rw [h] at h'
        have hword := uint_injective (by simp) h'
        rw [List.append_cancel_left_eq, List.cons.injEq, List.cons.injEq] at hword
        exact ⟨hword.1, hword.2.1⟩

/-- Another symbol anywhere in the text of a sealed string leaves no text of a sealed string. -/
theorem not_sealed_of_base64_set (h : Sealed bs) (hlen : 4 ≤ bs.length) {i : Nat}
    {c : Byte} (hi : i < (base64Encode bs).length) (hc : c ≠ (base64Encode bs)[i])
    (htext : base64Encode bs' = (base64Encode bs).set i c) : ¬ Sealed bs' := by
  have hdigits : i < (sextets bs).length := by
    rwa [base64Encode, List.length_map] at hi
  have hcount : (sextets bs').length = (sextets bs).length := by
    have hlength := congrArg List.length htext
    rwa [List.length_set, base64Encode, base64Encode, List.length_map, List.length_map] at hlength
  have hset : sextets bs' = (sextets bs).set i (sextets bs')[i] := by
    refine List.ext_getElem (by rw [List.length_set, hcount]) fun j hj hj' => ?_
    rw [List.getElem_set]
    split
    · next heq => subst heq; rfl
    · next hne =>
      have hsymbol := List.getElem_of_eq htext (i := j) (by rwa [base64Encode, List.length_map])
      rw [List.getElem_set_of_ne hne] at hsymbol
      simp only [base64Encode, List.getElem_map] at hsymbol
      have hvalue := congrArg urlValue hsymbol
      rw [(urlSymbol_spec (sextets_lt bs' _ (List.getElem_mem _))).1,
        (urlSymbol_spec (sextets_lt bs _ (List.getElem_mem _))).1, Option.some.injEq] at hvalue
      exact hvalue
  refine not_sealed_of_differs h hlen (differs_of_sextets_set hdigits ?_ hset)
  intro hsame
  have hsymbol := List.getElem_of_eq htext (i := i) (by
    rw [base64Encode, List.length_map, hcount]
    exact hdigits)
  rw [List.getElem_set_self] at hsymbol
  refine hc (hsymbol.symm.trans ?_)
  simp only [base64Encode, List.getElem_map, hsame]

end Storelib
