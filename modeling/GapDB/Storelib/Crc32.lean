import GapDB.Storelib.Bytes

/-!
# The Castagnoli checksum

CRC-32C in its reflected form: the register starts at all ones, each byte is
folded into the low end and shifted out bit by bit, and the result is complemented.
-/

namespace Storelib

/-- The reflected Castagnoli polynomial. -/
def castagnoli : BitVec 32 := 0x82F63B78#32

def crcBit (register : BitVec 32) : BitVec 32 :=
  if register.getLsbD 0 then (register >>> 1) ^^^ castagnoli else register >>> 1

def crcBits : Nat → BitVec 32 → BitVec 32
  | 0, register => register
  | n + 1, register => crcBits n (crcBit register)

def crcByte (register : BitVec 32) (b : Byte) : BitVec 32 :=
  crcBits 8 (register ^^^ BitVec.ofNat 32 b.val)

def crc32c (bs : Bytes) : Nat := (~~~ (bs.foldl crcByte 0xFFFFFFFF#32)).toNat

theorem crc32c_lt (bs : Bytes) : crc32c bs < 256 ^ 4 :=
  BitVec.isLt _

/-! ### A single changed byte changes the checksum -/

/-- The bit that is shifted out shows at the top, where the polynomial has its highest bit. -/
theorem getLsbD_crcBit_top (register : BitVec 32) :
    (crcBit register).getLsbD 31 = register.getLsbD 0 := by
  have htop : castagnoli.getLsbD 31 = true := by decide
  have hout : (register >>> 1).getLsbD 31 = false := by
    rw [BitVec.getLsbD_ushiftRight]
    exact BitVec.getLsbD_of_ge _ _ le_rfl
  unfold crcBit
  split
  · next h => rw [BitVec.getLsbD_xor, hout, htop, h, Bool.false_xor]
  · next h => rw [hout, Bool.eq_false_iff.mpr h]

theorem crcBit_injective : Function.Injective crcBit := by
  intro a b h
  have hlow : a.getLsbD 0 = b.getLsbD 0 := by
    rw [← getLsbD_crcBit_top a, h, getLsbD_crcBit_top b]
  have hshift : a >>> 1 = b >>> 1 := by
    unfold crcBit at h
    rw [hlow] at h
    split at h
    · exact BitVec.xor_left_inj castagnoli |>.mp h
    · exact h
  refine BitVec.eq_of_getLsbD_eq fun i hi => ?_
  cases i with
  | zero => exact hlow
  | succ i =>
    have hbit := congrArg (fun r => r.getLsbD i) hshift
    simpa [BitVec.getLsbD_ushiftRight, Nat.add_comm] using hbit

theorem crcBits_injective (n : Nat) : Function.Injective (crcBits n) := by
  induction n with
  | zero => exact Function.injective_id
  | succ n ih => exact ih.comp crcBit_injective

theorem crcByte_left_injective (b : Byte) : Function.Injective fun r => crcByte r b := by
  intro r r' h
  exact BitVec.xor_left_inj _ |>.mp (crcBits_injective 8 h)

theorem crcByte_right_injective (register : BitVec 32) : Function.Injective (crcByte register) := by
  intro b b' h
  have hxor := BitVec.xor_right_inj _ |>.mp (crcBits_injective 8 h)
  have hval := congrArg BitVec.toNat hxor
  simp only [BitVec.toNat_ofNat] at hval
  exact Fin.ext (by omega)

theorem foldl_crcByte_injective (bs : Bytes) : Function.Injective fun r => bs.foldl crcByte r := by
  induction bs with
  | nil => exact Function.injective_id
  | cons b bs ih => exact ih.comp (crcByte_left_injective b)

/-- Replacing one byte by another one changes the checksum. -/
theorem crc32c_set_ne {bs : Bytes} {i : Nat} (hi : i < bs.length) {b : Byte} (hb : b ≠ bs[i]) :
    crc32c (bs.set i b) ≠ crc32c bs := by
  intro h
  have hregister := BitVec.not_inj.mp (BitVec.eq_of_toNat_eq h)
  -- both runs of the register agree before the byte, so they differ after it and from there on
  conv at hregister =>
    rhs
    rw [← List.take_append_drop i bs, List.drop_eq_getElem_cons hi]
  rw [List.set_eq_take_append_cons_drop, if_pos hi, List.foldl_append, List.foldl_append,
    List.foldl_cons, List.foldl_cons] at hregister
  exact hb (crcByte_right_injective _ (foldl_crcByte_injective _ hregister))

/-- The last four bytes are the checksum of the others. -/
def Sealed (bs : Bytes) : Prop :=
  crc32c (slice bs 0 (bs.length - 4)) = uint (slice bs (bs.length - 4) bs.length)

theorem sealed_append_iff {body trailer : Bytes} (h : trailer.length = 4) :
    Sealed (body ++ trailer) ↔ crc32c body = uint trailer := by
  have hend : (body ++ trailer).length - 4 = body.length := by
    rw [List.length_append, h, Nat.add_sub_cancel]
  rw [Sealed, hend, slice_append_exact _ _ _ rfl, slice_append_right _ _ _ _ le_rfl, Nat.sub_self,
    slice_exact _ _ (by simp)]

/-- A body followed by its checksum is sealed. -/
theorem sealed_append_crc (body : Bytes) : Sealed (body ++ putUint 4 (crc32c body)) :=
  (sealed_append_iff (putUint_length _ _)).mpr (uint_putUint (crc32c_lt _)).symm

/-- What is sealed and has a body and four more bytes is the body with its checksum. -/
theorem eq_append_crc {body bs : Bytes} (hbody : body <+: bs) (hlength : bs.length = body.length + 4)
    (h : Sealed bs) : bs = body ++ putUint 4 (crc32c body) := by
  obtain ⟨trailer, rfl⟩ := hbody
  have htrailer : trailer.length = 4 := by simpa using hlength
  rw [(sealed_append_iff htrailer).mp h, ← htrailer, putUint_uint]

theorem not_sealed_set {bs : Bytes} (h : Sealed bs) (hlen : 4 ≤ bs.length) {i : Nat}
    (hi : i < bs.length) {b : Byte} (hb : b ≠ bs[i]) : ¬ Sealed (bs.set i b) := by
  intro h'
  rw [Sealed, List.length_set] at h'
  rw [Sealed] at h
  by_cases hbody : i < bs.length - 4
  · -- the checksum stands, the bytes under it have changed
    rw [slice_set_of_lt bs b hbody, ← h, slice_set_inside bs b (Nat.zero_le i)] at h'
    refine crc32c_set_ne ?_ ?_ h'
    · rw [slice_length _ _ _ (by omega)]
      exact hbody
    · simpa [slice] using hb
  · rw [slice_set_of_le bs b (not_lt.mp hbody), h,
      slice_set_inside bs b (not_lt.mp hbody)] at h'
    have heq := uint_injective (by simp) h'
    have hlast : i - (bs.length - 4) < (slice bs (bs.length - 4) bs.length).length := by
      rw [slice_length _ _ _ le_rfl]
      omega
    have hget := List.getElem_of_eq heq hlast
    rw [List.getElem_set_self] at hget
    simp only [slice, List.getElem_take, List.getElem_drop] at hget
    exact hb (by rw [← hget]; congr 1; omega)

-- The check value every description of CRC-32C gives.
example : crc32c (ascii "123456789") = 0xE3069283 := by decide +kernel

end Storelib
