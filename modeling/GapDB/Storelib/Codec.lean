import GapDB.Storelib.Crc32

/-!
# Canonical codecs

An encoder that refuses what it cannot write and a decoder that reads it back in a context, such as
the identifier it expects. A codec is canonical if nothing but the encoding of a value decodes to
it; a checksum over everything else makes a changed byte evident.
-/

namespace Storelib

variable {ε α γ : Type*}

/-- `admits c` says of which contexts canonicity is claimed, `fits c a` that the value can be
represented and that the context asks for it. -/
structure Canonical (encode : α → Except ε Bytes) (decode : γ → Bytes → Except ε α)
    (admits : γ → Prop) (fits : γ → α → Prop) : Prop where
  undoes : ∀ c a bs, fits c a → encode a = .ok bs → decode c bs = .ok a
  exact : ∀ c bs a, admits c → decode c bs = .ok a → encode a = .ok bs
  evident : ∀ c a bs, encode a = .ok bs → ∀ (i : Nat) (hi : i < bs.length) (b : Byte),
    b ≠ bs[i] → ∀ a', decode c (bs.set i b) ≠ .ok a'

/-- Whatever is sealed when it is written and when it is read shows a changed byte. -/
theorem evident_of_sealed {encode : α → Except ε Bytes} {decode : γ → Bytes → Except ε α}
    (hencode : ∀ a bs, encode a = .ok bs → 4 ≤ bs.length ∧ Sealed bs)
    (hdecode : ∀ c bs a, decode c bs = .ok a → Sealed bs) (c : γ) (a : α) (bs : Bytes)
    (h : encode a = .ok bs) (i : Nat) (hi : i < bs.length) (b : Byte) (hb : b ≠ bs[i]) (a' : α) :
    decode c (bs.set i b) ≠ .ok a' := by
  intro hread
  obtain ⟨hlen, hsealed⟩ := hencode a bs h
  exact not_sealed_set hsealed hlen hi hb (hdecode c _ a' hread)

end Storelib
