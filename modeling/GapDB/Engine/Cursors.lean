import GapDB.Engine.PageReads
import GapDB.Storelib.Burst
import GapDB.Storelib.Codec

/-!
# Cursors are canonical

A cursor leaves the process as text and comes back from a client. The decoder accepts one text for
each cursor, only for the database that wrote it, and none with a single character changed.
-/

namespace GapDB

open Storelib

namespace ScanCursor

variable {id : DatabaseID} {limits : Limits} {cursor : ScanCursor}

/-- The bytes behind the text. -/
theorem read_eq_ok {encoded : Bytes} (hlong : scanCursorFixedBytes ≤ encoded.length)
    (h : readScanCursor id limits encoded = .ok cursor) :
    encoded = cursor.body id ++ putUint 4 (crc32c (cursor.body id)) ∧
      cursor.Encodable limits := by
  simp only [readScanCursor] at h
  rw [ite_error_eq_ok, ite_error_eq_ok, ite_error_eq_ok, ite_error_eq_ok, ite_error_eq_ok,
    Except.ok.injEq] at h
  obtain ⟨hhead, hsizes, hcrc, hkeys, -, rfl⟩ := h
  push Not at hhead hsizes hcrc hkeys
  obtain ⟨hmagic, hid⟩ := hhead
  obtain ⟨hstart_le, hlast_le, hlength⟩ := hsizes
  rw [scanCursorFixedBytes] at hlength hlong
  obtain ⟨hstart, hlast, hnonempty, hmatch⟩ := hkeys
  generalize hp : uint (slice encoded 40 44) = p at *
  generalize hq : uint (slice encoded 44 48) = q at *
  have hstart_length : (slice encoded 48 (48 + p)).length = p := by
    rw [slice_length _ _ _ (by omega)]
    omega
  have hlast_length : (slice encoded (48 + p) (encoded.length - 4)).length = q := by
    rw [slice_length _ _ _ (by omega)]
    omega
  have hrevision : slice encoded 24 32 = putUint 8 (uint (slice encoded 24 32)) :=
    slice_eq_putUint (by omega) rfl rfl
  have htime : slice encoded 32 40
      = putUint 8 (int64Bits (unixNano (int64 (uint (slice encoded 32 40))))) := by
    rw [int64Bits_int64 (uint_slice_lt _ 8 (by omega) rfl)]
    exact slice_eq_putUint (by omega) rfl rfl
  have hbody : ScanCursor.body id ⟨slice encoded 48 (48 + p),
      slice encoded (48 + p) (encoded.length - 4), uint (slice encoded 24 32),
      int64 (uint (slice encoded 32 40))⟩ = slice encoded 0 (encoded.length - 4) := by
    rw [ScanCursor.body, ← hmagic, ← hid, ← hrevision, ← htime, hstart_length, hlast_length,
      ← slice_eq_putUint (by omega) rfl hp, ← slice_eq_putUint (by omega) rfl hq]
    rw [slice_append_slice _ (by omega) (by omega), slice_append_slice _ (by omega) (by omega),
      slice_append_slice _ (by omega) (by omega), slice_append_slice _ (by omega) (by omega),
      slice_append_slice _ (by omega) (by omega), slice_append_slice _ (by omega) (by omega),
      slice_append_slice _ (by omega) (by omega)]
  refine ⟨?_, ⟨hstart, by rw [hstart_length]; exact hstart_le⟩,
    ⟨hnonempty, hlast, by rw [hlast_length]; exact hlast_le⟩, hmatch, ?_, ?_⟩
  · rw [hbody, ← slice_eq_putUint (by omega) (by omega) hcrc.symm,
      slice_append_slice _ (by omega) (by omega), slice_exact _ _ rfl]
  · exact uint_slice_lt _ 8 (by omega) rfl
  · rw [unixNanoRepresentable_int64]

/-- Accepted text is the text of the cursor it is read as. -/
theorem decode_eq_ok {value : Bytes} (h : decodeScanCursor id limits value = .ok cursor) :
    value = encodeScanCursor id cursor ∧ cursor.Encodable limits := by
  rw [decodeScanCursor, ite_error_eq_ok] at h
  cases hdecode : base64Decode value with
  | none =>
    rw [hdecode] at h
    exact absurd h.2 (by simp)
  | some encoded =>
    simp only [hdecode, ite_error_eq_ok] at h
    obtain ⟨-, hsize, hread⟩ := h
    push Not at hsize
    obtain ⟨hbytes, hencodable⟩ := read_eq_ok hsize.1 hread
    refine ⟨?_, hencodable⟩
    rw [encodeScanCursor, ← hbytes]
    exact hsize.2.2.symm

/-- The text depends on the database. -/
theorem encode_injective_id {id' : DatabaseID} {cursor' : ScanCursor}
    (h : encodeScanCursor id cursor = encodeScanCursor id' cursor') : id = id' := by
  have hdecode := congrArg base64Decode h
  rw [encodeScanCursor, encodeScanCursor, base64Decode_encode, base64Decode_encode,
    Option.some.injEq] at hdecode
  simp only [body, List.append_assoc, List.append_cancel_left_eq] at hdecode
  have hbytes := congrArg (List.take 16) hdecode
  rw [List.take_append_of_le_length id.size.ge, List.take_append_of_le_length id'.size.ge,
    List.take_of_length_le id.size.le, List.take_of_length_le id'.size.le] at hbytes
  cases id
  cases id'
  exact DatabaseID.mk.injEq .. ▸ hbytes

/-- A text with one symbol exchanged is the text of no cursor. -/
theorem encode_set_ne {id' : DatabaseID} {i : Nat} {c : Byte}
    (hi : i < (encodeScanCursor id cursor).length) (hc : c ≠ (encodeScanCursor id cursor)[i])
    (cursor' : ScanCursor) :
    (encodeScanCursor id cursor).set i c ≠ encodeScanCursor id' cursor' := by
  intro h
  exact not_sealed_of_base64_set (sealed_append_crc _) (by simp) hi hc h.symm (sealed_append_crc _)

/-- No symbol of the text is outside ASCII. -/
theorem encode_ascii {b : Byte} (h : b ∈ encodeScanCursor id cursor) : b.val < 128 := by
  rw [encodeScanCursor, base64Encode, List.mem_map] at h
  obtain ⟨n, hn, rfl⟩ := h
  exact urlSymbol_ascii (sextets_lt _ _ hn)

end ScanCursor

/-- The bytes of one character: a single byte, or several that are all outside ASCII. -/
def IsCharacter (bs : Bytes) : Prop :=
  bs.length = 1 ∨ (bs ≠ [] ∧ ∀ b ∈ bs, 128 ≤ b.val)

/-- Text in which the symbol at one position is another character. -/
theorem ScanCursor.decode_changed {id id' : DatabaseID} {limits : Limits} (cursor : ScanCursor)
    {i : Nat} {character : Bytes} (hi : i < (encodeScanCursor id cursor).length)
    (hchar : IsCharacter character) (hother : character ≠ [(encodeScanCursor id cursor)[i]])
    (cursor' : ScanCursor) :
    decodeScanCursor id' limits ((encodeScanCursor id cursor).take i ++ character ++
      (encodeScanCursor id cursor).drop (i + 1)) ≠ .ok cursor' := by
  intro h
  obtain ⟨htext, -⟩ := ScanCursor.decode_eq_ok h
  rcases hchar with hone | ⟨hnonempty, houtside⟩
  · obtain ⟨c, rfl⟩ := List.length_eq_one_iff.mp hone
    have hset : (encodeScanCursor id cursor).set i c
        = (encodeScanCursor id cursor).take i ++ [c] ++
          (encodeScanCursor id cursor).drop (i + 1) := by
      rw [List.set_eq_take_append_cons_drop, if_pos hi, List.append_assoc, List.singleton_append]
    rw [← hset] at htext
    exact ScanCursor.encode_set_ne hi (fun hc => hother (by rw [hc])) cursor' htext
  · obtain ⟨b, hb⟩ := List.exists_mem_of_ne_nil _ hnonempty
    have hsymbol : b ∈ encodeScanCursor id' cursor' := by
      rw [← htext]
      exact List.mem_append_left _ (List.mem_append_right _ hb)
    have hascii := ScanCursor.encode_ascii hsymbol
    have houtside := houtside b hb
    omega

/-- What a text stands for in a database with given limits: it reads back as the cursor that was
encoded, no other text is read as that cursor, another database reads it as none, and so does every
database once a character of it is exchanged. -/
theorem scanCursor_canonical (id : DatabaseID) (limits : Limits) (hl : limits.Valid) :
    (∀ cursor : ScanCursor, cursor.Encodable limits →
      decodeScanCursor id limits (encodeScanCursor id cursor) = .ok cursor) ∧
    (∀ value cursor, decodeScanCursor id limits value = .ok cursor →
      value = encodeScanCursor id cursor ∧ cursor.Encodable limits) ∧
    (∀ other cursor, other ≠ id →
      ∃ e, decodeScanCursor id limits (encodeScanCursor other cursor) = .error e) ∧
    (∀ cursor (i : Nat) (hi : i < (encodeScanCursor id cursor).length) (character : Bytes),
      IsCharacter character → character ≠ [(encodeScanCursor id cursor)[i]] →
      ∃ e, decodeScanCursor id limits ((encodeScanCursor id cursor).take i ++ character ++
        (encodeScanCursor id cursor).drop (i + 1)) = .error e) := by
  refine ⟨fun cursor h => ScanCursor.decode_encode id hl h,
    fun value cursor h => ScanCursor.decode_eq_ok h, ?_, ?_⟩
  · intro other cursor hother
    cases hread : decodeScanCursor id limits (encodeScanCursor other cursor) with
    | error e => exact ⟨e, rfl⟩
    | ok cursor' =>
      exact absurd (ScanCursor.encode_injective_id (ScanCursor.decode_eq_ok hread).1) hother
  · intro cursor i hi character hchar hchanged
    cases hread : decodeScanCursor id limits ((encodeScanCursor id cursor).take i ++ character ++
        (encodeScanCursor id cursor).drop (i + 1)) with
    | error e => exact ⟨e, rfl⟩
    | ok cursor' =>
      exact absurd hread (ScanCursor.decode_changed cursor hi hchar hchanged cursor')

/-- The default limits are ones the engine starts with. -/
theorem scanCursor_canonical_defaults :
    defaultLimits.Valid ∧
      decodeScanCursor (DatabaseID.ofBytes [1]) defaultLimits
        (encodeScanCursor (DatabaseID.ofBytes [1]) ⟨ascii "a", ascii "ab", 7, 5⟩)
          = .ok ⟨ascii "a", ascii "ab", 7, 5⟩ := by
  have hl : defaultLimits.Valid := Limits.valid_of_validate (by decide)
  refine ⟨hl, (scanCursor_canonical (DatabaseID.ofBytes [1]) defaultLimits hl).1 _ ?_⟩
  exact ⟨by decide, ⟨by decide, by decide, by decide⟩, by decide, by decide, by decide⟩

end GapDB
