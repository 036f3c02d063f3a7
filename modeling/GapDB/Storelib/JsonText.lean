import GapDB.Storelib.Json
import GapDB.Storelib.Utf8
import Mathlib.Tactic.IntervalCases

/-!
# The text of JSON documents

How `encoding/json` writes a document: compact, members in their order, and strings with the
characters escaped that could end them or be taken for markup. A reader for what is written so
gives the document back (`parse_text`), the text is valid UTF-8, and a string takes at most six
bytes for each of its own, and two for the quotes.
-/

namespace Storelib

variable {cs : List Char} {document : Json}

/-! ### UTF-8 -/

def byteOf (b : UInt8) : Byte := Fin.ofNat 256 b.toNat

def utf8Char (c : Char) : Bytes := (String.utf8EncodeChar c).map byteOf

def utf8 (cs : List Char) : Bytes := cs.flatMap utf8Char

@[simp] theorem utf8_nil : utf8 [] = [] := rfl

@[simp] theorem utf8_cons (c : Char) (cs : List Char) :
    utf8 (c :: cs) = utf8Char c ++ utf8 cs := rfl

@[simp] theorem utf8_append (as bs : List Char) : utf8 (as ++ bs) = utf8 as ++ utf8 bs :=
  List.flatMap_append

/-- The characters that a byte string encodes. -/
def utf8Chars (bs : Bytes) : Option (List Char) :=
  ((bs.map fun b => UInt8.ofNat b.val).toByteArray.utf8Decode?).map Array.toList

theorem byteOf_val (b : UInt8) : (byteOf b).val = b.toNat := by
  show b.toNat % 256 = b.toNat
  exact Nat.mod_eq_of_lt b.toNat_lt

theorem utf8Chars_utf8 (cs : List Char) : utf8Chars (utf8 cs) = some cs := by
  have hbytes : ∀ bs : List UInt8, (bs.map byteOf).map (fun b => UInt8.ofNat b.val) = bs := by
    intro bs
    rw [List.map_map]
    conv_rhs => rw [← List.map_id bs]
    refine List.map_congr_left fun b _ => ?_
    show UInt8.ofNat (byteOf b).val = b
    rw [byteOf_val]
    simp
  have hflat : utf8 cs = (cs.flatMap String.utf8EncodeChar).map byteOf := by
    rw [utf8, List.map_flatMap]
    rfl
  rw [utf8Chars, hflat, hbytes]
  have hdecode := @List.utf8Decode?_utf8Encode cs
  rw [List.utf8Encode] at hdecode
  rw [hdecode]
  rfl

theorem utf8Char_of_ascii {c : Char} (h : c.toNat < 128) :
    utf8Char c = [Fin.ofNat 256 c.toNat] := by
  have hv : c.val.toNat ≤ 127 := Nat.lt_succ_iff.mp h
  rw [utf8Char, String.utf8EncodeChar, if_pos hv, List.map_singleton, byteOf, UInt8.toNat_ofNat']
  refine congrArg (fun n => [Fin.ofNat 256 n]) ?_
  show c.val.toNat % 256 = c.val.toNat
  omega

theorem utf8_ascii_length (h : ∀ c ∈ cs, c.toNat < 128) : (utf8 cs).length = cs.length := by
  induction cs with
  | nil => rfl
  | cons c cs ih =>
    obtain ⟨hc, hcs⟩ := List.forall_mem_cons.mp h
    rw [utf8_cons, utf8Char_of_ascii hc, List.length_append, ih hcs, List.length_cons]
    exact Nat.add_comm _ _

/-- Bytes of ASCII are the encoding of their own characters. -/
theorem utf8_map_ascii {bs : Bytes} (h : ∀ b ∈ bs, b.val < 128) :
    utf8 (bs.map fun b => Char.ofNat b.val) = bs := by
  induction bs with
  | nil => rfl
  | cons b bs ih =>
    obtain ⟨hb, hbs⟩ := List.forall_mem_cons.mp h
    have hvalid : b.val.isValidChar := .inl (by omega)
    have hchar : (Char.ofNat b.val).toNat = b.val := by
      rw [Char.ofNat, dif_pos hvalid]
      rfl
    rw [List.map_cons, utf8_cons, ih hbs, utf8Char_of_ascii (by omega), hchar]
    exact congrArg (· :: bs) (Fin.ofNat_val_eq_self b)

theorem utf8Char_length_pos (c : Char) : 0 < (utf8Char c).length := by
  rw [utf8Char, List.length_map, String.length_utf8EncodeChar]
  exact Char.utf8Size_pos c

section

variable {a b c d : Byte} {rest : Bytes}

theorem validUtf8_two (hb : within 0xC2 0xDF b) (hc : continuation c) (h : validUtf8 rest) :
    validUtf8 (b :: c :: rest) := by
  match rest with
  | [] => simp [validUtf8, hb, hc]
  | [x] => rw [validUtf8, hb, hc, h]; simp
  | x :: y :: rest => rw [validUtf8, hb, hc, h]; simp

theorem validUtf8_three (hb : within 0xE0 0xEF b) (hc : second3 b c) (hd : continuation d)
    (h : validUtf8 rest) : validUtf8 (b :: c :: d :: rest) := by
  match rest with
  | [] => rw [validUtf8, hb, hc, hd]; simp
  | x :: rest => rw [validUtf8, hb, hc, hd, h]; simp

theorem validUtf8_four (ha : within 0xF0 0xF4 a) (hb : second4 a b) (hc : continuation c)
    (hd : continuation d) (h : validUtf8 rest) : validUtf8 (a :: b :: c :: d :: rest) := by
  rw [validUtf8, ha, hb, hc, hd, h]
  simp

end

theorem within_iff {low high b : Byte} :
    within low high b = true ↔ low.val ≤ b.val ∧ b.val ≤ high.val := by
  rw [within, Bool.and_eq_true, decide_eq_true_eq, decide_eq_true_eq]
  rfl

theorem byteOf_ofNat {n : Nat} (h : n < 256) : (byteOf (UInt8.ofNat n)).val = n := by
  rw [byteOf_val, UInt8.toNat_ofNat']
  exact Nat.mod_eq_of_lt h

theorem byteOf_eq_iff {n : Nat} (h : n < 256) (b : Byte) :
    byteOf (UInt8.ofNat n) = b ↔ n = b.val := by
  rw [← Fin.val_inj, byteOf_ofNat h]

/-- A character in front of valid text. -/
theorem validUtf8_utf8Char_append (c : Char) {rest : Bytes} (h : validUtf8 rest) :
    validUtf8 (utf8Char c ++ rest) := by
  have hvalid : c.val.toNat < 55296 ∨ 57343 < c.val.toNat ∧ c.val.toNat < 1114112 := by
    have hc := c.valid
    rw [UInt32.isValidChar, Nat.isValidChar] at hc
    exact hc
  generalize hv : c.val.toNat = v at hvalid
  rw [utf8Char, String.utf8EncodeChar]
  simp only [hv]
  have hcontinuation : ∀ n, continuation (byteOf (UInt8.ofNat (n % 64 + 128))) = true := by
    intro n
    rw [continuation, within_iff, byteOf_ofNat (by omega)]
    have hlow : ((0x80 : Byte) : Nat) = 128 := rfl
    have hhigh : ((0xBF : Byte) : Nat) = 191 := rfl
    omega
  split
  · refine validUtf8_cons ?_ h
    rw [byteOf_ofNat (by omega)]
    omega
  split
  · refine validUtf8_two ?_ (hcontinuation _) h
    rw [within_iff, byteOf_ofNat (by omega)]
    have hlow : ((0xC2 : Byte) : Nat) = 194 := rfl
    have hhigh : ((0xDF : Byte) : Nat) = 223 := rfl
    omega
  split
  · refine validUtf8_three ?_ ?_ (hcontinuation _) h
    · rw [within_iff, byteOf_ofNat (by omega)]
      have hlow : ((0xE0 : Byte) : Nat) = 224 := rfl
      have hhigh : ((0xEF : Byte) : Nat) = 239 := rfl
      omega
    · rw [second3]
      have hA0 : ((0xA0 : Byte) : Nat) = 160 := rfl
      have hBF : ((0xBF : Byte) : Nat) = 191 := rfl
      have h80 : ((0x80 : Byte) : Nat) = 128 := rfl
      have h9F : ((0x9F : Byte) : Nat) = 159 := rfl
      have hE0 : ((0xE0 : Byte) : Nat) = 224 := rfl
      have hED : ((0xED : Byte) : Nat) = 237 := rfl
      split
      · next heq =>
        rw [byteOf_eq_iff (by omega)] at heq
        rw [within_iff, byteOf_ofNat (by omega)]
        omega
      split
      · next heq =>
        rw [byteOf_eq_iff (by omega)] at heq
        rw [within_iff, byteOf_ofNat (by omega)]
        omega
      · exact hcontinuation _
  · refine validUtf8_four ?_ ?_ (hcontinuation _) (hcontinuation _) h
    · rw [within_iff, byteOf_ofNat (by omega)]
      have hlow : ((0xF0 : Byte) : Nat) = 240 := rfl
      have hhigh : ((0xF4 : Byte) : Nat) = 244 := rfl
      omega
    · rw [second4]
      have h90 : ((0x90 : Byte) : Nat) = 144 := rfl
      have hBF : ((0xBF : Byte) : Nat) = 191 := rfl
      have h80 : ((0x80 : Byte) : Nat) = 128 := rfl
      have h8F : ((0x8F : Byte) : Nat) = 143 := rfl
      have hF0 : ((0xF0 : Byte) : Nat) = 240 := rfl
      have hF4 : ((0xF4 : Byte) : Nat) = 244 := rfl
      split
      · next heq =>
        rw [byteOf_eq_iff (by omega)] at heq
        rw [within_iff, byteOf_ofNat (by omega)]
        omega
      split
      · next heq =>
        rw [byteOf_eq_iff (by omega)] at heq
        rw [within_iff, byteOf_ofNat (by omega)]
        omega
      · exact hcontinuation _

theorem validUtf8_utf8 (cs : List Char) : validUtf8 (utf8 cs) := by
  induction cs with
  | nil => rfl
  | cons c cs ih => exact validUtf8_utf8Char_append c ih

namespace Json

/-! ### Strings -/

def hexChar (n : Nat) : Char := if n < 10 then Char.ofNat (48 + n) else Char.ofNat (87 + n)

def hexCharValue (c : Char) : Option Nat :=
  if '0' ≤ c ∧ c ≤ '9' then some (c.toNat - 48)
  else if 'a' ≤ c ∧ c ≤ 'f' then some (c.toNat - 87)
  else if 'A' ≤ c ∧ c ≤ 'F' then some (c.toNat - 55)
  else none

/-- `appendString` with the escapes for markup. -/
def escapeChar (c : Char) : List Char :=
  if c = '"' then ['\\', '"']
  else if c = '\\' then ['\\', '\\']
  else if c.toNat = 8 then ['\\', 'b']
  else if c.toNat = 12 then ['\\', 'f']
  else if c.toNat = 10 then ['\\', 'n']
  else if c.toNat = 13 then ['\\', 'r']
  else if c.toNat = 9 then ['\\', 't']
  else if c.toNat < 32 ∨ c = '<' ∨ c = '>' ∨ c = '&' then
    ['\\', 'u', '0', '0', hexChar (c.toNat / 16), hexChar (c.toNat % 16)]
  else if c.toNat = 0x2028 then ['\\', 'u', '2', '0', '2', '8']
  else if c.toNat = 0x2029 then ['\\', 'u', '2', '0', '2', '9']
  else [c]

def quote (s : String) : List Char := '"' :: (s.toList.flatMap escapeChar ++ ['"'])

def simpleEscape (c : Char) : Option Char :=
  if c = '"' ∨ c = '\\' ∨ c = '/' then some c
  else if c = 'b' then some (Char.ofNat 8)
  else if c = 'f' then some (Char.ofNat 12)
  else if c = 'n' then some (Char.ofNat 10)
  else if c = 'r' then some (Char.ofNat 13)
  else if c = 't' then some (Char.ofNat 9)
  else none

/-- The characters up to the closing quote, and what follows it. -/
def unescape : List Char → Option (List Char × List Char)
  | [] => none
  | '"' :: rest => some ([], rest)
  | '\\' :: 'u' :: a :: b :: c :: d :: rest =>
    match hexCharValue a, hexCharValue b, hexCharValue c, hexCharValue d with
    | some a, some b, some c, some d =>
      (unescape rest).map fun (s, rest) =>
        (Char.ofNat (((a * 16 + b) * 16 + c) * 16 + d) :: s, rest)
    | _, _, _, _ => none
  | '\\' :: c :: rest =>
    match simpleEscape c with
    | some c => (unescape rest).map fun (s, rest) => (c :: s, rest)
    | none => none
  | c :: rest => (unescape rest).map fun (s, rest) => (c :: s, rest)

/-- Each character is read back from its escape. -/
theorem unescape_escapeChar (c : Char) (rest : List Char) :
    unescape (escapeChar c ++ rest) = (unescape rest).map fun (s, rest) => (c :: s, rest) := by
  have hof : ∀ {n : Nat}, c.toNat = n → Char.ofNat n = c := fun h => h ▸ Char.ofNat_toNat c
  unfold escapeChar
  split
  · next h => subst h; rfl
  split
  · next h => subst h; rfl
  split
  · next h => rw [← hof h]; rfl
  split
  · next h => rw [← hof h]; rfl
  split
  · next h => rw [← hof h]; rfl
  split
  · next h => rw [← hof h]; rfl
  split
  · next h => rw [← hof h]; rfl
  split
  · next hcontrol =>
    have hsmall : c.toNat < 64 := by
      rcases hcontrol with h | rfl | rfl | rfl
      · omega
      · decide
      · decide
      · decide
    have hhex : ∀ n < 16, hexCharValue (hexChar n) = some n := by decide
    show unescape ('\\' :: 'u' :: '0' :: '0' :: hexChar (c.toNat / 16) :: hexChar (c.toNat % 16)
      :: rest) = _
    have hzero : hexCharValue '0' = some 0 := by decide
    rw [unescape, hzero, hhex _ (by omega), hhex _ (by omega)]
    simp only
    rw [hof (by omega)]
  split
  · next h => rw [← hof h]; rfl
  split
  · next h => rw [← hof h]; rfl
  · next hquote hslash _ _ _ _ _ _ _ _ =>
    show unescape (c :: rest) = _
    rw [unescape]
    · exact hquote
    · intro a b c' d rest' hc
      exact absurd hc hslash
    · intro c' rest' hc
      exact absurd hc hslash

theorem unescape_quote (s : String) (rest : List Char) :
    unescape (s.toList.flatMap escapeChar ++ '"' :: rest) = some (s.toList, rest) := by
  generalize s.toList = cs
  induction cs with
  | nil => rfl
  | cons c cs ih =>
    rw [List.flatMap_cons, List.append_assoc, unescape_escapeChar, ih]
    rfl

/-! ### Documents -/

mutual

def render : Json → List Char
  | .null => ['n', 'u', 'l', 'l']
  | .bool true => ['t', 'r', 'u', 'e']
  | .bool false => ['f', 'a', 'l', 's', 'e']
  | .number literal => literal.toList
  | .string value => quote value
  | .array items => '[' :: renderItems items
  | .object members => '{' :: renderMembers members

def renderItems : List Json → List Char
  | [] => [']']
  | [item] => render item ++ [']']
  | item :: items => render item ++ ',' :: renderItems items

def renderMembers : List (String × Json) → List Char
  | [] => ['}']
  | [(name, value)] => quote name ++ ':' :: (render value ++ ['}'])
  | (name, value) :: members =>
    quote name ++ ':' :: (render value ++ ',' :: renderMembers members)

end

/-- The bytes of a document. -/
def text (document : Json) : Bytes := utf8 document.render

theorem validUtf8_text (document : Json) : validUtf8 document.text := validUtf8_utf8 _

/-! ### Reading -/

def numberChar (c : Char) : Bool := c.isDigit || c = '-' || c = '+' || c = '.' || c = 'e' || c = 'E'

mutual

def readValue : Nat → List Char → Option (Json × List Char)
  | 0, _ => none
  | fuel + 1, cs =>
    match cs with
    | 'n' :: 'u' :: 'l' :: 'l' :: rest => some (.null, rest)
    | 't' :: 'r' :: 'u' :: 'e' :: rest => some (.bool true, rest)
    | 'f' :: 'a' :: 'l' :: 's' :: 'e' :: rest => some (.bool false, rest)
    | '"' :: rest => (unescape rest).map fun (s, rest) => (.string (String.ofList s), rest)
    | '[' :: ']' :: rest => some (.array [], rest)
    | '[' :: rest => (readItems fuel rest).map fun (items, rest) => (.array items, rest)
    | '{' :: '}' :: rest => some (.object [], rest)
    | '{' :: rest => (readMembers fuel rest).map fun (members, rest) => (.object members, rest)
    | cs =>
      if cs.takeWhile numberChar = [] then none
      else some (.number (String.ofList (cs.takeWhile numberChar)), cs.dropWhile numberChar)

def readItems : Nat → List Char → Option (List Json × List Char)
  | 0, _ => none
  | fuel + 1, cs =>
    match readValue fuel cs with
    | some (item, ',' :: rest) =>
      (readItems fuel rest).map fun (items, rest) => (item :: items, rest)
    | some (item, ']' :: rest) => some ([item], rest)
    | _ => none

def readMembers : Nat → List Char → Option (List (String × Json) × List Char)
  | 0, _ => none
  | fuel + 1, cs =>
    match cs with
    | '"' :: rest =>
      match unescape rest with
      | some (name, ':' :: rest) =>
        match readValue fuel rest with
        | some (value, ',' :: rest) =>
          (readMembers fuel rest).map fun (members, rest) =>
            ((String.ofList name, value) :: members, rest)
        | some (value, '}' :: rest) => some ([(String.ofList name, value)], rest)
        | _ => none
      | _ => none
    | _ => none

end

/-- The document that a text holds, if it is one of those that are written here. -/
def parse (raw : Bytes) : Option Json :=
  match utf8Chars raw with
  | none => none
  | some cs =>
    match readValue cs.length cs with
    | some (document, []) => some document
    | _ => none

/-! ### Reading back -/

def Digits (cs : List Char) : Prop := cs ≠ [] ∧ ∀ c ∈ cs, c.isDigit = true

/-- The grammar of numbers: an integer without leading zeros, a fraction and an exponent. -/
def Numeral (literal : String) : Prop :=
  ∃ sign integer fraction exponent : List Char,
    literal.toList = sign ++ (integer ++ (fraction ++ exponent)) ∧ sign ∈ [[], ['-']] ∧
      Digits integer ∧ (integer.head? = some '0' → integer = ['0']) ∧
      (fraction = [] ∨ ∃ ds, fraction = '.' :: ds ∧ Digits ds) ∧
      (exponent = [] ∨ ∃ e sign ds, exponent = e :: (sign ++ ds) ∧ e ∈ ['e', 'E'] ∧
        sign ∈ [[], ['+'], ['-']] ∧ Digits ds)

theorem Digits.numberChar {ds : List Char} (h : Digits ds) : ∀ c ∈ ds, numberChar c = true := by
  intro c hc
  rw [Json.numberChar, h.2 c hc]
  rfl

theorem Numeral.numberChars {literal : String} (h : Numeral literal) :
    literal.toList ≠ [] ∧ ∀ c ∈ literal.toList, numberChar c = true := by
  obtain ⟨sign, integer, fraction, exponent, hshape, hsign, hinteger, -, hfraction, hexponent⟩ := h
  have hminus : ∀ c ∈ sign, numberChar c = true := by
    rcases List.mem_pair.mp hsign with rfl | rfl
    · simp
    · exact List.forall_mem_singleton.mpr rfl
  have hpoint : ∀ c ∈ fraction, numberChar c = true := by
    rcases hfraction with rfl | ⟨ds, rfl, hds⟩
    · simp
    · exact List.forall_mem_cons.mpr ⟨rfl, hds.numberChar⟩
  have hpower : ∀ c ∈ exponent, numberChar c = true := by
    rcases hexponent with rfl | ⟨e, sign, ds, rfl, he, hsign, hds⟩
    · simp
    · have hletter : numberChar e = true := by
        rcases List.mem_pair.mp he with rfl | rfl <;> rfl
      have hsigned : ∀ c ∈ sign, numberChar c = true := by
        simp only [List.mem_cons, List.not_mem_nil, or_false] at hsign
        rcases hsign with rfl | rfl | rfl
        · simp
        · exact List.forall_mem_singleton.mpr rfl
        · exact List.forall_mem_singleton.mpr rfl
      exact List.forall_mem_cons.mpr ⟨hletter,
        List.forall_mem_append.mpr ⟨hsigned, hds.numberChar⟩⟩
  rw [hshape]
  refine ⟨fun hnil => hinteger.1 ?_, List.forall_mem_append.mpr ⟨hminus,
    List.forall_mem_append.mpr ⟨hinteger.numberChar, List.forall_mem_append.mpr ⟨hpoint, hpower⟩⟩⟩⟩
  exact (List.append_eq_nil_iff.mp (List.append_eq_nil_iff.mp hnil).2).1

mutual

/-- Every number of the document is written as one. -/
def Numeric : Json → Prop
  | .number literal => Numeral literal
  | .array items => NumericItems items
  | .object members => NumericMembers members
  | _ => True

def NumericItems : List Json → Prop
  | [] => True
  | item :: items => Numeric item ∧ NumericItems items

def NumericMembers : List (String × Json) → Prop
  | [] => True
  | (_, value) :: members => Numeric value ∧ NumericMembers members

end

mutual

/-- How many arrays and objects stand in one another. -/
def depth : Json → Nat
  | .array items => depthItems items + 1
  | .object members => depthMembers members + 1
  | _ => 0

def depthItems : List Json → Nat
  | [] => 0
  | item :: items => max item.depth (depthItems items)

def depthMembers : List (String × Json) → Nat
  | [] => 0
  | (_, value) :: members => max value.depth (depthMembers members)

end

/-- A document that a reader who follows `levels` levels takes. -/
structure Readable (levels : Nat) (document : Json) : Prop where
  numeric : document.Numeric
  depth : document.depth ≤ levels

theorem Readable.mono {levels levels' : Nat} (h : document.Readable levels)
    (hle : levels ≤ levels') : document.Readable levels' :=
  ⟨h.numeric, h.depth.trans hle⟩

/-- What follows a document does not go on with a number. -/
def Ends (rest : List Char) : Prop := ∀ c ∈ rest.head?, numberChar c = false

theorem render_ne_nil (h : document.Numeric) : document.render ≠ [] := by
  cases document with
  | null | array | object => simp [render]
  | bool value => cases value <;> simp [render]
  | number literal =>
    rw [render]
    exact (Numeral.numberChars h).1
  | string value => simp [render, quote]

theorem takeWhile_number {rest : List Char} (hcs : ∀ c ∈ cs, numberChar c = true)
    (hrest : Ends rest) :
    (cs ++ rest).takeWhile numberChar = cs ∧ (cs ++ rest).dropWhile numberChar = rest := by
  induction cs with
  | nil =>
    cases rest with
    | nil => exact ⟨rfl, rfl⟩
    | cons c rest =>
      have hc : numberChar c = false := hrest c rfl
      simp [hc]
  | cons c cs ih =>
    rw [List.forall_mem_cons] at hcs
    obtain ⟨htake, hdrop⟩ := ih hcs.2
    simp [hcs.1, htake, hdrop]

theorem readValue_array {fuel : Nat} (h : cs.head? ≠ some ']') : readValue (fuel + 1) ('[' :: cs)
      = (readItems fuel cs).map fun (items, rest) => (.array items, rest) := by
  rw [readValue]
  intro rest heq
  exact h (by rw [heq]; rfl)

theorem readValue_object {fuel : Nat} (h : cs.head? ≠ some '}') : readValue (fuel + 1) ('{' :: cs)
      = (readMembers fuel cs).map fun (members, rest) => (.object members, rest) := by
  rw [readValue]
  intro rest heq
  exact h (by rw [heq]; rfl)

/-- A number is not taken for anything else. -/
theorem readValue_number {fuel : Nat} {c : Char} (hc : numberChar c = true) :
    readValue (fuel + 1) (c :: cs)
      = some (.number (String.ofList ((c :: cs).takeWhile numberChar)),
          (c :: cs).dropWhile numberChar) := by
  have hne : ∀ d : Char, numberChar d = false → c ≠ d := by
    rintro d hd rfl
    rw [hd] at hc
    cases hc
  rw [readValue]
  · rw [if_neg (by simp [hc])]
  · exact fun _ h => hne 'n' (by decide) (List.cons.inj h).1
  · exact fun _ h => hne 't' (by decide) (List.cons.inj h).1
  · exact fun _ h => hne 'f' (by decide) (List.cons.inj h).1
  · exact fun _ h => hne '"' (by decide) (List.cons.inj h).1
  · exact fun _ h => hne '[' (by decide) (List.cons.inj h).1
  · exact fun _ h => hne '[' (by decide) (List.cons.inj h).1
  · exact fun _ h => hne '{' (by decide) (List.cons.inj h).1
  · exact fun _ h => hne '{' (by decide) (List.cons.inj h).1

/-- A document does not begin like the end of a list. -/
theorem render_head (h : document.Numeric) (rest : List Char) :
    (document.render ++ rest).head? ≠ some ']' := by
  cases document with
  | null | array | object => simp [render]
  | bool value => cases value <;> simp [render]
  | number literal =>
    obtain ⟨hne, hchars⟩ := Numeral.numberChars h
    rw [render]
    cases hcs : literal.toList with
    | nil => exact absurd hcs hne
    | cons c cs =>
      rw [hcs] at hchars
      rintro hhead
      obtain rfl := Option.some.inj hhead
      exact absurd (hchars _ List.mem_cons_self) (by decide)
  | string value => simp [render, quote]

theorem ends_cons {c : Char} (h : numberChar c = false) (rest : List Char) : Ends (c :: rest) := by
  intro d hd
  obtain rfl := Option.some.inj hd
  exact h

mutual

theorem readValue_render : (document : Json) → document.Numeric → ∀ (fuel : Nat) (rest : List Char),
    document.render.length ≤ fuel → Ends rest →
      readValue fuel (document.render ++ rest) = some (document, rest)
  | document, h, 0, rest, hfuel, _ =>
    absurd (List.length_eq_zero_iff.mp (Nat.le_zero.mp hfuel)) (render_ne_nil h)
  | .null, _, fuel + 1, rest, _, _ => by rw [render]; rfl
  | .bool true, _, fuel + 1, rest, _, _ => by rw [render]; rfl
  | .bool false, _, fuel + 1, rest, _, _ => by rw [render]; rfl
  | .number literal, h, fuel + 1, rest, _, hrest => by
    obtain ⟨hne, hchars⟩ := Numeral.numberChars h
    obtain ⟨htake, hdrop⟩ := takeWhile_number hchars hrest
    rw [render]
    cases hcs : literal.toList with
    | nil => exact absurd hcs hne
    | cons c cs =>
      rw [hcs] at hchars
      rw [hcs, List.cons_append] at htake hdrop
      rw [List.cons_append, readValue_number (hchars c List.mem_cons_self), htake, hdrop, ← hcs,
        String.ofList_toList]
  | .string value, _, fuel + 1, rest, _, _ => by
    rw [render, quote, List.cons_append, List.append_assoc, readValue]
    rw [List.singleton_append, unescape_quote]
    simp only [Option.map_some, String.ofList_toList]
  | .array [], _, fuel + 1, rest, _, _ => by rw [render, renderItems]; rfl
  | .array (item :: items), h, fuel + 1, rest, hfuel, _ => by
    rw [Numeric] at h
    rw [render, List.length_cons] at hfuel
    have hitems := readItems_render (item :: items) (List.cons_ne_nil _ _) h fuel rest
      (Nat.le_of_succ_le_succ hfuel)
    have hhead : (renderItems (item :: items) ++ rest).head? ≠ some ']' := by
      rw [NumericItems] at h
      cases items with
      | nil =>
        rw [renderItems, List.append_assoc]
        exact render_head h.1 _
      | cons other items =>
        rw [renderItems, List.append_assoc]
        · exact render_head h.1 _
        · exact List.cons_ne_nil _ _
    rw [render, List.cons_append, readValue_array hhead, hitems]
    rfl
  | .object [], _, fuel + 1, rest, _, _ => by rw [render, renderMembers]; rfl
  | .object ((name, value) :: members), h, fuel + 1, rest, hfuel, _ => by
    rw [Numeric] at h
    rw [render, List.length_cons] at hfuel
    have hmembers := readMembers_render ((name, value) :: members) (List.cons_ne_nil _ _) h
      fuel rest (Nat.le_of_succ_le_succ hfuel)
    have hhead : (renderMembers ((name, value) :: members) ++ rest).head? ≠ some '}' := by
      cases members with
      | nil | cons => simp [renderMembers, quote]
    rw [render, List.cons_append, readValue_object hhead, hmembers]
    rfl

theorem readItems_render : (items : List Json) → items ≠ [] → NumericItems items →
    ∀ (fuel : Nat) (rest : List Char), (renderItems items).length ≤ fuel →
      readItems fuel (renderItems items ++ rest) = some (items, rest)
  | [], hne, _, _, _, _ => absurd rfl hne
  | [item], _, h, 0, _, hfuel => by simp [renderItems] at hfuel
  | [item], _, h, fuel + 1, rest, hfuel => by
    rw [NumericItems] at h
    rw [renderItems, List.length_append, List.length_singleton] at hfuel
    have hitem := readValue_render item h.1 fuel (']' :: rest) (Nat.le_of_succ_le_succ hfuel)
      (ends_cons (by decide) rest)
    rw [renderItems, List.append_assoc, List.singleton_append, readItems, hitem]
    simp only
  | item :: other :: items, _, h, 0, _, hfuel => by simp [renderItems] at hfuel
  | item :: other :: items, _, h, fuel + 1, rest, hfuel => by
    rw [NumericItems] at h
    have hrender : renderItems (item :: other :: items)
        = item.render ++ ',' :: renderItems (other :: items) := by rw [renderItems]; simp
    rw [hrender, List.length_append, List.length_cons] at hfuel
    have hitem := readValue_render item h.1 fuel (',' :: (renderItems (other :: items) ++ rest))
      (by omega) (ends_cons (by decide) _)
    have hitems := readItems_render (other :: items) (List.cons_ne_nil _ _) h.2 fuel rest (by omega)
    rw [hrender, List.append_assoc, List.cons_append, readItems, hitem]
    simp only [hitems, Option.map_some]

theorem readMembers_render : (members : List (String × Json)) → members ≠ [] →
    NumericMembers members → ∀ (fuel : Nat) (rest : List Char),
      (renderMembers members).length ≤ fuel →
        readMembers fuel (renderMembers members ++ rest) = some (members, rest)
  | [], hne, _, _, _, _ => absurd rfl hne
  | [(name, value)], _, h, 0, _, hfuel => by simp [renderMembers] at hfuel
  | [(name, value)], _, h, fuel + 1, rest, hfuel => by
    rw [NumericMembers] at h
    have hshape : renderMembers [(name, value)] ++ rest
        = '"' :: (name.toList.flatMap escapeChar ++
          '"' :: ':' :: (value.render ++ '}' :: rest)) := by
      simp [renderMembers, quote]
    have hlen : value.render.length ≤ fuel := by
      rw [renderMembers] at hfuel
      simp only [List.length_append, List.length_cons] at hfuel
      omega
    rw [hshape, readMembers, unescape_quote]
    simp only
    rw [readValue_render value h.1 fuel ('}' :: rest) hlen (ends_cons (by decide) _)]
    simp only [String.ofList_toList]
  | (name, value) :: other :: members, _, h, 0, _, hfuel => by simp [renderMembers] at hfuel
  | (name, value) :: other :: members, _, h, fuel + 1, rest, hfuel => by
    rw [NumericMembers] at h
    have hrender : renderMembers ((name, value) :: other :: members)
        = quote name ++ ':' :: (value.render ++ ',' :: renderMembers (other :: members)) := by
      rw [renderMembers]
      simp
    have hshape : renderMembers ((name, value) :: other :: members) ++ rest
        = '"' :: (name.toList.flatMap escapeChar ++ '"' :: ':' ::
            (value.render ++ ',' :: (renderMembers (other :: members) ++ rest))) := by
      rw [hrender]
      simp [quote]
    rw [hrender] at hfuel
    simp only [List.length_append, List.length_cons] at hfuel
    have hmembers := readMembers_render (other :: members) (List.cons_ne_nil _ _) h.2 fuel rest
      (by omega)
    rw [hshape, readMembers, unescape_quote]
    simp only
    rw [readValue_render value h.1 fuel _ (by omega) (ends_cons (by decide) _)]
    simp only [hmembers, Option.map_some, String.ofList_toList]

end

theorem text_ne_nil (h : document.Numeric) : document.text ≠ [] := by
  intro hnil
  have hchars := utf8Chars_utf8 document.render
  rw [show utf8 document.render = [] from hnil, ← utf8_nil, utf8Chars_utf8] at hchars
  exact render_ne_nil h (Option.some.inj hchars).symm

/-- A document is read back from its text. -/
theorem parse_text (h : document.Numeric) : parse document.text = some document := by
  rw [parse, text, utf8Chars_utf8]
  simp only
  have hread := readValue_render document h document.render.length [] le_rfl (by simp [Ends])
  rw [List.append_nil] at hread
  rw [hread]

/-! ### Sizes -/

theorem utf8_escapeChar_length_le (c : Char) :
    (utf8 (escapeChar c)).length ≤ 6 * (utf8Char c).length := by
  have hpos := utf8Char_length_pos c
  have hsix : ∀ {cs : List Char}, cs.all (fun d => d.toNat < 128) = true → cs.length ≤ 6 →
      (utf8 cs).length ≤ 6 * (utf8Char c).length := by
    intro cs hascii hlen
    rw [utf8_ascii_length fun d hd => of_decide_eq_true (List.all_eq_true.mp hascii d hd)]
    omega
  unfold escapeChar
  split
  · exact hsix rfl (by decide)
  split
  · exact hsix rfl (by decide)
  split
  · exact hsix rfl (by decide)
  split
  · exact hsix rfl (by decide)
  split
  · exact hsix rfl (by decide)
  split
  · exact hsix rfl (by decide)
  split
  · exact hsix rfl (by decide)
  split
  · next hcontrol =>
    have hsmall : c.toNat < 64 := by
      rcases hcontrol with h | rfl | rfl | rfl
      · omega
      · decide
      · decide
      · decide
    have hhex : ∀ n < 16, (hexChar n).toNat < 128 := by decide
    refine hsix (List.all_eq_true.mpr fun d hd => decide_eq_true ?_) (by simp)
    simp only [List.mem_cons, List.not_mem_nil, or_false] at hd
    rcases hd with rfl | rfl | rfl | rfl | rfl | rfl
    · decide
    · decide
    · decide
    · decide
    · exact hhex _ (by omega)
    · exact hhex _ (by omega)
  split
  · exact hsix rfl (by decide)
  split
  · exact hsix rfl (by decide)
  · simp only [utf8_cons, utf8_nil, List.append_nil]
    omega

/-- At most six bytes for one, and the quotes. -/
theorem utf8_quote_length_le (s : String) :
    (utf8 (quote s)).length ≤ 6 * (utf8 s.toList).length + 2 := by
  have hbody : ∀ cs : List Char, (utf8 (cs.flatMap escapeChar)).length ≤ 6 * (utf8 cs).length := by
    intro cs
    induction cs with
    | nil => exact le_rfl
    | cons c cs ih =>
      have hc := utf8_escapeChar_length_le c
      simp only [List.flatMap_cons, utf8_append, utf8_cons, List.length_append]
      omega
  have hmark : (utf8Char '"').length = 1 := rfl
  have hs := hbody s.toList
  simp only [quote, utf8_cons, utf8_append, utf8_nil, List.append_nil, List.length_append, hmark]
  omega

/-- A character that is written as itself, in one byte. -/
def plainChar (c : Char) : Bool := c.toNat < 128 ∧ escapeChar c = [c]

theorem utf8_quote_length {s : String} (h : s.toList.all plainChar = true) :
    (utf8 (quote s)).length = s.toList.length + 2 := by
  have hbody : ∀ cs : List Char, cs.all plainChar = true →
      (utf8 (cs.flatMap escapeChar)).length = cs.length := by
    intro cs hcs
    induction cs with
    | nil => rfl
    | cons c cs ih =>
      rw [List.all_cons, Bool.and_eq_true] at hcs
      obtain ⟨hascii, hself⟩ : c.toNat < 128 ∧ escapeChar c = [c] := by
        simpa [plainChar] using hcs.1
      have hone : (utf8Char c).length = 1 := by
        rw [utf8Char_of_ascii hascii]
        rfl
      rw [List.flatMap_cons, hself, utf8_append, List.length_append, ih hcs.2, utf8_cons, utf8_nil,
        List.append_nil, hone, List.length_cons]
      omega
  have hmark : (utf8Char '"').length = 1 := rfl
  have hs := hbody s.toList h
  simp only [quote, utf8_cons, utf8_append, utf8_nil, List.append_nil, List.length_append,
    hmark, hs]
  omega

/-- What a member takes, with the comma or the brace after it. -/
def memberLength (member : String × Json) : Nat :=
  (utf8 (quote member.1)).length + member.2.text.length + 2

theorem utf8_renderMembers_length {members : List (String × Json)} (h : members ≠ []) :
    (utf8 (renderMembers members)).length = (members.map memberLength).sum := by
  have hcolon : (utf8Char ':').length = 1 := rfl
  have hcomma : (utf8Char ',').length = 1 := rfl
  have hbrace : (utf8Char '}').length = 1 := rfl
  induction members with
  | nil => exact absurd rfl h
  | cons member members ih =>
    obtain ⟨name, value⟩ := member
    cases members with
    | nil =>
      simp only [renderMembers, utf8_cons, utf8_append, utf8_nil, List.append_nil,
        List.length_append, hcolon, hbrace, List.map_cons, List.map_nil, List.sum_cons,
        List.sum_nil, memberLength, text]
      omega
    | cons other members =>
      have hrest := ih (List.cons_ne_nil _ _)
      have hrender : renderMembers ((name, value) :: other :: members)
          = quote name ++ ':' :: (value.render ++ ',' :: renderMembers (other :: members)) := by
        rw [renderMembers]
        simp
      rw [hrender, List.map_cons, List.sum_cons, ← hrest, memberLength, text]
      simp only [utf8_cons, utf8_append, List.length_append, hcolon, hcomma]
      omega

theorem text_object_length {members : List (String × Json)} (h : members ≠ []) :
    (Json.object members).text.length = 1 + (members.map memberLength).sum := by
  have hbrace : (utf8Char '{').length = 1 := rfl
  rw [text, render, utf8_cons, List.length_append, hbrace, utf8_renderMembers_length h]

theorem text_string_length (s : String) :
    (Json.string s).text.length = (utf8 (quote s)).length := by rw [text, render]

/-- An object is longer than each of its values. -/
theorem text_length_le_of_lookup {members : List (String × Json)} {name : String} {value : Json}
    (h : members.lookup name = some value) :
    value.text.length ≤ (Json.object members).text.length := by
  obtain ⟨before, after, rfl, _⟩ := List.lookup_eq_some_iff.mp h
  rw [text_object_length (by simp), List.map_append, List.sum_append, List.map_cons,
    List.sum_cons, memberLength]
  dsimp only
  omega

theorem text_replicate_length {c : Char} (hc : plainChar c = true) (n : Nat) :
    (Json.string (String.ofList (List.replicate n c))).text.length = n + 2 := by
  rw [text_string_length, utf8_quote_length, String.toList_ofList, List.length_replicate]
  rw [String.toList_ofList, List.all_eq_true]
  intro d hd
  rwa [List.eq_of_mem_replicate hd]

theorem text_number_length {literal : String} (h : ∀ c ∈ literal.toList, c.toNat < 128) :
    (Json.number literal).text.length = literal.toList.length := by
  rw [text, render, utf8_ascii_length h]

end Json

end Storelib
