import GapDB.Engine.Readers
import GapDB.Protocol.ErrorEvidence
import GapDB.Storelib.Stream

/-!
# Message framing

`internal/protocol/frame.go` for the server and the frame functions of `gapdb/client.go` for the
client: two writers and two readers of payloads behind a length of four bytes. `framing_lossless`
is what they give together over any stream.
-/

namespace GapDB

open Storelib

def framePrefixBytes : Nat := 4

def hardMaxFrameBytes : Int := 64 * 2 ^ 20

def frameTooLarge (received maximum : Nat) : Error :=
  { code := .frameTooLarge, message := "Protocol frame exceeds the configured limit.",
    retry := .never, receivedBytes := received, maximumBytes := maximum,
    safeActions := [.reduceRequest, .abort] }

/-! ### The server's side -/

def readFrame (maximum : Int) (reader : Source) : Except Error Bytes × Source :=
  if maximum ≤ 0 ∨ hardMaxFrameBytes < maximum then
    (.error (invalidProtocol "maximum_frame_bytes" "is outside the supported range"), reader)
  else
    match reader.readFull framePrefixBytes with
    | (.error _, reader) =>
      (.error (invalidProtocol "frame_length" "could not read the complete four-byte prefix"),
        reader)
    | (.ok word, reader) =>
      let length := uint word
      if length = 0 then
        (.error (invalidProtocol "frame_length" "must be greater than zero"), reader)
      else if maximum < length then (.error (frameTooLarge length maximum.toNat), reader)
      else
        match reader.readFull length with
        | (.error _, reader) =>
          (.error (invalidProtocol "frame_payload" "ended before the declared length"), reader)
        | (.ok payload, reader) => (.ok payload, reader)

def writeFrameWithin (ceiling maximum : Int) (writer : Sink) (payload : Bytes) :
    Option Error × Sink :=
  if maximum ≤ 0 ∨ ceiling < maximum then
    (some (invalidProtocol "maximum_frame_bytes" "is outside the supported range"), writer)
  else if payload = [] then
    (some (invalidProtocol "frame_length" "must be greater than zero"), writer)
  else if maximum < payload.length ∨ 2 ^ 32 - 1 < payload.length then
    (some (frameTooLarge payload.length maximum.toNat), writer)
  else
    match writer.writeAll (putUint 4 (u32 payload.length)) with
    | (some _, writer) =>
      (some (invalidProtocol "frame_length" "could not write the complete four-byte prefix"),
        writer)
    | (none, writer) =>
      match writer.writeAll payload with
      | (some _, writer) =>
        (some (invalidProtocol "frame_payload" "could not write the complete payload"), writer)
      | (none, writer) => (none, writer)

def writeFrame (maximum : Int) : Sink → Bytes → Option Error × Sink :=
  writeFrameWithin hardMaxFrameBytes maximum

/-- The binary recovery response has a ceiling of its own. -/
def writeRecoveryFrame (maximum : Int) : Sink → Bytes → Option Error × Sink :=
  writeFrameWithin hardMaxRecoveryBytes maximum

/-! ### The client's side -/

inductive ClientFrameError where
  | stream (cause : StreamError)
  | invalidFrameLength (length : Nat)
deriving DecidableEq, Repr

/-- With an error the source also returns what it has of the payload, which no caller reads. -/
def readClientFrame (maximum : Int) (reader : Source) : Except ClientFrameError Bytes × Source :=
  match reader.readFull 4 with
  | (.error e, reader) => (.error (.stream e), reader)
  | (.ok word, reader) =>
    let length := uint word
    if length = 0 ∨ maximum < length then (.error (.invalidFrameLength length), reader)
    else
      match reader.readFull length with
      | (.error e, reader) => (.error (.stream e), reader)
      | (.ok payload, reader) => (.ok payload, reader)

/-- Nothing bounds the payload here: the length is cut to its word. -/
def writeClientFrame (writer : Sink) (payload : Bytes) : Option StreamError × Sink :=
  match writer.writeAll (putUint 4 (u32 payload.length)) with
  | (some e, writer) => (some e, writer)
  | (none, writer) => writer.writeAll payload

/-! ### One frame -/

theorem putUint_u32 (n : Nat) : putUint 4 (u32 n) = putUint 4 n := putUint_mod 4 n

theorem writeFrameWithin_writes {ceiling maximum : Int} (hpos : 0 < maximum)
    (hle : maximum ≤ ceiling) (hword : ceiling < 2 ^ 32) :
    WritesFrames (writeFrameWithin ceiling maximum) maximum := by
  refine ⟨fun sink payload hsink hfit => ?_⟩
  obtain ⟨hne, hlen⟩ := hfit
  obtain ⟨first, hfirst, htook⟩ := Sink.writeAll_took hsink (putUint 4 payload.length)
  obtain ⟨after, hafter, htook'⟩ := Sink.writeAll_took (htook.accepts hsink) payload
  refine ⟨after, ?_, htook.trans htook'⟩
  rw [writeFrameWithin, if_neg (by omega), if_neg hne, if_neg (by omega), putUint_u32, hfirst]
  simp only [hafter]

theorem writeClientFrame_writes (limit : Int) : WritesFrames writeClientFrame limit := by
  refine ⟨fun sink payload hsink _ => ?_⟩
  obtain ⟨first, hfirst, htook⟩ := Sink.writeAll_took hsink (putUint 4 payload.length)
  obtain ⟨after, hafter, htook'⟩ := Sink.writeAll_took (htook.accepts hsink) payload
  refine ⟨after, ?_, htook.trans htook'⟩
  rw [writeClientFrame, putUint_u32, hfirst]
  exact hafter

/-- The length is read from the first four bytes, whatever the chunks. -/
theorem readFull_word {source : Source} {n : Nat} {after : Bytes} (hn : n < 2 ^ 32)
    (h : source.flatten = putUint 4 n ++ after) :
    ∃ rest word, source.readFull 4 = (.ok word, rest) ∧ uint word = n ∧ rest.flatten = after := by
  obtain ⟨rest, hread, hrest⟩ := Source.readFull_append h
  rw [putUint_length] at hread
  exact ⟨rest, _, hread, uint_putUint hn, hrest⟩

/-- A source that ends inside a frame: in the length, or after it. -/
theorem torn_cases {source : Source} {payload : Bytes} {k : Nat} (hk : k < (framed payload).length)
    (h : source.flatten = (framed payload).take k) :
    source.flatten.length < 4 ∨
      ∃ part, source.flatten = putUint 4 payload.length ++ part ∧ part.length < payload.length := by
  rw [framed_length] at hk
  by_cases hfew : k < 4
  · left
    rw [h, List.length_take]
    omega
  · right
    refine ⟨payload.take (k - 4), ?_, ?_⟩
    · rw [h, framed, List.take_append, putUint_length, List.take_of_length_le]
      rw [putUint_length]
      omega
    · rw [List.length_take]
      omega

theorem readFrame_reads {maximum : Int} (hpos : 0 < maximum) (hle : maximum ≤ hardMaxFrameBytes) :
    ReadsFrames (readFrame maximum) maximum := by
  have hword : hardMaxFrameBytes < 2 ^ 32 := by decide
  have hrange : ¬ (maximum ≤ 0 ∨ hardMaxFrameBytes < maximum) := by omega
  refine ⟨fun source payload after hfit hsource => ?_, fun source payload k hfit hk hsource => ?_⟩
  · obtain ⟨hne, hlen⟩ := hfit
    rw [framed, List.append_assoc] at hsource
    obtain ⟨rest, word, hread, hlength, hrest⟩ := readFull_word (by omega) hsource
    obtain ⟨last, hpayload, hlast⟩ := Source.readFull_append hrest
    refine ⟨last, ?_, hlast⟩
    rw [readFrame, if_neg hrange, framePrefixBytes, hread]
    have hzero : payload.length ≠ 0 := mt List.length_eq_zero_iff.mp hne
    simp only [hlength, if_neg hzero, if_neg (not_lt.mpr hlen), hpayload]
  · obtain ⟨hne, hlen⟩ := hfit
    rw [readFrame, if_neg hrange, framePrefixBytes]
    rcases torn_cases hk hsource with hshort | ⟨part, hpart, hmissing⟩
    · obtain ⟨e, he⟩ := Source.readFull_short hshort
      rw [he]
      exact ⟨_, rfl⟩
    · obtain ⟨rest, word, hread, hlength, hrest⟩ := readFull_word (by omega) hpart
      obtain ⟨e, he⟩ := Source.readFull_short (hrest ▸ hmissing)
      rw [hread]
      have hzero : payload.length ≠ 0 := mt List.length_eq_zero_iff.mp hne
      simp only [hlength, if_neg hzero, if_neg (not_lt.mpr hlen), he]
      exact ⟨_, rfl⟩

theorem readClientFrame_reads (maximum : Int) :
    ReadsFrames (readClientFrame maximum) (min maximum (2 ^ 32 - 1)) := by
  refine ⟨fun source payload after hfit hsource => ?_, fun source payload k hfit hk hsource => ?_⟩
  · obtain ⟨hne, hlen⟩ := hfit
    rw [framed, List.append_assoc] at hsource
    obtain ⟨rest, word, hread, hlength, hrest⟩ := readFull_word (by omega) hsource
    obtain ⟨last, hpayload, hlast⟩ := Source.readFull_append hrest
    refine ⟨last, ?_, hlast⟩
    have hzero : payload.length ≠ 0 := mt List.length_eq_zero_iff.mp hne
    have hallowed : ¬ (payload.length = 0 ∨ maximum < payload.length) := by omega
    rw [readClientFrame, hread]
    simp only [hlength, if_neg hallowed, hpayload]
  · obtain ⟨hne, hlen⟩ := hfit
    rw [readClientFrame]
    rcases torn_cases hk hsource with hshort | ⟨part, hpart, hmissing⟩
    · obtain ⟨e, he⟩ := Source.readFull_short hshort
      rw [he]
      exact ⟨_, rfl⟩
    · obtain ⟨rest, word, hread, hlength, hrest⟩ := readFull_word (by omega) hpart
      obtain ⟨e, he⟩ := Source.readFull_short (hrest ▸ hmissing)
      have hzero : payload.length ≠ 0 := mt List.length_eq_zero_iff.mp hne
      have hallowed : ¬ (payload.length = 0 ∨ maximum < payload.length) := by omega
      rw [hread]
      simp only [hlength, if_neg hallowed, he]
      exact ⟨_, rfl⟩

/-! ### Refused lengths -/

/-- The length a source announces is refused, and nothing after it is taken from the source. -/
def RefusesLength {ρ : Type} (read : Source → Except ρ Bytes × Source) (maximum : Int) : Prop :=
  ∀ (source : Source) (n : Nat) (after : Bytes), n < 2 ^ 32 → n = 0 ∨ maximum < n →
    source.flatten = putUint 4 n ++ after →
      ∃ e rest, read source = (.error e, rest) ∧ rest.flatten = after

theorem readFrame_refuses {maximum : Int} (hpos : 0 < maximum)
    (hle : maximum ≤ hardMaxFrameBytes) : RefusesLength (readFrame maximum) maximum := by
  intro source n after hn hbad hsource
  obtain ⟨rest, word, hread, hlength, hrest⟩ := readFull_word hn hsource
  rw [readFrame, if_neg (by omega), framePrefixBytes, hread]
  by_cases hzero : n = 0
  · exact ⟨_, rest, by simp only [hlength, if_pos hzero]; rfl, hrest⟩
  · have hlarge := hbad.resolve_left hzero
    exact ⟨_, rest, by simp only [hlength, if_neg hzero, if_pos hlarge]; rfl, hrest⟩

theorem readClientFrame_refuses (maximum : Int) :
    RefusesLength (readClientFrame maximum) maximum := by
  intro source n after hn hbad hsource
  obtain ⟨rest, word, hread, hlength, hrest⟩ := readFull_word hn hsource
  rw [readClientFrame, hread]
  exact ⟨_, rest, by simp only [hlength, if_pos hbad]; rfl, hrest⟩

/-! ### Both directions -/

/-- Framing loses nothing in either direction: what the server's writers or the client's writer
sends within the limits of both sides is what the other side's reader returns, over any stream, and
a length outside the reader's limit is refused with the payload still unread. -/
theorem framing_lossless (maximum clientMaximum : Int) (hpos : 0 < maximum) :
    (maximum ≤ hardMaxFrameBytes →
      Lossless (writeFrame maximum) (readClientFrame clientMaximum) (min maximum clientMaximum) ∧
      Lossless writeClientFrame (readFrame maximum) maximum ∧
      RefusesLength (readFrame maximum) maximum) ∧
    (maximum ≤ hardMaxRecoveryBytes →
      Lossless (writeRecoveryFrame maximum) (readClientFrame clientMaximum)
        (min maximum clientMaximum)) ∧
    RefusesLength (readClientFrame clientMaximum) clientMaximum := by
  have hread := readClientFrame_reads clientMaximum
  -- a writer's ceiling is far below what the word of the length can hold
  have hmin : maximum ≤ 2 ^ 28 →
      min maximum (min clientMaximum (2 ^ 32 - 1)) = min maximum clientMaximum := by
    intro hle
    omega
  refine ⟨fun hle => ⟨?_, ?_, readFrame_refuses hpos hle⟩, fun hle => ?_,
    readClientFrame_refuses clientMaximum⟩
  · have h := lossless_of_frames (writeFrameWithin_writes hpos hle (by decide)) hread
    rwa [hmin (hle.trans (by decide))] at h
  · have h := lossless_of_frames (writeClientFrame_writes maximum) (readFrame_reads hpos hle)
    rwa [min_self] at h
  · have h := lossless_of_frames (writeFrameWithin_writes hpos hle (by decide)) hread
    rwa [hmin (hle.trans (by decide))] at h

/-- A sink that takes one byte at a time. -/
def trickle : Sink := { answer := fun _ _ => (1, none) }

theorem trickle_accepts : trickle.Accepts := fun _ _ hne =>
  ⟨one_pos, Int.ofNat_le.mpr (List.length_pos_iff.mpr hne), rfl⟩

theorem framing_lossless_trickle :
    (writeFrames (writeFrame 10) trickle [[7], [8, 9]]).2.taken
        = [0, 0, 0, 1, 7, 0, 0, 0, 2, 8, 9] ∧
      ∃ rest, readFrames (readClientFrame 5) 2 [[0], [], [0, 0, 1, 7, 0, 0], [0, 2, 8], [9]]
        = ([.ok [7], .ok [8, 9]], rest) ∧ rest.flatten = [] := by
  have htaken : (writeFrames (writeFrame 10) trickle [[7], [8, 9]]).2.taken
      = [0, 0, 0, 1, 7, 0, 0, 0, 2, 8, 9] := by decide +kernel
  have hlossless := ((framing_lossless 10 5 (by decide)).1 (by decide)).1 [[7], [8, 9]]
    (by simp [Framable]) trickle trickle_accepts rfl
  exact ⟨htaken, hlossless.2.1 [[0], [], [0, 0, 1, 7, 0, 0], [0, 2, 8], [9]] htaken.symm⟩

end GapDB
