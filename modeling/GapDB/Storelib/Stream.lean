import GapDB.Storelib.Reader

/-!
# Streams of frames

A byte stream seen from its two ends. A sink takes any number of the bytes it is offered, a source
delivers its bytes in chunks of any size, and loops on both sides hide this: what `writeAll` offers
arrives whole or with an error, and `fill` returns as many bytes as were asked for, wherever the
chunks begin and end.

A frame is a payload behind its length as a word of four bytes. A writer and a reader that treat
one frame well lose nothing over a sequence of them.
-/

namespace Storelib

variable {payloads : List Bytes}

inductive StreamError where
  | shortWrite | eof | unexpectedEOF
  | failed (reason : String)
deriving DecidableEq, Repr

/-! ### Sinks -/

/-- `answer` says, for each call, how many of the offered bytes were taken, and with which error. -/
structure Sink where
  answer : Nat → Bytes → Int × Option StreamError
  calls : Nat := 0
  taken : Bytes := []

namespace Sink

def write (sink : Sink) (value : Bytes) : (Int × Option StreamError) × Sink :=
  let reply := sink.answer sink.calls value
  (reply, { sink with calls := sink.calls + 1, taken := sink.taken ++ value.take reply.1.toNat })

/-- Offers what is left until all is taken. -/
def writeAll (sink : Sink) (value : Bytes) : Option StreamError × Sink :=
  if value = [] then (none, sink)
  else
    let (reply, after) := sink.write value
    if _hrange : reply.1 < 0 ∨ (value.length : Int) < reply.1 then (some .shortWrite, after)
    else
      match reply.2 with
      | some e => (some e, after)
      | none =>
        if _hzero : reply.1 = 0 then (some .shortWrite, after)
        else after.writeAll (value.drop reply.1.toNat)
termination_by value.length
decreasing_by
  rw [List.length_drop]
  omega

/-- The sink never fails and takes a positive number of bytes each time. -/
def Accepts (sink : Sink) : Prop :=
  ∀ call value, value ≠ [] →
    0 < (sink.answer call value).1 ∧ (sink.answer call value).1 ≤ value.length ∧
      (sink.answer call value).2 = none

/-- The sink went on as it was and took these bytes. -/
structure Took (sink after : Sink) (value : Bytes) : Prop where
  answer : after.answer = sink.answer
  taken : after.taken = sink.taken ++ value

theorem Took.trans {a b c : Sink} {u v : Bytes} (h : a.Took b u) (h' : b.Took c v) :
    a.Took c (u ++ v) :=
  ⟨h'.answer.trans h.answer, by rw [h'.taken, h.taken, List.append_assoc]⟩

theorem Took.accepts {a b : Sink} {u : Bytes} (h : a.Took b u) (ha : a.Accepts) : b.Accepts := by
  rw [Accepts, h.answer]
  exact ha

theorem writeAll_took {sink : Sink} (h : sink.Accepts) (value : Bytes) :
    ∃ after, sink.writeAll value = (none, after) ∧ sink.Took after value := by
  -- the recursion of the loop: what is left gets shorter with every call
  induction hn : value.length using Nat.strong_induction_on generalizing sink value with
  | _ n ih =>
    subst hn
    rw [writeAll]
    by_cases hnil : value = []
    · subst hnil
      exact ⟨sink, if_pos rfl, rfl, (List.append_nil _).symm⟩
    · obtain ⟨hpos, hle, hnone⟩ := h sink.calls value hnil
      have hfirst : sink.Took (sink.write value).2
          (value.take (sink.answer sink.calls value).1.toNat) := ⟨rfl, rfl⟩
      obtain ⟨after, hrest, htook⟩ := ih (value.drop (sink.answer sink.calls value).1.toNat).length
        (by rw [List.length_drop]; omega) (hfirst.accepts h) _ rfl
      refine ⟨after, ?_, ?_⟩
      · rw [if_neg hnil]
        have hreply : (sink.write value).1 = sink.answer sink.calls value := rfl
        have hrange : ¬ ((sink.answer sink.calls value).1 < 0 ∨
            (value.length : Int) < (sink.answer sink.calls value).1) := by omega
        simp only [hreply, dif_neg hrange, hnone, dif_neg hpos.ne', hrest]
      · have hall := hfirst.trans htook
        rwa [List.take_append_drop] at hall

end Sink

/-! ### Sources -/

/-- What is left of a source: the chunks it will deliver, after which it reports its end. -/
abbrev Source := List Bytes

namespace Source

/-- Reads until `got` holds `size` bytes. A chunk that is larger than the room left is delivered in
part. -/
def fill (size : Nat) : Bytes → Source → Except StreamError Bytes × Source
  | got, [] =>
    if size ≤ got.length then (.ok got, [])
    else if got = [] then (.error .eof, [])
    else (.error .unexpectedEOF, [])
  | got, chunk :: source =>
    if size ≤ got.length then (.ok got, chunk :: source)
    else if chunk.length ≤ size - got.length then fill size (got ++ chunk) source
    else (.ok (got ++ chunk.take (size - got.length)), chunk.drop (size - got.length) :: source)

/-- `io.ReadFull` into a buffer of that size. -/
def readFull (source : Source) (size : Nat) : Except StreamError Bytes × Source :=
  source.fill size []

theorem fill_ok {size : Nat} {got : Bytes} {source : Source} (hgot : got.length ≤ size)
    (henough : size ≤ got.length + source.flatten.length) :
    ∃ rest, source.fill size got = (.ok (got ++ source.flatten.take (size - got.length)), rest) ∧
      rest.flatten = source.flatten.drop (size - got.length) := by
  induction source generalizing got with
  | nil =>
    have hall : size = got.length := le_antisymm (by simpa using henough) hgot
    exact ⟨[], by simp [fill, hall], by simp⟩
  | cons chunk source ih =>
    rw [fill]
    by_cases hfull : size ≤ got.length
    · have hnone : size - got.length = 0 := by omega
      exact ⟨chunk :: source, by rw [if_pos hfull, hnone, List.take_zero, List.append_nil],
        by rw [hnone, List.drop_zero]⟩
    rw [if_neg hfull, List.flatten_cons]
    by_cases hfits : chunk.length ≤ size - got.length
    · rw [if_pos hfits]
      obtain ⟨rest, hfill, hrest⟩ := @ih (got ++ chunk) (by rw [List.length_append]; omega)
        (by rw [List.length_append]; rw [List.flatten_cons, List.length_append] at henough; omega)
      have hroom : size - (got ++ chunk).length = size - got.length - chunk.length := by
        rw [List.length_append]
        omega
      refine ⟨rest, ?_, ?_⟩
      · rw [hfill, hroom, List.take_append, List.take_of_length_le hfits, List.append_assoc]
      · rw [hrest, hroom, List.drop_append, List.drop_of_length_le hfits, List.nil_append]
    · rw [if_neg hfits]
      have hinside : size - got.length - chunk.length = 0 := by omega
      refine ⟨chunk.drop (size - got.length) :: source, ?_, ?_⟩
      · rw [List.take_append, hinside, List.take_zero, List.append_nil]
      · rw [List.flatten_cons, List.drop_append, hinside, List.drop_zero]

theorem fill_error {size : Nat} {got : Bytes} {source : Source}
    (hshort : got.length + source.flatten.length < size) :
    ∃ e, source.fill size got = (.error e, []) := by
  induction source generalizing got with
  | nil =>
    have hmissing : ¬ size ≤ got.length := by simpa using hshort
    rw [fill, if_neg hmissing]
    split <;> exact ⟨_, rfl⟩
  | cons chunk source ih =>
    rw [List.flatten_cons, List.length_append] at hshort
    rw [fill, if_neg (by omega), if_pos (by omega)]
    exact ih (by rw [List.length_append]; omega)

/-- Enough bytes are read as one, whatever the chunks. -/
theorem readFull_append {source : Source} {value after : Bytes}
    (h : source.flatten = value ++ after) :
    ∃ rest : Source, source.readFull value.length = (.ok value, rest) ∧ rest.flatten = after := by
  obtain ⟨rest, hfill, hrest⟩ := @fill_ok value.length [] source (Nat.zero_le _)
    (by rw [h, List.length_append]; simp)
  rw [h, List.length_nil, Nat.sub_zero] at hfill hrest
  rw [List.take_left, List.nil_append] at hfill
  rw [List.drop_left] at hrest
  exact ⟨rest, hfill, hrest⟩

theorem readFull_short {source : Source} {size : Nat} (h : source.flatten.length < size) :
    ∃ e, source.readFull size = (.error e, []) :=
  fill_error (by simpa using h)

end Source

/-! ### Frames -/

def framed (payload : Bytes) : Bytes := putUint 4 payload.length ++ payload

theorem framed_length (payload : Bytes) : (framed payload).length = 4 + payload.length := by
  rw [framed, List.length_append, putUint_length]

def wire (payloads : List Bytes) : Bytes := (payloads.map framed).flatten

theorem wire_cons (payload : Bytes) (payloads : List Bytes) :
    wire (payload :: payloads) = framed payload ++ wire payloads := rfl

section

variable {ω ρ : Type} (write : Sink → Bytes → Option ω × Sink)
  (read : Source → Except ρ Bytes × Source)

/-- Writes one frame after the other, up to the first that fails. -/
def writeFrames : Sink → List Bytes → Option ω × Sink
  | sink, [] => (none, sink)
  | sink, payload :: payloads =>
    match write sink payload with
    | (some e, after) => (some e, after)
    | (none, after) => writeFrames after payloads

/-- Reads frames, at most so many and none after the first that fails. -/
def readFrames : Nat → Source → List (Except ρ Bytes) × Source
  | 0, source => ([], source)
  | n + 1, source =>
    match read source with
    | (.error e, rest) => ([.error e], rest)
    | (.ok payload, rest) => (.ok payload :: (readFrames n rest).1, (readFrames n rest).2)

/-- Payloads that a frame may carry. -/
def Framable (limit : Int) (payload : Bytes) : Prop :=
  payload ≠ [] ∧ (payload.length : Int) ≤ limit

structure WritesFrames (limit : Int) : Prop where
  took : ∀ (sink : Sink) (payload : Bytes), sink.Accepts → Framable limit payload →
    ∃ after, write sink payload = (none, after) ∧ sink.Took after (framed payload)

structure ReadsFrames (limit : Int) : Prop where
  whole : ∀ (source : Source) (payload after : Bytes), Framable limit payload →
    source.flatten = framed payload ++ after →
      ∃ rest, read source = (.ok payload, rest) ∧ rest.flatten = after
  torn : ∀ (source : Source) (payload : Bytes) (k : Nat), Framable limit payload →
    k < (framed payload).length → source.flatten = (framed payload).take k →
      ∃ e, read source = (.error e, [])

variable {write read} {limit : Int}

theorem WritesFrames.to_wire (h : WritesFrames write limit)
    (hfit : ∀ payload ∈ payloads, Framable limit payload) {sink : Sink} (hsink : sink.Accepts) :
    ∃ after, writeFrames write sink payloads = (none, after) ∧
      sink.Took after (wire payloads) := by
  induction payloads generalizing sink with
  | nil => exact ⟨sink, rfl, rfl, (List.append_nil _).symm⟩
  | cons payload payloads ih =>
    obtain ⟨next, hwrite, hnext⟩ := h.took sink payload hsink (hfit _ List.mem_cons_self)
    obtain ⟨after, hafter, htook⟩ :=
      ih (fun p hp => hfit p (List.mem_cons_of_mem _ hp)) (hnext.accepts hsink)
    exact ⟨after, by rw [writeFrames, hwrite]; exact hafter, hnext.trans htook⟩

theorem ReadsFrames.of_wire (h : ReadsFrames read limit)
    (hfit : ∀ payload ∈ payloads, Framable limit payload) {source : Source} {after : Bytes}
    (hsource : source.flatten = wire payloads ++ after) :
    ∃ rest, readFrames read payloads.length source = (payloads.map .ok, rest) ∧
      rest.flatten = after := by
  induction payloads generalizing source with
  | nil => exact ⟨source, rfl, hsource⟩
  | cons payload payloads ih =>
    rw [wire_cons, List.append_assoc] at hsource
    obtain ⟨next, hread, hnext⟩ := h.whole source payload _ (hfit _ List.mem_cons_self) hsource
    obtain ⟨rest, hrest, hflat⟩ := ih (fun p hp => hfit p (List.mem_cons_of_mem _ hp)) hnext
    refine ⟨rest, ?_, hflat⟩
    rw [List.length_cons, readFrames, hread]
    simp only [hrest, List.map_cons]

/-- A stream that ends early: the frames before the cut are read, and then comes an error. -/
theorem ReadsFrames.cut (h : ReadsFrames read limit)
    (hfit : ∀ payload ∈ payloads, Framable limit payload) {source : Source} {k : Nat}
    (hk : k < (wire payloads).length) (hsource : source.flatten = (wire payloads).take k) :
    ∃ m < payloads.length, (wire (payloads.take m)).length ≤ k ∧
      k < (wire (payloads.take (m + 1))).length ∧
      ∃ e, ∀ n, m < n →
        readFrames read n source = ((payloads.take m).map .ok ++ [.error e], []) := by
  induction payloads generalizing source k with
  | nil => exact absurd hk (Nat.not_lt_zero k)
  | cons payload payloads ih =>
    rw [wire_cons] at hk hsource
    by_cases hinside : k < (framed payload).length
    · -- the cut is inside the first frame
      rw [List.take_append_of_le_length hinside.le] at hsource
      obtain ⟨e, he⟩ := h.torn source payload k (hfit _ List.mem_cons_self) hinside hsource
      refine ⟨0, Nat.succ_pos _, Nat.zero_le k, ?_, e, ?_⟩
      · rw [List.take_succ_cons, wire_cons, List.length_append]
        omega
      · rintro (_ | n) hn
        · exact absurd hn (lt_irrefl 0)
        · rw [readFrames, he]
          rfl
    · have hle := not_lt.mp hinside
      rw [List.take_append, List.take_of_length_le hle] at hsource
      rw [List.length_append] at hk
      obtain ⟨next, hread, hnext⟩ := h.whole source payload _ (hfit _ List.mem_cons_self) hsource
      obtain ⟨m, hm, hlow, hhigh, e, he⟩ :=
        @ih (fun p hp => hfit p (List.mem_cons_of_mem _ hp)) next _ (by omega) hnext
      refine ⟨m + 1, Nat.succ_lt_succ hm, ?_, ?_, e, ?_⟩
      · rw [List.take_succ_cons, wire_cons, List.length_append]
        omega
      · rw [List.take_succ_cons, wire_cons, List.length_append]
        omega
      · rintro (_ | n) hn
        · exact absurd hn (Nat.not_lt_zero _)
        · rw [readFrames, hread]
          simp only [he n (Nat.lt_of_succ_lt_succ hn), List.take_succ_cons, List.map_cons,
            List.cons_append]

end

/-- A writer and a reader of frames lose nothing: all the payloads arrive, over every way to take
and deliver the bytes, and from a stream that ends early those before the cut, then an error. -/
def Lossless {ω ρ : Type} (write : Sink → Bytes → Option ω × Sink)
    (read : Source → Except ρ Bytes × Source) (limit : Int) : Prop :=
  ∀ payloads : List Bytes, (∀ payload ∈ payloads, Framable limit payload) →
  ∀ sink : Sink, sink.Accepts → sink.taken = [] →
    (writeFrames write sink payloads).1 = none ∧
    (∀ source : Source, source.flatten = (writeFrames write sink payloads).2.taken →
      ∃ rest, readFrames read payloads.length source = (payloads.map .ok, rest) ∧
        rest.flatten = []) ∧
    ∀ k < (writeFrames write sink payloads).2.taken.length,
    ∀ source : Source, source.flatten = (writeFrames write sink payloads).2.taken.take k →
      ∃ m < payloads.length,
        (writeFrames write sink (payloads.take m)).2.taken.length ≤ k ∧
        k < (writeFrames write sink (payloads.take (m + 1))).2.taken.length ∧
        ∃ e, ∀ n, m < n →
          readFrames read n source = ((payloads.take m).map .ok ++ [.error e], [])

theorem lossless_of_frames {ω ρ : Type} {write : Sink → Bytes → Option ω × Sink}
    {read : Source → Except ρ Bytes × Source} {limit limit' : Int}
    (hwrite : WritesFrames write limit) (hread : ReadsFrames read limit') :
    Lossless write read (min limit limit') := by
  intro payloads hfit sink hsink hempty
  have hfitWrite : ∀ payload ∈ payloads, Framable limit payload := fun payload hmem =>
    ⟨(hfit payload hmem).1, (hfit payload hmem).2.trans (min_le_left _ _)⟩
  have hfitRead : ∀ payload ∈ payloads, Framable limit' payload := fun payload hmem =>
    ⟨(hfit payload hmem).1, (hfit payload hmem).2.trans (min_le_right _ _)⟩
  have htaken : ∀ m, (writeFrames write sink (payloads.take m)).2.taken
      = wire (payloads.take m) := by
    intro m
    obtain ⟨after, hafter, htook⟩ :=
      hwrite.to_wire (fun p hp => hfitWrite p (List.mem_of_mem_take hp)) hsink
    rw [hafter, htook.taken, hempty, List.nil_append]
  obtain ⟨after, hafter, htook⟩ := hwrite.to_wire hfitWrite hsink
  have hall : after.taken = wire payloads := by rw [htook.taken, hempty, List.nil_append]
  rw [hafter]
  refine ⟨rfl, ?_, ?_⟩
  · intro source hsource
    exact hread.of_wire hfitRead (hsource.trans (by rw [hall, List.append_nil]))
  · intro k hk source hsource
    rw [hall] at hk hsource
    obtain ⟨m, hm, hlow, hhigh, hcut⟩ := hread.cut hfitRead hk hsource
    exact ⟨m, hm, by rw [htaken]; exact hlow, by rw [htaken]; exact hhigh, hcut⟩

end Storelib
