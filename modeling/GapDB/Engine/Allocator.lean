import GapDB.Faults
import GapDB.Persist.Common

/-!
# Revision allocation

`RangeAllocator` of `engine/revision.go`. Reserving the next range acts on storage, so the
reserve function threads a world `σ` that the allocator knows nothing about.
-/

namespace GapDB

/-- `engine.ReserveFunc`, acting on a world. -/
abbrev ReserveFunc (σ : Type) := Nat → σ → Outcome Error RevisionRange × σ

/-- The words of the allocator never leave the 64-bit range. -/
structure RangeAllocator where
  next : Nat
  end_ : Nat
  exhausted : Bool := false
  next_lt : next < 2 ^ 64
  end_lt : end_ < 2 ^ 64

instance : DecidableEq RangeAllocator := fun a b =>
  decidable_of_iff (a.next = b.next ∧ a.end_ = b.end_ ∧ a.exhausted = b.exhausted) (by
    cases a
    cases b
    simp)

/-- The engine words this error exactly as the storage layer does. -/
abbrev revisionRangeExhausted := revisionRangeError

/-- `validateRange`: the range starts strictly after `after` and is not empty. -/
def validRange (allocation : RevisionRange) (after : Nat) : Prop :=
  ¬ (allocation.first = 0 ∨ allocation.first ≤ after ∨ allocation.end_ < allocation.first)

instance (allocation : RevisionRange) (after : Nat) : Decidable (validRange allocation after) :=
  inferInstanceAs (Decidable (¬ _))

def invalidRange (after : Nat) : Error :=
  revisionRangeExhausted after
    "the supplied revision range is not strictly after the committed revision" none

theorem validRange.first_lt {allocation : RevisionRange} {after : Nat}
    (h : validRange allocation after) : allocation.first < 2 ^ 64 := by
  have := allocation.end_lt
  simp only [validRange] at h
  omega

def newRangeAllocator (current : Nat) (allocation : RevisionRange) :
    Except Error RangeAllocator :=
  if h : validRange allocation current then
    .ok { next := allocation.first, end_ := allocation.end_, next_lt := h.first_lt,
          end_lt := allocation.end_lt }
  else .error (invalidRange current)

namespace RangeAllocator

/-- Hand out the next revision of the current range. -/
def take (allocator : RangeAllocator) : Nat × RangeAllocator :=
  (allocator.next,
    if h : allocator.next = maxUint64 then { allocator with exhausted := true }
    else
      { allocator with
        next := allocator.next + 1
        next_lt := by
          have := allocator.next_lt
          simp only [maxUint64] at h
          omega })

/-- `Next`. A nil reserve function means that the range cannot be extended. -/
def nextRevision {σ : Type} (allocator : RangeAllocator) (reserve : Option (ReserveFunc σ))
    (world : σ) : Outcome Error Nat × RangeAllocator × σ :=
  if allocator.exhausted then
    (.error (revisionRangeExhausted allocator.end_ "the durable revision space is exhausted" none),
      allocator, world)
  else if allocator.next ≤ allocator.end_ then
    (.ok allocator.take.1, allocator.take.2, world)
  else
    match reserve with
    | none =>
      (.error (revisionRangeExhausted allocator.end_
        "the durable revision reservation is exhausted" none), allocator, world)
    | some reserve =>
      match reserve allocator.end_ world with
      | (.panic, world) => (.panic, allocator, world)
      | (.error e, world) => (.error e, allocator, world)
      | (.ok allocation, world) =>
        if h : validRange allocation allocator.end_ then
          let extended : RangeAllocator :=
            { allocator with next := allocation.first, end_ := allocation.end_,
                             next_lt := h.first_lt, end_lt := allocation.end_lt }
          (.ok extended.take.1, extended.take.2, world)
        else (.error (invalidRange allocator.end_), allocator, world)

/-- Every revision the allocator can still hand out is above `after`. -/
def Above (allocator : RangeAllocator) (after : Nat) : Prop :=
  after ≤ allocator.end_ ∧ (allocator.exhausted = false → after < allocator.next)

theorem take_spec (allocator : RangeAllocator) {after : Nat} (habove : allocator.Above after)
    (hexhausted : allocator.exhausted = false) (hle : allocator.next ≤ allocator.end_) :
    after < allocator.take.1 ∧ allocator.take.2.Above allocator.take.1 ∧
      allocator.take.2.end_ = allocator.end_ := by
  refine ⟨habove.2 hexhausted, ?_, ?_⟩ <;> unfold take <;> split
  · exact ⟨hle, fun h => by cases h⟩
  · exact ⟨hle, fun _ => Nat.lt_succ_self _⟩
  all_goals rfl

/-- A revision that is handed out is new, inside the range, and below all later ones. -/
theorem nextRevision_ok {σ : Type} {allocator allocator' : RangeAllocator}
    {reserve : Option (ReserveFunc σ)} {world world' : σ} {after revision : Nat}
    (habove : allocator.Above after)
    (h : allocator.nextRevision reserve world = (.ok revision, allocator', world')) :
    after < revision ∧ revision ≤ allocator'.end_ ∧ allocator'.Above revision ∧
      allocator.end_ ≤ allocator'.end_ := by
  have hend := habove.1
  unfold nextRevision at h
  split at h
  · simp at h
  next hexhausted =>
  replace hexhausted : allocator.exhausted = false := by simpa using hexhausted
  split at h
  · next hle =>
    have hspec := allocator.take_spec habove hexhausted hle
    simp only [Prod.mk.injEq, Outcome.ok.injEq] at h
    obtain ⟨rfl, rfl, rfl⟩ := h
    exact ⟨hspec.1, hspec.2.2 ▸ hle, hspec.2.1, hspec.2.2.ge⟩
  · split at h
    · simp at h
    · split at h
      · simp at h
      · simp at h
      · next allocation world'' _ =>
        split at h
        · next hvalid =>
          -- the new range starts above the old one
          have hrange := hvalid
          simp only [validRange] at hrange
          let extended : RangeAllocator :=
            { allocator with next := allocation.first, end_ := allocation.end_,
                             next_lt := hvalid.first_lt, end_lt := allocation.end_lt }
          have hextended : extended.Above after := ⟨by simp only [extended]; omega,
            fun _ => by simp only [extended]; omega⟩
          have hspec := extended.take_spec hextended hexhausted (by simp only [extended]; omega)
          simp only [Prod.mk.injEq, Outcome.ok.injEq] at h
          obtain ⟨rfl, rfl, rfl⟩ := h
          refine ⟨hspec.1, ?_, hspec.2.1, ?_⟩ <;> rw [hspec.2.2] <;> simp only [extended, take] <;>
            omega
        · simp at h

/-- A failed allocation changes nothing in the allocator. -/
theorem nextRevision_not_ok {σ : Type} {allocator : RangeAllocator}
    {reserve : Option (ReserveFunc σ)} {world : σ}
    (h : ∀ n, (allocator.nextRevision reserve world).1 ≠ .ok n) :
    (allocator.nextRevision reserve world).2.1 = allocator := by
  unfold nextRevision at h ⊢
  split
  · rfl
  next hexhausted =>
  split
  · next hle => simp [hexhausted, hle] at h
  next hle =>
  cases reserve with
  | none => rfl
  | some reserve =>
    simp only [hexhausted, hle, if_false] at h ⊢
    cases hreserve : reserve allocator.end_ world with
    | mk outcome world' =>
      rw [hreserve] at h
      cases outcome with
      | panic => rfl
      | error e => rfl
      | ok allocation =>
        simp only at h ⊢
        split
        · next hvalid => simp [hvalid] at h
        · rfl

end RangeAllocator

end GapDB
