import GapDB.Engine.Writer
import GapDB.Storelib.Transaction

/-!
# What the predicate phase decides

The assertion and condition loops accept a batch exactly when every condition holds of the one
record map at the one effective time.
-/

namespace GapDB

open Storelib

variable {s : DatabaseState} {now : Time} {single : SingleOperation}

/-- A condition speaks about the record visible at `now`. -/
def Condition.Holds (m : RecordMap) (now : Time) (key : Key) (c : Condition) : Prop :=
  match c.kind with
  | .any => True
  | .absent => m.visible now key = none
  | .revision => ∃ record, m.visible now key = some record ∧ record.revision = c.expectedRevision
  | .unknown => False

/-- An expiry cleanup also matches a record of the named revision that has already expired. -/
def Mutation.Holds (m : RecordMap) (now : Time) (single : SingleOperation) (mutation : Mutation) :
    Prop :=
  mutation.condition.Holds m now mutation.key ∨
    single = .expiry ∧ mutation.condition.kind = .revision ∧
      revisionOf (m mutation.key) = mutation.condition.expectedRevision

/-- No hook of the predicate phase fires. -/
def ExecuteFaults.Unhooked (faults : ExecuteFaults) : Prop :=
  faults.assertionBefore = none ∧ faults.assertionAfter = none ∧
    faults.conditionBefore = none ∧ faults.conditionAfter = none

/-- No write to the log fails, its barrier succeeds, and nothing stops the commit at the map. -/
structure ExecuteFaults.Stores (faults : ExecuteFaults) : Prop where
  writes : ∀ call ∈ faults.writes, call.Works
  barrier : faults.barrier = none
  mapApplyBefore : faults.mapApplyBefore = none
  mapApplyAfter : faults.mapApplyAfter = none

namespace DatabaseState

theorem liveAt_eq_false {key : Key} :
    s.liveAt key now = false ↔ s.records.visible now key = none := by
  unfold liveAt RecordMap.visible
  cases h : s.records key with
  | none => simp
  | some record => by_cases he : recordExpired record now <;> simp [he]

/-- Being live at a revision is having a visible record of that revision. -/
theorem liveAt_revision {key : Key} {n : Nat} :
    (s.liveAt key now = true ∧ revisionOf (s.records key) = n) ↔
      ∃ record, s.records.visible now key = some record ∧ record.revision = n := by
  unfold liveAt RecordMap.visible revisionOf
  cases h : s.records key with
  | none => simp
  | some record => by_cases he : recordExpired record now <;> simp [he]

theorem assertionConditionError_eq_none {a : Assertion}
    (index : Nat) (hany : a.condition.kind ≠ .any) :
    assertionConditionError a (s.records a.key) (s.liveAt a.key now) index = none ↔
      a.condition.Holds s.records now a.key := by
  unfold assertionConditionError Condition.Holds
  cases hk : a.condition.kind with
  | any => exact absurd hk hany
  | unknown => simp
  | absent => simp [← liveAt_eq_false]
  | revision => simp [← liveAt_revision]

theorem conditionError_eq_none {m : Mutation} (index : Nat) :
    conditionError m (s.records m.key) (s.liveAt m.key now) s.current index single = none ↔
      m.Holds s.records now single := by
  unfold conditionError Mutation.Holds Condition.Holds
  by_cases hexpiry : single = .expiry ∧ m.condition.kind = .revision ∧
      revisionOf (s.records m.key) = m.condition.expectedRevision
  · simp [hexpiry]
  · simp only [hexpiry, or_false, if_false]
    cases hk : m.condition.kind with
    | any => simp
    | unknown => simp
    | absent =>
      rw [← liveAt_eq_false]
      cases s.liveAt m.key now with
      | false => simp
      | true => by_cases hs : single = .putIfAbsent <;> simp [hs]
    | revision =>
      rw [← liveAt_revision]
      by_cases hlive : s.liveAt m.key now = true ∧
          revisionOf (s.records m.key) = m.condition.expectedRevision
      · simp [hlive]
      · simp only [hlive, if_false, iff_false]
        split
        · split <;> simp
        · simp

theorem checkAssertions_eq_none (index : Nat)
    {assertions : List Assertion} (hany : ∀ a ∈ assertions, a.condition.kind ≠ .any) :
    s.checkAssertions now index assertions = none ↔
      ∀ a ∈ assertions, a.condition.Holds s.records now a.key := by
  induction assertions generalizing index with
  | nil => simp [checkAssertions]
  | cons a assertions ih =>
    rw [List.forall_mem_cons] at hany ⊢
    rw [← assertionConditionError_eq_none index hany.1, ← ih (index + 1) hany.2,
      checkAssertions]
    split <;> simp_all

theorem checkConditions_eq_none (index : Nat) {mutations : List Mutation} :
    s.checkConditions now single index mutations = none ↔
      ∀ m ∈ mutations, m.Holds s.records now single := by
  induction mutations generalizing index with
  | nil => simp [checkConditions]
  | cons m mutations ih =>
    rw [List.forall_mem_cons, ← conditionError_eq_none index, ← ih (index + 1),
      checkConditions]
    split <;> simp_all

theorem andAlso_eq_ok {α : Type} {first : Outcome Error Unit} {next : Outcome Error α} {a : α} :
    andAlso first next = .ok a ↔ first = .ok () ∧ next = .ok a := by
  cases first <;> simp [andAlso]

theorem refusal_eq_ok {e : Option Error} : refusal e = .ok () ↔ e = none := by
  cases e <;> simp [refusal]

/-- If the predicate phase lets a batch pass, every condition holds. -/
theorem holds_of_predicatePhase {batch : Batch} {faults : ExecuteFaults}
    (hany : ∀ a ∈ batch.assertions, a.condition.kind ≠ .any)
    (h : s.predicatePhase batch single now faults = .ok ()) :
    (∀ a ∈ batch.assertions, a.condition.Holds s.records now a.key) ∧
      ∀ m ∈ batch.mutations, m.Holds s.records now single := by
  simp only [predicatePhase, andAlso_eq_ok, refusal_eq_ok, checkAssertions_eq_none 0 hany,
    checkConditions_eq_none] at h
  exact ⟨h.2.1, h.2.2.2.2.1⟩

/-- If every condition holds and no checkpoint fails, the predicate phase lets a batch pass. -/
theorem predicatePhase_eq_ok {batch : Batch} {faults : ExecuteFaults}
    (hany : ∀ a ∈ batch.assertions, a.condition.kind ≠ .any)
    (hfaults : faults.Unhooked)
    (hassertions : ∀ a ∈ batch.assertions, a.condition.Holds s.records now a.key)
    (hconditions : ∀ m ∈ batch.mutations, m.Holds s.records now single) :
    s.predicatePhase batch single now faults = .ok () := by
  obtain ⟨h₁, h₂, h₃, h₄⟩ := hfaults
  simp only [predicatePhase, andAlso_eq_ok, refusal_eq_ok, checkAssertions_eq_none 0 hany,
    checkConditions_eq_none]
  simp [predicateCheckpoint, checkpoint, h₁, h₂, h₃, h₄]
  exact ⟨hassertions, hconditions⟩

end DatabaseState

end GapDB
