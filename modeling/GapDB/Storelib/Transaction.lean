import GapDB.Storelib.KeyedMap

/-!
# Conditional transactions

The abstract store: keys hold versioned entries that may lapse. A transaction is a list of
guards and a list of guarded writes; it is enabled at an instant when every guard holds of the
one store it starts from, and then all its writes happen at once, under one new version.
-/

namespace Storelib

variable {κ β τ : Type*} [DecidableEq κ]

/-- A value with the version that wrote it and the instant from which it counts as absent. -/
structure Versioned (β τ : Type*) where
  value : β
  version : Nat
  lapses : Option τ

namespace Versioned

/-- An entry is live strictly before the instant at which it lapses. -/
def Live [LT τ] (e : Versioned β τ) (now : τ) : Prop := ∀ t ∈ e.lapses, now < t

end Versioned

inductive Guard where
  | always
  | never
  | absent
  | version (n : Nat)

/-- A guard speaks about what is live at `now`. -/
def Guard.Holds [LT τ] (store : κ → Option (Versioned β τ)) (now : τ) (k : κ) : Guard → Prop
  | .always => True
  | .never => False
  | .absent => ∀ e, store k = some e → ¬ e.Live now
  | .version n => ∃ e, store k = some e ∧ e.Live now ∧ e.version = n

inductive WriteAction (β τ : Type*) where
  | put (value : β) (lapses : Option τ)
  | remove

/-- The entry an action leaves, under the version of its transaction. -/
def WriteAction.entry (version : Nat) : WriteAction β τ → Option (Versioned β τ)
  | .put value lapses => some ⟨value, version, lapses⟩
  | .remove => none

structure Transaction (κ β τ : Type*) where
  guards : List (κ × Guard)
  writes : List (κ × Guard × WriteAction β τ)

namespace Transaction

variable (txn : Transaction κ β τ)

/-- All guards hold of one store at one instant. -/
structure Enabled [LT τ] (store : κ → Option (Versioned β τ)) (now : τ) : Prop where
  guards : ∀ g ∈ txn.guards, g.2.Holds store now g.1
  writes : ∀ w ∈ txn.writes, w.2.1.Holds store now w.1

/-- The store after the transaction committed under `version`. -/
def result (store : κ → Option (Versioned β τ)) (version : Nat) : κ → Option (Versioned β τ) :=
  writeAll store (txn.writes.map fun w => (w.1, w.2.2.entry version))

end Transaction

end Storelib
