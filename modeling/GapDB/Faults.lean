import GapDB.Errors
import GapDB.Storelib.Directory

/-!
# What the environment can do

Every storage operation can break off before it takes effect, part-way, or after it took
effect, and each time either an error is returned or the hook panics. These are inputs of the
modelled functions; no input means that the operation succeeds.
-/

namespace GapDB

/-- The result of a Go call: it returns a value, returns an error, or panics. -/
inductive Outcome (ε α : Type) where
  | ok (value : α)
  | error (err : ε)
  | panic
deriving DecidableEq

/-- Go on with the value of a call that returned one. -/
def Outcome.bind {ε α β : Type} (outcome : Outcome ε α) (next : α → Outcome ε β) : Outcome ε β :=
  match outcome with
  | .ok value => next value
  | .error err => .error err
  | .panic => .panic

theorem Outcome.bind_eq_ok {ε α β : Type} {outcome : Outcome ε α} {next : α → Outcome ε β} {b : β} :
    outcome.bind next = .ok b ↔ ∃ a, outcome = .ok a ∧ next a = .ok b := by
  cases outcome <;> simp [Outcome.bind]

/-- A call that cannot panic. -/
def Outcome.ofExcept {ε α : Type} : Except ε α → Outcome ε α
  | .ok value => .ok value
  | .error err => .error err

theorem Outcome.ofExcept_eq_ok {ε α : Type} {result : Except ε α} {a : α} :
    Outcome.ofExcept result = .ok a ↔ result = .ok a := by
  cases result <;> simp [Outcome.ofExcept]

/-- `during` is an operating-system failure that left a partial effect, where one is possible. -/
abbrev FaultMode := Storelib.BreakMode

structure Fault where
  mode : FaultMode
  category : OSErrorCategory := .other
  panics : Bool := false
deriving DecidableEq

/-- The error an operation at `point` returns. -/
def Fault.storageFault (fault : Fault) (point : Point) : StorageFault :=
  match fault.mode with
  | .before => .hook ⟨point, .before⟩ fault.category
  | .during _ => .os fault.category
  | .after => .hook ⟨point, .after⟩ fault.category

def Fault.outcome {α : Type} (fault : Fault) (point : Point) : Outcome StorageFault α :=
  if fault.panics then .panic else .error (fault.storageFault point)

/-- `faultfs.Checkpoint`: a hook without an operation behind it. -/
def checkpoint (fault : Option Fault) (point : Point) (phase : Phase) :
    Outcome StorageFault Unit :=
  match fault with
  | none => .ok ()
  | some fault =>
    if fault.panics then .panic else .error (.hook ⟨point, phase⟩ fault.category)

end GapDB
