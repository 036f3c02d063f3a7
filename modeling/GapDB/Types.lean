import GapDB.Storelib.Utf8

/-!
# Public types

The value model, the mutation language and the structured error of `gapdb/types.go`.
A Go string or byte slice is a byte string, an instant is its distance from the Unix
epoch in nanoseconds, and a `uint64` is a natural number whose arithmetic is written
with its wrap-around.
-/

namespace GapDB

open Storelib

abbrev Key := Bytes

/-- An instant, as nanoseconds since the Unix epoch. -/
abbrev Time := Int

def maxUint32 : Nat := 2 ^ 32 - 1

def maxUint64 : Nat := 2 ^ 64 - 1

def maxInt : Nat := 2 ^ 63 - 1

/-- Wrap-around of unsigned 64-bit arithmetic. -/
def u64 (n : Nat) : Nat := n % 2 ^ 64

/-- `UnixNano` wraps outside the signed 64-bit range. -/
def unixNano (t : Time) : Int := t.bmod (2 ^ 64)

/-- An instant survives a round trip through `UnixNano` exactly inside that range. -/
def unixNanoRepresentable (t : Time) : Bool := unixNano t == t

inductive AckMode where
  | memory | durable | unknown
deriving DecidableEq, Repr

inductive ConditionKind where
  | any | absent | revision | unknown
deriving DecidableEq, Repr

inductive MutationKind where
  | put | delete | unknown
deriving DecidableEq, Repr

inductive ChangeKind where
  | put | delete | expire
deriving DecidableEq, Repr

inductive LifecycleState where
  | ready | degradedReadOnly | draining | inspectionOnly
deriving DecidableEq, Repr

structure Record where
  key : Key
  value : Bytes
  revision : Nat
  expiresAt : Option Time
deriving DecidableEq, Repr

def newRecord (key : Key) (value : Bytes) (revision : Nat) (expiresAt : Option Time) :
    Record := ⟨key, value, revision, expiresAt⟩

structure Condition where
  kind : ConditionKind
  expectedRevision : Nat := 0
deriving DecidableEq, Repr

/-- `value = none` is a nil slice, which a delete must carry. -/
structure Mutation where
  kind : MutationKind
  key : Key
  condition : Condition
  value : Option Bytes := none
  expiresAt : Option Time := none
deriving DecidableEq, Repr

def Mutation.valueBytes (m : Mutation) : Bytes := m.value.getD []

structure Assertion where
  key : Key
  condition : Condition
deriving DecidableEq, Repr

structure Batch where
  ack : AckMode
  assertions : List Assertion := []
  mutations : List Mutation
deriving DecidableEq, Repr

def newPutMutation (key : Key) (value : Bytes) (condition : Condition)
    (expiresAt : Option Time) : Mutation :=
  { kind := .put, key, condition, value := some value, expiresAt }

def newDeleteMutation (key : Key) (expectedRevision : Nat) : Mutation :=
  { kind := .delete, key, condition := { kind := .revision, expectedRevision } }

structure ChangeEvent where
  revision : Nat
  order : Nat
  kind : ChangeKind
  key : Key
  record : Option Record := none
deriving DecidableEq, Repr

structure MutationResult where
  revision : Nat
  ack : AckMode
  durableThroughRevision : Nat
  mutationCount : Nat
  assertionCount : Nat
deriving DecidableEq, Repr

end GapDB
