import GapDB.Engine.Records
import Mathlib.Data.List.Sort

/-!
# The expiry schedule

The candidate heap of `engine/expiry.go` with the by-key map into it. A candidate is reached
through a pointer: the heap slice and the map hold pointers, and the candidate itself knows its
position in the slice. The heap operations are those of `container/heap`.
-/

namespace GapDB

structure ExpiryCandidate where
  at_ : Time
  key : Key
  revision : Nat
  /-- Position in the heap slice, `-1` once popped. -/
  index : Int
deriving DecidableEq

instance : Inhabited ExpiryCandidate := ⟨⟨0, [], 0, -1⟩⟩

structure ExpirySchedule where
  candidates : Nat → ExpiryCandidate := fun _ => default
  /-- The next unused pointer. -/
  fresh : Nat := 0
  expiries : List Nat := []
  expiryByKey : Key → Option Nat := fun _ => none

namespace ExpirySchedule

def item (s : ExpirySchedule) (i : Nat) : ExpiryCandidate := s.candidates (s.expiries.getD i 0)

def candidateLess (a b : ExpiryCandidate) : Bool :=
  if a.at_ = b.at_ then
    if a.key = b.key then a.revision < b.revision else a.key < b.key
  else a.at_ < b.at_

def less (s : ExpirySchedule) (i j : Nat) : Bool := candidateLess (s.item i) (s.item j)

def setIndex (s : ExpirySchedule) (pointer : Nat) (index : Int) : ExpirySchedule :=
  let candidate := { s.candidates pointer with index }
  { s with candidates := Function.update s.candidates pointer candidate }

def swap (s : ExpirySchedule) (i j : Nat) : ExpirySchedule :=
  let a := s.expiries.getD i 0
  let b := s.expiries.getD j 0
  ({ s with expiries := (s.expiries.set i b).set j a }.setIndex b i).setIndex a j

def up (s : ExpirySchedule) (j : Nat) : ExpirySchedule :=
  let i := (j - 1) / 2
  if _h : i = j ∨ ¬ s.less j i then s else (s.swap i j).up i
termination_by j
decreasing_by omega

/-- The loop of `down`; the second component is the final position. -/
def downFrom (s : ExpirySchedule) (n i : Nat) : ExpirySchedule × Nat :=
  let j := if 2 * i + 2 < n ∧ s.less (2 * i + 2) (2 * i + 1) then 2 * i + 2 else 2 * i + 1
  if _h : n ≤ 2 * i + 1 then (s, i)
  else if s.less j i then (s.swap i j).downFrom n j
  else (s, i)
termination_by n - i
decreasing_by split <;> omega

def down (s : ExpirySchedule) (i n : Nat) : ExpirySchedule × Bool :=
  let (s, final) := s.downFrom n i
  (s, i < final)

/-- `heap.Fix`. -/
def fix (s : ExpirySchedule) (i : Nat) : ExpirySchedule :=
  let (s, moved) := s.down i s.expiries.length
  if moved then s else s.up i

/-- `heap.Push`. -/
def push (s : ExpirySchedule) (pointer : Nat) : ExpirySchedule :=
  let n := s.expiries.length
  ({ s with expiries := s.expiries ++ [pointer] }.setIndex pointer n).up n

/-- `expiryHeap.Pop`: the last slot. -/
def popLast (s : ExpirySchedule) : Nat × ExpirySchedule :=
  let last := s.expiries.getLastD 0
  (last, { s with expiries := s.expiries.dropLast }.setIndex last (-1))

/-- `heap.Pop`. -/
def pop (s : ExpirySchedule) : Nat × ExpirySchedule :=
  let n := s.expiries.length - 1
  ((s.swap 0 n).down 0 n).1.popLast

/-- `heap.Remove`. -/
def remove (s : ExpirySchedule) (i : Nat) : ExpirySchedule :=
  let n := s.expiries.length - 1
  let s :=
    if n ≠ i then
      let (s, moved) := (s.swap i n).down i n
      if moved then s else s.up i
    else s
  s.popLast.2

def removeScheduledExpiry (s : ExpirySchedule) (key : Key) : ExpirySchedule :=
  match s.expiryByKey key with
  | none => s
  | some pointer =>
    { s with expiryByKey := Function.update s.expiryByKey key none }.remove
      (s.candidates pointer).index.toNat

def scheduleRecordExpiry (s : ExpirySchedule) (record : Record) : ExpirySchedule :=
  match record.expiresAt with
  | none => s.removeScheduledExpiry record.key
  | some at_ =>
    match s.expiryByKey record.key with
    | some pointer =>
      let candidate := { s.candidates pointer with at_, revision := record.revision }
      { s with candidates := Function.update s.candidates pointer candidate }.fix
        candidate.index.toNat
    | none =>
      { s with
        candidates := Function.update s.candidates s.fresh
          ⟨at_, record.key, record.revision, 0⟩
        fresh := s.fresh + 1
        expiryByKey := Function.update s.expiryByKey record.key (some s.fresh) }.push s.fresh

/-- The expiry half of `afterCommit`. -/
def afterCommit (s : ExpirySchedule) (events : List ChangeEvent) : ExpirySchedule :=
  events.foldl (fun s event =>
    match event.kind, event.record with
    | .put, some record => s.scheduleRecordExpiry record
    | _, _ => s.removeScheduledExpiry event.key) s

/-- The collection loop of `executeDueExpiries`: pop what is due while the batch has room. -/
def collectDue (limits : Limits) (records : RecordMap) (now : Time) (s : ExpirySchedule)
    (due : List ExpiryCandidate) (encodedBytes : Nat) : Nat → ExpirySchedule × List ExpiryCandidate
  | 0 => (s, due)
  | fuel + 1 =>
    if limits.maxBatchOperations ≤ due.length ∨ s.expiries = [] ∨ now < (s.item 0).at_ then (s, due)
    else
      let (pointer, s) := s.pop
      let candidate := s.candidates pointer
      let s := if s.expiryByKey candidate.key = some pointer then
          { s with expiryByKey := Function.update s.expiryByKey candidate.key none }
        else s
      let current := (records candidate.key).any fun record =>
        record.revision = candidate.revision ∧ record.expiresAt = some candidate.at_
          ∧ recordExpired record now
      if ¬ current ∨ candidate.key ∈ due.map ExpiryCandidate.key then
        collectDue limits records now s due encodedBytes fuel
      else
        let itemBytes := 20 + candidate.key.length
        if limits.commitBytes < encodedBytes + itemBytes then
          ({ s with expiryByKey := Function.update s.expiryByKey candidate.key (some pointer) }.push
            pointer, due)
        else collectDue limits records now s (due ++ [candidate]) (encodedBytes + itemBytes) fuel

/-- Every turn pops a candidate, so the size of the heap bounds the turns. -/
def dueExpiries (limits : Limits) (records : RecordMap) (now : Time) (s : ExpirySchedule) :
    ExpirySchedule × List ExpiryCandidate :=
  let (s, due) := s.collectDue limits records now [] 32 s.expiries.length
  (s, due.insertionSort fun a b => a.key ≤ b.key)

end ExpirySchedule

end GapDB
