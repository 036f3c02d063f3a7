import GapDB.Types
import Mathlib.Data.List.Sort

/-!
# The ordered key index

`planOrderedKeys` and `mergeOrderedKeyDelta` of `engine/writer.go`. The slice's capacity is
part of the model: it decides between appending in place and reallocating.
-/

namespace GapDB

open Storelib

/-- `sort.SearchStrings`. -/
def searchStrings (keys : List Key) (key : Key) : Nat := keys.findIdx fun x => key ≤ x

def keyExists (keys : List Key) (key : Key) : Bool :=
  keys[searchStrings keys key]? == some key

/-- A key slice with its capacity. -/
structure KeySlice where
  keys : List Key := []
  capacity : Nat := 0
deriving DecidableEq

structure OrderedKeyPlan where
  replacement : Option KeySlice := none
  tail : List Key := []
deriving DecidableEq

/-- The merge loop of `mergeOrderedKeyDelta`. -/
def mergeKeys (removed : List Key) : List Key → List Key → List Key
  | [], additions => additions
  | key :: base, additions =>
    if key ∈ removed then mergeKeys removed base additions
    else
      match additions with
      | [] => key :: mergeKeys removed base []
      | addition :: additions =>
        if key < addition then key :: mergeKeys removed base (addition :: additions)
        else addition :: mergeKeys removed (key :: base) additions
termination_by base additions => base.length + additions.length

def mergeOrderedKeyDelta (base : List Key) (mutations : List Mutation) : KeySlice :=
  let removed := (mutations.filter fun m => m.kind = .delete ∧ keyExists base m.key).map
    Mutation.key
  let additions := ((mutations.filter fun m => m.kind ≠ .delete ∧ ¬ keyExists base m.key).map
    Mutation.key).insertionSort (· ≤ ·)
  { keys := mergeKeys removed base additions
    capacity := base.length + additions.length - removed.dedup.length }

def planOrderedKeys (slice : KeySlice) (mutations : List Mutation) : OrderedKeyPlan :=
  let last := slice.keys.getLastD []
  let deletes := mutations.filter fun m => m.kind = .delete ∧ keyExists slice.keys m.key
  let additions := (mutations.filter fun m => m.kind = .put ∧ ¬ keyExists slice.keys m.key).map
    Mutation.key
  let bulkMerge := ¬ deletes = [] ∨ last ≠ [] ∧ ∃ key ∈ additions, key ≤ last
  if deletes = [] ∧ additions = [] then {}
  else if bulkMerge then { replacement := some (mergeOrderedKeyDelta slice.keys mutations) }
  else
    let additions := additions.insertionSort (· ≤ ·)
    let needed := slice.keys.length + additions.length
    if needed ≤ slice.capacity then { tail := additions }
    else
      { replacement := some
          { keys := slice.keys ++ additions
            capacity := max 16 (max (slice.capacity * 2) needed) } }

/-- What `execute` does with a plan once the commit is published. -/
def KeySlice.adopt (slice : KeySlice) (plan : OrderedKeyPlan) : KeySlice :=
  match plan.replacement with
  | some replacement => replacement
  | none => { slice with keys := slice.keys ++ plan.tail }

end GapDB
