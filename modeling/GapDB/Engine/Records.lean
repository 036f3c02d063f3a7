import GapDB.Persist.Scan
import GapDB.Storelib.KeyedMap

/-!
# The record map and its two interpreters

The live engine applies mutations (`engine/writer.go`); recovery replays the effects of
decoded commit frames (`server/owner.go`). Both are writes to the record map.
-/

namespace GapDB

open Storelib

/-- `map[string]gapdb.Record`. -/
abbrev RecordMap := Key → Option Record

/-- `clock.IsExpired`. -/
def isExpired (expiresAt effectiveNow : Time) : Bool := ¬ effectiveNow < expiresAt

def recordExpired (record : Record) (now : Time) : Bool :=
  record.expiresAt.any fun t => isExpired t now

/-- What a reader sees of a key at an instant. -/
def RecordMap.visible (m : RecordMap) (now : Time) (key : Key) : Option Record :=
  (m key).filter fun record => !recordExpired record now

theorem recordExpired_mono {record : Record} {t t' : Time} (h : t ≤ t')
    (hexpired : recordExpired record t = true) : recordExpired record t' = true := by
  unfold recordExpired isExpired at *
  cases hrecord : record.expiresAt with
  | none => simp [hrecord] at hexpired
  | some e =>
    simp only [hrecord, Option.any_some, decide_eq_true_eq, not_lt] at hexpired ⊢
    exact hexpired.trans h

/-- Which client call a batch came from. -/
inductive SingleOperation where
  | batch | put | putIfAbsent | compareAndSwap | deleteIfRevision | expiry
deriving DecidableEq, Repr

def u32 (n : Nat) : Nat := n % 2 ^ 32

/-! ### Live application -/

def effectFor (mutation : Mutation) (operation : SingleOperation) : Effect :=
  if mutation.kind = .delete then
    if operation = .expiry then { kind := .expire, key := mutation.key }
    else { kind := .delete, key := mutation.key }
  else ⟨.put, mutation.key, mutation.valueBytes, mutation.expiresAt⟩

/-- The map after one mutation, and the event that describes it. -/
def RecordMap.apply (m : RecordMap) (revision order : Nat) (mutation : Mutation)
    (operation : SingleOperation) : RecordMap × ChangeEvent :=
  if mutation.kind = .delete then
    (Function.update m mutation.key none,
      if operation = .expiry then { revision, order, kind := .expire, key := mutation.key }
      else { revision, order, kind := .delete, key := mutation.key })
  else
    let record := newRecord mutation.key mutation.valueBytes revision mutation.expiresAt
    (Function.update m mutation.key (some record),
      { revision, order, kind := .put, key := mutation.key, record := some record })

/-- The apply loop of `execute`, from position `index` on. -/
def RecordMap.applyAll (revision : Nat) (operation : SingleOperation) :
    Nat → List Mutation → RecordMap → RecordMap × List ChangeEvent
  | _, [], m => (m, [])
  | index, mutation :: mutations, m =>
    let (m, event) := m.apply revision (u32 index) mutation operation
    let (m, events) := applyAll revision operation (index + 1) mutations m
    (m, event :: events)

/-! ### Replay -/

def replayEffect (revision : Nat) (m : RecordMap) (effect : Effect) : RecordMap :=
  match effect.kind with
  | .put => Function.update m effect.key
      (some (newRecord effect.key effect.value revision effect.expiresAt))
  | .delete | .expire => Function.update m effect.key none

def replayCommit (m : RecordMap) (commit : CommitFrame) : RecordMap :=
  commit.effects.foldl (replayEffect commit.revision) m

def replayCommits (m : RecordMap) (commits : List CommitFrame) : RecordMap :=
  commits.foldl replayCommit m

def recordsOf (records : List Record) : RecordMap :=
  records.foldl (fun m record => Function.update m record.key (some record)) fun _ => none

/-- `replayRecords`, before the final copy into a slice. -/
def replayRecords (snapshot : List Record) (commits : List CommitFrame) : RecordMap :=
  replayCommits (recordsOf snapshot) commits

/-- The change event that `historyLog.rebuild` derives from an effect. -/
def effectEvent (revision index : Nat) (effect : Effect) : ChangeEvent :=
  { revision, order := u32 index, kind := effect.kind, key := effect.key
    record :=
      if effect.kind = .put then
        some (newRecord effect.key effect.value revision effect.expiresAt)
      else none }

/-! ### Both are the same writes -/

/-- The write that an effect stands for. -/
def Effect.write (revision : Nat) (e : Effect) : Key × Option Record :=
  (e.key, if e.kind = .put then some (newRecord e.key e.value revision e.expiresAt) else none)

def CommitFrame.writes (c : CommitFrame) : List (Key × Option Record) :=
  c.effects.map (Effect.write c.revision)

theorem replayEffect_eq (revision : Nat) (m : RecordMap) (e : Effect) :
    replayEffect revision m e = Function.update m (e.write revision).1 (e.write revision).2 := by
  obtain ⟨kind, key, value, expiresAt⟩ := e
  cases kind <;> simp [replayEffect, Effect.write]

theorem replayCommit_eq_writeAll (m : RecordMap) (c : CommitFrame) :
    replayCommit m c = writeAll m c.writes := by
  rw [replayCommit, writeAll, CommitFrame.writes, List.foldl_map]
  congr 1
  funext m e
  exact replayEffect_eq _ m e

theorem replayCommits_eq_writeAll (m : RecordMap) (cs : List CommitFrame) :
    replayCommits m cs = writeAll m (cs.flatMap CommitFrame.writes) := by
  induction cs generalizing m with
  | nil => rfl
  | cons c cs ih =>
    rw [List.flatMap_cons, writeAll_append, ← replayCommit_eq_writeAll, ← ih]
    rfl

theorem replayCommits_append (m : RecordMap) (cs ds : List CommitFrame) :
    replayCommits m (cs ++ ds) = replayCommits (replayCommits m cs) ds :=
  List.foldl_append

/-- Applying a mutation is replaying its effect, and announces that effect's event. -/
theorem apply_eq (m : RecordMap) (revision index : Nat) (mutation : Mutation)
    (operation : SingleOperation) :
    m.apply revision (u32 index) mutation operation
      = (replayEffect revision m (effectFor mutation operation),
          effectEvent revision index (effectFor mutation operation)) := by
  by_cases hk : mutation.kind = .delete
  · by_cases hop : operation = .expiry <;>
      simp [RecordMap.apply, effectFor, replayEffect, effectEvent, hk, hop]
  · simp [RecordMap.apply, effectFor, replayEffect, effectEvent, hk]

theorem applyAll_eq (revision : Nat) (operation : SingleOperation) (index : Nat)
    (mutations : List Mutation) (m : RecordMap) :
    m.applyAll revision operation index mutations
      = ((mutations.map (effectFor · operation)).foldl (replayEffect revision) m,
          (mutations.map (effectFor · operation)).mapIdx fun i e =>
            effectEvent revision (index + i) e) := by
  induction mutations generalizing index m with
  | nil => rfl
  | cons mutation mutations ih =>
    simp only [RecordMap.applyAll, apply_eq, ih, List.map_cons, List.foldl_cons,
      List.mapIdx_cons, Nat.add_zero]
    congr 3
    funext i e
    congr 1
    omega

end GapDB
