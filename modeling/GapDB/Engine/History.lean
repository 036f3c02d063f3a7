import GapDB.Engine.Records

/-!
# Retained history

`historyLog` of `engine/history.go`: whole commits are retained up to an event and a byte
limit, the oldest are evicted, and the compaction point moves with them.
-/

namespace GapDB

open Storelib

structure EventGroup where
  revision : Nat
  events : List ChangeEvent
  bytes : Nat := 0
deriving DecidableEq

structure HistoryLog where
  commits : List EventGroup := []
  eventCount : Nat := 0
  byteCount : Nat := 0
  maxEvents : Nat
  maxBytes : Nat
  compactedThrough : Nat
deriving DecidableEq

def historyEventBytes (event : ChangeEvent) : Nat :=
  24 + event.key.length +
    match event.record with
    | some record =>
      record.key.length + record.value.length + if record.expiresAt.isSome then 8 else 0
    | none => 0

namespace HistoryLog

def initialized (limits : Limits) (snapshotRevision : Nat) : HistoryLog where
  maxEvents := limits.maxHistoryEvents
  maxBytes := limits.maxHistoryBytes
  compactedThrough := snapshotRevision

/-- The eviction loop: the list is what is still retained. -/
def evict (history : HistoryLog) : List EventGroup → HistoryLog
  | [] => { history with commits := [] }
  | evicted :: commits =>
    if history.maxEvents < history.eventCount ∨ history.maxBytes < history.byteCount then
      evict
        { history with
          eventCount := history.eventCount - evicted.events.length
          byteCount := history.byteCount - evicted.bytes
          compactedThrough := max history.compactedThrough evicted.revision } commits
    else { history with commits := evicted :: commits }

def append (history : HistoryLog) (events : List ChangeEvent) : HistoryLog :=
  match events with
  | [] => history
  | first :: _ =>
    let group : EventGroup := ⟨first.revision, events, (events.map historyEventBytes).sum⟩
    { history with
      eventCount := history.eventCount + group.events.length
      byteCount := history.byteCount + group.bytes }.evict (history.commits ++ [group])

/-- The events `rebuild` derives from a recovered commit. -/
def commitEvents (commit : CommitFrame) : List ChangeEvent :=
  commit.effects.mapIdx (effectEvent commit.revision)

def outsideBounds (revision previous : Nat) : Error :=
  invalidField "recovered_commits" ("revision " ++ toString revision ++
    " is outside strictly increasing recovery bounds after revision " ++ toString previous)

def coverageEnds (previous current : Nat) : Error :=
  invalidField "recovered_commits" ("coverage ends at revision " ++ toString previous ++
    " instead of current revision " ++ toString current)

def rebuildFrom (history : HistoryLog) (current : Nat) :
    Nat → List CommitFrame → Except Error HistoryLog
  | previous, [] =>
    if previous ≠ current then .error (coverageEnds previous current) else .ok history
  | previous, commit :: commits =>
    if commit.revision ≤ previous ∨ current < commit.revision then
      .error (outsideBounds commit.revision previous)
    else rebuildFrom (history.append (commitEvents commit)) current commit.revision commits

def rebuild (history : HistoryLog) (commits : List CommitFrame) (current : Nat) :
    Except Error HistoryLog :=
  history.rebuildFrom current history.compactedThrough commits

def earliestAvailable (history : HistoryLog) : Nat :=
  match history.commits with
  | first :: _ => first.revision
  | [] => history.compactedThrough

def revisionCompacted (requested earliest : Nat) : Error :=
  { code := .revisionCompacted, message := "The requested watch revision is no longer retained.",
    retry := .afterRescan, requestedRevision := some requested, earliestRevision := some earliest,
    safeActions := [.scanPrefix, .restartWatch, .abort] }

/-- `strings.HasPrefix`. -/
def hasPrefix (key start : Bytes) : Bool := start.isPrefixOf key

/-- The loop of `replayGroups`: the matching events of every later commit that has any. -/
def matchingGroups (start : Bytes) (after : Nat) : List EventGroup → List EventGroup
  | [] => []
  | commit :: commits =>
    let matching := commit.events.filter fun event => hasPrefix event.key start
    if commit.revision ≤ after ∨ matching.length = 0 then matchingGroups start after commits
    else ⟨commit.revision, matching, 0⟩ :: matchingGroups start after commits

def replayGroups (history : HistoryLog) (start : Bytes) (after : Nat) :
    Except Error (List EventGroup) :=
  if after < history.compactedThrough then
    .error (revisionCompacted after history.earliestAvailable)
  else .ok (matchingGroups start after history.commits)

/-- The loop of `replayGroupsForWatch`; `none` is a backlog that does not fit. -/
def watchGroups (start : Bytes) (after limit : Nat) :
    List EventGroup → Nat → Option (List EventGroup × Nat)
  | [], total => some ([], total)
  | commit :: commits, total =>
    let matching := commit.events.filter fun event => hasPrefix event.key start
    if commit.revision ≤ after ∨ matching.length = 0 then
      watchGroups start after limit commits total
    else if limit < matching.length ∨ limit - matching.length < total then none
    else (watchGroups start after limit commits (total + matching.length)).map fun (groups,
      total) =>
      (⟨commit.revision, matching, 0⟩ :: groups, total)

def replayGroupsForWatch (history : HistoryLog) (start : Bytes) (after limit : Nat) :
    Except Error (Option (List EventGroup × Nat)) :=
  if after < history.compactedThrough then
    .error (revisionCompacted after history.earliestAvailable)
  else .ok (watchGroups start after limit history.commits 0)

/-- Retain the events of every commit in turn. -/
def appendCommits (history : HistoryLog) (commits : List CommitFrame) : HistoryLog :=
  commits.foldl (fun history commit => history.append (commitEvents commit)) history

theorem appendCommits_append (history : HistoryLog) (cs ds : List CommitFrame) :
    history.appendCommits (cs ++ ds) = (history.appendCommits cs).appendCommits ds :=
  List.foldl_append

/-- A rebuild over strictly increasing revisions up to `current` retains every commit in turn. -/
theorem rebuildFrom_eq {history : HistoryLog} {current previous : Nat} {cs : List CommitFrame}
    (hincreasing : (previous :: cs.map CommitFrame.revision).Pairwise (· < ·))
    (hlast : lastRevision previous cs = current) :
    history.rebuildFrom current previous cs = .ok (history.appendCommits cs) := by
  induction cs generalizing history previous with
  | nil =>
    rw [rebuildFrom, if_neg (by simpa [lastRevision] using hlast)]
    rfl
  | cons c cs ih =>
    rw [List.map_cons, List.pairwise_cons] at hincreasing
    have hprevious : previous < c.revision := hincreasing.1 _ (by simp)
    have hcurrent : c.revision ≤ current := by
      have hle := le_lastRevision hincreasing.2
      rw [← hlast]
      exact hle
    rw [rebuildFrom, if_neg (by omega), ih hincreasing.2 hlast]
    rfl

end HistoryLog

end GapDB
