import GapDB.Engine.History

/-!
# Watchers, as the writer sees them

Registration, publication and removal of watchers in `engine/watch.go`. A watcher's pump runs
beside the writer; what the two share is the queue of groups, the counter of queued events and
the end message.
-/

namespace GapDB

open Storelib

inductive WatchEndReason where
  | client | shutdown | error
deriving DecidableEq

structure WatchEnd where
  reason : WatchEndReason
  current : Nat
  err : Option Error := none
deriving DecidableEq

structure WatcherState where
  id : Nat
  start : Bytes
  backlog : List EventGroup := []
  live : List EventGroup := []
  end_ : Option WatchEnd := none
  queuedEvents : Nat := 0
  lastDelivered : Nat
  limit : Nat
  registration : Nat
  backlogFits : Bool
deriving DecidableEq

/-- `state.watchers` with the counters beside it; `detached` are those whose pump is on its own. -/
structure Watchers where
  watchers : List WatcherState := []
  detached : List WatcherState := []
  nextWatcherID : Nat := 0
  activeWatches : Nat := 0
deriving DecidableEq

def revisionAhead (requested current : Nat) : Error :=
  { code := .revisionAhead, message := "The requested watch revision is ahead of the database.",
    retry := .afterRescan, requestedRevision := some requested, currentRevision := some current,
    safeActions := [.scanPrefix, .restartWatch, .abort] }

def watchBusy (active maximum depth : Nat) : Error :=
  { code := .serverBusy, message := "The configured watch limit is active.", retry := .immediate,
    activeClients := some active, maximumClients := some maximum, queueDepth := some depth,
    safeActions := [.retryWithBackoff, .abort] }

def watchLagEnd (last current : Nat) : WatchEnd where
  reason := .error
  current := current
  err := some
    { code := .watchLagged, message := "The watch could not keep up with committed changes.",
      retry := .afterRescan, lastDeliveredRevision := some last, currentRevision := some current,
      safeActions := [.scanPrefix, .restartWatch, .abort] }

namespace Watchers

/-- `registerWatch`, returning the identifier of the subscription. -/
def register (w : Watchers) (limits : Limits) (history : HistoryLog) (current queueDepth : Nat)
    (start : Bytes) (after : Nat) : Except Error Nat × Watchers :=
  if current < after then (.error (revisionAhead after current), w)
  else
    match history.replayGroupsForWatch start after limits.watchBufferEvents with
    | .error e => (.error e, w)
    | .ok backlog =>
      if limits.maxWatchClients ≤ w.watchers.length then
        (.error (watchBusy w.watchers.length limits.maxWatchClients queueDepth), w)
      else
        let id := u64 (w.nextWatcherID + 1)
        let watcher : WatcherState :=
          { id, start, lastDelivered := after, limit := limits.watchBufferEvents,
            registration := current, backlogFits := backlog.isSome }
        match backlog with
        | some (groups, events) =>
          (.ok id, { w with
            watchers := w.watchers ++ [{ watcher with backlog := groups, queuedEvents := events }]
            nextWatcherID := id, activeWatches := w.activeWatches + 1 })
        | none =>
          (.ok id, { w with
            detached := w.detached ++ [{ watcher with end_ := some (watchLagEnd after current) }]
            nextWatcherID := id })

/-- Take a watcher out of the map and leave it a last message. -/
def detach (w : Watchers) (id : Nat) (message : WatcherState → WatchEnd) : Watchers :=
  match w.watchers.find? (·.id == id) with
  | none => w
  | some watcher =>
    { w with
      watchers := w.watchers.filter (·.id != id)
      detached := w.detached ++ [{ watcher with end_ := some (message watcher) }]
      activeWatches := w.activeWatches - 1 }

def unregister (w : Watchers) (id : Nat) (reason : WatchEndReason) (current : Nat) : Watchers :=
  w.detach id fun _ => ⟨reason, current, none⟩

def shutdown (w : Watchers) (current : Nat) : Watchers :=
  w.watchers.foldl (fun w watcher => w.unregister watcher.id .shutdown current) w

/-- The part of a commit that a watcher is interested in. -/
def matching (watcher : WatcherState) (revision : Nat) (events : List ChangeEvent) : EventGroup :=
  ⟨revision, events.filter fun event => HistoryLog.hasPrefix event.key watcher.start, 0⟩

/-- One turn of `publishWatchers`. -/
def publishTo (revision : Nat) (events : List ChangeEvent) (w : Watchers)
    (watcher : WatcherState) : Watchers :=
  let group := matching watcher revision events
  let count := group.events.length
  if count = 0 then w
  else if watcher.limit < count ∨ watcher.limit - count < watcher.queuedEvents
      ∨ watcher.limit ≤ watcher.live.length then
    w.detach watcher.id fun watcher => watchLagEnd watcher.lastDelivered revision
  else
    { w with watchers := w.watchers.map fun other =>
        if other.id = watcher.id then
          { other with live := other.live ++ [group], queuedEvents := other.queuedEvents + count }
        else other }

def publish (w : Watchers) (events : List ChangeEvent) : Watchers :=
  match events with
  | [] => w
  | first :: _ => w.watchers.foldl (publishTo first.revision events) w

/-- A pump retires the group it has delivered. -/
def retire (w : Watchers) (id : Nat) : Watchers :=
  { w with watchers := w.watchers.map fun watcher =>
      if watcher.id ≠ id then watcher
      else
        match watcher.backlog, watcher.live with
        | group :: backlog, _ =>
          { watcher with backlog, lastDelivered := group.revision,
                         queuedEvents := watcher.queuedEvents - group.events.length }
        | [], group :: live =>
          { watcher with live, lastDelivered := group.revision,
                         queuedEvents := watcher.queuedEvents - group.events.length }
        | [], [] => watcher }

end Watchers

end GapDB
