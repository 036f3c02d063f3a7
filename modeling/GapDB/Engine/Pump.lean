import GapDB.Engine.Effects
import GapDB.Engine.Retention

/-!
# Watch pumps

The goroutine behind a watch (`pump` of `engine/watch.go`) and the system it runs in: the writer
with its requests, one pump per watch, the consumer of its events and the client that may close
it, in any interleaving. What the goroutines share is in the watcher's state; the rest is local
to the pump.
-/

namespace GapDB

open Storelib DatabaseState

structure WatchTermination where
  reason : WatchEndReason
  lastDeliveredRevision : Nat
  error : Option Error := none
deriving DecidableEq

/-- Where a pump stands. The optional list is the backlog behind a group that comes from it; a
group without one comes from the live channel. -/
inductive PumpPhase where
  /-- Before the next turn of the loop over the backlog. -/
  | backlog (rest : List EventGroup)
  /-- At the select of the main loop. -/
  | live
  /-- At the first select of `deliver`. -/
  | entering (group : EventGroup) (rest : Option (List EventGroup))
  /-- In the loop of `deliver`. -/
  | sending (group : EventGroup) (unsent : List ChangeEvent) (rest : Option (List EventGroup))
  /-- Back from `deliver`, with the group still counted as queued. -/
  | delivered (group : EventGroup) (rest : Option (List EventGroup))
  | finished
deriving DecidableEq

/-- A pump with the two channels of its subscription. -/
structure Pump where
  /-- The revision the watch was asked to start after. -/
  after : Nat
  phase : PumpPhase
  /-- The stop channel has been closed. -/
  stopped : Bool := false
  /-- What the consumer has taken from `Events`. -/
  received : List ChangeEvent := []
  /-- What has been put into `Ended`. -/
  termination : Option WatchTermination := none
deriving DecidableEq

/-- Which ready case a select takes; `proceed` is any case but the two that end the watch. -/
inductive PumpChoice where
  | proceed | takeEnd | takeStop
deriving DecidableEq

namespace Pump

def clientEnd : WatchEnd := ⟨.client, 0, none⟩

/-- `finish`. -/
def finish (p : Pump) (w : WatcherState) (message : WatchEnd) : Pump :=
  { p with
    phase := .finished
    termination := some
      { reason := message.reason
        lastDeliveredRevision := w.lastDelivered
        error := message.err.map fun e =>
          { e with lastDeliveredRevision := some w.lastDelivered } } }

/-- The two cases that end a watch. -/
def leave (p : Pump) (w : WatcherState) : PumpChoice → Option (WatcherState × Pump)
  | .takeEnd => w.end_.map fun message => ({ w with end_ := none }, p.finish w message)
  | .takeStop => if p.stopped then some (w, p.finish w clientEnd) else none
  | .proceed => none

/-- One step of the pump; `none` if the choice is not ready. A send is one step with the receive
on the other side. -/
def step (p : Pump) (w : WatcherState) (choice : PumpChoice) : Option (WatcherState × Pump) :=
  match p.phase, choice with
  | .backlog [], .proceed =>
    some ({ w with
            backlog := []
            lastDelivered := if w.backlogFits then w.registration else w.lastDelivered },
          { p with phase := .live })
  | .backlog (group :: rest), .proceed => some (w, { p with phase := .entering group (some rest) })
  | .live, .proceed =>
    match w.live with
    | [] => none
    | group :: live => some ({ w with live }, { p with phase := .entering group none })
  | .entering group rest, .proceed =>
    -- the default case is taken only when neither of the others is ready
    if w.end_ = none ∧ p.stopped = false then
      some (w, { p with phase := .sending group group.events rest })
    else none
  | .live, choice | .entering _ _, choice => p.leave w choice
  | .sending group (event :: unsent) rest, .proceed =>
    some (w, { p with phase := .sending group unsent rest, received := p.received ++ [event] })
  | .sending _ (_ :: _) _, .takeStop => p.leave w .takeStop
  | .sending group [] rest, .proceed =>
    some ({ w with lastDelivered := group.revision }, { p with phase := .delivered group rest })
  | .delivered group rest, .proceed =>
    some ({ w with queuedEvents := w.queuedEvents - group.events.length },
          { p with
            phase := match rest with
              | some rest => .backlog rest
              | none => .live })
  | _, _ => none

end Pump

namespace Watchers

/-- Every watcher whose pump may still run. -/
def all (w : Watchers) : List WatcherState := w.watchers ++ w.detached

def find (w : Watchers) (id : Nat) : Option WatcherState := w.all.find? (·.id == id)

/-- Write the shared state of a watcher back. -/
def store (w : Watchers) (watcher : WatcherState) : Watchers :=
  { w with
    watchers := w.watchers.map fun other => if other.id = watcher.id then watcher else other
    detached := w.detached.map fun other => if other.id = watcher.id then watcher else other }

end Watchers

/-! ### The system -/

/-- The writer and the pumps. `commits` are the recovered commits and those published since. -/
structure WatchSystem (σ : Type) where
  engine : DatabaseState
  world : σ
  commits : List CommitFrame
  pumps : Nat → Option Pump := fun _ => none
  /-- The writer is gone. -/
  closed : Bool := false

inductive WatchAction (σ : Type) where
  | request (r : Request σ)
  | pump (id : Nat) (choice : PumpChoice)
  /-- `Close`, by the client or by the end of its context. -/
  | close (id : Nat)

namespace WatchSystem

variable {σ : Type}

/-- The writer can receive the request: identifiers are not reused, an unregistration is asked
for only once the stop channel is closed, and a group is retired by its pump alone. -/
def admits (system : WatchSystem σ) : Request σ → Bool
  | .command (.register _ _ _) =>
    (system.pumps (u64 (system.engine.watchers.nextWatcherID + 1))).isNone
  | .command (.unregister id) => (system.pumps id).any Pump.stopped
  | .command (.retire _) => false
  | _ => true

/-- The pumps after a request: a registration starts one. -/
def started (system : WatchSystem σ) (r : Request σ) : Nat → Option Pump :=
  match r, r.run system.engine system.world with
  | .command (.register _ _ after), (.watch (.ok id), engine, _) =>
    Function.update system.pumps id (some
      { after, phase := .backlog (((engine.watchers.find id).map WatcherState.backlog).getD []) })
  | _, _ => system.pumps

/-- The writer serves a request. -/
def serve (system : WatchSystem σ) (r : Request σ) : WatchSystem σ where
  engine := (r.run system.engine system.world).2.1
  world := (r.run system.engine system.world).2.2
  commits := system.commits ++ (r.turn system.engine system.world).published
  pumps := system.started r
  closed := match r with
    | .shutdown _ => true
    | _ => system.closed

def step (system : WatchSystem σ) : WatchAction σ → Option (WatchSystem σ)
  | .request r =>
    if system.closed = false ∧ system.admits r then some (system.serve r) else none
  | .pump id choice =>
    match system.engine.watchers.find id, system.pumps id with
    | some watcher, some pump =>
      (pump.step watcher choice).map fun (watcher, pump) =>
        { system with
          engine := { system.engine with watchers := system.engine.watchers.store watcher }
          pumps := Function.update system.pumps id (some pump) }
    | _, _ => none
  | .close id =>
    (system.pumps id).map fun pump =>
      { system with pumps := Function.update system.pumps id (some { pump with stopped := true }) }

/-- Take the actions from left to right; those that are not enabled are skipped. -/
def run (system : WatchSystem σ) (actions : List (WatchAction σ)) : WatchSystem σ :=
  actions.foldl (fun system action => (system.step action).getD system) system

/-- An engine just opened, with no watch. -/
def opened (engine : DatabaseState) (config : Config) (world : σ) : WatchSystem σ where
  engine := engine
  world := world
  commits := config.recoveredCommits

end WatchSystem

end GapDB
