import GapDB.Engine.Delivery

/-!
# A watch across a connection

`handleWatch` of `server/handler.go` takes the events of an engine subscription one by one and
writes each into its own frame; `receiveWatch` of `gapdb/client.go` reads the frames and hands the
events to the client's consumer. Both keep the revision of the last event they passed on. The
stream can stop between any two frames: by a failed write, a lost connection, a failed read, the
shutdown of the server or a cancellation.
-/

namespace GapDB

open Storelib DatabaseState HistoryLog

variable {p : Pump} {event : ChangeEvent}

variable {after : Nat}

/-- The frames after the one that starts the stream. -/
inductive WatchFrame where
  | event (event : ChangeEvent)
  /-- The error that takes the place of a response beyond the frame limit. -/
  | failure
  | ended (reason : WatchEndReason) (error : Option Error)
deriving DecidableEq

/-- How `writeResponse` went: whether the response fits a frame, whether the frame got out whole,
and whether nothing failed after that. -/
structure WriteOutcome where
  fits : Bool := true
  written : Bool := true
  ok : Bool := true
deriving DecidableEq

namespace WriteOutcome

def frames (outcome : WriteOutcome) (frame : WatchFrame) : List WatchFrame :=
  if outcome.written then [if outcome.fits then frame else .failure] else []

def succeeds (outcome : WriteOutcome) : Bool := outcome.written && outcome.ok

end WriteOutcome

/-- The variables of `handleWatch`. -/
structure WatchHandler where
  lastWritten : Nat
  returned : Bool := false
deriving DecidableEq

/-- The frame that ends the stream after the subscription has ended. -/
def WatchHandler.endFrame (handler : WatchHandler) (t : WatchTermination) : WatchFrame :=
  match t.error with
  | some e => .ended .error (some { e with lastDeliveredRevision := some handler.lastWritten })
  | none => .ended t.reason none

/-- The variables of `receiveWatch`, with the two channels of the client's watch. -/
structure ClientWatch where
  last : Nat
  /-- An event that was read and not yet taken by the consumer. -/
  held : Option ChangeEvent := none
  cancelled : Bool := false
  /-- What the consumer has taken from `Events`. -/
  delivered : List ChangeEvent := []
  termination : Option WatchTermination := none
deriving DecidableEq

namespace ClientWatch

def unavailableWatchError : Error :=
  { code := .serverUnavailable, message := "The watch transport became unavailable.",
    retry := .afterRestart, safeActions := [.statusOffline, .startServer, .abort] }

def fail (c : ClientWatch) : ClientWatch :=
  { c with termination := some ⟨.error, c.last, some unavailableWatchError⟩ }

/-- A frame was read. -/
def receive (c : ClientWatch) : WatchFrame → ClientWatch
  | .event event => { c with held := some event }
  | .failure =>
    if c.cancelled then { c with termination := some ⟨.client, c.last, none⟩ } else c.fail
  | .ended reason error =>
    { c with
      termination := some
        ⟨reason, ((error.bind Error.lastDeliveredRevision).getD c.last), error⟩ }

theorem receive_delivered (c : ClientWatch) (frame : WatchFrame) :
    (c.receive frame).delivered = c.delivered := by
  cases frame with
  | event | ended => rfl
  | failure =>
    rw [receive]
    split <;> rfl

/-- No frame could be read. -/
def readFails (c : ClientWatch) : ClientWatch :=
  if c.cancelled then { c with termination := some ⟨.client, c.last, none⟩ } else c.fail

/-- The consumer takes the event. -/
def deliver (c : ClientWatch) (event : ChangeEvent) : ClientWatch :=
  { c with held := none, delivered := c.delivered ++ [event], last := event.revision }

end ClientWatch

/-! ### The connection -/

/-- One watch of the engine, its handler, the frames between them and the client. -/
structure WatchConnection (σ : Type) where
  system : WatchSystem σ
  id : Nat
  handler : WatchHandler
  wire : List WatchFrame := []
  /-- Nothing written any more will arrive. -/
  broken : Bool := false
  client : ClientWatch

inductive ConnectionAction (σ : Type) where
  /-- Anything in the engine but an event of this watch. -/
  | engine (action : WatchAction σ)
  /-- The handler takes an event and writes it. -/
  | event (outcome : WriteOutcome)
  /-- The handler takes the termination of the subscription. -/
  | ended (outcome : WriteOutcome)
  /-- The handler sees the shutdown of the server. -/
  | shutdown (outcome : WriteOutcome)
  /-- The connection is lost, with all but the first frames that are under way. -/
  | lose (n : Nat)
  | receive | readFails | deliver | cancel
  /-- The client gives up an event that nobody takes. -/
  | abandon

/-- The events that the consumer takes in an action. -/
def ConnectionAction.deliveries {σ : Type} : ConnectionAction σ → Nat
  | .deliver => 1
  | _ => 0

namespace WatchConnection

variable {σ : Type}

/-- The event that the pump of the watch offers. -/
def offered (c : WatchConnection σ) : Option ChangeEvent :=
  match (c.system.pumps c.id).map Pump.phase with
  | some (.sending _ (event :: _) _) => some event
  | _ => none

/-- The handler has written a frame, or tried to. -/
def write (c : WatchConnection σ) (outcome : WriteOutcome) (frame : WatchFrame) :
    WatchConnection σ :=
  { c with wire := if c.broken then c.wire else c.wire ++ outcome.frames frame }

def step (c : WatchConnection σ) : ConnectionAction σ → Option (WatchConnection σ)
  | .engine action =>
    match action, c.offered with
    | .pump id .proceed, some _ =>
      if id = c.id then none
      else (c.system.step action).map fun system => { c with system }
    | _, _ => (c.system.step action).map fun system => { c with system }
  | .event outcome =>
    if c.handler.returned then none
    else
      match c.offered, c.system.step (.pump c.id .proceed) with
      | some event, some system =>
        some ({ c with
          system
          handler := if outcome.succeeds then { c.handler with lastWritten := event.revision }
            else { c.handler with returned := true } }.write outcome (.event event))
      | _, _ => none
  | .ended outcome =>
    if c.handler.returned then none
    else
      ((c.system.pumps c.id).bind Pump.termination).map fun t =>
        { c with handler := { c.handler with returned := true } }.write outcome
          (c.handler.endFrame t)
  | .shutdown outcome =>
    if c.handler.returned then none
    else some ({ c with handler := { c.handler with returned := true } }.write outcome
      (.ended .shutdown none))
  | .lose n => some { c with wire := c.wire.take n, broken := true }
  | .receive =>
    if c.client.termination.isSome ∨ c.client.held.isSome then none
    else
      match c.wire with
      | [] => none
      | frame :: wire => some { c with wire, client := c.client.receive frame }
  | .readFails =>
    if c.client.termination.isSome ∨ c.client.held.isSome then none
    else some { c with client := c.client.readFails }
  | .deliver =>
    if c.client.termination.isSome then none
    else c.client.held.map fun event => { c with client := c.client.deliver event }
  | .cancel => some { c with client := { c.client with cancelled := true } }
  | .abandon =>
    if c.client.termination.isNone ∧ c.client.held.isSome ∧ c.client.cancelled then
      some { c with
        client := { c.client with termination := some ⟨.client, c.client.last, none⟩ } }
    else none

/-- Take the actions from left to right; those that are not enabled are skipped. -/
def run (c : WatchConnection σ) (actions : List (ConnectionAction σ)) : WatchConnection σ :=
  actions.foldl (fun c action => (c.step action).getD c) c

/-- How many events the consumer takes in a run. -/
def deliveries (c : WatchConnection σ) : List (ConnectionAction σ) → Nat
  | [] => 0
  | action :: actions =>
    (if (c.step action).isSome then action.deliveries else 0)
      + deliveries ((c.step action).getD c) actions

/-- The stream has been started for the watch `id`. -/
def start (system : WatchSystem σ) (id after : Nat) : WatchConnection σ where
  system := system
  id := id
  handler := { lastWritten := after }
  client := { last := after }

end WatchConnection

/-! ### What the handler has taken -/

theorem Pump.leave_received {p' : Pump} {w w' : WatcherState} {choice : PumpChoice}
    (h : p.leave w choice = some (w', p')) : p'.after = p.after ∧ p'.received = p.received := by
  cases choice with
  | proceed => cases h
  | takeEnd =>
    obtain ⟨message, -, heq⟩ := Option.map_eq_some_iff.mp h
    cases heq
    exact ⟨rfl, rfl⟩
  | takeStop =>
    simp only [Pump.leave] at h
    split at h
    · cases h
      exact ⟨rfl, rfl⟩
    · cases h

theorem Pump.step_received {p' : Pump} {w w' : WatcherState} {choice : PumpChoice}
    (h : p.step w choice = some (w', p')) :
    p'.after = p.after ∧ (p'.received = p.received ∨ choice = .proceed ∧
      ∃ group event unsent rest, p.phase = .sending group (event :: unsent) rest ∧
        p'.received = p.received ++ [event]) := by
  have hleave : choice ≠ .proceed → p.leave w choice = some (w', p') := by
    intro hne
    unfold Pump.step at h
    split at h
    case h_5 | h_6 | h_8 => exact h
    all_goals first | exact absurd rfl hne | cases h
  have hcases := Pump.step_cases h
  by_cases hproceed : choice = .proceed
  · cases hcases with
    | switch | next | take | enter | sent | retire => exact ⟨rfl, .inl rfl⟩
    | send group event unsent rest phase =>
      exact ⟨rfl, .inr ⟨hproceed, group, event, unsent, rest, phase, rfl⟩⟩
    | leave choice w' p' active between left =>
      exact ⟨(Pump.leave_received left).1, .inl (Pump.leave_received left).2⟩
  · have hleft := Pump.leave_received (hleave hproceed)
    exact ⟨hleft.1, .inl hleft.2⟩

/-- A registration starts a pump of its own. -/
theorem WatchSystem.started_of_some {σ : Type} {system : WatchSystem σ} {r : Request σ}
    (hr : system.admits r = true) {id : Nat} (hp : system.pumps id = some p) :
    system.started r id = some p := by
  by_cases hregister : ∃ queueDepth start after, r = .command (.register queueDepth start after)
  · obtain ⟨queueDepth, start, after, rfl⟩ := hregister
    have hcases := system.engine.watchers.register_cases system.engine.limits
      system.engine.history system.engine.current queueDepth start after
    simp only [started, Request.run, Command.run]
    generalize system.engine.watchers.register system.engine.limits system.engine.history
      system.engine.current queueDepth start after = result at hcases ⊢
    obtain ⟨result, watchers⟩ := result
    have hne : id ≠ u64 (system.engine.watchers.nextWatcherID + 1) := by
      rintro rfl
      simp [admits, hp] at hr
    cases hcases with
    | refused e => exact hp
    | accepted | lagged =>
      simp only [Function.update_of_ne hne]
      exact hp
  · rw [started_eq fun queueDepth start after heq => hregister ⟨queueDepth, start, after, heq⟩]
    exact hp

/-- What one action of the engine does to the events taken from a watch. -/
theorem WatchSystem.step_received {σ : Type} {system system' : WatchSystem σ}
    {action : WatchAction σ} (h : system.step action = some system') {id : Nat}
    (hp : system.pumps id = some p) :
    ∃ p', system'.pumps id = some p' ∧ p'.after = p.after ∧
      (p'.received = p.received ∨ action = .pump id .proceed ∧
        ∃ group event unsent rest, p.phase = .sending group (event :: unsent) rest ∧
          p'.received = p.received ++ [event]) := by
  cases action with
  | request r =>
    simp only [WatchSystem.step] at h
    split at h
    · next hadmits =>
      cases h
      exact ⟨p, started_of_some hadmits.2 hp, rfl, .inl rfl⟩
    · cases h
  | pump other choice =>
    simp only [WatchSystem.step] at h
    split at h
    · next x q hx hq =>
      obtain ⟨⟨x', q'⟩, hstep, rfl⟩ := Option.map_eq_some_iff.mp h
      by_cases hid : id = other
      · subst hid
        obtain rfl : p = q := Option.some.inj (hp.symm.trans hq)
        obtain ⟨hafter, hreceived⟩ := Pump.step_received hstep
        refine ⟨q', Function.update_self _ _ _, hafter, hreceived.imp_right ?_⟩
        rintro ⟨rfl, hsent⟩
        exact ⟨rfl, hsent⟩
      · exact ⟨p, by simp only [Function.update_of_ne hid, hp], rfl, .inl rfl⟩
    · cases h
  | close other =>
    obtain ⟨q, hq, rfl⟩ := Option.map_eq_some_iff.mp h
    by_cases hid : id = other
    · subst hid
      obtain rfl : p = q := Option.some.inj (hp.symm.trans hq)
      exact ⟨{ p with stopped := true }, Function.update_self _ _ _, rfl, .inl rfl⟩
    · exact ⟨p, by simp only [Function.update_of_ne hid, hp], rfl, .inl rfl⟩

/-- The watch sends the event that its pump offers. -/
theorem WatchSystem.step_send {σ : Type} {system system' : WatchSystem σ} {id : Nat}
    (h : system.step (.pump id .proceed) = some system') (hp : system.pumps id = some p)
    {group : EventGroup} {unsent : List ChangeEvent}
    {rest : Option (List EventGroup)} (hphase : p.phase = .sending group (event :: unsent) rest) :
    ∃ p', system'.pumps id = some p' ∧ p'.after = p.after ∧
      p'.received = p.received ++ [event] := by
  simp only [WatchSystem.step] at h
  split at h
  · next x q hx hq =>
    obtain rfl : p = q := Option.some.inj (hp.symm.trans hq)
    simp only [Pump.step, hphase, Option.map_some, Option.some.injEq] at h
    subst h
    exact ⟨_, Function.update_self _ _ _, rfl, rfl⟩
  · cases h

/-! ### Frames under way -/

/-- The events that will be read before any other frame. -/
def leadingEvents : List WatchFrame → List ChangeEvent
  | .event event :: wire => event :: leadingEvents wire
  | _ => []

/-- The first frame that is not an event. -/
def firstOther : List WatchFrame → Option WatchFrame
  | [] => none
  | .event _ :: wire => firstOther wire
  | frame :: _ => some frame

theorem leadingEvents_append (wire frames : List WatchFrame) :
    leadingEvents (wire ++ frames)
      = leadingEvents wire ++ if (firstOther wire).isNone then leadingEvents frames else [] := by
  induction wire with
  | nil => simp [leadingEvents, firstOther]
  | cons frame wire ih =>
    cases frame with
    | event event => simp [leadingEvents, firstOther, ih]
    | failure | ended => simp [leadingEvents, firstOther]

theorem firstOther_append (wire frames : List WatchFrame) :
    firstOther (wire ++ frames) = (firstOther wire).or (firstOther frames) := by
  induction wire with
  | nil => simp [firstOther]
  | cons frame wire ih =>
    cases frame with
    | event event => simp [firstOther, ih]
    | failure | ended => simp [firstOther]

theorem leadingEvents_take (wire : List WatchFrame) (n : Nat) :
    leadingEvents (wire.take n) <+: leadingEvents wire ∧
      ∀ frame, firstOther (wire.take n) = some frame →
        firstOther wire = some frame ∧ leadingEvents (wire.take n) = leadingEvents wire := by
  induction wire generalizing n with
  | nil => simp [leadingEvents, firstOther]
  | cons frame wire ih =>
    cases n with
    | zero => simp [leadingEvents, firstOther]
    | succ n =>
      cases frame with
      | event event =>
        simp only [List.take_succ_cons, leadingEvents, firstOther, List.cons.injEq, true_and]
        exact ⟨List.cons_prefix_cons.mpr ⟨rfl, (ih n).1⟩, (ih n).2⟩
      | failure | ended =>
        simp only [List.take_succ_cons, leadingEvents, firstOther]
        exact ⟨List.prefix_rfl, fun _ h => ⟨h, trivial⟩⟩

/-- The revision of the last of some events, or where the watch started. -/
def lastOf (after : Nat) (events : List ChangeEvent) : Nat :=
  (events.getLast?.map ChangeEvent.revision).getD after

theorem lastOf_concat (after : Nat) (events : List ChangeEvent) (event : ChangeEvent) :
    lastOf after (events ++ [event]) = event.revision := by
  simp [lastOf]

/-! ### What the client has seen -/

namespace WatchConnection

variable {σ : Type}

/-- What the client has and what it will read without an interruption. -/
def seen (c : WatchConnection σ) : List ChangeEvent :=
  c.client.delivered ++ c.client.held.toList ++ leadingEvents c.wire

/-- The client is reading, and has read or will read a beginning of what the handler took from the
subscription; all of it, as long as the connection works. -/
structure Reading (after : Nat) (received : List ChangeEvent) (c : WatchConnection σ) : Prop where
  seen : c.seen <+: received
  flowing : c.handler.returned = false → c.broken = false → firstOther c.wire = none →
    c.seen = received ∧ c.handler.lastWritten = lastOf after received
  ended : ∀ reason e, firstOther c.wire = some (.ended reason (some e)) →
    e.lastDeliveredRevision = some (lastOf after c.seen)

/-- The client keeps the revision of the last event it delivered, and reports it in the end. -/
structure Relays (after : Nat) (received : List ChangeEvent) (c : WatchConnection σ) : Prop where
  delivered : c.client.delivered <+: received
  last : c.client.last = lastOf after c.client.delivered
  reading : c.client.termination = none → Reading after received c
  termination : ∀ t, c.client.termination = some t →
    t.lastDeliveredRevision = lastOf after c.client.delivered

section

variable {received : List ChangeEvent} {c : WatchConnection σ}

theorem Relays.of_reading (hreading : Reading after received c)
    (hlast : c.client.last = lastOf after c.client.delivered)
    (hopen : c.client.termination = none) : Relays after received c where
  delivered := by
    have hseen := hreading.seen
    rw [WatchConnection.seen, List.append_assoc] at hseen
    exact (List.prefix_append _ _).trans hseen
  last := hlast
  reading := fun _ => hreading
  termination := by
    intro t ht
    rw [hopen] at ht
    cases ht

/-- The watch ends at the client. -/
theorem Relays.terminate (h : Relays after received c) {client : ClientWatch}
    {wire : List WatchFrame} {t : WatchTermination}
    (hdelivered : client.delivered = c.client.delivered) (hlast : client.last = c.client.last)
    (ht : client.termination = some t)
    (hrevision : t.lastDeliveredRevision = lastOf after c.client.delivered) :
    Relays after received { c with client, wire } where
  delivered := hdelivered ▸ h.delivered
  last := by
    rw [hlast, hdelivered]
    exact h.last
  reading := by
    intro hnone
    rw [ht] at hnone
    cases hnone
  termination := by
    intro t' ht'
    obtain rfl : t = t' := Option.some.inj (ht.symm.trans ht')
    rw [hrevision, hdelivered]

theorem seen_write (c : WatchConnection σ) (outcome : WriteOutcome) (frame : WatchFrame) :
    (c.write outcome frame).seen
      = c.seen ++ if c.broken = false ∧ firstOther c.wire = none then
          leadingEvents (outcome.frames frame)
        else [] := by
  unfold WatchConnection.seen write
  cases hbroken : c.broken with
  | true => simp
  | false =>
    simp only [Bool.false_eq_true, if_false, leadingEvents_append, true_and, ← List.append_assoc]
    cases firstOther c.wire <;> simp

theorem firstOther_write (c : WatchConnection σ) (outcome : WriteOutcome) (frame : WatchFrame) :
    firstOther (c.write outcome frame).wire
      = if c.broken then firstOther c.wire
        else (firstOther c.wire).or (firstOther (outcome.frames frame)) := by
  unfold write
  cases c.broken with
  | true => rfl
  | false => simp [firstOther_append]

/-- The end of a stream is written after everything that was taken. -/
theorem Reading.write_end (h : Reading after received c) (hactive : c.handler.returned = false)
    (outcome : WriteOutcome) {frame : WatchFrame} (hframe : leadingEvents [frame] = [])
    (hlast : ∀ reason e, frame = .ended reason (some e) →
      e.lastDeliveredRevision = some c.handler.lastWritten) :
    Reading after received
      ({ c with handler := { c.handler with returned := true } }.write outcome frame) := by
  have hnone : leadingEvents (outcome.frames frame) = [] := by
    unfold WriteOutcome.frames
    split
    · split
      · exact hframe
      · rfl
    · rfl
  have hseen : ({ c with handler := { c.handler with returned := true } }.write outcome frame).seen
      = c.seen := by
    rw [seen_write, hnone, ite_self, List.append_nil]
    rfl
  refine ⟨hseen ▸ h.seen, (fun hreturned => by cases hreturned), fun reason e hother => ?_⟩
  rw [hseen]
  rw [firstOther_write] at hother
  cases hbroken : c.broken with
  | true =>
    rw [if_pos hbroken] at hother
    exact h.ended reason e hother
  | false =>
    rw [if_neg (by simp [hbroken])] at hother
    cases hwire : firstOther c.wire with
    | some other =>
      simp only [hwire, Option.some_or] at hother
      exact h.ended reason e (hwire.trans hother)
    | none =>
      obtain ⟨hall, hwritten⟩ := h.flowing hactive hbroken hwire
      simp only [hwire, Option.none_or] at hother
      have heq : frame = .ended reason (some e) := by
        unfold WriteOutcome.frames at hother
        split at hother
        · split at hother
          · cases frame with
            | event | failure => cases hother
            | ended reason' error => simpa [firstOther] using hother
          · cases hother
        · cases hother
      rw [hlast reason e heq, hwritten, hall]

/-- An event is written, or something that stops the client before it. -/
theorem Reading.write_event (h : Reading after received c) (hactive : c.handler.returned = false)
    (outcome : WriteOutcome) (system : WatchSystem σ) (event : ChangeEvent) :
    Reading after (received ++ [event])
      ({ c with
        system
        handler := if outcome.succeeds then { c.handler with lastWritten := event.revision }
          else { c.handler with returned := true } }.write outcome (.event event)) := by
  have hframes : leadingEvents (outcome.frames (.event event)) <+: [event] ∧
      ∀ reason e, firstOther (outcome.frames (.event event)) ≠ some (.ended reason (some e)) := by
    unfold WriteOutcome.frames
    split
    · split
      · exact ⟨List.prefix_rfl, fun _ _ hother => by cases hother⟩
      · exact ⟨List.nil_prefix, fun _ _ hother => by cases hother⟩
    · exact ⟨List.nil_prefix, fun _ _ hother => by cases hother⟩
  refine ⟨?_, fun hreturned hbroken hother => ?_, fun reason e hother => ?_⟩
  · rw [seen_write]
    by_cases hflows : c.broken = false ∧ firstOther c.wire = none
    · rw [if_pos hflows, ← (h.flowing hactive hflows.1 hflows.2).1]
      exact (List.prefix_append_right_inj c.seen).mpr hframes.1
    · rw [if_neg hflows, List.append_nil]
      exact h.seen.trans (List.prefix_append _ _)
  · -- a flowing connection has taken the event in
    have hsucceeds : outcome.succeeds = true := by
      by_contra hfails
      simp [write, hfails] at hreturned
    have hwritten : outcome.written = true := by
      simp only [WriteOutcome.succeeds, Bool.and_eq_true] at hsucceeds
      exact hsucceeds.1
    have hbroken' : c.broken = false := hbroken
    rw [firstOther_write, if_neg (by simp [hbroken']), Option.or_eq_none_iff] at hother
    have hfits : outcome.fits = true := by
      by_contra hfits
      simp [WriteOutcome.frames, hwritten, hfits, firstOther] at hother
    obtain ⟨hall, -⟩ := h.flowing hactive hbroken' hother.1
    refine ⟨?_, ?_⟩
    · have hflows : c.broken = false ∧ firstOther c.wire = none := ⟨hbroken', hother.1⟩
      rw [seen_write, if_pos hflows]
      have hlead : leadingEvents (outcome.frames (.event event)) = [event] := by
        simp [WriteOutcome.frames, hwritten, hfits, leadingEvents]
      rw [hlead, ← hall]
      rfl
    · rw [lastOf_concat]
      simp [write, hsucceeds]
  · rw [firstOther_write] at hother
    have hbefore : firstOther c.wire = some (.ended reason (some e)) := by
      cases hbroken : c.broken with
      | true =>
        rw [if_pos hbroken] at hother
        exact hother
      | false =>
        rw [if_neg (by simp [hbroken])] at hother
        cases hwire : firstOther c.wire with
        | some other => simpa [hwire] using hother
        | none =>
          simp only [hwire, Option.none_or] at hother
          exact absurd hother (hframes.2 reason e)
    have hflows : ¬ (c.broken = false ∧ firstOther c.wire = none) := by simp [hbefore]
    rw [seen_write, if_neg hflows, List.append_nil]
    exact h.ended reason e hbefore

variable (h : Relays after received c)

include h

theorem Relays.of_system (system : WatchSystem σ) : Relays after received { c with system } :=
  ⟨h.delivered, h.last, fun hopen =>
    ⟨(h.reading hopen).seen, (h.reading hopen).flowing, (h.reading hopen).ended⟩, h.termination⟩

theorem Relays.write_end (hactive : c.handler.returned = false)
    (outcome : WriteOutcome) {frame : WatchFrame} (hframe : leadingEvents [frame] = [])
    (hlast : ∀ reason e, frame = .ended reason (some e) →
      e.lastDeliveredRevision = some c.handler.lastWritten) :
    Relays after received
      ({ c with handler := { c.handler with returned := true } }.write outcome frame) :=
  ⟨h.delivered, h.last, fun hopen => (h.reading hopen).write_end hactive outcome hframe hlast,
    h.termination⟩

theorem Relays.write_event (hactive : c.handler.returned = false)
    (outcome : WriteOutcome) (system : WatchSystem σ) (event : ChangeEvent) :
    Relays after (received ++ [event])
      ({ c with
        system
        handler := if outcome.succeeds then { c.handler with lastWritten := event.revision }
          else { c.handler with returned := true } }.write outcome (.event event)) :=
  ⟨h.delivered.trans (List.prefix_append _ _), h.last,
    fun hopen => (h.reading hopen).write_event hactive outcome system event, h.termination⟩

/-- The next frame is read. -/
theorem Relays.receive (hopen : c.client.termination = none)
    (hheld : c.client.held = none) {frame : WatchFrame} {wire : List WatchFrame}
    (hwire : c.wire = frame :: wire) :
    Relays after received { c with wire, client := c.client.receive frame } := by
  have hreading := h.reading hopen
  cases frame with
  | event event =>
    have hseen : { c with wire, client := c.client.receive (.event event) }.seen = c.seen := by
      simp [WatchConnection.seen, ClientWatch.receive, hwire, hheld, leadingEvents]
    have hother : firstOther c.wire = firstOther wire := by rw [hwire, firstOther]
    refine .of_reading ⟨hseen ▸ hreading.seen, ?_, ?_⟩ h.last hopen
    · rw [hseen]
      exact fun h₁ h₂ h₃ => hreading.flowing h₁ h₂ (hother.trans h₃)
    · rw [hseen]
      exact fun reason e he => hreading.ended reason e (hother.trans he)
  | failure =>
    simp only [ClientWatch.receive]
    split <;> exact h.terminate rfl rfl rfl h.last
  | ended reason error =>
    refine h.terminate rfl rfl rfl ?_
    cases error with
    | none => exact h.last
    | some e =>
      have hlast := hreading.ended reason e (by rw [hwire]; rfl)
      have hseen : c.seen = c.client.delivered := by
        simp [WatchConnection.seen, hwire, hheld, leadingEvents]
      simp [hlast, hseen]

/-- The consumer takes the event that was read. -/
theorem Relays.deliver (hopen : c.client.termination = none) (hheld : c.client.held = some event) :
    Relays after received { c with client := c.client.deliver event } := by
  have hreading := h.reading hopen
  have hseen : { c with client := c.client.deliver event }.seen = c.seen := by
    simp [WatchConnection.seen, ClientWatch.deliver, hheld]
  refine .of_reading ⟨hseen ▸ hreading.seen, ?_, ?_⟩ (lastOf_concat _ _ _).symm hopen
  · rw [hseen]
    exact hreading.flowing
  · rw [hseen]
    exact hreading.ended

/-- What is lost was under way. -/
theorem Relays.lose (n : Nat) :
    Relays after received { c with wire := c.wire.take n, broken := true } := by
  refine ⟨h.delivered, h.last, fun hopen => ?_, h.termination⟩
  have hreading := h.reading hopen
  obtain ⟨hlead, hother⟩ := leadingEvents_take c.wire n
  refine ⟨?_, (fun _ hbroken => by cases hbroken), fun reason e he => ?_⟩
  · exact ((List.prefix_append_right_inj _).mpr hlead).trans hreading.seen
  · obtain ⟨hfirst, heq⟩ := hother _ he
    have hseen : { c with wire := c.wire.take n, broken := true }.seen = c.seen := by
      simp [WatchConnection.seen, heq]
    rw [hseen]
    exact hreading.ended reason e hfirst

end

/-! ### Runs -/

/-- The connection relays the events of a watch that streams what was committed. -/
structure Connected (base after : Nat) (c : WatchConnection σ) : Prop where
  sound : c.system.Sound base
  bounded : c.system.Bounded
  relays : ∃ p, c.system.pumps c.id = some p ∧ p.after = after ∧ Relays after p.received c

theorem offered_of_sending {c : WatchConnection σ} (hp : c.system.pumps c.id = some p)
    {group : EventGroup} {unsent : List ChangeEvent}
    {rest : Option (List EventGroup)} (hphase : p.phase = .sending group (event :: unsent) rest) :
    c.offered = some event := by
  simp [offered, hp, hphase]

theorem sending_of_offered {c : WatchConnection σ} (hp : c.system.pumps c.id = some p)
    (h : c.offered = some event) :
    ∃ group unsent rest, p.phase = .sending group (event :: unsent) rest := by
  unfold offered at h
  rw [hp, Option.map_some] at h
  split at h
  · next group _ unsent rest hphase =>
    cases h
    exact ⟨group, unsent, rest, Option.some.inj hphase⟩
  · cases h

/-- A step of the engine in which this watch sends nothing. -/
theorem Connected.engine {base : Nat} {c : WatchConnection σ} (h : Connected base after c)
    {action : WatchAction σ} (hquiet : action = .pump c.id .proceed → c.offered = none)
    {system : WatchSystem σ} (hstep : c.system.step action = some system) :
    Connected base after { c with system } := by
  obtain ⟨hsound, hbounded, p, hp, hafter, hrelays⟩ := h
  obtain ⟨p', hp', hafter', hreceived⟩ := WatchSystem.step_received hstep hp
  refine ⟨hsound.step hstep, hbounded.step hstep, p', hp', hafter'.trans hafter, ?_⟩
  rcases hreceived with hreceived | ⟨haction, group, event, unsent, rest, hphase, -⟩
  · rw [hreceived]
    exact hrelays.of_system system
  · have hoffered := hquiet haction
    rw [offered_of_sending hp hphase] at hoffered
    cases hoffered

theorem Connected.step {base : Nat} {c c' : WatchConnection σ} (h : Connected base after c)
    {action : ConnectionAction σ} (hstep : c.step action = some c') :
    Connected base after c' ∧ c'.id = c.id ∧
      c'.client.delivered.length = c.client.delivered.length + action.deliveries := by
  have hclient : ∀ {client : ClientWatch} {wire : List WatchFrame} {broken : Bool},
      (∀ p, c.system.pumps c.id = some p → Relays after p.received c →
        Relays after p.received { c with client, wire, broken }) →
      Connected base after { c with client, wire, broken } := by
    intro client wire broken hrelays
    obtain ⟨hsound, hbounded, p, hp, hafter, hp'⟩ := h
    exact ⟨hsound, hbounded, p, hp, hafter, hrelays p hp hp'⟩
  cases action with
  | engine action =>
    simp only [WatchConnection.step] at hstep
    split at hstep
    · next id event hoffered =>
      split at hstep
      · cases hstep
      · next hid =>
        obtain ⟨system, hsystem, rfl, rfl⟩ := Option.map_eq_some_iff.mp hstep
        refine ⟨h.engine (fun haction => ?_) hsystem, rfl, rfl⟩
        rw [WatchAction.pump.injEq] at haction
        exact absurd haction.1 hid
    · next hguard =>
      obtain ⟨system, hsystem, rfl, rfl⟩ := Option.map_eq_some_iff.mp hstep
      refine ⟨h.engine (fun haction => ?_) hsystem, rfl, rfl⟩
      cases hoffered : c.offered with
      | none => rfl
      | some event => exact absurd hoffered (hguard c.id event haction)
  | event outcome =>
    simp only [WatchConnection.step] at hstep
    split at hstep
    · cases hstep
    next hactive =>
    split at hstep
    · next event system hoffered hsystem =>
      cases hstep
      obtain ⟨hsound, hbounded, p, hp, hafter, hrelays⟩ := h
      obtain ⟨group, unsent, rest, hphase⟩ := sending_of_offered hp hoffered
      obtain ⟨p', hp', hafter', hsent⟩ := WatchSystem.step_send hsystem hp hphase
      refine ⟨⟨hsound.step hsystem, hbounded.step hsystem, p', hp', hafter'.trans hafter, ?_⟩,
        rfl, rfl⟩
      rw [hsent]
      exact hrelays.write_event (by simpa using hactive) outcome system event
    · cases hstep
  | ended outcome =>
    simp only [WatchConnection.step] at hstep
    split at hstep
    · cases hstep
    next hactive =>
    obtain ⟨t, ht, rfl⟩ := Option.map_eq_some_iff.mp hstep
    obtain ⟨hsound, hbounded, p, hp, hafter, hrelays⟩ := h
    refine ⟨⟨hsound, hbounded, p, hp, hafter, hrelays.write_end (by simpa using hactive) outcome
      ?_ ?_⟩, rfl, rfl⟩
    · unfold WatchHandler.endFrame
      split <;> rfl
    · intro reason e heq
      unfold WatchHandler.endFrame at heq
      split at heq
      · cases heq
        rfl
      · cases heq
  | shutdown outcome =>
    simp only [WatchConnection.step] at hstep
    split at hstep
    · cases hstep
    next hactive =>
    cases hstep
    obtain ⟨hsound, hbounded, p, hp, hafter, hrelays⟩ := h
    exact ⟨⟨hsound, hbounded, p, hp, hafter, hrelays.write_end (by simpa using hactive) outcome rfl
      (fun reason e heq => by cases heq)⟩, rfl, rfl⟩
  | lose n =>
    cases hstep
    exact ⟨hclient fun p _ hrelays => hrelays.lose n, rfl, rfl⟩
  | receive =>
    simp only [WatchConnection.step] at hstep
    split at hstep
    · cases hstep
    next hidle =>
    simp only [Option.isSome_iff_ne_none, ne_eq, not_or, not_not] at hidle
    split at hstep
    · cases hstep
    · next frame wire hwire =>
      cases hstep
      refine ⟨hclient fun p _ hrelays => hrelays.receive hidle.1 hidle.2 hwire, rfl, ?_⟩
      exact congrArg List.length (c.client.receive_delivered frame)
  | readFails =>
    simp only [WatchConnection.step] at hstep
    split at hstep
    · cases hstep
    cases hstep
    refine ⟨hclient fun p _ hrelays => ?_, rfl, ?_⟩
    · simp only [ClientWatch.readFails]
      split <;> exact hrelays.terminate rfl rfl rfl hrelays.last
    · simp only [ClientWatch.readFails]
      split <;> rfl
  | deliver =>
    simp only [WatchConnection.step] at hstep
    split at hstep
    · cases hstep
    next hopen =>
    obtain ⟨event, hheld, rfl⟩ := Option.map_eq_some_iff.mp hstep
    exact ⟨hclient fun p _ hrelays => hrelays.deliver (by simpa using hopen) hheld, rfl,
      List.length_append⟩
  | cancel =>
    cases hstep
    refine ⟨hclient fun p _ hrelays => ?_, rfl, rfl⟩
    exact ⟨hrelays.delivered, hrelays.last, fun hopen => ⟨(hrelays.reading hopen).seen,
      (hrelays.reading hopen).flowing, (hrelays.reading hopen).ended⟩, hrelays.termination⟩
  | abandon =>
    simp only [WatchConnection.step] at hstep
    split at hstep
    · cases hstep
      exact ⟨hclient fun p _ hrelays => hrelays.terminate rfl rfl rfl hrelays.last, rfl, rfl⟩
    · cases hstep

theorem Connected.run {base : Nat} {c : WatchConnection σ} (h : Connected base after c)
    (actions : List (ConnectionAction σ)) :
    Connected base after (c.run actions) ∧ (c.run actions).id = c.id ∧
      (c.run actions).client.delivered.length
        = c.client.delivered.length + c.deliveries actions := by
  induction actions generalizing c with
  | nil => exact ⟨h, rfl, rfl⟩
  | cons action actions ih =>
    rw [WatchConnection.run, List.foldl_cons, deliveries]
    cases hstep : c.step action with
    | none =>
      rw [Option.isSome_none, if_neg (by decide), Nat.zero_add]
      exact ih h
    | some c' =>
      obtain ⟨hc', hid, hcount⟩ := h.step hstep
      obtain ⟨hrun, hid', hcount'⟩ := ih hc'
      refine ⟨hrun, hid'.trans hid, hcount'.trans ?_⟩
      rw [hcount, Option.isSome_some, if_pos rfl, Nat.add_assoc, Option.getD_some]

/-! ### Resuming a watch -/

/-- The place after `n` events lies between two events of one commit. -/
def CutsCommit (n : Nat) (events : List ChangeEvent) : Prop :=
  ∃ last ∈ (events.take n).getLast?, ∃ next ∈ (events.drop n).head?,
    last.revision = next.revision

/-- Ordered events up to a place that is not inside a commit, and the others. -/
theorem later_of_not_cutsCommit {delivered tail : List ChangeEvent}
    (hordered : (delivered ++ tail).Pairwise Before)
    (hafter : ∀ event ∈ delivered ++ tail, after < event.revision)
    (hcut : ¬ CutsCommit delivered.length (delivered ++ tail)) :
    after ≤ lastOf after delivered ∧
      (∀ event ∈ delivered, event.revision ≤ lastOf after delivered) ∧
      ∀ event ∈ tail, lastOf after delivered < event.revision := by
  rw [CutsCommit, List.take_left, List.drop_left] at hcut
  rw [List.pairwise_append] at hordered
  obtain ⟨hdelivered, htail, hbetween⟩ := hordered
  rcases List.eq_nil_or_concat' delivered with rfl | ⟨init, last, rfl⟩
  · exact ⟨le_rfl, by simp, fun event hevent => hafter event (by simpa using hevent)⟩
  · rw [lastOf_concat]
    refine ⟨(hafter last (by simp)).le, fun event hevent => ?_, fun event hevent => ?_⟩
    · rcases List.mem_append.mp hevent with hevent | hevent
      · exact ((List.pairwise_append.mp hdelivered).2.2 event hevent last (by simp)).revision_le
      · rw [List.mem_singleton.mp hevent]
    · cases tail with
      | nil => cases hevent
      | cons next tail =>
        -- the next event belongs to a later commit, and so do those after it
        have hnext : last.revision < next.revision :=
          (hbetween last (by simp) next (by simp)).revision_le.lt_of_ne fun heq =>
            hcut ⟨last, by simp, next, rfl, heq⟩
        rcases List.mem_cons.mp hevent with rfl | hevent
        · exact hnext
        · exact hnext.trans_le ((List.pairwise_cons.mp htail).1 event hevent).revision_le

theorem committedEvents_of_le {start : Bytes} {last : Nat} (h : after ≤ last)
    (commits : List CommitFrame) :
    committedEvents start last commits
      = (committedEvents start after commits).filter fun event => last < event.revision := by
  rw [committedEvents, committedEvents, List.filter_filter]
  refine List.filter_congr fun event _ => ?_
  by_cases hlast : last < event.revision
  · simp [hlast, h.trans_lt hlast]
  · simp [hlast]

/-- A client can resume a watch from the revision it was told exactly when the consumer has not
stopped between two events of one commit: then every matching event up to that revision was
delivered, and what was delivered followed by everything committed later is everything committed
after the start. -/
theorem resume_loses_nothing {config : Config} {s : DatabaseState}
    (hopen : newState config = .ok s)
    (hrecovered : ∀ c ∈ config.recoveredCommits, c.effects.length ≤ 2 ^ 32) (world : σ)
    (before : List (WatchAction σ)) {id : Nat} {p : Pump}
    (hp : ((WatchSystem.opened s config world).run before).pumps id = some p)
    (hfresh : p.received = []) (actions : List (ConnectionAction σ)) {c₀ c : WatchConnection σ}
    (hstart : c₀ = start ((WatchSystem.opened s config world).run before) id p.after)
    (hrun : c = c₀.run actions) {x : WatcherState}
    (hx : c.system.engine.watchers.find id = some x) {t : WatchTermination}
    (hended : c.client.termination = some t) :
    let events := committedEvents x.start p.after c.system.commits
    ((∀ event ∈ events, event.revision ≤ t.lastDeliveredRevision → event ∈ c.client.delivered) ↔
      ¬ CutsCommit (c₀.deliveries actions) events) ∧
    (¬ CutsCommit (c₀.deliveries actions) events →
      c.client.delivered ++ committedEvents x.start t.lastDeliveredRevision c.system.commits
        = events) := by
  intro events
  have hbounded : (WatchSystem.opened s config world).Bounded :=
    ⟨(opened_of_newState hopen).limitsValid, hrecovered⟩
  have hconnected : Connected config.snapshotRevision p.after c₀ := by
    subst hstart
    refine ⟨(WatchSystem.sound_opened hopen world).run before, hbounded.run before, p, hp, rfl, ?_⟩
    rw [hfresh]
    exact .of_reading ⟨List.prefix_rfl, fun _ _ _ => ⟨rfl, rfl⟩, fun _ _ hother => by cases hother⟩
      rfl rfl
  obtain ⟨⟨hsound, hbounded, q, hq, hafter, hrelays⟩, hid, hcount⟩ := hconnected.run actions
  rw [← hrun] at hsound hbounded hq hrelays hid hcount
  rw [hstart] at hid
  have hid : c.id = id := hid
  have hcount : c₀.deliveries actions = c.client.delivered.length := by
    rw [hcount, hstart]
    exact (Nat.zero_add _).symm
  rw [hid] at hq
  obtain ⟨tail, htail⟩ := hrelays.delivered.trans (hsound.received_isPrefix hx hq)
  rw [hafter] at htail
  have hordered : (c.client.delivered ++ tail).Pairwise Before := htail ▸
    committedEvents_before (List.pairwise_cons.mp hsound.increasing).2 hbounded.effects
  rw [hrelays.termination t hended, hcount, show events = _ from htail.symm]
  have hlater := later_of_not_cutsCommit hordered fun event hevent => by
    rw [htail] at hevent
    exact of_decide_eq_true (Bool.and_eq_true _ _ ▸ (List.mem_filter.mp hevent).2).1
  refine ⟨⟨fun hall hcut => ?_, fun hcut event hevent hrevision => ?_⟩, fun hcut => ?_⟩
  · -- the next event has the revision that the client was told
    rw [CutsCommit, List.take_left, List.drop_left] at hcut
    obtain ⟨last, hlast, next, hnext, heq⟩ := hcut
    have hmem : next ∈ tail := List.mem_of_mem_head? hnext
    have hdelivered := hall next (List.mem_append_right _ hmem)
      (by rw [lastOf, hlast, Option.map_some, Option.getD_some, heq])
    exact ((List.pairwise_append.mp hordered).2.2 next hdelivered next hmem).ne rfl
  · rcases List.mem_append.mp hevent with hevent | hevent
    · exact hevent
    · exact absurd ((hlater hcut).2.2 event hevent) (by omega)
  · obtain ⟨hle, hdelivered, hlater⟩ := hlater hcut
    rw [committedEvents_of_le hle, ← htail, List.filter_append,
      List.filter_eq_nil_iff.mpr (by simpa using hdelivered),
      List.filter_eq_self.mpr (by simpa using hlater), List.nil_append]

/-- A watch of everything in a new database. -/
def sampleRegistration : List (WatchAction Unit) := [.request (.command (.register 0 [] 0))]

/-- The connection of that watch. -/
def sampleConnection : WatchConnection Unit :=
  start ((WatchSystem.opened sampleEngine (newDatabase sampleID defaultLimits) ()).run
    sampleRegistration) 1 0

/-- A batch of two puts is committed and its first event written. -/
def sampleFirst : List (ConnectionAction Unit) :=
  [.engine (.request (.command samplePut)), .engine (.pump 1 .proceed), .engine (.pump 1 .proceed),
    .engine (.pump 1 .proceed), .event {}, .receive, .deliver]

/-- The first event reaches the consumer, and the client closes. -/
def cancelledAfterOne : List (ConnectionAction Unit) := sampleFirst ++ [.cancel, .readFails]

/-- The second event of the batch is not delivered, although its revision is the one that the
client was told: a watch after that revision never sees it. -/
theorem resume_loses_second_event :
    newState (newDatabase sampleID defaultLimits) = .ok sampleEngine ∧
    (sampleConnection.run cancelledAfterOne).client
      = ⟨1, none, true, [⟨1, 0, .put, [97], some ⟨[97], [1], 1, none⟩⟩], some ⟨.client, 1, none⟩⟩ ∧
    committedEvents [] 0 (sampleConnection.run cancelledAfterOne).system.commits
      = [⟨1, 0, .put, [97], some ⟨[97], [1], 1, none⟩⟩,
          ⟨1, 1, .put, [98], some ⟨[98], [2], 1, some 1000⟩⟩] ∧
    committedEvents [] 1 (sampleConnection.run cancelledAfterOne).system.commits = [] := by
  refine ⟨rfl, ?_, ?_, ?_⟩
  · decide +kernel
  · decide +kernel
  · decide +kernel

/-- Both events reach the consumer, the client closes, and another batch is committed. -/
def cancelledAfterBoth : List (ConnectionAction Unit) :=
  sampleFirst ++ [.event {}, .receive, .deliver, .cancel, .readFails,
    .engine (.request (.command sampleChange))]

theorem cancelledAfterBoth_goes :
    ((sampleConnection.run cancelledAfterBoth).system.engine.watchers.find 1).map (·.start)
        = some [] ∧
      (sampleConnection.run cancelledAfterBoth).client.termination = some ⟨.client, 1, none⟩ ∧
      sampleConnection.deliveries cancelledAfterBoth = 2 ∧
      (committedEvents [] 0 (sampleConnection.run cancelledAfterBoth).system.commits).map
        ChangeEvent.revision = [1, 1, 2, 2] := by
  decide +kernel

theorem resume_loses_nothing_cancelledAfterBoth :
    (sampleConnection.run cancelledAfterBoth).client.termination = some ⟨.client, 1, none⟩ ∧
      (committedEvents [] 0 (sampleConnection.run cancelledAfterBoth).system.commits).map
        ChangeEvent.revision = [1, 1, 2, 2] ∧
      (sampleConnection.run cancelledAfterBoth).client.delivered
          ++ committedEvents [] 1 (sampleConnection.run cancelledAfterBoth).system.commits
        = committedEvents [] 0 (sampleConnection.run cancelledAfterBoth).system.commits := by
  have hp : ((WatchSystem.opened sampleEngine (newDatabase sampleID defaultLimits)
      ()).run sampleRegistration).pumps 1 = some ⟨0, .backlog [], false, [], none⟩ := by
    decide +kernel
  obtain ⟨hfound, hended, hcount, hevents⟩ := cancelledAfterBoth_goes
  obtain ⟨x, hx, hempty⟩ := Option.map_eq_some_iff.mp hfound
  have hresume := (resume_loses_nothing sampleEngine_opens
    (fun c hc => absurd hc List.not_mem_nil) () sampleRegistration hp rfl cancelledAfterBoth
    (rfl : sampleConnection = _) rfl hx hended).2
  rw [hempty, hcount] at hresume
  refine ⟨hended, hevents, hresume ?_⟩
  rintro ⟨last, hlast, next, hnext, heq⟩
  -- the second event has the revision 1 and the third one the revision 2
  have hlast' : (([1, 1, 2, 2] : List Nat).take 2).getLast? = some last.revision := by
    rw [← hevents, ← List.map_take, List.getLast?_map, hlast, Option.map_some]
  have hnext' : (([1, 1, 2, 2] : List Nat).drop 2).head? = some next.revision := by
    rw [← hevents, ← List.map_drop, List.head?_map, hnext, Option.map_some]
  rw [← heq, ← hlast'] at hnext'
  exact absurd hnext' (by decide)

end WatchConnection

end GapDB
