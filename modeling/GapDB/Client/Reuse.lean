import Mathlib.Data.List.Nodup
import Mathlib.Logic.Function.Basic

/-!
# A reused connection

`reusableUnary` and `readResponse` of `gapdb/client.go`. Any number of calls share one client; each
takes the gate, uses the connection that is there or dials one, writes its request and reads one
frame. Contexts end, connections break and the client is closed at any point between the steps.

The server answers the requests of a connection in their order, or refuses the connection with one
busy frame and closes it. If it cannot read the next request, as when the connection was idle for
too long, it sends one failure and closes. It may put any id and operation into a frame: that a call
only returns the answer to its own request follows from which connections are used again, not from
the ids.
-/

namespace GapDB

abbrev Call := Nat

abbrev ConnectionID := Nat

/-! ### Requests and frames -/

/-- What a call sends. Ids come from the callers and need not differ. -/
structure CallSpec where
  operation : String
  requestID : String
  /-- The request has a JSON encoding. -/
  encodable : Bool := true
  payloadBytes : Nat

/-- A frame as the client reads it. -/
structure ReplyFrame where
  /-- The request that the server answers with it; none for a frame that ends the connection. -/
  answers : Option Call
  /-- The checks of `validateClientResponse` and the decoding succeed. -/
  wellFormed : Bool := true
  schemaVersion : Option Nat := some 1
  ok : Option Bool
  databaseID : String
  operation : String
  requestID : String
  stream : String := ""
  /-- The code of the error, and whether `validateRemoteError` accepts it. -/
  error : Option (String × Bool) := none
  content : List Nat := []
deriving DecidableEq

/-- What a call returns; a transport error is the kind that discards the connection. -/
inductive CallResult where
  | success (reply : ReplyFrame)
  | remoteError (code : String)
  | frameTooLarge
  | unencodable
  | transport
deriving DecidableEq

def clientSchemaVersion : Nat := 1

/-- `readResponse` after the frame has been read. -/
def judge (spec : CallSpec) (reply : ReplyFrame) : CallResult :=
  let preAdmissionBusy := reply.error.map Prod.fst = some "SERVER_BUSY"
  if ¬ reply.wellFormed then .transport
  else if reply.schemaVersion ≠ some clientSchemaVersion ∨ reply.ok = none ∨
      reply.databaseID = "" ∨
      ¬ preAdmissionBusy ∧ (reply.operation ≠ spec.operation ∨ reply.requestID ≠ spec.requestID)
    then .transport
  else if reply.ok = some false then
    match reply.error with
    | none => .transport
    | some (code, valid) =>
      if ¬ valid then .transport
      else if spec.operation = "watch" ∧ reply.stream = "ended" then .success reply
      else .remoteError code
  else .success reply

/-! ### The client and its connections -/

/-- A connection as both ends know it. -/
structure Link where
  /-- The server serves it; otherwise it sends one busy frame and closes. -/
  admitted : Bool
  /-- The client has not closed it, and it has not failed. -/
  usable : Bool := true
  /-- The calls whose requests were written to it. -/
  sent : List Call := []
  /-- The frames that were read from it. -/
  consumed : Nat := 0
  /-- One of them ended the connection. -/
  ended : Bool := false

/-- A frame is taken from the connection. -/
def Link.take (link : Link) (reply : ReplyFrame) : Link :=
  { link with consumed := link.consumed + 1, ended := reply.answers.isNone }

inductive CallPhase where
  | start
  | holding
  | dialing
  | connected (connection : ConnectionID)
  | awaiting (connection : ConnectionID)
  | finished (result : CallResult)
deriving DecidableEq

structure ClientState where
  gate : Option Call := none
  closed : Bool := false
  unaryConn : Option ConnectionID := none
  connections : Nat := 0
  link : ConnectionID → Link := fun _ => { admitted := false, usable := false }
  phase : Call → CallPhase := fun _ => .start
  /-- The calls that wrote a request, or a part of one, the latest first. -/
  attempts : List Call := []
  /-- Which frame each call was given, the latest first. -/
  heard : List (Call × ConnectionID × ReplyFrame) := []
  /-- The connections on which an exchange failed. -/
  broken : List ConnectionID := []

inductive ClientEvent where
  /-- The gate is free and the call takes it. -/
  | enter (call : Call)
  /-- The context ends while the call waits at the gate. -/
  | abandon (call : Call)
  /-- The context had ended when the call got the gate. -/
  | expired (call : Call)
  /-- Reads whether the client is closed, and the connection to use. -/
  | look (call : Call)
  /-- The outcome of dialing: a failure, or a connection that the server admits or not. -/
  | dialed (call : Call) (outcome : Option Bool)
  | write (call : Call) (works : Bool)
  /-- The frame that is read, or none for a timeout, an end or a bad length. -/
  | read (call : Call) (frame : Option ReplyFrame)
  | close
  /-- A connection breaks, or `Close` reaches it. -/
  | sever (connection : ConnectionID)

section

variable (specs : Call → CallSpec) (maxFrameBytes : Nat)

namespace ClientState

def setPhase (s : ClientState) (call : Call) (phase : CallPhase) : ClientState :=
  { s with phase := Function.update s.phase call phase }

/-- The call returns and the gate is free. -/
def finish (s : ClientState) (call : Call) (result : CallResult) : ClientState :=
  { s.setPhase call (.finished result) with gate := none }

def setLink (s : ClientState) (k : ConnectionID) (link : Link) : ClientState :=
  { s with link := Function.update s.link k link }

/-- `discardUnaryConnection`. -/
def discard (s : ClientState) (k : ConnectionID) : ClientState :=
  { s.setLink k { s.link k with usable := false } with
    unaryConn := if s.unaryConn = some k then none else s.unaryConn
    broken := k :: s.broken }

/-- The frame is what the server sends next on the connection: its answer to the oldest request
without one or the report that it could not read another one, or the busy frame of a connection that
was not admitted. -/
def delivers (link : Link) (frame : ReplyFrame) : Bool :=
  link.usable ∧ ¬ link.ended ∧
    if link.admitted then
      (link.sent.drop link.consumed).head?.isSome ∧
          frame.answers = (link.sent.drop link.consumed).head? ∨
        frame.answers = none ∧ frame.ok = some false ∧ frame.stream = ""
    else
      frame.answers = none ∧ frame.ok = some false ∧
        frame.error.map Prod.fst = some "SERVER_BUSY" ∧ frame.stream = ""

def writeStep (s : ClientState) (call : Call) (k : ConnectionID) (works : Bool) : ClientState :=
  if ¬ (specs call).encodable then (s.discard k).finish call .unencodable
  else if maxFrameBytes < (specs call).payloadBytes then (s.discard k).finish call .frameTooLarge
  else
    let s := { s with attempts := call :: s.attempts }
    if works ∧ (s.link k).usable then
      (s.setLink k { s.link k with sent := (s.link k).sent ++ [call] }).setPhase call (.awaiting k)
    else (s.discard k).finish call .transport

def readStep (s : ClientState) (call : Call) (k : ConnectionID) (frame : Option ReplyFrame) :
    ClientState :=
  match frame.filter (delivers (s.link k)) with
  | none => (s.discard k).finish call .transport
  | some reply =>
    let s := { s.setLink k ((s.link k).take reply) with heard := (call, k, reply) :: s.heard }
    let result := judge (specs call) reply
    if result = .transport then (s.discard k).finish call result else s.finish call result

def step (s : ClientState) : ClientEvent → ClientState
  | .enter call =>
    if s.phase call = .start ∧ s.gate = none then
      { s.setPhase call .holding with gate := some call }
    else s
  | .abandon call =>
    if s.phase call = .start then s.setPhase call (.finished .transport) else s
  | .expired call =>
    if s.phase call = .holding then s.finish call .transport else s
  | .look call =>
    if s.phase call = .holding then
      if s.closed then s.finish call .transport
      else
        match s.unaryConn with
        | some k => s.setPhase call (.connected k)
        | none => s.setPhase call .dialing
    else s
  | .dialed call outcome =>
    if s.phase call = .dialing then
      match outcome with
      | none => s.finish call .transport
      | some admitted =>
        let k := s.connections
        let s := { s.setLink k { admitted } with connections := k + 1 }
        if s.closed then (s.setLink k { admitted, usable := false }).finish call .transport
        else { s.setPhase call (.connected k) with unaryConn := some k }
    else s
  | .write call works =>
    match s.phase call with
    | .connected k => s.writeStep specs maxFrameBytes call k works
    | _ => s
  | .read call frame =>
    match s.phase call with
    | .awaiting k => s.readStep specs call k frame
    | _ => s
  | .close => if s.closed then s else { s with closed := true, unaryConn := none }
  | .sever k => s.setLink k { s.link k with usable := false }

def run (s : ClientState) (events : List ClientEvent) : ClientState :=
  events.foldl (step specs maxFrameBytes) s

end ClientState

end

/-! ### The invariant -/

def CallPhase.inside : CallPhase → Bool
  | .holding | .dialing | .connected _ | .awaiting _ => true
  | _ => false

/-- Every request on the connection has been answered, as far as it can be. -/
def Link.Settled (link : Link) : Prop := link.admitted → link.consumed = link.sent.length

/-- The request of this call is the one that has no answer yet. -/
def Link.Awaits (link : Link) (call : Call) : Prop :=
  link.admitted → ∃ before, link.sent = before ++ [call] ∧ link.consumed = before.length

namespace ClientState

/-- What holds of a call that is not behind the gate. -/
structure Outside (attempts : List Call) (c : Call) (phase : CallPhase) : Prop where
  outside : phase.inside = false
  success : ∀ reply, phase = .finished (.success reply) → reply.answers = some c
  attempted : c ∈ attempts → ∃ r, phase = .finished r

/-- What the call behind the gate relies on: a connection on which it may write is settled, and if
it waits for an answer, it was the last that wrote. -/
def Stands (s : ClientState) (c : Call) : CallPhase → Prop
  | .holding | .dialing => c ∉ s.attempts
  | .connected k => c ∉ s.attempts ∧ k < s.connections ∧ (s.link k).Settled
  | .awaiting k => k < s.connections ∧ (s.link k).Awaits c
  | .start | .finished _ => False

/-- One call at a time is behind the gate, and what the calls were given so far was theirs. -/
structure Steady (s : ClientState) : Prop where
  others : ∀ c, s.gate ≠ some c → Outside s.attempts c (s.phase c)
  fresh : ∀ k, s.unaryConn = some k → k < s.connections
  heard : ∀ c k reply, (c, k, reply) ∈ s.heard →
    reply.answers = some c ∨ reply.answers = none ∧ reply.ok = some false
  attempts : s.attempts.Nodup
  broken : ∀ k ∈ s.broken, k < s.connections ∧ (s.link k).usable = false

/-- A connection that may be used again is settled, unless the call behind the gate waits for an
answer on it. -/
structure Orderly (s : ClientState) : Prop extends Steady s where
  holder : ∀ c, s.gate = some c → s.Stands c (s.phase c)
  settled : ∀ k, s.unaryConn = some k → (∀ c, s.gate = some c → s.phase c ≠ .awaiting k) →
    (s.link k).Settled

variable {specs : Call → CallSpec} {maxFrameBytes : Nat} {s : ClientState} {c : Call}
  {k : ConnectionID}

/-- Only the call behind the gate is inside. -/
theorem Steady.gate_eq (h : s.Steady) (hin : (s.phase c).inside = true) : s.gate = some c := by
  by_contra hne
  rw [(h.others c hne).outside] at hin
  cases hin

theorem Orderly.settled_of_ne (h : s.Orderly) (hgate : s.gate = some c)
    (hconn : s.unaryConn = some k) (hne : s.phase c ≠ .awaiting k) : (s.link k).Settled := by
  refine h.settled k hconn fun d hd => ?_
  obtain rfl : c = d := Option.some.inj (hgate.symm.trans hd)
  exact hne

theorem Orderly.success (h : s.Orderly) {reply : ReplyFrame}
    (hphase : s.phase c = .finished (.success reply)) : reply.answers = some c := by
  refine (h.others c fun hgate => ?_).success reply hphase
  have hstands := h.holder c hgate
  rw [hphase] at hstands
  exact hstands

/-! ### Steps of the call behind the gate -/

section

variable (h : s.Steady) (hgate : s.gate = some c)

include h hgate

/-- It goes on to another phase. -/
theorem Steady.hold {phase : CallPhase} (hstands : s.Stands c phase)
    (hsettled : ∀ k, s.unaryConn = some k → phase ≠ .awaiting k → (s.link k).Settled) :
    (s.setPhase c phase).Orderly := by
  have hself : (s.setPhase c phase).phase c = phase := Function.update_self _ _ _
  refine ⟨⟨fun d hd => ?_, h.fresh, h.heard, h.attempts, h.broken⟩, fun d hd => ?_,
    fun k hk hnone => hsettled k hk (hself ▸ hnone c hgate)⟩
  · have hne : d ≠ c := by
      rintro rfl
      exact hd hgate
    rw [show (s.setPhase c phase).phase d = s.phase d from Function.update_of_ne hne _ _]
    exact h.others d hd
  · obtain rfl : c = d := Option.some.inj (hgate.symm.trans hd)
    rw [hself]
    exact hstands

/-- It returns, and leaves no request without an answer behind. -/
theorem Steady.finish (hsettled : ∀ k, s.unaryConn = some k → (s.link k).Settled)
    {result : CallResult} (hresult : ∀ reply, result = .success reply → reply.answers = some c) :
    (s.finish c result).Orderly := by
  refine ⟨⟨fun d _ => ?_, h.fresh, h.heard, h.attempts, h.broken⟩, fun d hd => (by cases hd),
    fun k hk _ => hsettled k hk⟩
  by_cases heq : d = c
  · subst heq
    have hself : (s.finish d result).phase d = .finished result := Function.update_self _ _ _
    rw [hself]
    exact ⟨rfl, fun reply hreply => hresult reply (CallPhase.finished.inj hreply),
      fun _ => ⟨result, rfl⟩⟩
  · rw [show (s.finish c result).phase d = s.phase d from Function.update_of_ne heq _ _]
    exact h.others d fun hd => heq (Option.some.inj (hd.symm.trans hgate))

/-- It has written a request, or tried to. -/
theorem Steady.attempt (hfresh : c ∉ s.attempts) :
    { s with attempts := c :: s.attempts }.Steady := by
  refine ⟨fun d hd => ?_, h.fresh, h.heard, List.nodup_cons.mpr ⟨hfresh, h.attempts⟩, h.broken⟩
  obtain ⟨houtside, hsuccess, hattempted⟩ := h.others d hd
  refine ⟨houtside, hsuccess, fun hmem => hattempted ?_⟩
  exact (List.mem_cons.mp hmem).resolve_left fun heq => hd (heq ▸ hgate)

end

/-- What was sent and read on a link does not depend on whether it is usable. -/
theorem sever_link (s : ClientState) (k other : ConnectionID) :
    (((s.setLink k { s.link k with usable := false }).link other).Settled
        ↔ (s.link other).Settled) ∧
    ∀ c, ((s.setLink k { s.link k with usable := false }).link other).Awaits c
        ↔ (s.link other).Awaits c := by
  by_cases heq : other = k
  · subst heq
    simp [setLink, Link.Settled, Link.Awaits]
  · simp [setLink, Function.update_of_ne heq]

theorem Steady.setLink (h : s.Steady) {link : Link} (hlink : link.usable = true →
    (s.link k).usable = true) : (s.setLink k link).Steady := by
  refine ⟨h.others, h.fresh, h.heard, h.attempts, fun other hmem => ?_⟩
  obtain ⟨hlt, husable⟩ := h.broken other hmem
  refine ⟨hlt, ?_⟩
  by_cases heq : other = k
  · subst heq
    rw [show (s.setLink other link).link other = link from Function.update_self _ _ _]
    simpa [husable] using hlink
  · rw [show (s.setLink k link).link other = s.link other from Function.update_of_ne heq _ _]
    exact husable

theorem Orderly.sever (h : s.Orderly) (k : ConnectionID) :
    (s.setLink k { s.link k with usable := false }).Orderly := by
  have hlinks := s.sever_link k
  refine ⟨h.toSteady.setLink (by simp), fun c hgate => ?_,
    fun other hk hnone => (hlinks other).1.mpr (h.settled other hk hnone)⟩
  have hstands := h.holder c hgate
  change ClientState.Stands _ c (s.phase c)
  cases hphase : s.phase c with
  | start | finished | holding | dialing => rwa [hphase] at hstands
  | connected other =>
    rw [hphase] at hstands
    exact ⟨hstands.1, hstands.2.1, (hlinks other).1.mpr hstands.2.2⟩
  | awaiting other =>
    rw [hphase] at hstands
    exact ⟨hstands.1, ((hlinks other).2 c).mpr hstands.2⟩

/-- An exchange that fails is over, and its connection with it. -/
theorem Steady.fail (h : s.Steady) (hgate : s.gate = some c) (hk : k < s.connections)
    (hsettled : ∀ other, s.unaryConn = some other → other ≠ k → (s.link other).Settled)
    {result : CallResult} (hresult : ∀ reply, result ≠ .success reply) :
    ((s.discard k).finish c result).Orderly := by
  -- a connection that is discarded is not the one that is kept
  have hconn : ∀ {other}, (s.discard k).unaryConn = some other →
      s.unaryConn = some other ∧ other ≠ k := by
    intro other hother
    simp only [ClientState.discard] at hother
    split at hother
    · cases hother
    · next hnot => exact ⟨hother, fun heq => hnot (heq ▸ hother)⟩
  have hsevered : (s.setLink k { s.link k with usable := false }).Steady := h.setLink (by simp)
  have hdiscard : (s.discard k).Steady := by
    refine ⟨h.others, fun other hother => h.fresh other (hconn hother).1, h.heard, h.attempts, ?_⟩
    intro other hmem
    rcases List.mem_cons.mp hmem with rfl | hmem
    · exact ⟨hk, by simp [ClientState.discard, ClientState.setLink]⟩
    · exact hsevered.broken other hmem
  refine hdiscard.finish hgate (fun other hother => ?_) fun reply heq => absurd heq (hresult reply)
  exact (s.sever_link k other).1.mpr (hsettled other (hconn hother).1 (hconn hother).2)

/-! ### Writing -/

theorem Orderly.writeStep (h : s.Orderly) (hphase : s.phase c = .connected k) (works : Bool) :
    (s.writeStep specs maxFrameBytes c k works).Orderly := by
  have hgate := h.gate_eq (c := c) (by rw [hphase]; rfl)
  have hstands := h.holder c hgate
  rw [hphase] at hstands
  obtain ⟨hfresh, hk, hset⟩ := hstands
  have hothers : ∀ other, s.unaryConn = some other → (s.link other).Settled := fun other hconn =>
    h.settled_of_ne hgate hconn (by simp [hphase])
  unfold ClientState.writeStep
  split
  · exact h.toSteady.fail hgate hk (fun other hconn _ => hothers other hconn) (by simp)
  split
  · exact h.toSteady.fail hgate hk (fun other hconn _ => hothers other hconn) (by simp)
  have hattempt := h.toSteady.attempt hgate hfresh
  simp only
  split
  · -- the request is now the last one on a connection that was settled
    have hsent : ({ s with attempts := c :: s.attempts }.setLink k
        { s.link k with sent := (s.link k).sent ++ [c] }).Steady :=
      hattempt.setLink fun husable => husable
    have hawaits : (Function.update s.link k
        { s.link k with sent := (s.link k).sent ++ [c] } k).Awaits c := by
      rw [Function.update_self]
      exact fun hadmitted => ⟨(s.link k).sent, rfl, hset hadmitted⟩
    refine hsent.hold hgate ⟨hk, hawaits⟩ fun other hconn hne => ?_
    have hother : other ≠ k := fun heq => hne (heq ▸ rfl)
    simp only [setLink, Function.update_of_ne hother]
    exact hothers other hconn
  · exact hattempt.fail hgate hk (fun other hconn _ => hothers other hconn) (by simp)

/-! ### Reading -/

theorem awaits_next {link : Link} (h : link.Awaits c) (hadmitted : link.admitted = true) :
    (link.sent.drop link.consumed).head? = some c ∧ link.consumed + 1 = link.sent.length := by
  obtain ⟨before, hsent, hconsumed⟩ := h hadmitted
  rw [hsent, hconsumed, List.drop_left]
  exact ⟨rfl, by simp⟩

/-- What a connection delivers to the call that waits is the answer to its request, or ends the
connection. -/
theorem awaits_delivers {link : Link} (h : link.Awaits c) {reply : ReplyFrame}
    (hreply : ClientState.delivers link reply = true) :
    reply.answers = some c ∨ reply.answers = none ∧ reply.ok = some false ∧ reply.stream = "" := by
  simp only [ClientState.delivers, decide_eq_true_eq] at hreply
  obtain ⟨-, -, hreply⟩ := hreply
  by_cases hadmitted : link.admitted = true
  · rw [if_pos hadmitted, (awaits_next h hadmitted).1] at hreply
    exact hreply.imp_left And.right
  · rw [if_neg hadmitted] at hreply
    exact .inr ⟨hreply.1, hreply.2.1, hreply.2.2.2⟩

/-- A frame that ends a connection is never a success. -/
theorem judge_success {spec : CallSpec} {reply result : ReplyFrame}
    (h : judge spec reply = .success result) :
    result = reply ∧ (reply.ok = some false → reply.stream = "ended") := by
  unfold judge at h
  simp only at h
  split at h
  · cases h
  split at h
  · cases h
  split at h
  · next hok =>
    split at h
    · cases h
    · split at h
      · cases h
      · split at h
        · next hended =>
          cases h
          exact ⟨rfl, fun _ => hended.2⟩
        · cases h
  · next hok =>
    cases h
    exact ⟨rfl, fun hfalse => absurd hfalse hok⟩

theorem Orderly.readStep (h : s.Orderly) (hphase : s.phase c = .awaiting k)
    (frame : Option ReplyFrame) : (s.readStep specs c k frame).Orderly := by
  have hgate := h.gate_eq (c := c) (by rw [hphase]; rfl)
  have hstands := h.holder c hgate
  rw [hphase] at hstands
  obtain ⟨hk, hawaits⟩ := hstands
  have hothers : ∀ other, s.unaryConn = some other → other ≠ k → (s.link other).Settled :=
    fun other hconn hne => h.settled_of_ne hgate hconn fun heq =>
      hne (CallPhase.awaiting.inj (heq.symm.trans hphase))
  unfold ClientState.readStep
  split
  · exact h.toSteady.fail hgate hk hothers (by simp)
  next reply hfilter =>
  have hdelivers := awaits_delivers hawaits (Option.filter_eq_some_iff.mp hfilter).2
  have hlinks : ∀ {other}, other ≠ k →
      Function.update s.link k ((s.link k).take reply) other = s.link other :=
    fun hne => Function.update_of_ne hne _ _
  have htaken : (s.setLink k ((s.link k).take reply)).Steady :=
    h.toSteady.setLink fun husable => husable
  -- the frame is taken from the connection and given to the call
  have hsteady : { s.setLink k ((s.link k).take reply) with
      heard := (c, k, reply) :: s.heard }.Steady := by
    refine { htaken with heard := fun d other heard hmem => ?_ }
    rcases List.mem_cons.mp hmem with heq | hmem
    · obtain ⟨rfl, rfl, rfl⟩ : d = c ∧ other = k ∧ heard = reply := by simpa using heq
      exact hdelivers.imp_right fun hends => ⟨hends.1, hends.2.1⟩
    · exact h.heard d other heard hmem
  simp only
  split
  · next htransport =>
    refine hsteady.fail hgate hk (fun other hconn hne => ?_) (by simp [htransport])
    simp only [setLink, hlinks hne]
    exact hothers other hconn hne
  · refine hsteady.finish hgate (fun other hconn => ?_) fun result hresult => ?_
    · by_cases heq : other = k
      · simp only [heq, setLink, Function.update_self]
        exact fun hadmitted => (awaits_next hawaits hadmitted).2
      · simp only [setLink, hlinks heq]
        exact hothers other hconn heq
    · obtain ⟨rfl, hended⟩ := judge_success hresult
      rcases hdelivers with hmine | ⟨_, hfalse, hstream⟩
      · exact hmine
      · rw [hstream] at hended
        exact absurd (hended hfalse) (by decide)

/-! ### Dialing -/

/-- A connection that nobody has used changes nothing for the others. -/
theorem Steady.addLink (h : s.Steady) (link : Link) :
    { s.setLink s.connections link with connections := s.connections + 1 }.Steady := by
  refine ⟨h.others, fun k hk => Nat.lt_succ_of_lt (h.fresh k hk), h.heard, h.attempts, ?_⟩
  intro k hmem
  obtain ⟨hlt, husable⟩ := h.broken k hmem
  have hold : Function.update s.link s.connections link k = s.link k :=
    Function.update_of_ne (Nat.ne_of_lt hlt) _ _
  exact ⟨Nat.lt_succ_of_lt hlt, (congrArg Link.usable hold).trans husable⟩

theorem Orderly.dial (h : s.Orderly) (hphase : s.phase c = .dialing) (admitted : Bool) :
    (s.step specs maxFrameBytes (.dialed c (some admitted))).Orderly := by
  have hgate := h.gate_eq (c := c) (by rw [hphase]; rfl)
  have hfresh := h.holder c hgate
  rw [hphase] at hfresh
  simp only [ClientState.step, if_pos hphase]
  split
  · have hadded := h.toSteady.addLink { admitted }
    refine (hadded.setLink (by simp)).finish hgate (fun k hk => ?_) (by simp)
    have hlt : k ≠ s.connections := Nat.ne_of_lt (h.fresh k hk)
    simp only [setLink, Function.update_of_ne hlt]
    exact h.settled_of_ne hgate hk (by simp [hphase])
  · have hempty : (Function.update s.link s.connections { admitted } s.connections).Settled := by
      rw [Function.update_self]
      exact fun _ => rfl
    have hadded := h.toSteady.addLink { admitted }
    have hkept : { { s.setLink s.connections { admitted } with connections := s.connections + 1 }
        with unaryConn := some s.connections }.Steady := by
      refine { hadded with fresh := fun k hk => ?_ }
      obtain rfl := Option.some.inj hk
      exact Nat.lt_succ_self _
    refine hkept.hold hgate ⟨hfresh, Nat.lt_succ_self _, hempty⟩ fun k hk _ => ?_
    obtain rfl := Option.some.inj hk
    exact hempty

/-! ### Whole runs -/

/-- The call behind the gate returns before it has written anything. -/
theorem Orderly.giveUp (h : s.Orderly) (hgate : s.gate = some c)
    (hphase : ∀ k, s.phase c ≠ .awaiting k) : (s.finish c .transport).Orderly :=
  h.toSteady.finish hgate (fun k hk => h.settled_of_ne hgate hk (hphase k)) (by simp)

theorem Orderly.step (h : s.Orderly) (event : ClientEvent) :
    (s.step specs maxFrameBytes event).Orderly := by
  cases event with
  | enter call =>
    simp only [ClientState.step]
    split
    · next hstart =>
      obtain ⟨hphase, hgate⟩ := hstart
      have hnobody : ∀ d, Outside s.attempts d (s.phase d) := fun d => h.others d (by simp [hgate])
      have hfresh : call ∉ s.attempts := by
        intro hmem
        obtain ⟨r, hr⟩ := (hnobody call).attempted hmem
        rw [hphase] at hr
        cases hr
      have htaken : { s with gate := some call }.Steady :=
        { h.toSteady with others := fun d _ => hnobody d }
      exact htaken.hold rfl hfresh fun k hk _ => h.settled k hk (by simp [hgate])
    · exact h
  | abandon call =>
    simp only [ClientState.step]
    split
    · next hphase =>
      have hgate : ∀ {d}, s.gate = some d → d ≠ call := by
        rintro d hd rfl
        have hstands := h.holder d hd
        rw [hphase] at hstands
        exact hstands
      have hother : ∀ {d}, d ≠ call →
          (s.setPhase call (.finished .transport)).phase d = s.phase d :=
        fun hne => Function.update_of_ne hne _ _
      have hself : (s.setPhase call (.finished .transport)).phase call = .finished .transport :=
        Function.update_self _ _ _
      refine ⟨{ h.toSteady with others := fun d hd => ?_ }, fun d hd => ?_, fun k hk hnone => ?_⟩
      · by_cases heq : d = call
        · rw [heq, hself]
          exact ⟨rfl, by simp, fun _ => ⟨_, rfl⟩⟩
        · rw [hother heq]
          exact h.others d hd
      · rw [hother (hgate hd)]
        exact h.holder d hd
      · exact h.settled k hk fun d hd => hother (hgate hd) ▸ hnone d hd
    · exact h
  | expired call =>
    simp only [ClientState.step]
    split
    · next hphase => exact h.giveUp (h.gate_eq (by rw [hphase]; rfl)) (by simp [hphase])
    · exact h
  | look call =>
    simp only [ClientState.step]
    split
    · next hphase =>
      have hgate := h.gate_eq (c := call) (by rw [hphase]; rfl)
      have hsettled : ∀ k, s.unaryConn = some k → (s.link k).Settled := fun k hk =>
        h.settled_of_ne hgate hk (by simp [hphase])
      have hfresh := h.holder call hgate
      rw [hphase] at hfresh
      split
      · exact h.giveUp hgate (by simp [hphase])
      · split
        · next k hk =>
          exact h.toSteady.hold hgate ⟨hfresh, h.fresh k hk, hsettled k hk⟩ fun k hk _ =>
            hsettled k hk
        · exact h.toSteady.hold hgate hfresh fun k hk _ => hsettled k hk
    · exact h
  | dialed call outcome =>
    by_cases hphase : s.phase call = .dialing
    · cases outcome with
      | some admitted => exact h.dial hphase admitted
      | none =>
        simp only [ClientState.step, if_pos hphase]
        exact h.giveUp (h.gate_eq (by rw [hphase]; rfl)) (by simp [hphase])
    · simp only [ClientState.step, if_neg hphase]
      exact h
  | write call works =>
    simp only [ClientState.step]
    split
    · next k hphase => exact h.writeStep hphase works
    · exact h
  | read call frame =>
    simp only [ClientState.step]
    split
    · next k hphase => exact h.readStep hphase frame
    · exact h
  | close =>
    simp only [ClientState.step]
    split
    · exact h
    · exact ⟨{ h.toSteady with fresh := by simp }, h.holder, by simp⟩
  | sever k => exact h.sever k

theorem Orderly.run (h : s.Orderly) (events : List ClientEvent) :
    (s.run specs maxFrameBytes events).Orderly := by
  induction events generalizing s with
  | nil => exact h
  | cons event events ih => exact ih (h.step event)

theorem orderly_initial : ({} : ClientState).Orderly where
  others c _ := ⟨rfl, (fun _ hphase => by cases hphase), fun hmem => by cases hmem⟩
  fresh k hk := by cases hk
  heard c k reply hmem := by cases hmem
  attempts := List.nodup_nil
  broken k hmem := by cases hmem
  holder c hgate := by cases hgate
  settled k hk := by cases hk

/-! ### Connections that are given up -/

/-- A connection that is no longer usable, and what was read from it until then. -/
def GivenUp (s : ClientState) (k : ConnectionID)
    (frames : List (Call × ConnectionID × ReplyFrame)) : Prop :=
  k < s.connections ∧ (s.link k).usable = false ∧
    s.heard.filter (fun entry => entry.2.1 = k) = frames

variable {frames : List (Call × ConnectionID × ReplyFrame)}

theorem GivenUp.setLink (h : s.GivenUp k frames) (other : ConnectionID) (link : Link)
    (hlink : other = k → link.usable = false) : (s.setLink other link).GivenUp k frames := by
  refine ⟨h.1, ?_, h.2.2⟩
  by_cases heq : k = other
  · subst heq
    rw [show (s.setLink k link).link k = link from Function.update_self _ _ _]
    exact hlink rfl
  · rw [show (s.setLink other link).link k = s.link k from Function.update_of_ne heq _ _]
    exact h.2.1

theorem GivenUp.discard (h : s.GivenUp k frames) (other : ConnectionID) :
    (s.discard other).GivenUp k frames :=
  h.setLink other { s.link other with usable := false } fun _ => rfl

/-- Nothing more is read from it. -/
theorem GivenUp.step (h : s.GivenUp k frames) (event : ClientEvent) :
    (s.step specs maxFrameBytes event).GivenUp k frames := by
  cases event with
  | enter | abandon | expired =>
    simp only [ClientState.step]
    split <;> exact h
  | look call =>
    simp only [ClientState.step]
    split
    · split
      · exact h
      · split <;> exact h
    · exact h
  | dialed call outcome =>
    have hnew : ∀ link : Link, Function.update s.link s.connections link k = s.link k :=
      fun link => Function.update_of_ne (Nat.ne_of_lt h.1) _ _
    simp only [ClientState.step]
    split
    · split
      · exact h
      · split
        · refine ⟨Nat.lt_succ_of_lt h.1, ?_, h.2.2⟩
          simp only [ClientState.finish, setPhase, ClientState.setLink, Function.update_idem, hnew]
          exact h.2.1
        · refine ⟨Nat.lt_succ_of_lt h.1, ?_, h.2.2⟩
          simp only [setPhase, ClientState.setLink, hnew]
          exact h.2.1
    · exact h
  | write call works =>
    simp only [ClientState.step]
    split
    · next other hphase =>
      have hdiscard := h.discard other
      unfold ClientState.writeStep
      split
      · exact hdiscard
      split
      · exact hdiscard
      simp only
      split
      · next hworks =>
        exact h.setLink other { s.link other with sent := (s.link other).sent ++ [call] }
          fun heq => heq ▸ h.2.1
      · exact hdiscard
    · exact h
  | read call frame =>
    simp only [ClientState.step]
    split
    · next other hphase =>
      have hdiscard := h.discard other
      unfold ClientState.readStep
      split
      · exact hdiscard
      next reply hfilter =>
      have hdelivers := (Option.filter_eq_some_iff.mp hfilter).2
      -- a connection that delivers is usable, so it is another one
      have hne : other ≠ k := by
        rintro rfl
        simp [delivers, h.2.1] at hdelivers
      have htaken : { s.setLink other ((s.link other).take reply) with
          heard := (call, other, reply) :: s.heard }.GivenUp k frames := by
        have hlink := h.setLink other ((s.link other).take reply) fun heq => absurd heq hne
        refine ⟨hlink.1, hlink.2.1, ?_⟩
        rw [List.filter_cons_of_neg (by simpa using hne)]
        exact h.2.2
      simp only
      split
      · exact htaken.discard other
      · exact htaken
    · exact h
  | close =>
    simp only [ClientState.step]
    split <;> exact h
  | sever other => exact h.setLink other _ fun _ => rfl

theorem GivenUp.run (h : s.GivenUp k frames) (events : List ClientEvent) :
    (s.run specs maxFrameBytes events).GivenUp k frames := by
  induction events generalizing s with
  | nil => exact h
  | cons event events ih => exact ih (h.step event)

end ClientState

open ClientState

/-- However the calls of a client interleave and fail: a success is the answer to the call's own
request, and so is every frame a call was given, one that ends a connection apart; no request was
written twice; and from a connection on which an exchange failed nothing is ever read again. -/
theorem reused_connection_never_mixes (specs : Call → CallSpec) (maxFrameBytes : Nat)
    (events : List ClientEvent) :
    (∀ c reply, (run specs maxFrameBytes {} events).phase c = .finished (.success reply) →
      reply.answers = some c) ∧
    (∀ c k reply, (c, k, reply) ∈ (run specs maxFrameBytes {} events).heard →
      reply.answers = some c ∨ reply.answers = none ∧ reply.ok = some false) ∧
    (run specs maxFrameBytes {} events).attempts.Nodup ∧
    ∀ k ∈ (run specs maxFrameBytes {} events).broken, ∀ later,
      (run specs maxFrameBytes {} (events ++ later)).heard.filter (fun entry => entry.2.1 = k)
        = (run specs maxFrameBytes {} events).heard.filter fun entry => entry.2.1 = k := by
  have h : (run specs maxFrameBytes {} events).Orderly := orderly_initial.run events
  refine ⟨fun c reply => h.success, h.heard, h.attempts, fun k hk later => ?_⟩
  obtain ⟨hold, husable⟩ := h.broken k hk
  have hgiven : (run specs maxFrameBytes {} events).GivenUp k _ := ⟨hold, husable, rfl⟩
  rw [show run specs maxFrameBytes {} (events ++ later)
    = run specs maxFrameBytes (run specs maxFrameBytes {} events) later from List.foldl_append]
  exact (hgiven.run later).2.2

/-- Calls that cannot be told apart by their ids. -/
def sampleSpecs : Call → CallSpec := fun _ =>
  { operation := "get", requestID := "r", payloadBytes := 64 }

def sampleAnswer (call : Call) : ReplyFrame :=
  { answers := some call, ok := some true, databaseID := "d", operation := "get", requestID := "r",
    content := [call] }

def sampleFailure : ReplyFrame :=
  { answers := none, ok := some false, databaseID := "d", operation := "status", requestID := "",
    error := some ("INTERNAL", true) }

/-- Two calls, the second one on the connection of the first; a third finds the failure that the
server has sent when the connection was idle. -/
def sampleCalls : List ClientEvent :=
  [.enter 0, .look 0, .dialed 0 (some true), .write 0 true, .read 0 (some (sampleAnswer 0)),
    .enter 1, .look 1, .write 1 true, .read 1 (some (sampleAnswer 1)), .enter 2, .look 2,
    .write 2 true, .read 2 (some sampleFailure)]

example : (run sampleSpecs 1024 {} sampleCalls).phase 0 = .finished (.success (sampleAnswer 0)) ∧
    (run sampleSpecs 1024 {} sampleCalls).phase 1 = .finished (.success (sampleAnswer 1)) ∧
    (run sampleSpecs 1024 {} sampleCalls).phase 2 = .finished .transport ∧
    (run sampleSpecs 1024 {} sampleCalls).connections = 1 := by decide +kernel

end GapDB
