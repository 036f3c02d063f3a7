import GapDB.Engine.Invariant
import GapDB.Engine.Open
import Mathlib.Data.List.Induction

/-!
# Runs of the engine

The commands the writer goroutine can receive, one after another, with everything it answers.
Readers and watch pumps beside it appear as commands of their own.
-/

namespace GapDB

open Storelib DatabaseState

variable {s : DatabaseState} {frames : List CommitFrame}

inductive Command (σ : Type) where
  | mutation (reserve : Option (ReserveFunc σ)) (batch : Batch) (single : SingleOperation)
      (faults : ExecuteFaults)
  | expiry (reserve : Option (ReserveFunc σ)) (source : Time) (faults : ExecuteFaults)
  | register (queueDepth : Nat) (start : Bytes) (after : Nat)
  | unregister (id : Nat)
  /-- A pump has delivered a group. -/
  | retire (id : Nat)
  /-- A reader asks for the effective time. -/
  | read (source : Time)
  | durableAdmin (operation : DurableAdminOperation σ) (barrier : Option WAL.BarrierFault)
  | markAdminDegraded
  /-- `Close` has begun; what is queued is still executed. -/
  | drain

inductive Reply where
  | commit (result : Except Error CommitResult)
  | watch (result : Except Error Nat)
  | admin (error : Option Error)
  | snapshot (result : SnapshotResult) (error : Option Error)
  | closed (error : Option Error)
  | nothing

namespace Command

variable {σ : Type}

def run (s : DatabaseState) (world : σ) : Command σ → Reply × DatabaseState × σ
  | .mutation reserve batch single faults =>
    let ((result, s), world) := s.executeSafely reserve world batch single faults
    (.commit result, s, world)
  | .expiry reserve source faults =>
    let ((result, s), world) := s.executeDueExpiriesSafely reserve world source faults
    (.commit result, s, world)
  | .register queueDepth start after =>
    let (result, watchers) := s.watchers.register s.limits s.history s.current queueDepth
      start after
    (.watch result, { s with watchers }, world)
  | .unregister id =>
    (.nothing, { s with watchers := s.watchers.unregister id .client s.current }, world)
  | .retire id => (.nothing, { s with watchers := s.watchers.retire id }, world)
  | .read source => (.nothing, { s with clock := (s.clock.now source).2 }, world)
  | .durableAdmin operation barrier =>
    let (error, s, world) := s.executeDurableAdmin operation world barrier
    (.admin error, s, world)
  | .markAdminDegraded => (.nothing, s.degrade, world)
  | .drain =>
    (.nothing, if s.lifecycle = .ready then { s with lifecycle := .draining } else s, world)

/-- The batch a command puts to the commit step. -/
def batch (s : DatabaseState) : Command σ → Option (Batch × SingleOperation)
  | .mutation _ batch single _ => some (batch, single)
  | .expiry _ source _ =>
    if s.due source = [] then none else some (expiryBatch (s.due source), .expiry)
  | _ => none

/-- The effective time at which the commit step judges the batch. -/
def now (s : DatabaseState) : Command σ → Time
  | .mutation _ _ _ faults => (s.clock.now faults.source).1
  | .expiry _ source faults => s.expiryNow source faults
  | _ => 0

/-- The revision the allocator hands to the command. -/
def assigned (s : DatabaseState) (world : σ) : Command σ → Option Nat
  | .mutation reserve batch single faults => s.assignedRevision reserve world batch single faults
  | .expiry reserve source faults => s.assignedExpiry reserve world source faults
  | _ => none

/-- The frame the command hands to the log. -/
def frame (s : DatabaseState) (world : σ) (c : Command σ) : Option CommitFrame :=
  match c.batch s, c.assigned s world with
  | some (batch, single), some revision => some (commitFrame batch single revision)
  | _, _ => none

end Command

/-- A command of a run with what it found and left. -/
structure Turn where
  batch : Option (Batch × SingleOperation)
  now : Time
  frame : Option CommitFrame
  before : DatabaseState
  reply : Reply
  after : DatabaseState

namespace Turn

/-- The frame that the command published. -/
def published (t : Turn) : List CommitFrame :=
  if t.after.current = t.before.current then [] else t.frame.toList

/-- A complete frame that the command left in the log without publishing it. -/
def left (t : Turn) : List CommitFrame :=
  t.frame.toList.filter fun frame =>
    t.after.current = t.before.current ∧ t.after.log.stream = t.before.log.stream ++ frame.bytes

/-- The client was told that the command succeeded. -/
def Acknowledged (t : Turn) (result : CommitResult) : Prop :=
  t.batch ≠ none ∧ t.reply = .commit (.ok result)

/-- The commit of which the client was told that it is durable. -/
def durable (t : Turn) : Option CommitFrame :=
  match t.reply with
  | .commit (.ok result) => if result.result.ack = .durable then t.frame else none
  | _ => none

end Turn

/-- The turn of the writer in which it handles `c`. -/
def Command.turn {σ : Type} (s : DatabaseState) (world : σ) (c : Command σ) : Turn :=
  ⟨c.batch s, c.now s, c.frame s world, s, (c.run s world).1, (c.run s world).2.1⟩

/-- Run the commands from left to right. -/
def runAll {σ : Type} (s : DatabaseState) (world : σ) :
    List (Command σ) → List Turn × DatabaseState × σ
  | [] => ([], s, world)
  | c :: cs =>
    let rest := runAll (c.run s world).2.1 (c.run s world).2.2 cs
    (c.turn s world :: rest.1, rest.2)

theorem runAll_concat {σ : Type} (s : DatabaseState) (world : σ) (cs : List (Command σ))
    (c : Command σ) :
    runAll s world (cs ++ [c])
      = ((runAll s world cs).1 ++ [c.turn (runAll s world cs).2.1 (runAll s world cs).2.2],
          (c.run (runAll s world cs).2.1 (runAll s world cs).2.2).2) := by
  induction cs generalizing s world with
  | nil => rfl
  | cons d cs ih => simp only [List.cons_append, runAll, ih]

/-! ### The moves behind a run -/

namespace DatabaseState.Move

/-- What the move publishes. -/
def out : Move → List CommitFrame
  | .published frame => [frame]
  | .quiet | .torn _ _ | .switched => []

end DatabaseState.Move

/-- The turn made this move, and answered accordingly. -/
structure Turn.Moved (t : Turn) (move : Move) : Prop where
  moves : t.before.Moves t.after move
  answers : t.batch = none ∧ t.frame = none ∧ (move = .quiet ∨ move = .switched) ∨
    ∃ batch single assigned result, t.batch = some (batch, single) ∧ t.reply = .commit result ∧
      t.frame = Option.map (commitFrame batch single) assigned ∧
      t.before.Answers batch single t.now t.after assigned result move

theorem Command.frame_of_batch {σ : Type} {world : σ} {c : Command σ}
    {batch : Batch} {single : SingleOperation} (h : c.batch s = some (batch, single)) :
    c.frame s world = (c.assigned s world).map (commitFrame batch single) := by
  unfold Command.frame
  rw [h]
  cases c.assigned s world <;> rfl

theorem DatabaseState.Answers.ne_switched {s' : DatabaseState} {batch : Batch}
    {single : SingleOperation} {now : Time} {assigned : Option Nat}
    {result : Except Error CommitResult} {move : Move}
    (h : s.Answers batch single now s' assigned result move) : move ≠ .switched := by
  cases h <;> simp

/-- A turn without a batch that moves nothing. -/
theorem Turn.Moved.of_quiet {t : Turn} (h : t.before.Moves t.after .quiet) (hbatch : t.batch = none)
    (hframe : t.frame = none) : ∃ move, t.Moved move ∧ move ≠ .switched :=
  ⟨.quiet, ⟨h, .inl ⟨hbatch, hframe, .inl rfl⟩⟩, by simp⟩

theorem Command.moved {σ : Type} {reserved : Nat}
    {left : List CommitFrame} {tail : Bytes} (h : s.Tracks reserved frames left tail)
    (world : σ) (c : Command σ) : ∃ move, (c.turn s world).Moved move ∧ move ≠ .switched := by
  have hl : s.log.limits.Valid := h.logLimits ▸ h.limits
  have habove : ∀ a, s.allocator = some a → a.Above s.current := fun a ha => (h.allocator a ha).1
  cases c with
  | mutation reserve batch single faults =>
    obtain ⟨move, hmoves, hanswers⟩ :=
      (executeSafely_cases reserve s h.limits hl world batch single faults).moves habove
    exact ⟨move, ⟨hmoves, .inr ⟨batch, single, _, _, rfl, rfl, Command.frame_of_batch rfl,
      hanswers⟩⟩, hanswers.ne_switched⟩
  | expiry reserve source faults =>
    obtain ⟨move, hmoves, hcases⟩ :=
      executeDueExpiriesSafely_moves reserve h.limits hl habove world source faults
    rcases hcases with ⟨hdue, hreply, rfl, hassigned⟩ | ⟨hdue, hanswers⟩
    · refine Turn.Moved.of_quiet hmoves (by simp [Command.turn, Command.batch, hdue]) ?_
      simp [Command.turn, Command.frame, Command.batch, hdue]
    · have hbatch : (Command.expiry reserve source faults).batch s
          = some (expiryBatch (s.due source), .expiry) := by
        simp [Command.batch, hdue]
      exact ⟨move, ⟨hmoves, .inr ⟨_, _, _, _, hbatch, rfl, Command.frame_of_batch hbatch,
        hanswers⟩⟩, hanswers.ne_switched⟩
  | register | unregister | retire | read =>
    exact Turn.Moved.of_quiet (.of_eq ⟨rfl, rfl, rfl, rfl, rfl⟩ ⟨id, id⟩ (.of_eq rfl) rfl
      rfl) rfl rfl
  | durableAdmin operation barrier =>
    exact Turn.Moved.of_quiet (executeDurableAdmin_moves operation s world barrier) rfl rfl
  | markAdminDegraded =>
    exact Turn.Moved.of_quiet (.of_degrade (.refl s) (.of_eq rfl) (.refl s.log) rfl) rfl rfl
  | drain =>
    refine Turn.Moved.of_quiet ?_ rfl rfl
    simp only [Command.turn, Command.run]
    split
    · next hready =>
      refine .of_eq ⟨rfl, rfl, rfl, rfl, rfl⟩ ⟨fun h => ?_, fun h => ?_⟩ (.of_eq rfl) rfl rfl
      · cases h
      · simp [Degraded, hready] at h
    · exact .of_eq (.refl s) (.refl s) (.of_eq rfl) rfl rfl

section

variable {t : Turn} {move : Move} {reserved : Nat} {left : List CommitFrame} {tail : Bytes}

/-- A frame that moves something is the frame of the turn. -/
theorem Turn.Moved.frame_of_published {frame : CommitFrame} (h : t.Moved (.published frame)) :
    t.frame = some frame := by
  rcases h.answers with ⟨_, _, h | h⟩ | ⟨batch, single, assigned, result, _, _, hframe, hanswers⟩
  · cases h
  · cases h
  · cases hanswers <;> exact hframe

theorem Turn.Moved.frame_of_torn {frame : CommitFrame} {accepted : Bytes}
    (h : t.Moved (.torn frame accepted)) : t.frame = some frame := by
  rcases h.answers with ⟨_, _, h | h⟩ | ⟨batch, single, assigned, result, _, _, hframe, hanswers⟩
  · cases h
  · cases h
  · cases hanswers
    exact hframe

/-- The published frames can be read off the states before and after the turn. -/
theorem Turn.Moved.published_eq (h : t.Moved move)
    (hs : t.before.Tracks reserved frames left tail) : t.published = move.out := by
  unfold Turn.published
  have hmoves := h.moves
  cases hmoves with
  | quiet same | torn frame accepted active degraded same | switched same =>
    rw [if_pos same.current]; rfl
  | published frame active ages advances assigned accepts extends_ records current =>
    have hlt := accepts.increasing
    rw [(hs.healthy.resolve_left active).tip, ← current] at hlt
    rw [if_neg hlt.ne', h.frame_of_published]
    rfl

/-- So can the frame that was left behind. -/
theorem Turn.Moved.left_eq (h : t.Moved move) (hs : t.before.Tracks reserved frames left tail)
    (hswitch : move ≠ .switched) : move.left left = left ++ t.left := by
  have hmoves := h.moves
  unfold Turn.left
  cases hmoves with
  | quiet same ages advances extends_ =>
    have hnone : ∀ frame ∈ t.frame.toList,
        ¬ t.after.log.stream = t.before.log.stream ++ frame.bytes := by
      intro frame _ heq
      rw [extends_.stream, List.append_right_inj] at heq
      exact frame.bytes_ne_nil heq.symm
    rw [List.filter_eq_nil_iff.mpr]
    · simp [Move.left]
    · intro frame hframe
      simpa using fun _ => hnone frame hframe
  | torn frame accepted active degraded same advances assigned accepts extends_ isPrefix =>
    rw [h.frame_of_torn, (hs.stream_of_active active).1]
    by_cases hfull : accepted = frame.bytes <;>
      simp [Move.left, hfull, same.current, extends_.stream]
  | switched same => exact absurd rfl hswitch
  | published frame active ages advances assigned accepts extends_ records current =>
    have hlt := accepts.increasing
    rw [(hs.healthy.resolve_left active).tip, ← current] at hlt
    rw [(hs.stream_of_active active).1, List.filter_eq_nil_iff.mpr]
    · rfl
    · simp [hlt.ne']

end

/-! ### What a run publishes -/

/-- The frames published since `s` are exactly the difference to `s'`. -/
structure DatabaseState.Folds (s s' : DatabaseState) (frames : List CommitFrame) : Prop where
  records : s'.records = replayCommits s.records frames
  current : s'.current = lastRevision s.current frames
  history : s'.history = s.history.appendCommits frames

theorem DatabaseState.Moves.folds {s₀ s' : DatabaseState} {move : Move}
    (hmoves : s.Moves s' move) (h : s₀.Folds s frames) : s₀.Folds s' (frames ++ move.out) := by
  cases hmoves with
  | quiet same | torn frame accepted active degraded same | switched same =>
    simpa [Move.out] using
      ⟨same.records.trans h.records, same.current.trans h.current, same.history.trans h.history⟩
  | published frame active ages advances assigned accepts extends_ records current history =>
    refine ⟨?_, ?_, ?_⟩
    · rw [records, h.records, Move.out, replayCommits_append]
      rfl
    · rw [current, Move.out, lastRevision_append]
      rfl
    · rw [history, h.history, Move.out, HistoryLog.appendCommits_append]
      rfl

/-- The frames a list of turns published, and those it left behind. -/
def published (turns : List Turn) : List CommitFrame := turns.flatMap Turn.published

def leftBehind (turns : List Turn) : List CommitFrame := turns.flatMap Turn.left

/-- A run on one log that started from `s` with `frames` in the log. -/
structure Ran (s : DatabaseState) (frames : List CommitFrame) (turns : List Turn)
    (s' : DatabaseState) : Prop where
  tracks : ∃ reserved tail,
    s'.Tracks reserved (frames ++ published turns) (leftBehind turns) tail
  header : s'.log.header = s.log.header
  limits : s'.limits = s.limits
  folds : s.Folds s' (published turns)
  moved : ∀ t ∈ turns, ∃ move, t.Moved move ∧ move ≠ .switched ∧
    ∃ reserved frames left tail, t.before.Tracks reserved frames left tail
  states : ∀ t ∈ turns, ∃ before after, published turns = before ++ after ∧ s.Folds t.after before
  acknowledged : ∀ t ∈ turns, ∀ result, t.Acknowledged result → ∃ before after frame,
    t.frame = some frame ∧ published turns = before ++ [frame] ++ after ∧
      s.Folds t.after (before ++ [frame]) ∧
      t.after.log.stream = walBytes s.log.header (frames ++ (before ++ [frame]))
  -- the barrier of a durable commit covers the log as it stood
  barred : ∀ t ∈ turns, ∀ result, t.Acknowledged result → result.result.ack = .durable →
    t.after.log.stream.length ≤ s'.log.storage.file.synced

/-- A success is a published frame on an engine that goes on, and a durable one has the log
synced. -/
theorem Turn.Moved.of_acknowledged {t : Turn} {move : Move} {result : CommitResult}
    (h : t.Moved move) (hack : t.Acknowledged result) :
    ∃ frame, move = .published frame ∧ ¬ t.after.Degraded ∧
      (result.result.ack = .durable → t.after.log.Stable) := by
  rcases h.answers with ⟨hnone, _⟩ | ⟨batch, single, assigned, result', _, hreply, _, hanswers⟩
  · exact absurd hnone hack.1
  · rw [hack.2, Reply.commit.injEq] at hreply
    subst hreply
    cases hanswers with
    | committed revision durableThrough events durable active admitted =>
      exact ⟨_, rfl, active, durable⟩

/-- A command that stays on its log extends it. -/
theorem DatabaseState.Moves.extends {s' : DatabaseState} {move : Move} (h : s.Moves s' move)
    (hswitched : move ≠ .switched) : ∃ added, s.log.Extends s'.log added := by
  cases h with
  | quiet same ages advances extends_
  | torn frame accepted active degraded same advances assigned accepts extends_
  | published frame active ages advances assigned accepts extends_ => exact ⟨_, extends_⟩
  | switched => exact absurd rfl hswitched

theorem exists_reserved (s : DatabaseState) (reserved : Nat) :
    ∃ reserved', reserved ≤ reserved' ∧ ∀ a, s.allocator = some a → a.end_ ≤ reserved' := by
  cases h : s.allocator with
  | none => exact ⟨reserved, le_rfl, by simp⟩
  | some a => exact ⟨max reserved a.end_, le_max_left _ _, by simp⟩

/-- Whatever the commands and their faults, a run on one log keeps the write-ahead invariant. -/
theorem ran {σ : Type} {reserved : Nat}
    (h : s.Tracks reserved frames [] []) (world : σ) (cs : List (Command σ)) :
    Ran s frames (runAll s world cs).1 (runAll s world cs).2.1 := by
  induction cs using List.reverseRecOn with
  | nil =>
    refine ⟨⟨reserved, [], ?_⟩, rfl, rfl, ⟨rfl, rfl, rfl⟩, by simp [runAll], by simp [runAll],
      by simp [runAll], by simp [runAll]⟩
    simpa [runAll, published, leftBehind] using h
  | append_singleton cs c ih =>
    rw [runAll_concat]
    generalize runAll s world cs = r at ih ⊢
    obtain ⟨turns, s', world'⟩ := r
    simp only at ih ⊢
    obtain ⟨reserved', tail, htracks⟩ := ih.tracks
    obtain ⟨move, hmoved, hswitched⟩ := c.moved htracks world'
    have hbefore : (c.turn s' world').before = s' := rfl
    have hafter : (c.turn s' world').after = (c.run s' world').2.1 := rfl
    have hpublished := hmoved.published_eq (hbefore ▸ htracks)
    have hleft := hmoved.left_eq (hbefore ▸ htracks) hswitched
    have hmoves := hmoved.moves
    rw [hbefore, hafter] at hmoves
    have hframes : move.frames (frames ++ published turns)
        = frames ++ published (turns ++ [c.turn s' world']) := by
      have hout : ∀ fs, move.frames fs = fs ++ move.out := by
        intro fs
        cases hmoves with
        | quiet | torn | published => simp [Move.frames, Move.out]
        | switched => exact absurd rfl hswitched
      rw [hout, ← hpublished]
      simp [published]
    have hfolds : s.Folds (c.run s' world').2.1 (published (turns ++ [c.turn s' world'])) := by
      have := hmoves.folds ih.folds
      rw [← hpublished] at this
      simpa [published] using this
    obtain ⟨reserved'', hle, hend⟩ := exists_reserved (c.run s' world').2.1 reserved'
    have htracks' := htracks.move hmoves hle hend
    rw [hframes, hleft] at htracks'
    obtain ⟨added, hextends⟩ := hmoves.extends hswitched
    have hheader : (c.run s' world').2.1.log.header = s.log.header :=
      hextends.header.trans ih.header
    have hlimits : (c.run s' world').2.1.limits = s.limits := by
      cases hmoves with
      | quiet same | torn _ _ _ _ same | switched same => exact same.limits.trans ih.limits
      | published frame active ages advances assigned accepts extends_ records current history
          limits => exact limits.trans ih.limits
    refine ⟨⟨reserved'', move.tail tail, ?_⟩, hheader, hlimits, hfolds, ?_, ?_, ?_, ?_⟩
    · simpa [leftBehind] using htracks'
    · intro t ht
      rcases List.mem_append.mp ht with ht | ht
      · exact ih.moved t ht
      · obtain rfl : t = c.turn s' world' := by simpa using ht
        exact ⟨move, hmoved, hswitched, _, _, _, _, htracks⟩
    · intro t ht
      rcases List.mem_append.mp ht with ht | ht
      · obtain ⟨before, after, hsplit, hfold⟩ := ih.states t ht
        refine ⟨before, after ++ (c.turn s' world').published, ?_, hfold⟩
        rw [published, List.flatMap_append, ← published, hsplit]
        simp
      · obtain rfl : t = c.turn s' world' := by simpa using ht
        exact ⟨_, [], (List.append_nil _).symm, hfolds⟩
    · intro t ht result hack
      rcases List.mem_append.mp ht with ht | ht
      · obtain ⟨before, after, frame, hframe, hsplit, hfold, hstream⟩ :=
          ih.acknowledged t ht result hack
        refine ⟨before, after ++ (c.turn s' world').published, frame, hframe, ?_, hfold, hstream⟩
        rw [published, List.flatMap_append, ← published, hsplit]
        simp
      · obtain rfl : t = c.turn s' world' := by simpa using ht
        obtain ⟨frame, rfl, hactive, _⟩ := hmoved.of_acknowledged hack
        have hout : published (turns ++ [c.turn s' world']) = published turns ++ [frame] := by
          simpa [published, Move.out] using hpublished
        refine ⟨published turns, [], frame, hmoved.frame_of_published, by simpa using hout,
          hout ▸ hfolds, ?_⟩
        have hstream := (htracks'.stream_of_active hactive).2.2
        rw [hout, hheader] at hstream
        exact hstream
    · intro t ht result hack hdurable
      rcases List.mem_append.mp ht with ht | ht
      · exact (ih.barred t ht result hack hdurable).trans hextends.synced
      · obtain rfl : t = c.turn s' world' := by simpa using ht
        obtain ⟨_, _, _, hstable⟩ := hmoved.of_acknowledged hack
        exact (hstable hdurable).synced.ge

end GapDB
