import GapDB.Engine.Moves

/-!
# The write-ahead invariant

The commands beside the commit step, as moves, and the invariant that every move keeps: the log
is its header, the frames published since, and, once the engine is degraded, at most a part of
one more frame.
-/

namespace GapDB

open Storelib

variable {frame : CommitFrame}

namespace DatabaseState

section

variable {s s' : DatabaseState}

/-- Moves do not depend on the clock and the schedule the command starts from. -/
theorem Moves.of_start {move : Move} {clock : Nondecreasing} {schedule : ExpirySchedule}
    (h : { s with clock, schedule }.Moves s' move) : s.Moves s' move := by
  cases h with
  | quiet same ages advances extends_ lastRevision healthy =>
    exact .quiet ⟨same.1, same.2, same.3, same.4, same.5⟩ ⟨ages.1, ages.2⟩ advances extends_
      lastRevision fun hd h => healthy hd ⟨h.1, h.2, h.3, h.4⟩
  | torn frame accepted active degraded same advances assigned accepts extends_ isPrefix =>
    exact .torn frame accepted active degraded ⟨same.1, same.2, same.3, same.4, same.5⟩ advances
      assigned accepts extends_ isPrefix
  | published frame active ages advances assigned accepts extends_ records current history limits
      databaseID healthy =>
    exact .published frame active ⟨ages.1, ages.2⟩ advances assigned accepts extends_ records
      current history limits databaseID healthy
  | switched same ages advances fresh known =>
    exact .switched ⟨same.1, same.2, same.3, same.4, same.5⟩ ⟨ages.1, ages.2⟩ advances fresh known

theorem Answers.of_start {batch : Batch} {single : SingleOperation} {now : Time}
    {assigned : Option Nat} {result : Except Error CommitResult} {move : Move}
    {clock : Nondecreasing} {schedule : ExpirySchedule}
    (h : { s with clock, schedule }.Answers batch single now s' assigned result move) :
    s.Answers batch single now s' assigned result move := by
  cases h with
  | refused e _ => exact .refused e _
  | torn e revision accepted proper admitted =>
    exact .torn e revision accepted proper ⟨admitted.1, admitted.2, admitted.3, admitted.4⟩
  | unacknowledged e revision applied degraded admitted =>
    exact .unacknowledged e revision applied degraded
      ⟨admitted.1, admitted.2, admitted.3, admitted.4⟩
  | committed revision durableThrough events durable active admitted =>
    exact .committed revision durableThrough events durable active
      ⟨admitted.1, admitted.2, admitted.3, admitted.4⟩

/-- The effective time of the commit step of an expiry cleanup. -/
def expiryNow (s : DatabaseState) (source : Time) (faults : ExecuteFaults) : Time :=
  ((s.clock.now source).2.now faults.source).1

/-- The records an expiry cleanup collects. -/
def due (s : DatabaseState) (source : Time) : List ExpiryCandidate :=
  (s.schedule.dueExpiries s.limits s.records (s.clock.now source).1).2

/-- A cleanup without anything due moves nothing; otherwise it is the commit of an expiry batch. -/
theorem executeDueExpiriesSafely_moves {σ : Type} (reserve : Option (ReserveFunc σ))
    (hlimits : s.limits.Valid) (hl : s.log.limits.Valid)
    (habove : ∀ a, s.allocator = some a → a.Above s.current) (world : σ) (source : Time)
    (faults : ExecuteFaults) :
    let r := s.executeDueExpiriesSafely reserve world source faults
    ∃ move, s.Moves r.1.2 move ∧
      (s.due source = [] ∧ r.1.1 = .ok emptyResult ∧ move = .quiet ∧
          s.assignedExpiry reserve world source faults = none ∨
        s.due source ≠ [] ∧ s.Answers (expiryBatch (s.due source)) .expiry
          (s.expiryNow source faults) r.1.2 (s.assignedExpiry reserve world source faults) r.1.1
          move) := by
  by_cases hdue : s.due source = []
  · refine ⟨.quiet, ?_, .inl ⟨hdue, ?_, rfl, ?_⟩⟩ <;>
      simp only [due] at hdue <;>
      simp only [executeDueExpiriesSafely, executeDueExpiries, assignedExpiry, hdue, if_true]
    · exact .of_eq ⟨rfl, rfl, rfl, rfl, rfl⟩ ⟨id, id⟩ (.of_eq rfl) rfl rfl
    · rfl
  · have hne := hdue
    simp only [due] at hne
    simp only [executeDueExpiriesSafely, executeDueExpiries, assignedExpiry, hne, if_false]
    have hcases := execute_cases reserve
      { s with clock := (s.clock.now source).2, schedule :=
        (s.schedule.dueExpiries s.limits s.records (s.clock.now source).1).1 } hlimits hl world
      (expiryBatch (s.due source)) .expiry faults "engine-expiry-panic"
    obtain ⟨move, hmoves, hanswers⟩ := hcases.moves habove
    exact ⟨move, hmoves.of_start, .inr ⟨hdue, hanswers.of_start⟩⟩

/-- A command that only reaches the barrier of the log. -/
theorem Moves.of_barrier {outcome : Outcome Error Unit} (same : s.Same s') (ages : s.Ages s')
    (advances : s.Advances s') (h : s.log.Barriered outcome s'.log)
    (known : s.Healthy → s'.durableThrough ≤ s'.log.durableThrough)
    (ready : ¬ s'.Degraded → s'.log.failed = s.log.failed) : s.Moves s' .quiet := by
  refine .quiet same ages advances h.extends h.lastRevision fun hd hs => ?_
  refine ⟨(ready hd).trans hs.ready, ?_, known hs, ?_⟩
  · rw [h.lastRevision, hs.tip, same.current]
  · rw [same.current]
    by_cases hok : outcome = .ok ()
    · subst hok
      rw [h.stable.1.durableThrough, h.lastRevision, hs.tip]
    · rw [h.durableThrough hok]
      exact hs.le

/-! ### Snapshots -/

/-- The engine after a successful snapshot barrier that left `log`. -/
def barriered (s : DatabaseState) (log : WAL) (source : Time) : DatabaseState :=
  { s with log, durableThrough := log.durableThrough, clock := (s.clock.now source).2 }

def snapshotCut (s : DatabaseState) (faults : SnapshotFaults) : SnapshotCut :=
  ⟨s.databaseID, s.current, (s.clock.now faults.source).1, faults.order.filterMap s.records⟩

/-- Every way in which a snapshot command can end. -/
inductive Snapshots {σ : Type} (install : SnapshotInstaller σ) (s : DatabaseState) (world : σ)
    (faults : SnapshotFaults) : Option Error → DatabaseState → σ → Prop where
  | unbarriered (e : Error) (outcome : Outcome Error Unit) (log : WAL) (ne : outcome ≠ .ok ())
      (h : s.log.Barriered outcome log) :
      Snapshots install s world faults (some e) { s with log }.degrade world
  | unevident (e : Error) (log : WAL) (h : s.log.Barriered (.ok ()) log)
      (ne : log.durableThrough ≠ s.current) :
      Snapshots install s world faults (some e)
        { s with log, durableThrough := log.durableThrough }.degrade world
  | refused (e : Error) (log : WAL) (world' : σ) (h : s.log.Barriered (.ok ()) log)
      (evident : log.durableThrough = s.current)
      (installed : install (s.snapshotCut faults) world = (.error e, world'))
      (applied : e.operationApplied = false) :
      Snapshots install s world faults (some e) (s.barriered log faults.source) world'
  | broken (e : Error) (log : WAL) (world' : σ) (h : s.log.Barriered (.ok ()) log)
      (evident : log.durableThrough = s.current)
      (installed : (install (s.snapshotCut faults) world).2 = world')
      (applied : e.operationApplied = true) :
      Snapshots install s world faults (some e) (s.barriered log faults.source).degrade world'
  | switched (log next : WAL) (world' : σ) (h : s.log.Barriered (.ok ()) log)
      (evident : log.durableThrough = s.current)
      (installed : install (s.snapshotCut faults) world = (.ok (some next), world'))
      (durable : next.durableThrough = s.current) :
      Snapshots install s world faults none
        { s.barriered log faults.source with
          log := next, snapshotRevision := s.current, activeWALStart := u64 (s.current + 1) } world'

theorem executeSnapshot_cases {σ : Type} (install : SnapshotInstaller σ) (s : DatabaseState)
    (world : σ) (faults : SnapshotFaults) :
    Snapshots install s world faults (s.executeSnapshot install world faults).1.2
      (s.executeSnapshot install world faults).2.1
        (s.executeSnapshot install world faults).2.2 := by
  have hbarrier := s.log.barrier_cases faults.barrier
  unfold executeSnapshot
  generalize s.log.barrier faults.barrier = result at hbarrier ⊢
  obtain ⟨outcome, log⟩ := result
  cases outcome with
  | panic | error => exact .unbarriered _ _ log (by simp) hbarrier
  | ok u =>
    simp only
    split
    · next hne => exact .unevident _ log hbarrier hne
    next hevident =>
    rw [not_not] at hevident
    generalize hinstall : install (s.snapshotCut faults) world = result
    simp only [snapshotCut] at hinstall
    simp only [hinstall]
    obtain ⟨outcome, world'⟩ := result
    have hworld : (install (s.snapshotCut faults) world).2 = world' := congrArg Prod.snd hinstall
    cases outcome with
    | panic => exact .broken _ log world' hbarrier hevident hworld rfl
    | error e =>
      simp only
      split
      · next happlied => exact .broken e log world' hbarrier hevident hworld happlied
      · next happlied =>
          exact .refused e log world' hbarrier hevident hinstall (by simpa using happlied)
    | ok next =>
      cases next with
      | none => exact .broken _ log world' hbarrier hevident hworld rfl
      | some next =>
        simp only
        split
        · exact .broken _ log world' hbarrier hevident hworld rfl
        · next hdurable =>
          exact .switched log next world' hbarrier hevident hinstall (by simpa using hdurable)

/-- A snapshot keeps everything that was published; it may switch to the log it installed. -/
theorem Snapshots.moves {σ : Type} {install : SnapshotInstaller σ} {world world' : σ}
    {faults : SnapshotFaults} {error : Option Error}
    (h : Snapshots install s world faults error s' world')
    (hfresh : ∀ next world', install (s.snapshotCut faults) world = (.ok (some next), world') →
      FreshLog s.limits s.current next) :
    error ≠ none ∧ s.Moves s' .quiet ∨ error = none ∧ s.Moves s' .switched := by
  cases h with
  | unbarriered e outcome log ne h =>
    refine .inl ⟨by simp, .of_barrier ?_ (.degrade _ _) (.of_eq rfl) h ?_ fun hd => absurd rfl hd⟩
    · exact ⟨rfl, rfl, rfl, rfl, rfl⟩
    · intro hs
      exact hs.known.trans (h.durableThrough ne).ge
  | unevident e log h ne =>
    refine .inl ⟨by simp, .of_barrier ?_ (.degrade _ _) (.of_eq rfl) h (fun _ => le_rfl)
      fun hd => absurd rfl hd⟩
    exact ⟨rfl, rfl, rfl, rfl, rfl⟩
  | refused e log _ h evident installed applied =>
    refine .inl ⟨by simp, .of_barrier ?_ ⟨id, id⟩ (.of_eq rfl) h (fun _ => le_rfl) fun _ => ?_⟩
    · exact ⟨rfl, rfl, rfl, rfl, rfl⟩
    · cases h with
      | done ready => rfl
  | broken e log _ h evident installed applied =>
    refine .inl ⟨by simp, .of_barrier ?_ (.degrade _ _) (.of_eq rfl) h (fun _ => le_rfl)
      fun hd => absurd rfl hd⟩
    exact ⟨rfl, rfl, rfl, rfl, rfl⟩
  | switched log next _ h evident installed durable =>
    refine .inr ⟨rfl, .switched ?_ ⟨id, id⟩ (.of_eq rfl) (hfresh next _ installed) evident⟩
    exact ⟨rfl, rfl, rfl, rfl, rfl⟩

/-! ### Administration and shutdown -/

theorem executeDurableAdmin_moves {σ : Type} (operation : DurableAdminOperation σ)
    (s : DatabaseState) (world : σ) (barrier : Option WAL.BarrierFault) :
    s.Moves (s.executeDurableAdmin operation world barrier).2.1 .quiet := by
  have hbarrier := s.log.barrier_cases barrier
  unfold executeDurableAdmin
  generalize s.log.barrier barrier = result at hbarrier ⊢
  obtain ⟨outcome, log⟩ := result
  cases outcome with
  | panic | error =>
    exact .of_barrier ⟨rfl, rfl, rfl, rfl, rfl⟩ (.degrade _ _) (.of_eq rfl) hbarrier
      (fun hs => hs.known.trans (hbarrier.durableThrough (by simp)).ge) fun hd => absurd rfl hd
  | ok u =>
    have hready : log.failed = s.log.failed := by
      cases hbarrier with
      | done ready => rfl
    simp only
    split
    · exact .of_barrier ⟨rfl, rfl, rfl, rfl, rfl⟩ (.degrade _ _) (.of_eq rfl) hbarrier
        (fun _ => le_rfl) fun hd => absurd rfl hd
    · split
      · exact .of_barrier ⟨rfl, rfl, rfl, rfl, rfl⟩ (.degrade _ _) (.of_eq rfl) hbarrier
          (fun _ => le_rfl) fun hd => absurd rfl hd
      · exact .of_barrier ⟨rfl, rfl, rfl, rfl, rfl⟩ ⟨id, id⟩ (.of_eq rfl) hbarrier
          (fun _ => le_rfl) fun _ => hready
      · exact .of_barrier ⟨rfl, rfl, rfl, rfl, rfl⟩ ⟨id, id⟩ (.of_eq rfl) hbarrier
          (fun _ => le_rfl) fun _ => hready

theorem shutdown_moves (s : DatabaseState) (barrier : Option WAL.BarrierFault) :
    s.Moves (s.shutdown barrier).2 .quiet := by
  have hbarrier := s.log.barrier_cases barrier
  unfold shutdown
  simp only
  generalize s.log.barrier barrier = result at hbarrier ⊢
  obtain ⟨outcome, log⟩ := result
  cases outcome with
  | panic =>
    refine .of_barrier ⟨rfl, rfl, rfl, rfl, rfl⟩ ⟨id, id⟩ (.of_eq rfl) hbarrier
      (fun hs => hs.known.trans (hbarrier.durableThrough (by simp)).ge) fun _ => ?_
    cases hbarrier with
    | panicked storage stream synced => rfl
  | error e =>
    exact .of_barrier ⟨rfl, rfl, rfl, rfl, rfl⟩ (.degrade _ _) (.of_eq rfl) hbarrier
      (fun hs => hs.known.trans (hbarrier.durableThrough (by simp)).ge) fun hd => absurd rfl hd
  | ok u =>
    refine .of_barrier ⟨rfl, rfl, rfl, rfl, rfl⟩ ⟨id, id⟩ (.of_eq rfl) hbarrier (fun hs => ?_)
      fun _ => ?_
    · rw [hbarrier.stable.1.durableThrough, hbarrier.lastRevision, hs.tip]
      exact hs.known.trans hs.le
    · cases hbarrier with
      | done ready => rfl

end

/-! ### The invariant -/

/-- The frames of the active log after a move, from those before it. -/
def Move.frames : Move → List CommitFrame → List CommitFrame
  | .quiet, frames | .torn _ _, frames => frames
  | .published frame, frames => frames ++ [frame]
  | .switched, _ => []

/-- The whole frames in the active log that were never published, after a move. -/
def Move.left : Move → List CommitFrame → List CommitFrame
  | .quiet, left => left
  | .torn frame accepted, _ => if accepted = frame.bytes then [frame] else []
  | .published _, _ | .switched, _ => []

/-- The part of a frame at the end of the active log, after a move. -/
def Move.tail : Move → Bytes → Bytes
  | .quiet, tail => tail
  | .torn frame accepted, _ => if accepted = frame.bytes then [] else accepted
  | .published _, _ | .switched, _ => []

/-- The log is exactly the published frames; only a degraded engine may have one frame, or a
part of one, `left` behind. All revisions are at most `reserved`. -/
structure Tracks (s : DatabaseState) (reserved : Nat) (frames left : List CommitFrame)
    (tail : Bytes) : Prop where
  limits : s.limits.Valid
  logLimits : s.log.limits = s.limits
  header : s.log.header.Encodable
  stream : s.log.stream = walBytes s.log.header (frames ++ left) ++ tail
  log : LogOk s.limits (s.log.header.firstRevision - 1) reserved (frames ++ left)
  current : s.current = lastRevision (s.log.header.firstRevision - 1) frames
  clean : s.Degraded ∨ left = [] ∧ tail = []
  one : left.length ≤ 1
  part : TornFrame s.limits tail
  healthy : s.Degraded ∨ s.Healthy
  allocator : ∀ a, s.allocator = some a → a.Above s.current ∧ a.end_ ≤ reserved

section

variable {s s' : DatabaseState} {reserved reserved' : Nat} {frames left : List CommitFrame}
  {tail : Bytes}

variable (h : s.Tracks reserved frames left tail)

include h

/-- The revisions of frames that passed the allocator and the log are new and reserved. -/
theorem Tracks.concat
    (active : ¬ s.Degraded) (accepts : s.log.Accepts frame) (assigned : s'.Assigned frame.revision)
    (hle : reserved ≤ reserved') (hend : ∀ a, s'.allocator = some a → a.end_ ≤ reserved') :
    LogOk s.limits (s.log.header.firstRevision - 1) reserved' (frames ++ [frame]) := by
  obtain ⟨a', ha', habove⟩ := assigned
  have hhealthy := h.healthy.resolve_left active
  have hrevision : frame.revision ≤ a'.end_ := habove.1
  refine (h.log.append_left.mono hle).concat ?_ ?_ (hrevision.trans (hend a' ha'))
  · exact .of_valid h.limits (h.logLimits ▸ accepts.valid) (h.logLimits ▸ accepts.size)
      (hrevision.trans_lt a'.end_lt)
  · rw [← h.current, ← hhealthy.tip]
    exact accepts.increasing

/-- An engine that is not degraded has a log of published frames only. -/
theorem Tracks.stream_of_active (active : ¬ s.Degraded) :
    left = [] ∧ tail = [] ∧ s.log.stream = walBytes s.log.header frames := by
  obtain ⟨hleft, htail⟩ := h.clean.resolve_left active
  refine ⟨hleft, htail, ?_⟩
  rw [h.stream, hleft, htail, List.append_nil, List.append_nil]

theorem Tracks.quiet (hmove : s.Moves s' .quiet)
    (hle : reserved ≤ reserved') (hend : ∀ a, s'.allocator = some a → a.end_ ≤ reserved') :
    s'.Tracks reserved' frames left tail := by
  cases hmove with
  | quiet same ages advances extends_ lastRevision healthy =>
  refine ⟨same.limits ▸ h.limits, ?_, extends_.header ▸ h.header, ?_, ?_, ?_, ?_, h.one, ?_, ?_, ?_⟩
  · rw [extends_.limits, same.limits, h.logLimits]
  · rw [extends_.stream, h.stream, extends_.header, List.append_nil]
  · rw [same.limits, extends_.header]
    exact h.log.mono hle
  · rw [same.current, extends_.header]
    exact h.current
  · exact h.clean.imp_left ages.degraded
  · rw [same.limits]
    exact h.part
  · by_cases hd : s'.Degraded
    · exact .inl hd
    · exact .inr (healthy hd (h.healthy.resolve_left fun hs => hd (ages.degraded hs)))
  · intro a ha
    obtain ⟨b, hb, hb'⟩ := advances a ha
    exact ⟨same.current ▸ hb' _ (h.allocator b hb).1, hend a ha⟩

theorem Tracks.torn {accepted : Bytes} (hmove : s.Moves s' (.torn frame accepted))
    (hle : reserved ≤ reserved') (hend : ∀ a, s'.allocator = some a → a.end_ ≤ reserved') :
    s'.Tracks reserved' frames (Move.left (.torn frame accepted) left)
      (Move.tail (.torn frame accepted) tail) := by
  cases hmove with
  | torn _ _ active degraded same advances assigned accepts extends_ isPrefix =>
  have hconcat := h.concat active accepts assigned hle hend
  have hstream := (h.stream_of_active active).2.2
  have hallocator : ∀ a, s'.allocator = some a → a.Above s'.current ∧ a.end_ ≤ reserved' := by
    intro a ha
    obtain ⟨b, hb, hb'⟩ := advances a ha
    exact ⟨same.current ▸ hb' _ (h.allocator b hb).1, hend a ha⟩
  have hcurrent : s'.current = lastRevision (s'.log.header.firstRevision - 1) frames := by
    rw [same.current, extends_.header]
    exact h.current
  have hlimits : s'.log.limits = s'.limits := by
    rw [extends_.limits, same.limits, h.logLimits]
  by_cases hfull : accepted = frame.bytes
  · simp only [Move.left, Move.tail, hfull, if_true]
    refine ⟨same.limits ▸ h.limits, hlimits, extends_.header ▸ h.header, ?_, ?_, hcurrent,
      .inl degraded, le_rfl, .inl rfl, .inl degraded, hallocator⟩
    · rw [extends_.stream, hstream, extends_.header, hfull]
      simp [walBytes]
    · rw [same.limits, extends_.header]
      exact hconcat
  · simp only [Move.left, Move.tail, hfull, if_false]
    refine ⟨same.limits ▸ h.limits, hlimits, extends_.header ▸ h.header, ?_, ?_, hcurrent,
      .inl degraded, Nat.zero_le _, ?_, .inl degraded, hallocator⟩
    · rw [extends_.stream, hstream, extends_.header, List.append_nil]
    · rw [same.limits, extends_.header, List.append_nil]
      exact hconcat.append_left
    · rw [same.limits]
      refine .inr ⟨frame, hconcat.encodable frame (by simp), isPrefix, ?_⟩
      exact lt_of_le_of_ne isPrefix.length_le fun hlen => hfull (isPrefix.eq_of_length hlen)

theorem Tracks.published (hmove : s.Moves s' (.published frame)) (hle : reserved ≤ reserved')
    (hend : ∀ a, s'.allocator = some a → a.end_ ≤ reserved') :
    s'.Tracks reserved' (frames ++ [frame]) [] [] := by
  cases hmove with
  | published _ active ages advances assigned accepts extends_ records current history limits
      databaseID healthy =>
  have hconcat := h.concat active accepts assigned hle hend
  have hstream := (h.stream_of_active active).2.2
  refine ⟨limits ▸ h.limits, ?_, extends_.header ▸ h.header, ?_, ?_, ?_, .inr ⟨rfl, rfl⟩,
    Nat.zero_le _, .inl rfl, ?_, ?_⟩
  · rw [extends_.limits, limits, h.logLimits]
  · rw [extends_.stream, hstream, extends_.header]
    simp [walBytes]
  · rw [limits, extends_.header, List.append_nil]
    exact hconcat
  · rw [current, extends_.header]
    simp [lastRevision]
  · by_cases hd : s'.Degraded
    · exact .inl hd
    · exact .inr (healthy hd)
  · intro a ha
    obtain ⟨a', ha', habove⟩ := assigned
    rw [ha, Option.some.injEq] at ha'
    subst ha'
    exact ⟨current ▸ habove, hend a ha⟩

theorem Tracks.switched (hmove : s.Moves s' .switched)
    (hend : ∀ a, s'.allocator = some a → a.end_ ≤ reserved') : s'.Tracks reserved' [] [] [] := by
  cases hmove with
  | switched same ages advances fresh known =>
  refine ⟨same.limits ▸ h.limits, ?_, fresh.header, ?_, ?_, ?_, .inr ⟨rfl, rfl⟩, Nat.zero_le _,
    .inl rfl, .inr ⟨fresh.ready, ?_, ?_, ?_⟩, ?_⟩
  · rw [fresh.limits, same.limits]
  · rw [fresh.stream]
    simp [walBytes]
  · exact ⟨by simp, by simp, by simp⟩
  · rw [fresh.first, Nat.add_sub_cancel]
    exact same.current
  · rw [fresh.lastRevision, same.current]
  · rw [known, fresh.durableThrough]
  · rw [fresh.durableThrough, same.current]
  · intro a ha
    obtain ⟨b, hb, hb'⟩ := advances a ha
    exact ⟨same.current ▸ hb' _ (h.allocator b hb).1, hend a ha⟩

/-- Every move keeps the invariant. -/
theorem Tracks.move {move : Move} (hmove : s.Moves s' move) (hle : reserved ≤ reserved')
    (hend : ∀ a, s'.allocator = some a → a.end_ ≤ reserved') :
    s'.Tracks reserved' (move.frames frames) (move.left left) (move.tail tail) := by
  cases move with
  | quiet => exact h.quiet hmove hle hend
  | torn frame accepted => exact h.torn hmove hle hend
  | published frame => exact h.published hmove hle hend
  | switched => exact h.switched hmove hend

end

end DatabaseState

end GapDB
