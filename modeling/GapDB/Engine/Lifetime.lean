import GapDB.Engine.Crash

/-!
# The lifetime of an engine

Snapshots move an engine from one log to the next, and a shutdown ends it. Over all of its logs
together an engine has published exactly the frames it appended; a frame beyond those is the last
thing it ever appends, because by then the engine is degraded.
-/

namespace GapDB

open Storelib DatabaseState

/-- Everything the writer can be asked for. -/
inductive Request (σ : Type) where
  | command (c : Command σ)
  | snapshot (install : SnapshotInstaller σ) (faults : SnapshotFaults)
  /-- The queue is closed and empty. -/
  | shutdown (barrier : Option WAL.BarrierFault)

namespace Request

variable {σ : Type}

def run (s : DatabaseState) (world : σ) : Request σ → Reply × DatabaseState × σ
  | .command c => c.run s world
  | .snapshot install faults =>
    let ((result, error), s, world) := s.executeSnapshot install world faults
    (.snapshot result error, s, world)
  | .shutdown barrier =>
    let (error, s) := s.shutdown barrier
    (.closed error, s, world)

def turn (s : DatabaseState) (world : σ) : Request σ → Turn
  | .command c => c.turn s world
  | r => ⟨none, 0, none, s, (r.run s world).1, (r.run s world).2.1⟩

/-- What an installer owes the engine: the log it returns is empty and continues after the cut. -/
def Fresh (limits : Limits) : Request σ → Prop
  | .snapshot install _ => ∀ cut world next world',
      install cut world = (.ok (some next), world') → FreshLog limits cut.revision next
  | .command _ | .shutdown _ => True

theorem turn_before (s : DatabaseState) (world : σ) (r : Request σ) :
    (r.turn s world).before = s := by
  cases r <;> rfl

theorem turn_after (s : DatabaseState) (world : σ) (r : Request σ) :
    (r.turn s world).after = (r.run s world).2.1 := by
  cases r <;> rfl

end Request

/-- Serve the requests from left to right. -/
def live {σ : Type} (s : DatabaseState) (world : σ) :
    List (Request σ) → List Turn × DatabaseState × σ
  | [] => ([], s, world)
  | r :: rs =>
    let rest := live (r.run s world).2.1 (r.run s world).2.2 rs
    (r.turn s world :: rest.1, rest.2)

theorem live_concat {σ : Type} (s : DatabaseState) (world : σ) (rs : List (Request σ))
    (r : Request σ) :
    live s world (rs ++ [r])
      = ((live s world rs).1 ++ [r.turn (live s world rs).2.1 (live s world rs).2.2],
          (r.run (live s world rs).2.1 (live s world rs).2.2).2) := by
  induction rs generalizing s world with
  | nil => rfl
  | cons q rs ih => simp only [List.cons_append, live, ih]

/-! ### What a turn appends -/

namespace Turn

/-- The turn ended on a log that a snapshot installed. -/
def switched (t : Turn) : Bool :=
  match t.reply with
  | .snapshot _ none => true
  | _ => false

/-- The bytes of commits that the turn added to the log it ended on. -/
def appended (t : Turn) : Bytes :=
  t.after.log.stream.drop (if t.switched then walHeaderSize else t.before.log.stream.length)

end Turn

/-- The bytes that a list of turns appended, over all logs. -/
def appended (turns : List Turn) : Bytes := turns.flatMap Turn.appended

namespace DatabaseState.Move

/-- The bytes a move appends. -/
def appended : Move → Bytes
  | .quiet | .switched => []
  | .torn _ accepted => accepted
  | .published frame => frame.bytes

end DatabaseState.Move

theorem Command.switched_turn {σ : Type} (s : DatabaseState) (world : σ) (c : Command σ) :
    (c.turn s world).switched = false := by
  cases c <;> rfl

theorem Turn.Moved.appended_eq {t : Turn} {move : Move} (h : t.Moved move)
    (hswitched : t.switched = true ↔ move = .switched) : t.appended = move.appended := by
  have hmoves := h.moves
  have hlog : ∀ added, t.before.log.Extends t.after.log added → t.switched = false →
      t.appended = added := by
    intro added hextends hfalse
    rw [Turn.appended, hfalse, hextends.stream]
    exact List.drop_left
  cases hmoves with
  | quiet same ages advances extends_
  | torn frame accepted active degraded same advances assigned accepts extends_
  | published frame active ages advances assigned accepts extends_ =>
    exact hlog _ extends_ (by simpa using hswitched)
  | switched same ages advances fresh =>
    rw [Turn.appended, if_pos (hswitched.mpr rfl), fresh.stream]
    exact List.drop_eq_nil_of_le (by rw [WALHeader.bytes_length, walHeaderSize])

section

variable {σ : Type} {s : DatabaseState} {reserved : Nat} {frames left : List CommitFrame}
  {tail : Bytes}

/-- Every request makes a move; it switches logs exactly if it is a snapshot that succeeded. -/
theorem Request.moved (h : s.Tracks reserved frames left tail) (world : σ) {r : Request σ}
    (hfresh : r.Fresh s.limits) :
    ∃ move, (r.turn s world).Moved move ∧
      ((r.turn s world).switched = true ↔ move = .switched) := by
  cases r with
  | command c =>
    obtain ⟨move, hmoved, hne⟩ := c.moved h world
    refine ⟨move, hmoved, ?_⟩
    rw [show (Request.command c).turn s world = c.turn s world from rfl, c.switched_turn]
    simpa using hne
  | snapshot install faults =>
    have hcases := (executeSnapshot_cases install s world faults).moves
      fun next world' hinstall => hfresh _ world next world' hinstall
    have hreply : ((Request.snapshot install faults).turn s world).switched = true ↔
        (s.executeSnapshot install world faults).1.2 = none := by
      simp only [Request.turn, Request.run, Turn.switched]
      cases (s.executeSnapshot install world faults).1.2 <;> simp
    rcases hcases with ⟨herror, hmoves⟩ | ⟨herror, hmoves⟩
    · exact ⟨.quiet, ⟨hmoves, .inl ⟨rfl, rfl, .inl rfl⟩⟩, by simpa [hreply] using herror⟩
    · exact ⟨.switched, ⟨hmoves, .inl ⟨rfl, rfl, .inr rfl⟩⟩, by simpa [hreply] using herror⟩
  | shutdown barrier =>
    exact ⟨.quiet, ⟨shutdown_moves s barrier, .inl ⟨rfl, rfl, .inl rfl⟩⟩,
      by simp [Request.turn, Request.run, Turn.switched]⟩

/-- An engine that came from `s` appended `frames` and published them; `extra` and `torn` are what
it appended beyond that. -/
structure Lived (s : DatabaseState) (turns : List Turn) (s' : DatabaseState)
    (frames extra : List CommitFrame) (torn : Bytes) : Prop where
  appended : appended turns = logBytes CommitFrame.bytes (frames ++ extra) ++ torn
  encodable : ∀ frame ∈ frames ++ extra, frame.Encodable s.limits
  part : TornFrame s.limits torn
  folds : s.Folds s' frames
  limits : s'.limits = s.limits
  one : extra.length ≤ 1
  clean : s'.Degraded ∨ extra = [] ∧ torn = []

theorem DatabaseState.Moves.limits_eq {s' : DatabaseState} {move : Move} (h : s.Moves s' move) :
    s'.limits = s.limits := by
  cases h with
  | quiet same | torn _ _ _ _ same | switched same => exact same.limits
  | published frame active ages advances assigned accepts extends_ records current history limits =>
    exact limits

theorem DatabaseState.Moves.degraded {s' : DatabaseState} {move : Move} (h : s.Moves s' move)
    (hdegraded : s.Degraded) : s'.Degraded := by
  cases h with
  | quiet same ages | switched same ages => exact ages.degraded hdegraded
  | torn frame accepted active | published frame active => exact absurd hdegraded active

/-- One more turn. -/
theorem Lived.move {turns : List Turn} {t : Turn} {extra : List CommitFrame} {torn : Bytes}
    {frames' left' : List CommitFrame} {tail' : Bytes} {move : Move}
    (h : Lived s turns t.before frames extra torn) (hmoved : t.Moved move)
    (hswitched : t.switched = true ↔ move = .switched)
    (htracks : t.after.Tracks reserved (move.frames frames') (move.left left') (move.tail tail')) :
    ∃ frames extra torn, Lived s (turns ++ [t]) t.after frames extra torn := by
  have hmoves := hmoved.moves
  have happended : GapDB.appended (turns ++ [t])
      = logBytes CommitFrame.bytes (frames ++ extra) ++ torn ++ move.appended := by
    rw [GapDB.appended, List.flatMap_append, ← GapDB.appended, h.appended, List.flatMap_cons,
      List.flatMap_nil, List.append_nil, hmoved.appended_eq hswitched]
  have hfolds := hmoves.folds h.folds
  have hlimits := hmoves.limits_eq.trans h.limits
  have hencodable := htracks.log.encodable
  have hpart := htracks.part
  rw [hlimits] at hencodable hpart
  -- a move that appends anything starts from an engine that is not degraded
  have hclean : ¬ t.before.Degraded → extra = [] ∧ torn = [] := h.clean.resolve_left
  cases hmoves with
  | quiet same ages | switched same ages =>
    refine ⟨frames, extra, torn, by simpa [Move.appended] using happended, h.encodable, h.part,
      by simpa [Move.out] using hfolds, hlimits, h.one, h.clean.imp_left ages.degraded⟩
  | published frame active =>
    obtain ⟨rfl, rfl⟩ := hclean active
    refine ⟨frames ++ [frame], [], [], by simpa [Move.appended] using happended, ?_, .inl rfl,
      by simpa [Move.out] using hfolds, hlimits, Nat.zero_le _, .inr ⟨rfl, rfl⟩⟩
    intro f hf
    rcases List.mem_append.mp (by simpa using hf : f ∈ frames ++ [frame]) with hf | hf
    · exact h.encodable f (by simpa using hf)
    · exact hencodable f (by simpa [Move.frames, Move.left] using .inr (by simpa using hf))
  | torn frame accepted active degraded =>
    obtain ⟨rfl, rfl⟩ := hclean active
    by_cases hfull : accepted = frame.bytes
    · refine ⟨frames, [frame], [], by simpa [Move.appended, hfull] using happended, ?_, .inl rfl,
        by simpa [Move.out] using hfolds, hlimits, le_rfl, .inl degraded⟩
      intro f hf
      rcases List.mem_append.mp hf with hf | hf
      · exact h.encodable f (by simpa using hf)
      · exact hencodable f (by simpa [Move.frames, Move.left, hfull] using .inr (by simpa using hf))
    · refine ⟨frames, [], accepted, by simpa [Move.appended] using happended,
        by simpa using h.encodable, ?_, by simpa [Move.out] using hfolds, hlimits, Nat.zero_le _,
        .inl degraded⟩
      simpa [Move.tail, hfull] using hpart

theorem lived {s : DatabaseState} (h : s.Tracks reserved frames [] []) (world : σ)
    {rs : List (Request σ)} (hfresh : ∀ r ∈ rs, r.Fresh s.limits) :
    (∃ frames extra torn, Lived s (live s world rs).1 (live s world rs).2.1 frames extra torn) ∧
      ∃ reserved frames left tail, (live s world rs).2.1.Tracks reserved frames left tail := by
  induction rs using List.reverseRecOn with
  | nil =>
    refine ⟨⟨[], [], [], ?_⟩, reserved, frames, [], [], h⟩
    exact ⟨rfl, by simp, .inl rfl, ⟨rfl, rfl, rfl⟩, rfl, Nat.zero_le _, .inr ⟨rfl, rfl⟩⟩
  | append_singleton rs r ih =>
    obtain ⟨⟨frames, extra, torn, hlived⟩, reserved', frames', left', tail', htracks⟩ :=
      ih fun q hq => hfresh q (by simp [hq])
    rw [live_concat]
    generalize live s world rs = past at hlived htracks ⊢
    obtain ⟨turns, s', world'⟩ := past
    simp only at hlived htracks ⊢
    obtain ⟨move, hmoved, hswitched⟩ :=
      Request.moved htracks world' (hlived.limits ▸ hfresh r (by simp))
    have hmoves := hmoved.moves
    rw [r.turn_before, r.turn_after] at hmoves
    obtain ⟨reserved'', hle, hend⟩ := exists_reserved (r.run s' world').2.1 reserved'
    have htracks' := htracks.move hmoves hle hend
    refine ⟨?_, _, _, _, _, htracks'⟩
    have hlived' : Lived s turns (r.turn s' world').before frames extra torn := by
      rwa [r.turn_before]
    rw [← r.turn_after] at htracks' ⊢
    exact hlived'.move hmoved hswitched htracks'

/-- A degraded engine stays as it is, whatever it is asked for. -/
theorem degraded_absorbs {s : DatabaseState} {left : List CommitFrame} {tail : Bytes}
    (h : s.Tracks reserved frames left tail) (hdegraded : s.Degraded) (world : σ)
    {rs : List (Request σ)} (hfresh : ∀ r ∈ rs, r.Fresh s.limits) :
    (live s world rs).2.1.Degraded ∧ s.Same (live s world rs).2.1 ∧
      ∀ t ∈ (live s world rs).1, t.appended = [] := by
  induction rs generalizing s world reserved frames left tail with
  | nil => exact ⟨hdegraded, .refl s, by simp [live]⟩
  | cons r rs ih =>
    obtain ⟨move, hmoved, hswitched⟩ := Request.moved h world (hfresh r (by simp))
    have happended := hmoved.appended_eq hswitched
    have hmoves := hmoved.moves
    rw [r.turn_before, r.turn_after] at hmoves
    obtain ⟨hsame, hages, hnone⟩ :
        s.Same (r.run s world).2.1 ∧ s.Ages (r.run s world).2.1 ∧ move.appended = [] := by
      cases hmoves with
      | quiet same ages | switched same ages => exact ⟨same, ages, rfl⟩
      | torn frame accepted active | published frame active => exact absurd hdegraded active
    obtain ⟨reserved', hle, hend⟩ := exists_reserved (r.run s world).2.1 reserved
    obtain ⟨hd, hsame', hrest⟩ := ih (h.move hmoves hle hend) (hages.degraded hdegraded)
      (r.run s world).2.2 fun q hq => hsame.limits ▸ hfresh q (by simp [hq])
    refine ⟨hd, ?_, ?_⟩
    · exact ⟨hsame'.records.trans hsame.records, hsame'.current.trans hsame.current,
        hsame'.history.trans hsame.history, hsame'.limits.trans hsame.limits,
        hsame'.databaseID.trans hsame.databaseID⟩
    · intro t ht
      rcases List.mem_cons.mp ht with rfl | ht
      · exact happended.trans hnone
      · exact hrest t ht

end

/-- What an engine has published is the fold of the frames it appended, over all of its logs. Only
a degraded engine may have appended one frame more, or a part of one, and it stays as it is. -/
theorem write_ahead_invariant {σ : Type} {config : Config} {s : DatabaseState}
    {snapshot : List Record} {base : List CommitFrame} (hopen : newState config = .ok s)
    (hconfig : config.Continues snapshot base) (world : σ) (earlier later : List (Request σ))
    (hfresh : ∀ r ∈ earlier ++ later, r.Fresh config.effectiveLimits)
    {turns turns' : List Turn} {s₁ s₂ : DatabaseState} {world₁ world₂ : σ}
    (hearlier : live s world earlier = (turns, s₁, world₁))
    (hlater : live s₁ world₁ later = (turns', s₂, world₂)) :
    (∃ frames extra torn,
      appended turns = logBytes CommitFrame.bytes (frames ++ extra) ++ torn ∧
      (∀ frame ∈ frames ++ extra, frame.Encodable config.effectiveLimits) ∧
      TornFrame config.effectiveLimits torn ∧
      s₁.records = replayCommits s.records frames ∧
      s₁.current = lastRevision s.current frames ∧
      s₁.history = s.history.appendCommits frames ∧
      extra.length ≤ 1 ∧ (extra ≠ [] ∨ torn ≠ [] → s₁.lifecycle = .degradedReadOnly)) ∧
    (s₁.lifecycle = .degradedReadOnly →
      s₂.records = s₁.records ∧ s₂.current = s₁.current ∧ s₂.history = s₁.history ∧
      s₂.lifecycle = .degradedReadOnly ∧ ∀ t ∈ turns', t.appended = []) := by
  have ho := opened_of_newState hopen
  obtain ⟨reserved, htracks⟩ := hconfig.tracks ho
  have hfresh₁ : ∀ r ∈ earlier, r.Fresh s.limits := fun r hr =>
    ho.limits ▸ hfresh r (List.mem_append_left _ hr)
  obtain ⟨⟨frames, extra, torn, hlived⟩, reserved', frames', left', tail', htracks'⟩ :=
    lived htracks world hfresh₁
  rw [hearlier] at hlived htracks'
  simp only at hlived htracks'
  refine ⟨⟨frames, extra, torn, hlived.appended, ?_, ?_, hlived.folds.records,
    hlived.folds.current, hlived.folds.history, hlived.one, fun hne => ?_⟩, fun hdegraded => ?_⟩
  · rw [← ho.limits]
    exact hlived.encodable
  · rw [← ho.limits]
    exact hlived.part
  · refine hlived.clean.resolve_right fun ⟨hextra, htorn⟩ => ?_
    exact hne.elim (fun h => h hextra) fun h => h htorn
  · have hlimits : s₁.limits = config.effectiveLimits := hlived.limits.trans ho.limits
    obtain ⟨hd, hsame, happended⟩ := degraded_absorbs htracks' hdegraded world₁
      fun r hr => hlimits ▸ hfresh r (List.mem_append_right _ hr)
    rw [hlater] at hd hsame happended
    exact ⟨hsame.records, hsame.current, hsame.history, hd, happended⟩

theorem write_ahead_invariant_samplePut :
    ∃ s, newState (newDatabase sampleID defaultLimits) = .ok s ∧
      let past := live s () [.command samplePut, .command .markAdminDegraded]
      past.2.1.lifecycle = .degradedReadOnly ∧
        (live past.2.1 () [.command samplePut]).2.1.records = past.2.1.records := by
  obtain ⟨s, hs⟩ := newDatabase_opens
  have h := write_ahead_invariant hs newDatabase_continues ()
    [.command samplePut, .command .markAdminDegraded] [.command samplePut]
    (by simp [Request.Fresh]) rfl rfl
  exact ⟨s, hs, rfl, (h.2 rfl).1⟩

end GapDB
