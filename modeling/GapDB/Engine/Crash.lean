import GapDB.Engine.Run

/-!
# What a crash leaves of a run

An engine is opened on a snapshot and the commits recovery found in the log. Whatever it is asked
to do on that log, every file a crash can leave scans to a prefix of what was committed, and
replaying the frames gives back what the engine had published.
-/

namespace GapDB

open Storelib DatabaseState

variable {frames left : List CommitFrame}

/-- The configuration is what an owner makes of a snapshot and the commits in its log. -/
structure Config.Continues (config : Config) (snapshot : List Record) (base : List CommitFrame) :
    Prop where
  limits : config.log.limits = config.effectiveLimits
  header : config.log.header.Encodable
  databaseID : config.log.header.databaseID = config.databaseID
  first : config.log.header.firstRevision = config.snapshotRevision + 1
  stream : config.log.stream = walBytes config.log.header base
  commits : ∃ reserved, LogOk config.effectiveLimits config.snapshotRevision reserved base ∧
    ∀ a, config.allocator = some a → a.Above config.currentRevision ∧ a.end_ ≤ reserved
  lastRevision : config.log.lastRevision = config.currentRevision
  durableThrough : config.log.durableThrough = config.durableThroughRevision
  ready : config.log.failed = false
  records : recordsOf config.records = replayRecords snapshot base
  current : config.currentRevision = GapDB.lastRevision config.snapshotRevision base
  recovered : config.recoveredCommits = base

section

variable {config : Config} {s : DatabaseState} {snapshot : List Record} {base : List CommitFrame}

/-- The engine starts with a log of exactly the commits it was given. -/
theorem Config.Continues.tracks (h : config.Continues snapshot base) (ho : Opened config s) :
    ∃ reserved, s.Tracks reserved base [] [] := by
  obtain ⟨reserved, hlog, hallocator⟩ := h.commits
  have hfirst : s.log.header.firstRevision - 1 = config.snapshotRevision := by
    rw [ho.log, h.first, Nat.add_sub_cancel]
  refine ⟨reserved, ho.limitsValid, ?_, ?_, ?_, ?_, ?_, .inr ⟨rfl, rfl⟩, Nat.zero_le _, .inl rfl,
    .inr ⟨?_, ?_, ?_, ?_⟩, ?_⟩
  · rw [ho.log, h.limits, ho.limits]
  · rw [ho.log]
    exact h.header
  · rw [ho.log, h.stream, List.append_nil, List.append_nil]
  · rw [hfirst, ho.limits, List.append_nil]
    exact hlog
  · rw [hfirst, ho.current]
    exact h.current
  · rw [ho.log]
    exact h.ready
  · rw [ho.log, h.lastRevision, ho.current]
  · rw [ho.log, h.durableThrough, ho.durableThrough]
  · rw [ho.log, h.durableThrough, ho.current]
    exact ho.known
  · rw [ho.allocator, ho.current]
    exact hallocator

theorem Config.Continues.records_eq (h : config.Continues snapshot base) (ho : Opened config s) :
    s.records = replayRecords snapshot base :=
  ho.records.trans h.records

theorem Config.Continues.history_eq (h : config.Continues snapshot base) (ho : Opened config s) :
    s.history = (HistoryLog.initialized config.effectiveLimits
      config.snapshotRevision).appendCommits base := by
  obtain ⟨reserved, hlog, _⟩ := h.commits
  have hrebuild : (HistoryLog.initialized config.effectiveLimits
      config.snapshotRevision).rebuildFrom
      config.currentRevision config.snapshotRevision config.recoveredCommits = .ok s.history :=
    ho.history
  rw [h.recovered, HistoryLog.rebuildFrom_eq hlog.increasing h.current.symm,
    Except.ok.injEq] at hrebuild
  exact hrebuild.symm

/-- The scan of any truncation of a log that the engine tracks. -/
theorem DatabaseState.Tracks.scan {reserved reservedEnd : Nat}
    {tail file : Bytes} (h : s.Tracks reserved frames left tail) (hfile : file <+: s.log.stream)
    (hheader : walHeaderSize ≤ file.length)
    (hreserved : ∀ frame ∈ frames ++ left, frame.revision ≤ reservedEnd) :
    ∃ k replay, ScansTo s.log.header (frames ++ left) file k replay ∧
      scanWAL file s.log.header.databaseID (s.log.header.firstRevision - 1) reservedEnd s.limits
        = .ok replay := by
  rw [h.stream] at hfile
  exact scanWAL_prefix h.header ⟨h.log.encodable, h.log.increasing, hreserved⟩ h.part hfile
    hheader

/-- A frame is left behind only by a command that told its client so. -/
theorem Turn.Moved.applied_of_left {t : Turn} {move : Move} {frame : CommitFrame} {reserved : Nat}
    {tail : Bytes} (h : t.Moved move)
    (hswitched : move ≠ .switched) (hs : t.before.Tracks reserved frames left tail)
    (hframe : frame ∈ t.left) :
    ∃ e, t.reply = .commit (.error e) ∧ e.operationApplied = true := by
  have hleft := h.left_eq hs hswitched
  have hne : t.left ≠ [] := List.ne_nil_of_mem hframe
  rcases h.answers with ⟨_, _, rfl | rfl⟩
    | ⟨batch, single, assigned, result, _, hreply, _, hanswers⟩
  · simp [Move.left, hne] at hleft
  · exact absurd rfl hswitched
  · cases hanswers with
    | refused | committed => simp [Move.left, hne] at hleft
    | torn e revision accepted proper admitted =>
      refine ⟨e, hreply, (Bool.eq_false_or_eq_true _).resolve_right fun hfalse => ?_⟩
      simp [Move.left, proper hfalse, hne] at hleft
    | unacknowledged e revision applied degraded admitted => exact ⟨e, hreply, applied⟩

end

/-- The configuration of a new database, whose log is its header. -/
def newDatabase (id : DatabaseID) (limits : Limits) : Config where
  limits := limits
  log :=
    { path := ascii "wal-00000000000000000001.gdb", header := ⟨id, 1, 1⟩, limits
      storage := ⟨.stable (WALHeader.bytes ⟨id, 1, 1⟩), []⟩, lastRevision := 0,
        durableThrough := 0 }
  allocator := some ⟨1, 1048576, false, by decide, by decide⟩
  databaseID := id
  reservedRevisionEnd := 1048576
  activeWALStart := 1

theorem newDatabase_opens : ∃ s, newState (newDatabase sampleID defaultLimits) = .ok s := ⟨_, rfl⟩

theorem newDatabase_isSome :
    (newState (newDatabase sampleID defaultLimits)).toOption.isSome = true := rfl

def sampleEngine : DatabaseState :=
  (newState (newDatabase sampleID defaultLimits)).toOption.get newDatabase_isSome

theorem sampleEngine_opens : newState (newDatabase sampleID defaultLimits) = .ok sampleEngine := rfl

theorem newDatabase_continues : (newDatabase sampleID defaultLimits).Continues [] [] where
  limits := rfl
  header := ⟨by decide, by decide, by decide⟩
  databaseID := rfl
  first := rfl
  stream := by simp [newDatabase, WAL.stream, BufferedFile.stream, File.stable, walBytes]
  commits := by
    refine ⟨1048576, ⟨by simp, by simp, by simp⟩, fun a ha => ?_⟩
    obtain rfl : _ = a := Option.some.inj ha
    exact ⟨⟨Nat.zero_le _, fun _ => Nat.one_pos⟩, le_rfl⟩
  lastRevision := rfl
  durableThrough := rfl
  ready := rfl
  records := rfl
  current := rfl
  recovered := rfl

/-- A durable batch for the new database, with an assertion, a condition and an expiry. -/
def sampleBatch : Batch :=
  ⟨.durable, [⟨[99], ⟨.absent, 0⟩⟩],
    [newPutMutation [97] [1] ⟨.absent, 0⟩ none, newPutMutation [98] [2] ⟨.any, 0⟩ (some 1000)]⟩

def samplePut : Command Unit := .mutation none sampleBatch .batch { source := 0 }

/-- A batch in memory that changes what the first one wrote. -/
def sampleChanges : Batch :=
  ⟨.memory, [⟨[99], ⟨.absent, 0⟩⟩],
    [newPutMutation [97] [3] ⟨.revision, 1⟩ none, newDeleteMutation [98] 1]⟩

def sampleChange : Command Unit := .mutation none sampleChanges .batch { source := 0 }

section

variable {σ : Type} {config : Config} {s : DatabaseState} {snapshot : List Record}
  {base : List CommitFrame}

/-- The commits of a run in the order of the log, after those it started with. -/
def committed (base : List CommitFrame) (turns : List Turn) : List CommitFrame :=
  base ++ published turns ++ leftBehind turns

/-- Every file a crash can leave scans to a prefix of the commits: it is a prefix of the bytes that
were appended, and as long as the last successful barrier left it. -/
theorem durable_commits_survive_crash (hopen : newState config = .ok s)
    (hconfig : config.Continues snapshot base) (world : σ) (commands : List (Command σ))
    {turns : List Turn} {s' : DatabaseState} {world' : σ}
    (hrun : runAll s world commands = (turns, s', world')) {file : Bytes}
    (hfile : file <+: s'.log.stream) (hheader : walHeaderSize ≤ file.length)
    (hbarrier : s'.log.storage.file.synced ≤ file.length)
    {reservedEnd : Nat} (hreserved : ∀ frame ∈ committed base turns, frame.revision ≤ reservedEnd) :
    ∃ k replay, scanWAL file config.databaseID config.snapshotRevision reservedEnd
        config.effectiveLimits = .ok replay ∧
      -- what is recovered is the state after the first `k` commits
      replay.commits = (committed base turns).take k ∧
      replay.recoveredRevision
        = lastRevision config.snapshotRevision ((committed base turns).take k) ∧
      -- among which are all that were acknowledged as durable
      (∀ t ∈ turns, ∀ result, t.Acknowledged result → result.result.ack = .durable →
        ∃ frame i, t.frame = some frame ∧ i < k ∧ (committed base turns)[i]? = some frame) ∧
      -- the states of the engine itself are states after a number of commits, too
      (∀ t ∈ turns, ∃ j, t.after.records
          = replayRecords snapshot ((committed base turns).take j) ∧
        t.after.current = lastRevision config.snapshotRevision ((committed base turns).take j)) ∧
      -- and the only commit no client was told of is one that was reported as possibly applied
      ∀ t ∈ turns, ∀ frame ∈ t.left,
        ∃ e, t.reply = .commit (.error e) ∧ e.operationApplied = true := by
  have ho := opened_of_newState hopen
  obtain ⟨reserved, htracks⟩ := hconfig.tracks ho
  have hran := ran htracks world commands
  rw [hrun] at hran
  simp only at hran
  obtain ⟨reserved', tail, htracks'⟩ := hran.tracks
  obtain ⟨k, replay, hscans, hscan⟩ := htracks'.scan hfile hheader hreserved
  have hfirst : s'.log.header.firstRevision - 1 = config.snapshotRevision := by
    rw [hran.header, ho.log, hconfig.first, Nat.add_sub_cancel]
  have hid : s'.log.header.databaseID = config.databaseID := by
    rw [hran.header, ho.log, hconfig.databaseID]
  have hrevision := hscans.recoveredRevision
  rw [hfirst] at hrevision
  rw [hid, hfirst, hran.limits, ho.limits] at hscan
  refine ⟨k, replay, hscan, hscans.commits, hrevision, ?_, ?_, ?_⟩
  · intro t ht result hack hdurable
    obtain ⟨before, after, frame, hframe, hsplit, _, hstream⟩ :=
      hran.acknowledged t ht result hack
    have hcommitted : committed base turns
        = (base ++ (before ++ [frame])) ++ (after ++ leftBehind turns) := by
      simp [committed, hsplit]
    have htake : (committed base turns).take (base ++ (before ++ [frame])).length
        = base ++ (before ++ [frame]) := by
      rw [hcommitted]
      exact List.take_left' rfl
    have hlen := (hran.barred t ht result hack hdurable).trans hbarrier
    rw [hstream, ← hran.header, ← htake] at hlen
    have hle : (base ++ (before ++ [frame])).length ≤ (committed base turns).length := by
      rw [hcommitted]
      exact (List.prefix_append _ _).length_le
    have hk := hscans.whole _ hle hlen
    refine ⟨frame, (base ++ before).length, hframe, ?_, ?_⟩
    · simp only [List.length_append, List.length_singleton] at hk ⊢
      omega
    · rw [hcommitted]
      simp
  · intro t ht
    obtain ⟨before, after, hsplit, hfold⟩ := hran.states t ht
    have htake : (committed base turns).take (base ++ before).length = base ++ before := by
      rw [committed, hsplit, List.append_assoc, List.append_assoc, ← List.append_assoc]
      exact List.take_left' rfl
    refine ⟨(base ++ before).length, ?_, ?_⟩
    · rw [htake, hfold.records, hconfig.records_eq ho, replayRecords, replayRecords,
        replayCommits_append]
    · rw [htake, hfold.current, ho.current, hconfig.current, lastRevision_append]
  · intro t ht frame hframe
    obtain ⟨move, hmoved, hswitched, _, _, _, _, hbefore⟩ := hran.moved t ht
    exact hmoved.applied_of_left hswitched hbefore hframe

theorem sampleChange_unsynced (hs : newState (newDatabase sampleID defaultLimits) = .ok s) :
    walHeaderSize ≤ (runAll s () [samplePut, sampleChange]).2.1.log.storage.file.synced ∧
      (runAll s () [samplePut, sampleChange]).2.1.log.storage.file.synced
        < (runAll s () [samplePut, sampleChange]).2.1.log.stream.length := by
  obtain rfl := Except.ok.inj hs
  decide +kernel

theorem samplePut_durable (hs : newState (newDatabase sampleID defaultLimits) = .ok s) :
    ∃ result, (samplePut.turn s ()).Acknowledged result ∧ result.result.ack = .durable := by
  obtain rfl := Except.ok.inj hs
  exact ⟨_, ⟨Option.some_ne_none _, rfl⟩, rfl⟩

/-- The crash takes the commit that was acknowledged in memory and leaves the durable one. -/
theorem durable_commits_survive_crash_sampleChange :
    ∃ s, newState (newDatabase sampleID defaultLimits) = .ok s ∧
      ∃ file, file <+: (runAll s () [samplePut, sampleChange]).2.1.log.stream ∧
        file.length < (runAll s () [samplePut, sampleChange]).2.1.log.stream.length ∧
      ∃ reservedEnd replay, scanWAL file sampleID 0 reservedEnd defaultLimits = .ok replay ∧
        ∃ frame ∈ replay.commits, (samplePut.turn s ()).frame = some frame := by
  obtain ⟨s, hs⟩ := newDatabase_opens
  obtain ⟨reserved, htracks⟩ := newDatabase_continues.tracks (opened_of_newState hs)
  obtain ⟨reserved', tail, htracks'⟩ := (ran htracks () [samplePut, sampleChange]).tracks
  obtain ⟨hheader, hlt⟩ := sampleChange_unsynced hs
  have hlength := List.length_take_of_le hlt.le
  obtain ⟨k, replay, hscan, hcommits, _, hdurable, _⟩ :=
    durable_commits_survive_crash hs newDatabase_continues () [samplePut, sampleChange] rfl
      (List.take_prefix _ _) (hheader.trans hlength.ge) hlength.ge htracks'.log.reserved
  obtain ⟨result, hack, hresult⟩ := samplePut_durable hs
  obtain ⟨frame, i, hframe, hlt', hi⟩ :=
    hdurable (samplePut.turn s ()) List.mem_cons_self result hack hresult
  refine ⟨s, hs, _, List.take_prefix _ _, hlength.trans_lt hlt, reserved', replay, hscan, frame, ?_,
    hframe⟩
  rw [hcommits]
  exact List.mem_of_getElem? ((List.getElem?_take_of_lt hlt').trans hi)

/-- What recovery reads back of frames that were encoded one by one. -/
def reread (limits : Limits) (frames : List CommitFrame) : Except Error (List CommitFrame) :=
  frames.mapM fun frame => do
    let encoded ← encodeCommitFrame frame limits
    decodeCommitFrame encoded limits

theorem reread_eq {limits : Limits} (h : ∀ frame ∈ frames, frame.Encodable limits) :
    reread limits frames = .ok frames := by
  refine mapM_eq_ok fun frame hframe => ?_
  rw [encodeCommitFrame_bytes (h frame hframe)]
  exact decodeCommitFrame_bytes (h frame hframe)

/-- Replaying the frames of a run, read back from their encoding, gives the records and the history
of the engine that wrote them. -/
theorem replay_rebuilds_engine (hopen : newState config = .ok s)
    (hconfig : config.Continues snapshot base) (world : σ) (commands : List (Command σ))
    {turns : List Turn} {s' : DatabaseState} {world' : σ}
    (hrun : runAll s world commands = (turns, s', world')) :
    ∃ decoded, reread config.effectiveLimits (base ++ published turns) = .ok decoded ∧
      (∀ t ∈ turns, ∀ result, t.Acknowledged result → ∃ frame ∈ decoded, t.frame = some frame) ∧
      replayRecords snapshot decoded = s'.records ∧
      (HistoryLog.initialized config.effectiveLimits config.snapshotRevision).rebuild decoded
        s'.current = .ok s'.history := by
  have ho := opened_of_newState hopen
  obtain ⟨reserved, htracks⟩ := hconfig.tracks ho
  have hran := ran htracks world commands
  rw [hrun] at hran
  simp only at hran
  obtain ⟨reserved', tail, htracks'⟩ := hran.tracks
  have hlimits : s'.limits = config.effectiveLimits := hran.limits.trans ho.limits
  have hfirst : s'.log.header.firstRevision - 1 = config.snapshotRevision := by
    rw [hran.header, ho.log, hconfig.first, Nat.add_sub_cancel]
  have hlog := htracks'.log.append_left
  rw [hlimits, hfirst] at hlog
  refine ⟨base ++ published turns, reread_eq hlog.encodable, ?_, ?_, ?_⟩
  · intro t ht result hack
    obtain ⟨before, after, frame, hframe, hsplit, _⟩ := hran.acknowledged t ht result hack
    exact ⟨frame, by simp [hsplit], hframe⟩
  · rw [hran.folds.records, hconfig.records_eq ho, replayRecords, replayRecords,
      replayCommits_append]
  · have hcurrent : lastRevision config.snapshotRevision (base ++ published turns)
        = s'.current := by
      rw [htracks'.current, hfirst]
    rw [hran.folds.history, hconfig.history_eq ho, ← HistoryLog.appendCommits_append]
    exact HistoryLog.rebuildFrom_eq hlog.increasing hcurrent

theorem replay_rebuilds_engine_sampleChange :
    ∃ s, newState (newDatabase sampleID defaultLimits) = .ok s ∧
      ∃ decoded, reread defaultLimits (published (runAll s () [samplePut, sampleChange]).1)
          = .ok decoded ∧
        replayRecords [] decoded = (runAll s () [samplePut, sampleChange]).2.1.records := by
  obtain ⟨s, hs⟩ := newDatabase_opens
  obtain ⟨decoded, hreread, _, hrecords, _⟩ :=
    replay_rebuilds_engine hs newDatabase_continues () [samplePut, sampleChange] rfl
  exact ⟨s, hs, decoded, hreread, hrecords⟩

end

end GapDB
