import GapDB.Engine.Lifetime

/-!
# The commit step as a conditional transaction

Seen from outside, a batch is a transaction on a store of versioned entries: it is enabled when it
is valid and all its guards hold of one store at one instant, and it writes all its keys under one
new version or changes nothing.
-/

namespace GapDB

open Storelib DatabaseState

variable {now : Time}

/-! ### The abstract store -/

def Record.versioned (record : Record) : Versioned Bytes Time :=
  ⟨record.value, record.revision, record.expiresAt⟩

/-- The abstract store behind a record map. -/
def RecordMap.store (m : RecordMap) : Key → Option (Versioned Bytes Time) :=
  fun key => (m key).map Record.versioned

def Condition.guard (c : Condition) : Guard :=
  match c.kind with
  | .any => .always
  | .absent => .absent
  | .revision => .version c.expectedRevision
  | .unknown => .never

def Mutation.action (m : Mutation) : WriteAction Bytes Time :=
  if m.kind = .delete then .remove else .put m.valueBytes m.expiresAt

def Batch.transaction (b : Batch) : Transaction Key Bytes Time where
  guards := b.assertions.map fun a => (a.key, a.condition.guard)
  writes := b.mutations.map fun m => (m.key, m.condition.guard, m.action)

theorem live_iff {record : Record} :
    record.versioned.Live now ↔ recordExpired record now = false := by
  unfold Versioned.Live recordExpired Record.versioned isExpired
  cases record.expiresAt <;> simp

/-- A condition on records is the guard on the abstract store. -/
theorem Condition.holds_iff {m : RecordMap} {key : Key} {c : Condition} :
    c.Holds m now key ↔ c.guard.Holds m.store now key := by
  unfold Condition.Holds Condition.guard
  cases c.kind with
  | any | unknown => simp [Guard.Holds]
  | absent =>
    simp only [Guard.Holds, RecordMap.visible, RecordMap.store]
    cases m key with
    | none => simp
    | some record => simp [live_iff]
  | revision =>
    simp only [Guard.Holds, RecordMap.visible, RecordMap.store]
    cases m key with
    | none => simp
    | some record =>
      simp only [Option.map_some, Option.some.injEq, exists_eq_left', live_iff]
      simp [Record.versioned, Option.filter_eq_some_iff, and_comm]

/-- The conditions of a client's batch are the guards of its transaction. -/
theorem Batch.enabled_iff {s : DatabaseState} {batch : Batch} {single : SingleOperation}
    (hclient : single ≠ .expiry) :
    ((∀ a ∈ batch.assertions, a.condition.Holds s.records now a.key) ∧
      ∀ m ∈ batch.mutations, m.Holds s.records now single) ↔
      batch.transaction.Enabled s.records.store now := by
  have hmutation : ∀ m : Mutation, m.Holds s.records now single ↔
      m.condition.guard.Holds s.records.store now m.key := by
    intro m
    rw [← Condition.holds_iff, Mutation.Holds]
    simp [hclient]
  constructor
  · rintro ⟨hassertions, hmutations⟩
    refine ⟨?_, ?_⟩
    · simpa [Batch.transaction, ← Condition.holds_iff] using hassertions
    · simpa [Batch.transaction, ← hmutation] using hmutations
  · rintro ⟨hguards, hwrites⟩
    refine ⟨?_, ?_⟩
    · simpa [Batch.transaction, ← Condition.holds_iff] using hguards
    · simpa [Batch.transaction, ← hmutation] using hwrites

/-- What a mutation leaves under its key. -/
def Mutation.record (m : Mutation) (revision : Nat) : Option Record :=
  if m.kind = .delete then none
  else some (newRecord m.key m.valueBytes revision m.expiresAt)

theorem commitFrame_writes (batch : Batch) (single : SingleOperation) (revision : Nat) :
    (commitFrame batch single revision).writes
      = batch.mutations.map fun m => (m.key, m.record revision) := by
  simp only [CommitFrame.writes, commitFrame, List.map_map]
  refine List.map_congr_left fun m _ => ?_
  by_cases hk : m.kind = .delete
  · by_cases hs : single = .expiry <;> simp [Effect.write, effectFor, Mutation.record, hk, hs]
  · simp [Effect.write, effectFor, Mutation.record, hk]

/-- Publishing a batch is performing its transaction. -/
theorem store_replayCommit (m : RecordMap) (batch : Batch) (single : SingleOperation)
    (revision : Nat) :
    RecordMap.store (replayCommit m (commitFrame batch single revision))
      = batch.transaction.result m.store revision := by
  have haction : ∀ mutation : Mutation,
      (mutation.record revision).map Record.versioned = mutation.action.entry revision := by
    intro mutation
    unfold Mutation.record Mutation.action
    split <;> rfl
  rw [replayCommit_eq_writeAll, commitFrame_writes]
  refine (map_writeAll Record.versioned m _).trans ?_
  simp only [Transaction.result, Batch.transaction, haction, List.map_map, Function.comp_def]
  rfl

/-! ### When nothing fails -/

/-- No hook fires, no write fails and the barrier succeeds. -/
def ExecuteFaults.Works (faults : ExecuteFaults) : Prop := faults.Unhooked ∧ faults.Stores

/-- A batch that the validators admit fits into one frame of the log. -/
theorem Batch.Valid.frame {limits : Limits} {batch : Batch} (h : batch.Valid limits now)
    (single : SingleOperation) {revision : Nat} (hrevision : revision ≠ 0) :
    (commitFrame batch single revision).Valid limits ∧
      (commitFrame batch single revision).size ≤ limits.maxBatchBytes := by
  have hkey : ∀ m, (effectFor m single).key = m.key := by
    intro m
    unfold effectFor
    split
    · split <;> rfl
    · rfl
  have hvalue : ∀ m ∈ batch.mutations, (effectFor m single).size = m.bytes := by
    intro m hm
    have hpayload := (h.mutations m hm).payload
    unfold Effect.size Mutation.bytes
    rw [hkey]
    unfold effectFor Mutation.Payload at *
    by_cases hk : m.kind = .delete
    · rw [hk] at hpayload
      simp [hk, Mutation.valueBytes, hpayload.2.1, effectHeader, apply_ite Effect.value]
    · simp [hk, effectHeader]
  have hkeys : (commitFrame batch single revision).effects.map Effect.key
      = batch.mutations.map Mutation.key := by
    simp [commitFrame, List.map_map, Function.comp_def, hkey]
  refine ⟨⟨hrevision, by simpa [commitFrame] using h.nonempty, ?_, ?_, ?_⟩, ?_⟩
  · have := h.operations
    simp only [commitFrame, List.length_map]
    omega
  · rw [hkeys]
    exact h.distinct.of_append_right
  · intro e he
    obtain ⟨m, hm, rfl⟩ := List.mem_map.mp he
    have hvalid := h.mutations m hm
    refine ⟨by rw [hkey]; exact hvalid.key.nonempty, by rw [hkey]; exact hvalid.key.utf8,
      by rw [hkey]; exact hvalid.key.length, ?_⟩
    have hpayload := hvalid.payload
    unfold Mutation.Payload at hpayload
    unfold effectFor
    cases hk : m.kind with
    | delete => by_cases hs : single = .expiry <;> simp [Effect.Payload, hs]
    | put =>
      rw [hk] at hpayload
      simpa [Effect.Payload] using ⟨hpayload, fun t ht => (h.future m hm t ht).2⟩
    | unknown => simp [hk] at hpayload
  · have hbytes := h.bytes
    have hsum : (commitFrame batch single revision).payloadSize
        = (batch.mutations.map Mutation.bytes).sum := by
      simp only [CommitFrame.payloadSize, commitFrame, List.map_map]
      exact congrArg List.sum (List.map_congr_left hvalue)
    rw [CommitFrame.size, hsum, frameHeaderSize, frameTrailer]
    omega

namespace DatabaseState

section

variable {s : DatabaseState} {reserved : Nat} {frames : List CommitFrame} {batch : Batch}
  {single : SingleOperation} {faults : ExecuteFaults} {revision : Nat}

theorem mapApply_ok (hfaults : faults.Stores) (durableThrough : Nat) :
    ∃ result, (s.mapApply batch single revision durableThrough faults).outcome = .ok result := by
  simp [mapApply, checkpoint, hfaults.mapApplyBefore, hfaults.mapApplyAfter]

/-- The durability stage passes once the frame is in a log that claims what the engine knows. -/
theorem makeDurable_ok (hfaults : faults.Stores) (hready : s.log.failed = false)
    (hlast : s.log.lastRevision = revision) (hknown : s.durableThrough ≤ s.log.durableThrough)
    (hle : s.log.durableThrough ≤ revision) :
    ∃ result, (s.makeDurable batch single revision faults).outcome = .ok result := by
  unfold makeDurable
  rw [if_neg (by omega)]
  split
  · simp only [WAL.barrier, hready, hfaults.barrier, Bool.false_eq_true, if_false]
    rw [if_neg (by simpa using hlast)]
    exact mapApply_ok hfaults _
  · exact mapApply_ok hfaults _

theorem commit_ok (h : s.Healthy) (hl : s.log.limits.Valid) (hfaults : faults.Stores)
    (hrevision : s.current < revision)
    (haccepts : s.log.Accepts (commitFrame batch single revision)) :
    ∃ result, (s.commit batch single revision faults).outcome = .ok result := by
  obtain ⟨storage, happend⟩ := WAL.append_ok hl haccepts hfaults.writes
  unfold commit
  rw [if_neg (by omega), happend]
  exact makeDurable_ok hfaults h.ready rfl h.known (h.le.trans hrevision.le)

/-- An admitted batch succeeds if it gets a revision and storage works. -/
theorem executeSafely_ok {σ : Type} {reserve : Option (ReserveFunc σ)} {world : σ}
    (h : s.Tracks reserved frames [] []) (hfaults : faults.Works)
    (hadmitted : s.Admitted batch single (s.clock.now faults.source).1)
    (halloc : (s.allocate reserve world).1 = .ok revision) :
    ∃ result, (s.executeSafely reserve world batch single faults).1.1 = .ok result := by
  have hactive := hadmitted.not_degraded
  have hhealthy := h.healthy.resolve_left hactive
  obtain ⟨a, a', ha, ha', hspec⟩ := allocate_ok halloc
  obtain ⟨hlt, habove, _⟩ := hspec _ (h.allocator a ha).1
  have hstate := s.allocate_state reserve world
  have hphase : predicatePhase { s with clock := (s.clock.now faults.source).2 } batch single
      (s.clock.now faults.source).1 faults = .ok () :=
    predicatePhase_eq_ok (fun a ha => (hadmitted.valid.assertions a ha).notAny)
      hfaults.1 hadmitted.assertions hadmitted.mutations
  have hframe := hadmitted.valid.frame single (Nat.ne_of_gt (Nat.zero_lt_of_lt hlt))
  have haccepts : s.log.Accepts (commitFrame batch single revision) := by
    refine ⟨hhealthy.ready, ?_, ?_, h.logLimits ▸ hframe.1, h.logLimits ▸ hframe.2⟩
    · have hcurrent := h.current
      have := le_lastRevision h.log.append_left.increasing
      simp only [commitFrame]
      omega
    · rw [hhealthy.tip]
      exact hlt
  have hlifecycle : ¬ (s.lifecycle ≠ .ready ∧ s.lifecycle ≠ .draining) := by
    have := hadmitted.lifecycle
    tauto
  have hvalidated := (validateBatchAt_eq_ok h.limits).mpr hadmitted.valid
  have hprepare : s.prepare reserve world batch single faults
      = (⟨.ok revision, false,
          { (s.allocate reserve world).2.1 with clock := (s.clock.now faults.source).2 }⟩,
        (s.allocate reserve world).2.2) := by
    unfold prepare
    rw [if_neg hlifecycle]
    simp only [hvalidated, hphase]
    rw [allocate_clock, halloc]
  obtain ⟨result, hcommit⟩ : ∃ result, (commit { (s.allocate reserve world).2.1 with
      clock := (s.clock.now faults.source).2 } batch single revision faults).outcome
        = .ok result := by
    rw [hstate]
    exact commit_ok ⟨hhealthy.1, hhealthy.2, hhealthy.3, hhealthy.4⟩ (h.logLimits ▸ h.limits)
      hfaults.2 hlt haccepts
  exact ⟨result, by simp only [executeSafely, execute, hprepare, recovered, hcommit]⟩

end

end DatabaseState

section

variable {σ : Type} {s s' : DatabaseState} {reserve : Option (ReserveFunc σ)} {world world' : σ}
  {batch : Batch} {single : SingleOperation} {source : Time} {assigned : Option Nat}
  {reply : Except Error CommitResult}

/-- What a command leaves alone when it is refused before it gets a revision. -/
structure DatabaseState.Untouched (s s' : DatabaseState) : Prop where
  records : s'.records = s.records
  orderedKeys : s'.orderedKeys = s.orderedKeys
  current : s'.current = s.current
  durableThrough : s'.durableThrough = s.durableThrough
  history : s'.history = s.history
  log : s'.log = s.log
  watchers : s'.watchers = s.watchers
  allocator : s'.allocator = s.allocator

/-- A batch that is not admitted is refused and touches nothing. -/
theorem DatabaseState.Executes.untouched
    (h : Executes reserve s world batch single source assigned reply s' world')
    (hrefused : ¬ s.Admitted batch single (s.clock.now source).1) :
    (∃ e, reply = .error e) ∧ s.Untouched s' ∧ world' = world := by
  cases h with
  | unavailable => exact ⟨⟨_, rfl⟩, ⟨rfl, rfl, rfl, rfl, rfl, rfl, rfl, rfl⟩, rfl⟩
  | rejected e | panicked e => exact ⟨⟨e, rfl⟩, ⟨rfl, rfl, rfl, rfl, rfl, rfl, rfl, rfl⟩, rfl⟩
  | unallocated e allocator _ admitted | committed revision allocator _ admitted =>
    exact absurd admitted hrefused

/-- A command that succeeds was admitted and published its frame. -/
theorem DatabaseState.Executes.of_ok {result : CommitResult}
    (h : Executes reserve s world batch single source assigned (.ok result) s' world') :
    s.Admitted batch single (s.clock.now source).1 ∧ s.current < result.result.revision ∧
      s'.current = result.result.revision ∧
      s'.records = replayCommit s.records (commitFrame batch single result.result.revision) := by
  cases h with
  | committed revision allocator _ admitted allocated _ _ commits =>
  cases commits with
  | committed log durableThrough logged evident events published =>
    refine ⟨admitted, logged.increasing, ?_, ?_⟩ <;> rw [publish_eq] <;> rfl

end

/-- The commit step performs the transaction of its batch: in every ready state that an engine can
reach it succeeds exactly when the batch is valid and enabled, and otherwise touches nothing. -/
theorem commit_refines_transaction {σ : Type} {config : Config} {s₀ : DatabaseState}
    {snapshot : List Record} {base : List CommitFrame} (hopen : newState config = .ok s₀)
    (hconfig : config.Continues snapshot base) (world₀ : σ) (requests : List (Request σ))
    (hfresh : ∀ r ∈ requests, r.Fresh config.effectiveLimits) {turns : List Turn}
    {s s' : DatabaseState} {world world' : σ}
    (hrun : live s₀ world₀ requests = (turns, s, world)) (hready : s.lifecycle = .ready)
    (reserve : Option (ReserveFunc σ)) (batch : Batch) {single : SingleOperation}
    (hclient : single ≠ .expiry) (faults : ExecuteFaults) {reply : Except Error CommitResult}
    (hexec : s.executeSafely reserve world batch single faults = ((reply, s'), world')) :
    let now := (s.clock.now faults.source).1
    let admissible := batch.Valid s.limits now ∧ batch.transaction.Enabled s.records.store now
    (faults.Works → (∃ revision, (s.allocate reserve world).1 = .ok revision) →
      ((∃ result, reply = .ok result) ↔ admissible)) ∧
    (∀ result, reply = .ok result → admissible ∧
      s.current < result.result.revision ∧ s'.current = result.result.revision ∧
      s'.records.store = batch.transaction.result s.records.store result.result.revision ∧
      (∀ m ∈ batch.mutations, s'.records m.key = m.record result.result.revision) ∧
      ∀ key ∉ batch.mutations.map Mutation.key, s'.records key = s.records key) ∧
    (¬ admissible → (∃ e, reply = .error e) ∧ s.Untouched s' ∧ world' = world) := by
  intro now admissible
  have ho := opened_of_newState hopen
  obtain ⟨reserved₀, htracks₀⟩ := hconfig.tracks ho
  obtain ⟨_, reserved, frames, left, tail, htracks⟩ := lived htracks₀ world₀ fun r hr =>
    ho.limits ▸ hfresh r hr
  rw [hrun] at htracks
  simp only at htracks
  have hactive : ¬ s.Degraded := by simp [Degraded, hready]
  obtain ⟨rfl, rfl, _⟩ := htracks.stream_of_active hactive
  have hadmitted : s.Admitted batch single now ↔ admissible :=
    ⟨fun h => ⟨h.valid, (Batch.enabled_iff hclient).mp ⟨h.assertions, h.mutations⟩⟩,
      fun h => ⟨.inl hready, h.1, ((Batch.enabled_iff hclient).mpr h.2).1,
        ((Batch.enabled_iff hclient).mpr h.2).2⟩⟩
  have hcases := executeSafely_cases reserve s htracks.limits
    (htracks.logLimits ▸ htracks.limits) world batch single faults
  rw [hexec] at hcases
  simp only at hcases
  refine ⟨fun hfaults halloc => ⟨?_, fun h => ?_⟩, ?_, fun h => ?_⟩
  · rintro ⟨result, rfl⟩
    exact hadmitted.mp hcases.of_ok.1
  · obtain ⟨revision, halloc⟩ := halloc
    have hok := executeSafely_ok htracks hfaults (hadmitted.mpr h) halloc
    rwa [hexec] at hok
  · rintro result rfl
    obtain ⟨hpassed, hlt, hcurrent, hrecords⟩ := hcases.of_ok
    have hwrites : s'.records = writeAll s.records
        (batch.mutations.map fun m => (m.key, m.record result.result.revision)) := by
      rw [hrecords, replayCommit_eq_writeAll, commitFrame_writes]
    have hkeys : (batch.mutations.map fun m => (m.key, m.record result.result.revision)).map
        Prod.fst = batch.mutations.map Mutation.key := by
      simp [List.map_map, Function.comp_def]
    refine ⟨hadmitted.mp hpassed, hlt, hcurrent, ?_, ?_, ?_⟩
    · rw [hrecords]
      exact store_replayCommit _ _ _ _
    · intro m hm
      rw [hwrites]
      exact writeAll_of_mem (List.mem_map_of_mem hm)
        (hkeys ▸ hpassed.valid.distinct.of_append_right)
    · intro key hkey
      rw [hwrites]
      exact writeAll_of_not_mem (hkeys ▸ hkey)
  · exact hcases.untouched fun hpassed => h (hadmitted.mp hpassed)

theorem sampleChanges_commit {s₀ : DatabaseState}
    (hs : newState (newDatabase sampleID defaultLimits) = .ok s₀) :
    (live s₀ () [.command samplePut]).2.1.lifecycle = .ready ∧
      ∃ result, ((live s₀ () [.command samplePut]).2.1.executeSafely none () sampleChanges .batch
        { source := 0 }).1.1 = .ok result := by
  obtain rfl := Except.ok.inj hs
  exact ⟨rfl, _, rfl⟩

theorem commit_refines_transaction_sampleChanges :
    ∃ s₀, newState (newDatabase sampleID defaultLimits) = .ok s₀ ∧
      let s := (live s₀ () [.command samplePut]).2.1
      let after := (s.executeSafely none () sampleChanges .batch { source := 0 }).1
      ∃ result, after.1 = .ok result ∧
        sampleChanges.transaction.Enabled s.records.store (s.clock.now 0).1 ∧
        after.2.records [97] = some ⟨[97], [3], result.result.revision, none⟩ ∧
        after.2.records [98] = none := by
  obtain ⟨s₀, hs⟩ := newDatabase_opens
  obtain ⟨hready, result, hresult⟩ := sampleChanges_commit hs
  obtain ⟨hadmissible, _, _, _, hwritten, _⟩ :=
    (commit_refines_transaction hs newDatabase_continues () [.command samplePut]
      (by simp [Request.Fresh]) rfl hready none sampleChanges
      (show SingleOperation.batch ≠ .expiry by decide) { source := 0 } rfl).2.1 result hresult
  exact ⟨s₀, hs, result, hresult, hadmissible.2, hwritten _ List.mem_cons_self,
    hwritten _ (List.mem_cons_of_mem _ List.mem_cons_self)⟩

end GapDB
