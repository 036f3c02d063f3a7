import GapDB.Engine.Readers

/-!
# What a recovery snapshot holds

A recovery snapshot is everything under a prefix that is live, or it is refused for its size. What
its records look like follows from how they came into the database.
-/

namespace GapDB

open Storelib DatabaseState

variable {s : DatabaseState}

variable {request : RecoverySnapshotRequest}

/-! ### Records are dated -/

/-- What recovery hands over: a revision that is a word and instants that a file can hold. -/
structure Config.Recovered (config : Config) : Prop where
  current : config.currentRevision < 2 ^ 64
  expiry : ∀ record ∈ config.records, ∀ t, record.expiresAt = some t → unixNanoRepresentable t

namespace DatabaseState

/-- Every record has the revision of a commit and an expiry that can be written. -/
structure Dated (s : DatabaseState) : Prop where
  positive : ∀ {key record}, s.records key = some record → record.revision ≠ 0
  expiry : ∀ {key record}, s.records key = some record → ∀ t, record.expiresAt = some t →
    unixNanoRepresentable t

theorem Dated.shows {s' : DatabaseState} (h : s.Dated) (hlimits : s.limits.Valid)
    {frames : List CommitFrame} (hshows : s.Shows s' frames) : s'.Dated := by
  cases hshows with
  | nothing same keys =>
    obtain ⟨hrecords, -⟩ := same
    exact ⟨by rw [hrecords]; exact h.positive, by rw [hrecords]; exact h.expiry⟩
  | commit batch single revision now active valid publishes =>
    have hvalid := (validateBatchAt_eq_ok hlimits).mp valid
    have hcases := replayCommit_cases s.records (planned_of_valid hvalid) single revision
    rw [← publishes.records] at hcases
    constructor
    · intro key record hrecord
      rcases hcases key with ⟨mutation, -, -, heq⟩ | ⟨-, heq⟩
      · obtain rfl := record_eq_some (heq.symm.trans hrecord)
        exact Nat.ne_zero_of_lt publishes.increasing
      · exact h.positive (heq ▸ hrecord)
    · intro key record hrecord t ht
      rcases hcases key with ⟨mutation, hmutation, -, heq⟩ | ⟨-, heq⟩
      · obtain rfl := record_eq_some (heq.symm.trans hrecord)
        exact (hvalid.future mutation hmutation t ht).2
      · exact h.expiry (heq ▸ hrecord) t ht

theorem Dated.live {σ : Type} (h : s.Dated) (hindexed : s.Indexed) (world : σ)
    (rs : List (Request σ)) : (live s world rs).2.1.Dated := by
  induction rs generalizing s world with
  | nil => exact h
  | cons r rs ih =>
    exact ih (h.shows hindexed.limits (r.shows s world).1) (hindexed.run world r) _

theorem dated_of_newState {config : Config} (h : newState config = .ok s)
    (hconfig : config.Recovered) : s.Dated := by
  obtain ⟨-, -, records, schedule, history, htake, -, rfl⟩ := newState_eq_ok h
  have hchecked := (takeRecords_spec htake).2.1
  constructor
  · intro key record hrecord
    exact (hchecked record (takeRecords_mem htake hrecord).1).2.1
  · intro key record hrecord
    exact hconfig.expiry record (takeRecords_mem htake hrecord).1

/-! ### The loop over the index -/

/-- How the loop ends when `records` were collected and `rest` are still to come. -/
inductive ExportEnds (request : RecoverySnapshotRequest) (records rest : List Record) (used : Int) :
    Except Error (List Record) → Prop where
  | whole (fits : rest = [] ∨ records.length + rest.length ≤ request.maxRecords ∧
        used + (rest.map recoveryRecordBytes).sum ≤ request.maxBytes) :
      ExportEnds request records rest used (.ok (records ++ rest))
  | tooLarge (received : Int) :
      ExportEnds request records rest used (.error (recoveryTooLarge received request.maxBytes))

section

variable {records rest : List Record} {used : Int}
  {result : Except Error (List Record)}

theorem ExportEnds.done (h : rest = []) : ExportEnds request records rest used (.ok records) := by
  have hwhole : ExportEnds request records rest used (.ok (records ++ rest)) := .whole (.inl h)
  rwa [h, List.append_nil, ← h] at hwhole

theorem ExportEnds.cons {record : Record} (hcount : records.length < request.maxRecords)
    (hbytes : used + recoveryRecordBytes record ≤ request.maxBytes)
    (h : ExportEnds request (records ++ [record]) rest (used + recoveryRecordBytes record) result) :
    ExportEnds request records (record :: rest) used result := by
  cases h with
  | whole fits =>
    rw [List.append_assoc]
    refine .whole (.inr ?_)
    simp only [List.length_append, List.length_cons, List.length_nil, List.map_cons, List.sum_cons]
      at fits ⊢
    rcases fits with rfl | fits
    · simp only [List.length_nil, List.map_nil, List.sum_nil]
      omega
    · push_cast at fits ⊢
      omega
  | tooLarge received => exact .tooLarge received

end

theorem recoveryKeys_ends {asOf : Time}
    {keys : List Key} (hpresent : ∀ key ∈ keys, (s.records key).isSome)
    (hmatch : keys.takeWhile (fun key => request.start <+: key)
      = keys.filter fun key => request.start <+: key)
    {records : List Record} {used : Int} (hcount : records.length ≤ request.maxRecords) :
    ExportEnds request records (s.liveMatches request.start asOf keys) used
      (s.recoveryKeys request asOf keys records used) := by
  induction keys generalizing records used with
  | nil => exact .done rfl
  | cons key keys ih =>
    rw [recoveryKeys]
    by_cases hkey : request.start <+: key
    · rw [List.takeWhile_cons_of_pos (by simpa using hkey),
        List.filter_cons_of_pos (by simpa using hkey), List.cons.injEq] at hmatch
      obtain ⟨record, hrecord⟩ := Option.isSome_iff_exists.mp (hpresent key List.mem_cons_self)
      have hpresent' : ∀ key ∈ keys, (s.records key).isSome :=
        fun key hmem => hpresent key (List.mem_cons_of_mem _ hmem)
      rw [if_neg (not_not.mpr hkey), hrecord, liveMatches_cons hkey hrecord]
      simp only
      by_cases hexpired : recordExpired record asOf = true
      · rw [if_pos hexpired, if_pos hexpired]
        exact ih hpresent' hmatch.2 hcount
      rw [if_neg hexpired, if_neg hexpired]
      by_cases hfull : records.length = request.maxRecords ∨
          request.maxBytes - used < recoveryRecordBytes record
      · rw [if_pos hfull]
        exact .tooLarge _
      · rw [if_neg hfull]
        push Not at hfull
        refine .cons (by omega) (by omega) (ih hpresent' hmatch.2 ?_)
        rw [List.length_append, List.length_singleton]
        omega
    · rw [if_pos hkey]
      exact .done (liveMatches_eq_nil hkey hmatch)

/-! ### The snapshot -/

/-- The bytes reserved before the first record. -/
def recoveryReserved (s : DatabaseState) : Int :=
  8 + 2 + s.databaseID.string.length + 2 + 256 + 8 + 8 + 4 + 32

theorem Indexed.export_ends (h : s.Indexed) (hrecords : 0 ≤ request.maxRecords) (asOf : Time) :
    ExportEnds request [] (s.matching request.start asOf) s.recoveryReserved
      (s.recoveryKeys request asOf
        (s.orderedKeys.keys.drop (searchStrings s.orderedKeys.keys request.start)) []
        s.recoveryReserved) := by
  obtain ⟨hdrop, hpresent, hmatch⟩ := h.keys_drop (fun key => decide (request.start ≤ key))
    (fun a b hab ha => by
      rw [decide_eq_true_eq] at ha ⊢
      exact ha.trans hab.le) fun key hkey => of_decide_eq_true hkey
  rw [matching_eq, searchStrings, hdrop]
  exact recoveryKeys_ends hpresent hmatch hrecords

/-- A snapshot that was read. -/
structure Exports (s : DatabaseState) (request : RecoverySnapshotRequest) (asOf : Time)
    (result : RecoverySnapshotResult) : Prop where
  valid : validateRecoverySnapshotRequest request s.limits = .ok ()
  expected : request.expectedRevision = s.current
  result : result = ⟨s.databaseID.string, s.current, asOf, s.matching request.start asOf⟩
  fits : s.matching request.start asOf = [] ∨
    (s.matching request.start asOf).length ≤ request.maxRecords ∧
      s.recoveryReserved + ((s.matching request.start asOf).map recoveryRecordBytes).sum
        ≤ request.maxBytes

theorem Indexed.readRecoverySnapshot_ends (h : s.Indexed) {asOf : Time}
    (hvalid : validateRecoverySnapshotRequest request s.limits = .ok ())
    (hexpected : request.expectedRevision = s.current) :
    (∃ result, s.readRecoverySnapshot request asOf = .ok result ∧ s.Exports request asOf result) ∨
      ∃ received, s.readRecoverySnapshot request asOf
        = .error (recoveryTooLarge received request.maxBytes) := by
  have hrecords : 0 ≤ request.maxRecords := by
    rw [validateRecoverySnapshotRequest, ite_error_eq_ok, ite_error_eq_ok] at hvalid
    omega
  have hends := h.export_ends hrecords asOf
  rw [readRecoverySnapshot, hvalid]
  simp only [hexpected, ne_eq, not_true_eq_false, if_false]
  rw [← recoveryReserved]
  revert hends
  generalize s.recoveryKeys request asOf
    (s.orderedKeys.keys.drop (searchStrings s.orderedKeys.keys request.start)) []
    s.recoveryReserved = outcome
  intro hends
  cases hends with
  | whole fits => exact .inl ⟨_, rfl, hvalid, hexpected, rfl, by simpa using fits⟩
  | tooLarge received => exact .inr ⟨received, rfl⟩

theorem Indexed.exports (h : s.Indexed) {asOf : Time} {result : RecoverySnapshotResult}
    (hread : s.readRecoverySnapshot request asOf = .ok result) : s.Exports request asOf result := by
  have hread' := hread
  unfold readRecoverySnapshot at hread'
  split at hread'
  · cases hread'
  next hvalid =>
  rw [ite_error_eq_ok] at hread'
  rcases h.readRecoverySnapshot_ends hvalid (not_not.mp hread'.1)
    with ⟨result', hok, hexports⟩ | ⟨received, herror⟩
  · rw [hread, Except.ok.injEq] at hok
    exact hok ▸ hexports
  · rw [hread] at herror
    cases herror

end DatabaseState

end GapDB
