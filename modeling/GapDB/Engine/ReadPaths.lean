import GapDB.Engine.RecoveryReads
import GapDB.Engine.Scans

/-!
# All read paths show the same database

Point reads look a key up in the map; scans and recovery snapshots walk the sorted index. At one
effective time they all show the records that are live then.
-/

namespace GapDB

open Storelib DatabaseState

variable {keys : List Key}

section

variable {s : DatabaseState} {now : Time} {key : Key} {record : Record}

/-! ### Point reads -/

theorem DatabaseState.Indexed.get_eq_ok (h : s.Indexed) :
    s.get key now = .ok record ↔ s.records.visible now key = some record := by
  rw [visible_eq_some]
  constructor
  · intro hget
    rw [DatabaseState.get] at hget
    split at hget
    · cases hget
    split at hget
    · cases hget
    next found hfound =>
    rw [ite_error_eq_ok, Except.ok.injEq] at hget
    obtain ⟨hlive, rfl⟩ := hget
    exact ⟨hfound, by simpa using hlive⟩
  · rintro ⟨hfound, hlive⟩
    rw [DatabaseState.get, validateKey_eq_ok.mpr (h.valid hfound)]
    simp only [hfound, hlive, Bool.false_eq_true, if_false]

theorem readEntry_key : (s.readEntry now key).key = key := by
  rw [readEntry]
  split
  · rfl
  · split <;> rfl

theorem readEntry_record : (s.readEntry now key).record = s.records.visible now key := by
  rw [readEntry, RecordMap.visible]
  cases s.records key with
  | none => rfl
  | some record => cases hexpired : recordExpired record now <;> simp [Option.filter, hexpired]

theorem readEntry_found :
    (s.readEntry now key).found = (s.records.visible now key).isSome := by
  rw [readEntry, RecordMap.visible]
  cases s.records key with
  | none => rfl
  | some record => cases hexpired : recordExpired record now <;> simp [Option.filter, hexpired]

/-- A list of keys that `ReadMany` takes. -/
structure ReadableKeys (limits : Limits) (keys : List Key) : Prop where
  nonempty : keys ≠ []
  count : keys.length ≤ limits.maxBatchOperations
  keys : checkReadKeys limits [] keys = .ok ()

/-- `encoding/json` encodes every result whose times are within the range of nanoseconds. -/
def Marshals (marshal : ReadManyResult → Option Nat) : Prop :=
  ∀ result : ReadManyResult, unixNanoRepresentable result.asOf →
    (∀ entry ∈ result.entries, ∀ record, entry.record = some record →
      ∀ t, record.expiresAt = some t → unixNanoRepresentable t) → (marshal result).isSome

/-- The entries of a result pass the checks made on them. -/
theorem checkReadEntries_entries (h : s.Indexed) (hd : s.Dated) {entries : List ReadManyEntry}
    {seen : List Key} (hkeys : checkReadKeys s.limits seen keys = .ok ()) :
    checkReadEntries s.limits ⟨s.current, now, entries⟩ seen (keys.map (s.readEntry now))
      = .ok () := by
  induction keys generalizing seen with
  | nil => rfl
  | cons key keys ih =>
    rw [checkReadKeys] at hkeys
    split at hkeys
    · cases hkeys
    next hkey =>
    rw [ite_error_eq_ok] at hkeys
    obtain ⟨hfresh, hkeys⟩ := hkeys
    have hput : (newPutMutation key [] ⟨.any, 0⟩ none).validate s.limits = .ok () := by
      refine Mutation.validate_eq_ok.mpr ⟨validateKey_eq_ok.mp hkey, rfl, ?_⟩
      exact Nat.zero_le _
    rw [List.map_cons, checkReadEntries]
    simp only [readEntry_key, readEntry_record, readEntry_found, hput, if_neg hfresh, ne_eq,
      not_true_eq_false, if_false]
    cases hvisible : s.records.visible now key with
    | none => exact ih hkeys
    | some record =>
      obtain ⟨hfound, hlive⟩ := visible_eq_some.mp hvisible
      have hsame : ¬ (record.key ≠ key ∨ record.revision = 0 ∨ s.current < record.revision) := by
        push Not
        exact ⟨h.key hfound, hd.positive hfound, h.revision hfound⟩
      have hfuture : ¬ (record.expiresAt.any fun t => decide (¬ now < t)) = true := by
        simpa [recordExpired, isExpired] using hlive
      simp only
      rw [if_neg hsame, if_neg hfuture]
      exact ih hkeys

/-- `ReadMany` returns an entry for each key, or refuses for the size of its answer. -/
theorem DatabaseState.Indexed.readMany_ends (h : s.Indexed) (hd : s.Dated)
    {marshal : ReadManyResult → Option Nat} (hmarshal : Marshals marshal)
    (hclock : unixNanoRepresentable now) (hkeys : ReadableKeys s.limits keys) :
    s.readMany marshal keys now = .ok ⟨s.current, now, keys.map (s.readEntry now)⟩ ∨
      ∃ size, s.readMany marshal keys now
        = .error (.api (readTooLarge size s.limits.maxScanBytes)) := by
  have hcount := hkeys.count
  have hzero : now ≠ zeroTime := by
    intro heq
    have hnever : unixNanoRepresentable zeroTime = false := by decide
    rw [heq, hnever] at hclock
    cases hclock
  obtain ⟨size, hsize⟩ := Option.isSome_iff_exists.mp
    (hmarshal ⟨s.current, now, keys.map (s.readEntry now)⟩ hclock (by
      intro entry hentry record hrecord t ht
      obtain ⟨key, -, rfl⟩ := List.mem_map.mp hentry
      rw [readEntry_record] at hrecord
      exact hd.expiry (visible_eq_some.mp hrecord).1 t ht))
  rw [readMany, if_neg (by simp [hkeys.nonempty, hcount]), hkeys.keys]
  simp only [validateReadManyResult]
  rw [if_neg (by simp [hkeys.nonempty, hcount]), if_neg hzero,
    checkReadEntries_entries h hd hkeys.keys]
  simp only [hsize]
  by_cases hlarge : s.limits.maxScanBytes = 0 ∨ s.limits.maxScanBytes < size
  · rw [if_pos hlarge]
    exact .inr ⟨size, rfl⟩
  · rw [if_neg hlarge]
    exact .inl rfl

/-- The entry of a key shows what is visible there. -/
theorem entry_iff (hkey : key ∈ keys) :
    (∃ entry ∈ keys.map (s.readEntry now), entry.key = key ∧ entry.found = true ∧
      entry.record = some record) ↔ s.records.visible now key = some record := by
  constructor
  · rintro ⟨entry, hentry, hsame, -, hrecord⟩
    obtain ⟨other, -, rfl⟩ := List.mem_map.mp hentry
    rw [readEntry_key] at hsame
    rwa [hsame, readEntry_record] at hrecord
  · intro hvisible
    exact ⟨_, List.mem_map_of_mem hkey, readEntry_key, by rw [readEntry_found, hvisible]; rfl,
      by rw [readEntry_record, hvisible]⟩

/-- Among the matches of a prefix of a key is what is visible under the key. -/
theorem DatabaseState.Indexed.matching_iff (h : s.Indexed) {start : Bytes}
    (hstart : start <+: key) : record ∈ s.matching start now ∧ record.key = key ↔
      s.records.visible now key = some record := by
  rw [h.mem_matching, visible_eq_some]
  constructor
  · rintro ⟨⟨hfound, -, hlive⟩, rfl⟩
    exact ⟨hfound, hlive⟩
  · rintro ⟨hfound, hlive⟩
    obtain rfl := h.key hfound
    exact ⟨⟨hfound, hstart, hlive⟩, rfl⟩

end

/-! ### A scan while the clock stands still -/

theorem readPage_asOf {s : DatabaseState} {start : Bytes} {limit : Int} {asOf : Time}
    {page : ScanPage} (h : s.readPage start limit asOf keys = .ok page) : page.asOf = asOf := by
  rw [readPage] at h
  split at h
  · cases h
  · cases h
    rfl

/-- The clock shows `now` and goes on showing it. -/
theorem now_again {clock : Nondecreasing} {now : Time} (h : (clock.now now).1 = now) :
    ((clock.now now).2.now now).1 = now := by
  rw [Nondecreasing.now] at h
  cases hlatest : clock.latest with
  | none => simp [Nondecreasing.now, hlatest]
  | some latest =>
    simp only [hlatest] at h
    by_cases hlt : latest < now
    · simp [Nondecreasing.now, hlatest, hlt]
    · rw [if_neg hlt] at h
      simp [Nondecreasing.now, hlatest, hlt, h]

namespace ScanRun

variable {σ : Type} {s : DatabaseState} {now : Time}

/-- Pages of the given limits, one after the other, all read at `now`. -/
def pagesAt (now : Time) (limits : List Int) : List (ScanEvent σ) :=
  limits.map fun limit => .page limit now

/-- A scan that follows `s` and has not seen another instant. -/
structure Stands (s : DatabaseState) (now : Time) (f : ScanRun σ) : Prop where
  follows : Follows s f
  current : f.engine.current = s.current
  clock : (f.engine.clock.now now).1 = now
  pages : ∀ page ∈ f.scan.pages, page.asOf = now
  finished : f.scan.status = .finished → f.scan.pages ≠ []

theorem Stands.page {f : ScanRun σ} (h : Stands s now f) (hclock : unixNanoRepresentable now)
    (hstart : validatePrefix f.scan.start s.limits = .ok ()) {limit : Int}
    (hlimit : 0 < limit ∧ limit ≤ s.limits.maxScanRecords) :
    Stands s now (f.step (.page limit now)) := by
  have hpages : ∀ page ∈ f.scan.pages, unixNanoRepresentable page.asOf :=
    fun page hpage => by rw [h.pages page hpage]; exact hclock
  have hfollows := h.follows.page hstart hlimit hpages now
  by_cases hrunning : f.scan.status = .running
  swap
  · rw [step, if_neg hrunning] at hfollows ⊢
    exact h
  -- both kinds of page are read at `now` and move the clock to it
  obtain ⟨result, hscan, hat⟩ : ∃ result, f.engine.scanPrefix f.scan.start limit f.scan.cursor now
      = (result, { f.engine with clock := (f.engine.clock.now now).2 }) ∧
        ∀ page, result = .ok page → page.asOf = now := by
    rcases h.follows.cursor hrunning with ⟨-, hcursor⟩ | ⟨hne, cursor, hresumes⟩
    · refine ⟨f.engine.scanAt f.scan.start limit (f.engine.clock.now now).1 none, ?_, ?_⟩
      · rw [hcursor]
        rw [← h.follows.limits] at hstart hlimit
        exact scanPrefix_first hstart hlimit now
      · intro page hpage
        rw [← h.clock]
        exact readPage_asOf hpage
    · refine ⟨f.engine.scanAt f.scan.start limit (f.engine.clock.now now).1 (some cursor), ?_, ?_⟩
      · exact h.follows.scanPrefix_resumed hstart hlimit hresumes hne hpages now
      · intro page hpage
        obtain ⟨other, hother⟩ := List.exists_mem_of_ne_nil _ hne
        rw [scanAt, ite_error_eq_ok] at hpage
        rw [readPage_asOf hpage.2, ← (hresumes.pages other hother).2]
        exact h.pages other hother
  rw [step, if_pos hrunning, hscan] at hfollows ⊢
  cases hresult : result with
  | error e =>
    rw [hresult] at hfollows
    exact ⟨hfollows, h.current, now_again h.clock, h.pages, fun hfailed => by cases hfailed⟩
  | ok read =>
    rw [hresult] at hfollows
    refine ⟨hfollows, h.current, now_again h.clock, ?_, fun _ => by simp [Scan.take]⟩
    intro page hpage
    rcases List.mem_append.mp hpage with hold | hnew
    · exact h.pages page hold
    · rw [List.mem_singleton.mp hnew]
      exact hat read hresult

theorem Stands.run {f : ScanRun σ} (h : Stands s now f) (hclock : unixNanoRepresentable now)
    (hstart : validatePrefix f.scan.start s.limits = .ok ()) {limits : List Int}
    (hlimits : ∀ limit ∈ limits, 0 < limit ∧ limit ≤ s.limits.maxScanRecords) :
    Stands s now (f.run (pagesAt now limits)) := by
  induction limits generalizing f with
  | nil => exact h
  | cons limit limits ih =>
    obtain ⟨hlimit, hlimits⟩ := List.forall_mem_cons.mp hlimits
    exact ih (h.page hclock hstart hlimit) (by rwa [step_start]) hlimits

/-- A finished scan at `now` has got what matches then. -/
theorem Stands.records {f : ScanRun σ} (h : Stands s now f)
    (hfinished : f.scan.status = .finished) :
    f.scan.records = s.matching f.scan.start now := by
  obtain ⟨asOf, hasOf, hgot⟩ := h.follows.got h.current
  obtain ⟨page, hpage⟩ := List.exists_mem_of_ne_nil _ (h.finished hfinished)
  rw [← h.pages page hpage, (hasOf page hpage).2]
  exact hgot.finished hfinished

theorem Stands.begin (h : s.Indexed) (hnow : (s.clock.now now).1 = now) (world : σ)
    (start : Bytes) : Stands s now ⟨s, world, { start }⟩ where
  follows := .begin h world start
  current := rfl
  clock := hnow
  pages := fun _ hpage => absurd hpage List.not_mem_nil
  finished := fun hfinished => by cases hfinished

end ScanRun

/-! ### The agreement -/

/-- At an effective time within the range of nanoseconds, `Get` finds a record under a key exactly
when `ReadMany` does in any list with the key, when a complete scan of a prefix of the key returns
it, and when a recovery snapshot of such a prefix does; and it is the same record. -/
theorem read_paths_agree {σ : Type} {config : Config} {s₀ s : DatabaseState}
    (hopen : newState config = .ok s₀) (hconfig : config.Recovered) (world : σ)
    (before : List (Request σ)) {world' : σ} (hs : (live s₀ world before).2 = (s, world'))
    (now : Time) (hclock : unixNanoRepresentable now) (hnow : (s.clock.now now).1 = now) (key : Key)
    (record : Record) :
    (∀ marshal keys, Marshals marshal → ReadableKeys s.limits keys → key ∈ keys →
      (∀ size, s.readMany marshal keys now
        ≠ .error (.api (readTooLarge size s.limits.maxScanBytes))) →
      ∃ result, s.readMany marshal keys now = .ok result ∧
        (s.get key now = .ok record ↔ ∃ entry ∈ result.entries, entry.key = key ∧
          entry.found = true ∧ entry.record = some record)) ∧
    (∀ (start : Bytes) (limits : List Int), start <+: key → validatePrefix start s.limits = .ok () →
      (∀ limit ∈ limits, 0 < limit ∧ limit ≤ s.limits.maxScanRecords) →
      ((ScanRun.run ⟨s, world', { start }⟩ (ScanRun.pagesAt now limits)).scan.status = .finished →
        (s.get key now = .ok record ↔
          record ∈ (ScanRun.run ⟨s, world', { start }⟩ (ScanRun.pagesAt now limits)).scan.records ∧
            record.key = key)) ∧
      ∀ e, (ScanRun.run ⟨s, world', { start }⟩ (ScanRun.pagesAt now limits)).scan.status
        = .failed e → ∃ size, e = scanRecordTooLarge size s.limits.maxScanBytes) ∧
    (∀ request, request.start <+: key →
      validateRecoverySnapshotRequest request s.limits = .ok () →
      request.expectedRevision = s.current →
      (∀ received, s.readRecoverySnapshot request now
        ≠ .error (recoveryTooLarge received request.maxBytes)) →
      ∃ result, s.readRecoverySnapshot request now = .ok result ∧
        (s.get key now = .ok record ↔ record ∈ result.records ∧ record.key = key)) := by
  have hindexed₀ := indexed_of_newState hopen hconfig.current
  have hindexed : s.Indexed := by
    have hlive := hindexed₀.live world before
    rwa [hs] at hlive
  have hdated : s.Dated := by
    have hlive := (dated_of_newState hopen hconfig).live hindexed₀ world before
    rwa [hs] at hlive
  rw [hindexed.get_eq_ok]
  refine ⟨?_, ?_, ?_⟩
  · intro marshal keys hmarshal hkeys hkey hsmall
    rcases hindexed.readMany_ends hdated hmarshal hclock hkeys with hread | ⟨size, hlarge⟩
    · exact ⟨_, hread, (entry_iff hkey).symm⟩
    · exact absurd hlarge (hsmall size)
  · intro start limits hstart hvalid hlimits
    have hstands := (ScanRun.Stands.begin hindexed hnow world' start).run hclock hvalid hlimits
    have hscanStart := ScanRun.run_start ⟨s, world', { start }⟩
      (ScanRun.pagesAt now limits : List (ScanEvent σ))
    refine ⟨fun hfinished => ?_, fun e hfailed => ?_⟩
    · rw [hstands.records hfinished, hscanStart]
      exact (hindexed.matching_iff hstart).symm
    · obtain ⟨asOf, -, hgot⟩ := hstands.follows.got hstands.current
      cases hgot with
      | part status | whole status => cases hfailed.symm.trans status
      | tooLarge large status =>
        rw [hfailed, ScanStatus.failed.injEq] at status
        exact ⟨_, status⟩
  · intro request hstart hvalid hexpected hsmall
    rcases hindexed.readRecoverySnapshot_ends hvalid hexpected with
      ⟨result, hread, hexports⟩ | ⟨received, hlarge⟩
    · refine ⟨result, hread, ?_⟩
      rw [hexports.result]
      exact (hindexed.matching_iff hstart).symm
    · exact absurd hlarge (hsmall received)

/-! ### Outside the range -/

/-- Three keys in a new database, the one in the middle with an expiry. -/
def sampleThreeKeys : List (Request Unit) :=
  [.command (.mutation none
    ⟨.durable, [], [newPutMutation [97] [1] ⟨.any, 0⟩ none,
      newPutMutation [98] [2] ⟨.any, 0⟩ (some (2 ^ 62)), newPutMutation [99] [3] ⟨.any, 0⟩ none]⟩
    .batch { source := 0 })]

def sampleThree : DatabaseState := (live sampleEngine () sampleThreeKeys).2.1

/-- The first instant that a cursor cannot hold. The second page is read at the instant its number
wraps around to, where the expired record is still live. -/
theorem read_paths_differ_outside_range :
    (sampleThree.clock.now (2 ^ 63)).1 = 2 ^ 63 ∧
      (ScanRun.run ⟨sampleThree, (), { start := [] }⟩
        (ScanRun.pagesAt (2 ^ 63) [1, 1, 1])).scan.status = .finished ∧
      ⟨[98], [2], 1, some (2 ^ 62)⟩ ∈ (ScanRun.run ⟨sampleThree, (), { start := [] }⟩
        (ScanRun.pagesAt (2 ^ 63) [1, 1, 1])).scan.records ∧
      sampleThree.get [98] (2 ^ 63) = .error (notFound [98] 1) := by
  refine ⟨by decide +kernel, by decide +kernel, by decide +kernel, by rfl⟩

theorem read_paths_agree_sampleThree :
    sampleThree.get [98] 7 = .ok ⟨[98], [2], 1, some (2 ^ 62)⟩ ∧
      ∃ result, sampleThree.readRecoverySnapshot ⟨[98], 1, 10, 1000⟩ 7 = .ok result ∧
        ⟨[98], [2], 1, some (2 ^ 62)⟩ ∈ result.records := by
  have hopen := sampleEngine_opens
  have hconfig : (newDatabase sampleID defaultLimits).Recovered :=
    ⟨by decide, by simp [newDatabase]⟩
  have hget : sampleThree.get [98] 7 = .ok ⟨[98], [2], 1, some (2 ^ 62)⟩ := rfl
  obtain ⟨-, -, hexport⟩ := read_paths_agree hopen hconfig () sampleThreeKeys
    (s := sampleThree) rfl 7 (by decide) (by decide +kernel) [98] ⟨[98], [2], 1, some (2 ^ 62)⟩
  obtain ⟨result, hread, hiff⟩ := hexport ⟨[98], 1, 10, 1000⟩ (by decide) (by rfl) (by rfl)
    fun received hlarge => by
      have hok : (sampleThree.readRecoverySnapshot ⟨[98], 1, 10, 1000⟩ 7).isOk = true := by rfl
      rw [hlarge] at hok
      cases hok
  exact ⟨hget, result, hread, (hiff.mp hget).1⟩

end GapDB
