import GapDB.Engine.Scans

/-!
# Scan, then watch

A client that scans a prefix and then applies the events of a watch after the revision it observed
holds what the engine holds under that prefix, apart from records that had expired when it scanned.
-/

namespace GapDB

open Storelib DatabaseState HistoryLog

variable {start : Bytes} {commits new : List CommitFrame} {s : DatabaseState}

/-- Apply change events to a copy of the records. -/
def foldEvents (m : RecordMap) (events : List ChangeEvent) : RecordMap :=
  events.foldl (fun m event => Function.update m event.key event.record) m

/-- A client that scans while the system works. -/
structure Mirror (σ : Type) where
  system : WatchSystem σ
  scan : Scan

inductive MirrorEvent (σ : Type) where
  | act (action : WatchAction σ)
  | page (limit : Int) (source : Time)

namespace Mirror

variable {σ : Type}

def step (mirror : Mirror σ) : MirrorEvent σ → Mirror σ
  | .act action => { mirror with system := (mirror.system.step action).getD mirror.system }
  | .page limit source =>
    if mirror.scan.status = .running then
      let (result, engine) :=
        mirror.system.engine.scanPrefix mirror.scan.start limit mirror.scan.cursor source
      { system := { mirror.system with engine }, scan := mirror.scan.take result }
    else mirror

def run (mirror : Mirror σ) (events : List (MirrorEvent σ)) : Mirror σ := events.foldl step mirror

end Mirror

/-! ### Events are writes -/

theorem foldEvents_eq_writeAll (m : RecordMap) (events : List ChangeEvent) :
    foldEvents m events = writeAll m (events.map fun event => (event.key, event.record)) := by
  rw [foldEvents, writeAll, List.foldl_map]

theorem commitEvents_writes (commit : CommitFrame) :
    (commitEvents commit).map (fun event => (event.key, event.record)) = commit.writes := by
  have hevent : ∀ i e, (fun event : ChangeEvent => (event.key, event.record))
      (effectEvent commit.revision i e) = Effect.write commit.revision e := fun _ _ => rfl
  rw [commitEvents, CommitFrame.writes]
  exact map_mapIdx hevent _

/-- The events of later commits that match a prefix are the writes under that prefix. -/
theorem committedEvents_writes {after : Nat} (h : ∀ c ∈ commits, after < c.revision) :
    (committedEvents start after commits).map (fun event => (event.key, event.record))
      = (commits.flatMap CommitFrame.writes).filter fun w => hasPrefix w.1 start := by
  have hlater : committedEvents start after commits
      = (commits.flatMap commitEvents).filter fun event => hasPrefix event.key start := by
    refine List.filter_congr fun event hevent => ?_
    obtain ⟨c, hc, hevent⟩ := List.mem_flatMap.mp hevent
    rw [revision_of_mem_commitEvents hevent, decide_eq_true (h c hc), Bool.true_and]
  have hwrites : (commits.flatMap commitEvents).map (fun event => (event.key, event.record))
      = commits.flatMap CommitFrame.writes := by
    rw [List.map_flatMap]
    simp only [commitEvents_writes]
  rw [hlater, ← hwrites, List.filter_map]
  rfl

theorem commit_of_mem_committedEvents {after : Nat}
    {event : ChangeEvent} (h : event ∈ committedEvents start after commits) :
    ∃ c ∈ commits, event.revision = c.revision := by
  obtain ⟨c, hc, hevent⟩ := List.mem_flatMap.mp (List.mem_filter.mp h).1
  exact ⟨c, hc, revision_of_mem_commitEvents hevent⟩

theorem committedEvents_of_le_after {after : Nat}
    (h : ∀ c ∈ commits, c.revision ≤ after) : committedEvents start after commits = [] := by
  refine List.filter_eq_nil_iff.mpr fun event hevent => ?_
  obtain ⟨c, hc, hevent⟩ := List.mem_flatMap.mp hevent
  have hle := h c hc
  rw [revision_of_mem_commitEvents hevent, decide_eq_false (by omega)]
  simp

theorem recordsOf_eq_writeAll (records : List Record) :
    recordsOf records
      = writeAll (fun _ => none) (records.map fun record => (record.key, some record)) := by
  rw [recordsOf, writeAll, List.foldl_map]

/-! ### What a system commits -/

namespace WatchSystem

variable {σ : Type}

/-- The system has committed `new`. -/
structure Evolves (system system' : WatchSystem σ) (new : List CommitFrame) : Prop where
  commits : system'.commits = system.commits ++ new
  records : system'.engine.records = replayCommits system.engine.records new

theorem Evolves.refl (system : WatchSystem σ) : system.Evolves system [] :=
  ⟨(List.append_nil _).symm, rfl⟩

theorem Evolves.trans {a b c : WatchSystem σ} {new' : List CommitFrame}
    (h : a.Evolves b new) (h' : b.Evolves c new') : a.Evolves c (new ++ new') :=
  ⟨by rw [h'.commits, h.commits, List.append_assoc],
    by rw [h'.records, h.records, replayCommits_append]⟩

theorem Sound.le_current {base : Nat} {system : WatchSystem σ} (h : system.Sound base) :
    ∀ c ∈ system.commits, c.revision ≤ system.engine.current := by
  intro c hc
  rw [h.current]
  exact le_lastRevision_of_mem h.increasing _
    (List.mem_cons_of_mem _ (List.mem_map_of_mem hc))

theorem Evolves.later {base : Nat} {system system' : WatchSystem σ}
    (h : system.Evolves system' new) (hsound : system.Sound base) (hsound' : system'.Sound base) :
    ∀ c ∈ new, system.engine.current < c.revision := by
  intro c hc
  have hincreasing := hsound'.increasing
  rw [h.commits] at hincreasing
  rw [hsound.current]
  exact lastRevision_lt_of_pairwise hincreasing _ (List.mem_map_of_mem hc)

theorem evolves_step {system system' : WatchSystem σ} {action : WatchAction σ}
    (h : system.step action = some system') : ∃ new, system.Evolves system' new := by
  cases action with
  | request r =>
    simp only [step] at h
    split at h
    · cases h
      refine ⟨_, rfl, ?_⟩
      have hshows := (r.shows system.engine system.world).1
      simp only [serve]
      generalize (r.turn system.engine system.world).published = frames at hshows
      cases hshows with
      | nothing same keys => exact same.records
      | commit batch single revision now active valid publishes => exact publishes.records
    · cases h
  | pump id choice =>
    simp only [step] at h
    split at h
    · obtain ⟨result, -, rfl⟩ := Option.map_eq_some_iff.mp h
      exact ⟨[], (List.append_nil _).symm, rfl⟩
    · cases h
  | close id =>
    obtain ⟨p, -, rfl⟩ := Option.map_eq_some_iff.mp h
    exact ⟨[], (List.append_nil _).symm, rfl⟩

theorem evolves_run (system : WatchSystem σ) (actions : List (WatchAction σ)) :
    ∃ new, system.Evolves (system.run actions) new := by
  induction actions generalizing system with
  | nil => exact ⟨[], .refl system⟩
  | cons action actions ih =>
    rw [run, List.foldl_cons]
    cases hstep : system.step action with
    | none => exact ih system
    | some system' =>
      obtain ⟨new, hnew⟩ := evolves_step hstep
      obtain ⟨new', hnew'⟩ := ih system'
      exact ⟨new ++ new', hnew.trans hnew'⟩

/-- The engine of a system stays indexed. -/
theorem indexed_step {system system' : WatchSystem σ} {action : WatchAction σ}
    (h : system.step action = some system') (hindexed : system.engine.Indexed) :
    system'.engine.Indexed := by
  cases action with
  | request r =>
    simp only [step] at h
    split at h
    · cases h
      exact hindexed.run system.world r
    · cases h
  | pump id choice =>
    simp only [step] at h
    split at h
    · obtain ⟨result, -, rfl⟩ := Option.map_eq_some_iff.mp h
      exact hindexed.same ⟨rfl, rfl, rfl, rfl, rfl⟩ rfl
    · cases h
  | close id =>
    obtain ⟨p, -, rfl⟩ := Option.map_eq_some_iff.mp h
    exact hindexed

theorem indexed_run {system : WatchSystem σ} (h : system.engine.Indexed)
    (actions : List (WatchAction σ)) : (system.run actions).engine.Indexed := by
  induction actions generalizing system with
  | nil => exact h
  | cons action actions ih =>
    rw [run, List.foldl_cons]
    cases hstep : system.step action with
    | none => exact ih h
    | some system' => exact ih (indexed_step hstep h)

end WatchSystem

/-! ### The scan of a client -/

namespace Mirror

variable {σ : Type}

/-- The part of the system that a scan depends on. -/
def scanRun (mirror : Mirror σ) : ScanRun σ :=
  ⟨mirror.system.engine, mirror.system.world, mirror.scan⟩

theorem scanRun_page (mirror : Mirror σ) (limit : Int) (source : Time) :
    (mirror.step (.page limit source)).scanRun = mirror.scanRun.step (.page limit source) := by
  by_cases hrunning : mirror.scan.status = .running
  · have hscan : mirror.scanRun.scan.status = .running := hrunning
    rw [step, if_pos hrunning, ScanRun.step, if_pos hscan]
    rfl
  · have hscan : ¬ mirror.scanRun.scan.status = .running := hrunning
    rw [step, if_neg hrunning, ScanRun.step, if_neg hscan]

theorem step_pages (mirror : Mirror σ) (e : MirrorEvent σ) :
    mirror.scan.pages <+: (mirror.step e).scan.pages := by
  cases e with
  | act action => exact List.prefix_rfl
  | page limit source =>
    have hpages := mirror.scanRun.step_pages (.page limit source)
    rwa [← scanRun_page] at hpages

theorem step_start (mirror : Mirror σ) (e : MirrorEvent σ) :
    (mirror.step e).scan.start = mirror.scan.start := by
  cases e with
  | act action => rfl
  | page limit source =>
    have hstart := mirror.scanRun.step_start (.page limit source)
    rwa [← scanRun_page] at hstart

theorem follows_step {mirror : Mirror σ} (h : ScanRun.Follows s mirror.scanRun)
    (hstart : validatePrefix mirror.scan.start s.limits = .ok ()) {e : MirrorEvent σ}
    (hlimit : ∀ limit source, e = .page limit source →
      0 < limit ∧ limit ≤ s.limits.maxScanRecords)
    (hclock : ∀ page ∈ mirror.scan.pages, unixNanoRepresentable page.asOf) :
    ScanRun.Follows s (mirror.step e).scanRun := by
  cases e with
  | page limit source =>
    rw [scanRun_page]
    exact h.page hstart (hlimit limit source rfl) hclock source
  | act action =>
    rw [step]
    cases hstep : mirror.system.step action with
    | none => exact h
    | some system' =>
      cases action with
      | request r =>
        simp only [WatchSystem.step] at hstep
        split at hstep
        · cases hstep
          exact h.request r
        · cases hstep
      | pump id choice =>
        simp only [WatchSystem.step] at hstep
        split at hstep
        · obtain ⟨result, -, rfl⟩ := Option.map_eq_some_iff.mp hstep
          have hsame : mirror.scanRun.engine.Same { mirror.system.engine with
              watchers := mirror.system.engine.watchers.store result.1 } :=
            ⟨rfl, rfl, rfl, rfl, rfl⟩
          exact h.same hsame rfl _
        · cases hstep
      | close id =>
        obtain ⟨p, -, rfl⟩ := Option.map_eq_some_iff.mp hstep
        exact h

theorem run_concat (mirror : Mirror σ) (events : List (MirrorEvent σ)) (e : MirrorEvent σ) :
    mirror.run (events ++ [e]) = (mirror.run events).step e :=
  List.foldl_concat _ _ _ _

theorem run_start (mirror : Mirror σ) (events : List (MirrorEvent σ)) :
    (mirror.run events).scan.start = mirror.scan.start := by
  induction events using List.reverseRecOn with
  | nil => rfl
  | append_singleton events e ih => rw [run_concat, step_start, ih]

theorem follows_run {mirror : Mirror σ} (h : ScanRun.Follows s mirror.scanRun)
    (hstart : validatePrefix mirror.scan.start s.limits = .ok ()) {events : List (MirrorEvent σ)}
    (hlimits : ∀ (limit : Int) (source : Time), .page limit source ∈ events →
      0 < limit ∧ limit ≤ s.limits.maxScanRecords)
    (hclock : ∀ page ∈ (mirror.run events).scan.pages, unixNanoRepresentable page.asOf) :
    ScanRun.Follows s (mirror.run events).scanRun := by
  induction events using List.reverseRecOn with
  | nil => exact h
  | append_singleton events e ih =>
    rw [run_concat] at hclock ⊢
    have hbefore : ∀ page ∈ (mirror.run events).scan.pages, unixNanoRepresentable page.asOf :=
      fun page hpage => hclock page ((step_pages _ e).subset hpage)
    refine follows_step (ih (fun limit source hmem => hlimits limit source
      (List.mem_append_left _ hmem)) hbefore) (by rwa [run_start]) ?_ hbefore
    rintro limit source rfl
    exact hlimits limit source (List.mem_append_right _ (List.mem_singleton.mpr rfl))

/-- A page moves nothing but the clock. -/
theorem page_system (mirror : Mirror σ) (limit : Int) (source : Time) :
    ∃ clock, (mirror.step (.page limit source)).system
      = { mirror.system with engine := { mirror.system.engine with clock } } := by
  rw [step]
  split
  · simp only [scanPrefix]
    split
    · exact ⟨mirror.system.engine.clock, rfl⟩
    · exact ⟨_, rfl⟩
  · exact ⟨mirror.system.engine.clock, rfl⟩

theorem sound_run {base : Nat} {mirror : Mirror σ} (h : mirror.system.Sound base)
    (hbounded : mirror.system.Bounded) (events : List (MirrorEvent σ)) :
    (mirror.run events).system.Sound base ∧ (mirror.run events).system.Bounded := by
  induction events using List.reverseRecOn with
  | nil => exact ⟨h, hbounded⟩
  | append_singleton events e ih =>
    obtain ⟨hsound, hbounded⟩ := ih
    rw [run_concat]
    cases e with
    | act action =>
      rw [step]
      cases hstep : (mirror.run events).system.step action with
      | none => exact ⟨hsound, hbounded⟩
      | some system' => exact ⟨hsound.step hstep, hbounded.step hstep⟩
    | page limit source =>
      obtain ⟨clock, hsystem⟩ := (mirror.run events).page_system limit source
      rw [hsystem]
      exact ⟨⟨hsound.history, hsound.increasing, hsound.current, hsound.ids, hsound.pumped,
        hsound.attached, hsound.detached⟩, ⟨hbounded.limits, hbounded.effects⟩⟩

/-! ### The copy and the engine -/

/-- What a scan returned, as a map. -/
theorem recordsOf_matching (h : s.Indexed) {asOf : Time} (key : Key) :
    recordsOf (s.matching start asOf) key
      = if start <+: key then s.records.visible asOf key else none := by
  have hnodup : ((s.matching start asOf).map fun record => (record.key, some record)).map Prod.fst
      |>.Nodup := by
    rw [List.map_map]
    exact List.pairwise_map.mpr (h.matching_sorted.imp fun hlt => hlt.ne)
  rw [recordsOf_eq_writeAll]
  by_cases hmem : ∃ record ∈ s.matching start asOf, record.key = key
  · obtain ⟨record, hrecord, rfl⟩ := hmem
    obtain ⟨hstored, hstart, hlive⟩ := h.mem_matching.mp hrecord
    have hwritten : writeAll (fun _ => none) ((s.matching start asOf).map fun record =>
        (record.key, some record)) record.key = some record :=
      writeAll_of_mem (List.mem_map_of_mem hrecord) hnodup
    rw [hwritten, if_pos hstart, eq_comm]
    exact Option.filter_eq_some_iff.mpr ⟨hstored, by simpa using hlive⟩
  · have hnone : writeAll (fun _ => none) ((s.matching start asOf).map fun record =>
        (record.key, some record)) key = none := by
      refine writeAll_of_not_mem fun hkey => hmem ?_
      rw [List.map_map] at hkey
      exact List.mem_map.mp hkey
    rw [hnone, eq_comm]
    by_cases hstart : start <+: key
    · rw [if_pos hstart]
      cases hvisible : s.records.visible asOf key with
      | none => rfl
      | some record =>
        obtain rfl := h.visible_key hvisible
        obtain ⟨hstored, hlive⟩ := Option.filter_eq_some_iff.mp hvisible
        exact absurd ⟨record, h.mem_matching.mpr ⟨hstored, hstart, by simpa using hlive⟩, rfl⟩ hmem
    · rw [if_neg hstart]

/-- Events arrive in their order: once a later one is there, none before it is missing. -/
theorem received_of_later {received events : List ChangeEvent} {revision : Nat}
    (hreceived : received <+: events) (hordered : events.Pairwise Before)
    (hlater : ∃ event ∈ received, revision < event.revision) :
    ∀ event ∈ events, event.revision ≤ revision → event ∈ received := by
  obtain ⟨tail, rfl⟩ := hreceived
  obtain ⟨later, hmem, hlt⟩ := hlater
  intro event hevent hle
  refine (List.mem_append.mp hevent).resolve_right fun htail => ?_
  have := ((List.pairwise_append.mp hordered).2.2 later hmem event htail).revision_le
  omega

/-- The events up to a revision, of a consumer that has all of them. -/
theorem received_filter {received events later : List ChangeEvent} {revision : Nat}
    (hreceived : received <+: events ++ later) (hordered : (events ++ later).Pairwise Before)
    (hevents : ∀ event ∈ events, event.revision ≤ revision)
    (hlater : ∀ event ∈ later, revision < event.revision)
    (hall : ∀ event ∈ events, event ∈ received) :
    received.filter (fun event => event.revision ≤ revision) = events := by
  obtain ⟨tail, htail⟩ := hreceived
  rw [← htail] at hordered
  have hkept : (received ++ tail).filter (fun event => event.revision ≤ revision) = events := by
    rw [htail, List.filter_append, List.filter_eq_self.mpr (by simpa using hevents),
      List.filter_eq_nil_iff.mpr (by simpa using hlater), List.append_nil]
  have hnone : tail.filter (fun event => event.revision ≤ revision) = [] := by
    rw [List.filter_eq_nil_iff]
    intro event hevent hle
    have hmem : event ∈ events := by
      have hin : event ∈ events ++ later := htail ▸ List.mem_append_right _ hevent
      rcases List.mem_append.mp hin with hin | hin
      · exact hin
      · exact absurd (hlater event hin) (by simpa using hle)
    exact ((List.pairwise_append.mp hordered).2.2 event (hall event hmem) event hevent).ne rfl
  rwa [List.filter_append, hnone, List.append_nil] at hkept

/-- The copy under the prefix is the engine's, up to records that had expired at the scan and were
not touched since. -/
def Reflects (start : Bytes) (asOf : Time) (scanned records copy : RecordMap) : Prop :=
  ∀ key, (¬ start <+: key → copy key = none) ∧
    (start <+: key → copy key = records key ∨
      copy key = none ∧ ∃ record, scanned key = some record ∧ records key = some record ∧
        recordExpired record asOf = true)

theorem Reflects.visible {asOf : Time} {scanned records copy : RecordMap}
    (h : Reflects start asOf scanned records copy) {t : Time} (ht : asOf ≤ t) {key : Key}
    (hkey : start <+: key) : copy.visible t key = records.visible t key := by
  unfold RecordMap.visible
  rcases (h key).2 hkey with heq | ⟨hnone, record, -, hrecord, hexpired⟩
  · rw [heq]
  · rw [hnone, hrecord]
    simp [Option.filter, recordExpired_mono ht hexpired]

theorem reflects_of_commits (h : s.Indexed) {asOf : Time}
    (hnew : ∀ c ∈ new, s.current < c.revision) :
    Reflects start asOf s.records (replayCommits s.records new)
      (foldEvents (recordsOf (s.matching start asOf)) (committedEvents start s.current new)) := by
  intro key
  rw [foldEvents_eq_writeAll, committedEvents_writes hnew, replayCommits_eq_writeAll]
  constructor
  · intro hkey
    rw [writeAll_of_not_mem, recordsOf_matching h, if_neg hkey]
    intro hwritten
    obtain ⟨w, hw, rfl⟩ := List.mem_map.mp hwritten
    exact hkey (List.isPrefixOf_iff_prefix.mp (List.mem_filter.mp hw).2)
  · intro hkey
    rw [writeAll_filter (p := (hasPrefix · start)) (List.isPrefixOf_iff_prefix.mpr hkey)]
    by_cases hwritten : key ∈ (new.flatMap CommitFrame.writes).map Prod.fst
    · exact .inl (writeAll_of_written _ _ hwritten)
    · rw [writeAll_of_not_mem hwritten, writeAll_of_not_mem hwritten, recordsOf_matching h,
        if_pos hkey, RecordMap.visible]
      cases hrecord : s.records key with
      | none => exact .inl rfl
      | some record =>
        cases hexpired : recordExpired record asOf with
        | false => exact .inl (by simp [Option.filter, hexpired])
        | true => exact .inr ⟨by simp [Option.filter, hexpired], record, rfl, rfl, hexpired⟩

/-- Scan, then watch. A client that scanned a prefix at revision `R` and has received the events of
a watch after `R` up to the revision at which the engine was at some later moment, which it knows
once it has received an event of a later revision, holds the engine's records of that moment,
apart from those that had expired at the instant of the scan and
were not touched since; from that instant on nobody can see the difference. -/
theorem scan_then_watch {config : Config} {s₀ : DatabaseState} (hopen : newState config = .ok s₀)
    (hcurrent : config.currentRevision < 2 ^ 64)
    (hrecovered : ∀ c ∈ config.recoveredCommits, c.effects.length ≤ 2 ^ 32) (world : σ)
    (before : List (WatchAction σ)) {system : WatchSystem σ}
    (hsystem : system = (WatchSystem.opened s₀ config world).run before) {start : Bytes}
    (hstart : validatePrefix start system.engine.limits = .ok ()) (scanning : List (MirrorEvent σ))
    (hlimits : ∀ (limit : Int) (source : Time), .page limit source ∈ scanning →
      0 < limit ∧ limit ≤ system.engine.limits.maxScanRecords)
    {m : Mirror σ} (hm : m = run ⟨system, { start }⟩ scanning)
    (hclock : ∀ page ∈ m.scan.pages, unixNanoRepresentable page.asOf)
    (hfinished : m.scan.status = .finished)
    (hquiet : m.system.engine.current = system.engine.current)
    (later : List (WatchAction σ)) {v : WatchSystem σ} (hv : v = m.system.run later)
    (onward : List (WatchAction σ)) {w : WatchSystem σ} (hw : w = v.run onward)
    {id : Nat} {x : WatcherState} (hx : w.engine.watchers.find id = some x)
    (hxstart : x.start = start)
    {p : Pump} (hp : w.pumps id = some p) (hafter : p.after = system.engine.current)
    (hall : (∃ event ∈ p.received, v.engine.current < event.revision) ∨
      ∀ event ∈ committedEvents start p.after w.commits,
        event.revision ≤ v.engine.current → event ∈ p.received) :
    ∃ asOf, (∀ page ∈ m.scan.pages,
        page.observedRevision = system.engine.current ∧ page.asOf = asOf) ∧
      Reflects start asOf m.system.engine.records v.engine.records
        (foldEvents (recordsOf m.scan.records)
          (p.received.filter fun event => event.revision ≤ v.engine.current)) ∧
      ∀ t key, asOf ≤ t → start <+: key →
        RecordMap.visible (foldEvents (recordsOf m.scan.records)
            (p.received.filter fun event => event.revision ≤ v.engine.current)) t key
          = v.engine.records.visible t key := by
  have hsound : system.Sound config.snapshotRevision := by
    rw [hsystem]
    exact (WatchSystem.sound_opened hopen world).run before
  have hbounded : system.Bounded := by
    rw [hsystem]
    exact WatchSystem.Bounded.run ⟨(opened_of_newState hopen).limitsValid, hrecovered⟩ before
  have hindexed : system.engine.Indexed := by
    rw [hsystem]
    exact WatchSystem.indexed_run (indexed_of_newState hopen hcurrent) before
  -- the scan has got what matches
  have hfollows : ScanRun.Follows system.engine m.scanRun := by
    rw [hm] at hclock ⊢
    exact follows_run (ScanRun.Follows.begin hindexed system.world start) hstart hlimits hclock
  obtain ⟨asOf, hpages, hgot⟩ := hfollows.got hquiet
  have hrecords : m.scan.records = m.system.engine.matching start asOf := by
    have hgotAll := hgot.finished hfinished
    have hscanStart : m.scan.start = start := by rw [hm, run_start]
    rw [← hfollows.matching_eq hquiet] at hgotAll
    rwa [← hscanStart]
  -- the commits between the scan, the moment and the end
  obtain ⟨hmsound, hmbounded⟩ : m.system.Sound config.snapshotRevision ∧ m.system.Bounded := by
    rw [hm]
    exact sound_run hsound hbounded scanning
  obtain ⟨new, hnew⟩ := m.system.evolves_run later
  obtain ⟨new', hnew'⟩ := v.evolves_run onward
  rw [← hv] at hnew
  rw [← hw] at hnew'
  have hvsound : v.Sound config.snapshotRevision := hv ▸ hmsound.run later
  have hwsound : w.Sound config.snapshotRevision := hw ▸ hvsound.run onward
  have hwbounded : w.Bounded := hw ▸ (hv ▸ hmbounded.run later : v.Bounded).run onward
  have hreceived := hwsound.received_isPrefix hx hp
  have hordered : (committedEvents start p.after w.commits).Pairwise Before :=
    committedEvents_before (List.pairwise_cons.mp hwsound.increasing).2 hwbounded.effects
  rw [hxstart] at hreceived
  replace hall := hall.elim (received_of_later hreceived hordered) fun h => h
  rw [hafter, ← hquiet] at hall hreceived hordered
  have hevents : committedEvents start m.system.engine.current w.commits
      = committedEvents start m.system.engine.current new
        ++ committedEvents start m.system.engine.current new' := by
    rw [hnew'.commits, hnew.commits, committedEvents_append, committedEvents_append,
      committedEvents_of_le_after hmsound.le_current, List.nil_append]
  have hfilter : p.received.filter (fun event => event.revision ≤ v.engine.current)
      = committedEvents start m.system.engine.current new := by
    rw [hevents] at hreceived hordered hall
    have hupto : ∀ event ∈ committedEvents start m.system.engine.current new,
        event.revision ≤ v.engine.current := by
      intro event hevent
      obtain ⟨c, hc, hrevision⟩ := commit_of_mem_committedEvents hevent
      rw [hrevision]
      exact hvsound.le_current c (hnew.commits ▸ List.mem_append_right _ hc)
    refine received_filter hreceived hordered hupto (fun event hevent => ?_)
      fun event hevent => hall event (List.mem_append_left _ hevent) (hupto event hevent)
    obtain ⟨c, hc, hrevision⟩ := commit_of_mem_committedEvents hevent
    rw [hrevision]
    exact hnew'.later hvsound hwsound c hc
  have hreflects : Reflects start asOf m.system.engine.records
      (replayCommits m.system.engine.records new)
      (foldEvents (recordsOf (m.system.engine.matching start asOf))
        (committedEvents start m.system.engine.current new)) :=
    reflects_of_commits hfollows.indexed (hnew.later hmsound hvsound)
  rw [hrecords, hfilter, hnew.records]
  exact ⟨asOf, hpages, hreflects, fun t key ht hkey => hreflects.visible ht hkey⟩

/-- Two records in a new database. -/
def sampleSystem : WatchSystem Unit :=
  (WatchSystem.opened sampleEngine (newDatabase sampleID defaultLimits) ()).run
    [.request (.command samplePut)]

/-- It is scanned by one page. -/
def sampleMirror : Mirror Unit := run ⟨sampleSystem, { start := [] }⟩ [.page 10 7]

/-- A watch is registered, one record is replaced and the other one deleted. -/
def sampleMoment : WatchSystem Unit :=
  sampleMirror.system.run [.request (.command (.register 0 [] 1)), .request (.command sampleChange)]

/-- The events are received. -/
def sampleEnd : WatchSystem Unit :=
  sampleMoment.run (List.replicate 5 (.pump 1 .proceed))

theorem scan_then_watch_sampleMirror : ∃ x p asOf,
    sampleEnd.engine.watchers.find 1 = some x ∧ sampleEnd.pumps 1 = some p ∧
      p.received = [⟨2, 0, .put, [97], some ⟨[97], [3], 2, none⟩⟩, ⟨2, 1, .delete, [98], none⟩] ∧
      sampleMirror.scan.records = [⟨[97], [1], 1, none⟩, ⟨[98], [2], 1, some 1000⟩] ∧
      Reflects [] asOf sampleMirror.system.engine.records sampleMoment.engine.records
        (foldEvents (recordsOf sampleMirror.scan.records)
          (p.received.filter fun event => event.revision ≤ sampleMoment.engine.current)) := by
  have hopen := sampleEngine_opens
  have hfound : (sampleEnd.engine.watchers.find 1).map (·.start) = some [] := by decide +kernel
  obtain ⟨x, hx, hstart⟩ := Option.map_eq_some_iff.mp hfound
  have hpump : (sampleEnd.pumps 1).map (fun p => (p.received, p.after))
      = some ([⟨2, 0, .put, [97], some ⟨[97], [3], 2, none⟩⟩, ⟨2, 1, .delete, [98], none⟩], 1) := by
    decide +kernel
  obtain ⟨p, hp, hpair⟩ := Option.map_eq_some_iff.mp hpump
  obtain ⟨hreceived, hafter⟩ := Prod.mk.injEq _ _ _ _ ▸ hpair
  have hlimits : ∀ (limit : Int) (source : Time),
      .page limit source ∈ [(.page 10 7 : MirrorEvent Unit)] →
      0 < limit ∧ limit ≤ sampleSystem.engine.limits.maxScanRecords := by
    intro limit source hmem
    obtain ⟨rfl, -⟩ := MirrorEvent.page.inj (List.mem_singleton.mp hmem)
    decide +kernel
  have hvalid : validatePrefix [] sampleSystem.engine.limits = .ok () := by decide +kernel
  have hclock : ∀ page ∈ sampleMirror.scan.pages, unixNanoRepresentable page.asOf := by
    decide +kernel
  have hfinished : sampleMirror.scan.status = .finished := by decide +kernel
  have hquiet : sampleMirror.system.engine.current = sampleSystem.engine.current := by
    decide +kernel
  have hrevision : sampleSystem.engine.current = 1 := by decide +kernel
  have hall : ∀ event ∈ committedEvents [] p.after sampleEnd.commits,
      event.revision ≤ sampleMoment.engine.current → event ∈ p.received := by
    rw [hafter, hreceived]
    decide +kernel
  obtain ⟨asOf, -, hreflects, -⟩ := scan_then_watch hopen (by decide)
    (fun c hc => absurd hc List.not_mem_nil) () [.request (.command samplePut)] rfl hvalid
    [.page 10 7] hlimits (m := sampleMirror) rfl hclock hfinished hquiet
    [.request (.command (.register 0 [] 1)), .request (.command sampleChange)]
      (v := sampleMoment) rfl
    (List.replicate 5 (.pump 1 .proceed)) (w := sampleEnd) rfl hx hstart hp
    (hafter.trans hrevision.symm) (.inr hall)
  exact ⟨x, p, asOf, hx, hp, hreceived, by decide +kernel, hreflects⟩

end Mirror

end GapDB
