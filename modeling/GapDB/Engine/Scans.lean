import GapDB.Engine.Delivery
import GapDB.Engine.PageReads

/-!
# Following the cursors of a scan

A client that follows the cursors while nothing is committed gets all the records that match and
are live at the instant of the first page, in order; after a commit it is told that its cursor is
stale.
-/

namespace GapDB

open Storelib DatabaseState

variable {s : DatabaseState}

/-! ### The client -/

inductive ScanStatus where
  | running
  | finished
  | failed (e : Error)
deriving DecidableEq

/-- A client that asks for page after page. -/
structure Scan where
  start : Bytes
  cursor : Bytes := []
  pages : List ScanPage := []
  status : ScanStatus := .running

def Scan.records (scan : Scan) : List Record := scan.pages.flatMap ScanPage.records

def Scan.take (scan : Scan) : Except Error ScanPage → Scan
  | .error e => { scan with status := .failed e }
  | .ok page =>
    { scan with
      cursor := page.cursor
      pages := scan.pages ++ [page]
      status := if page.truncated then .running else .finished }

inductive ScanEvent (σ : Type) where
  | request (r : Request σ)
  | page (limit : Int) (source : Time)

/-- An engine and a client that scans it while others work with it. -/
structure ScanRun (σ : Type) where
  engine : DatabaseState
  world : σ
  scan : Scan

namespace ScanRun

variable {σ : Type}

def step (f : ScanRun σ) : ScanEvent σ → ScanRun σ
  | .request r =>
    { f with engine := (r.run f.engine f.world).2.1, world := (r.run f.engine f.world).2.2 }
  | .page limit source =>
    if f.scan.status = .running then
      let (result, engine) := f.engine.scanPrefix f.scan.start limit f.scan.cursor source
      { f with engine, scan := f.scan.take result }
    else f

def run (f : ScanRun σ) (events : List (ScanEvent σ)) : ScanRun σ := events.foldl step f

/-- The pages a client asked for. -/
def asked (events : List (ScanEvent σ)) : Nat :=
  events.countP fun
    | .page _ _ => true
    | .request _ => false

/-- What the client holds between two pages: the cursor of its last page. -/
structure Resumes (s : DatabaseState) (scan : Scan) (cursor : ScanCursor) : Prop where
  encoded : scan.cursor = encodeScanCursor s.databaseID cursor
  start : cursor.start = scan.start
  lastKey : ValidKey s.limits cursor.lastKey
  matching : cursor.start <+: cursor.lastKey
  revision : cursor.revision < 2 ^ 64
  last : scan.records.getLast?.map Record.key = some cursor.lastKey
  pages : ∀ page ∈ scan.pages, page.observedRevision = cursor.revision ∧ page.asOf = cursor.asOf

/-- What the client has got of `all`, the records to be scanned. -/
inductive Got (s : DatabaseState) (scan : Scan) (all : List Record) : Prop where
  | part (status : scan.status = .running) (records : scan.records <+: all)
      (pages : scan.pages.length ≤ scan.records.length)
  | whole (status : scan.status = .finished) (records : scan.records = all)
  | tooLarge (record : Record)
      (status : scan.status
        = .failed (scanRecordTooLarge (scanRecordBytes record) s.limits.maxScanBytes))
      (mem : record ∈ all) (large : s.limits.maxScanBytes < scanRecordBytes record)

theorem Got.running {scan : Scan} {all : List Record} (h : Got s scan all)
    (hrunning : scan.status = .running) :
    scan.records <+: all ∧ scan.pages.length ≤ scan.records.length := by
  cases h with
  | part status records pages => exact ⟨records, pages⟩
  | whole status | tooLarge record status => cases hrunning.symm.trans status

theorem Got.finished {scan : Scan} {all : List Record} (h : Got s scan all)
    (hfinished : scan.status = .finished) : scan.records = all := by
  cases h with
  | part status | tooLarge record status => cases hfinished.symm.trans status
  | whole status records => exact records

/-- The invariant of a scan that began at `s`. -/
structure Follows (s : DatabaseState) (f : ScanRun σ) : Prop where
  indexed : f.engine.Indexed
  limits : f.engine.limits = s.limits
  databaseID : f.engine.databaseID = s.databaseID
  grows : s.current ≤ f.engine.current
  quiet : f.engine.current = s.current →
    f.engine.records = s.records ∧ f.engine.orderedKeys = s.orderedKeys
  cursor : f.scan.status = .running → f.scan.pages = [] ∧ f.scan.cursor = [] ∨
    f.scan.pages ≠ [] ∧ ∃ cursor, Resumes s f.scan cursor
  got : f.engine.current = s.current → ∃ asOf,
    (∀ page ∈ f.scan.pages, page.observedRevision = s.current ∧ page.asOf = asOf) ∧
      Got s f.scan (s.matching f.scan.start asOf)

theorem Follows.begin (h : s.Indexed) (world : σ) (start : Bytes) :
    Follows s ⟨s, world, { start }⟩ where
  indexed := h
  limits := rfl
  databaseID := rfl
  grows := le_rfl
  quiet := fun _ => ⟨rfl, rfl⟩
  cursor := fun _ => .inl ⟨rfl, rfl⟩
  got := fun _ => ⟨0, fun _ hpage => absurd hpage List.not_mem_nil,
    .part rfl List.nil_prefix le_rfl⟩

theorem Follows.same {f : ScanRun σ} (h : Follows s f) {engine : DatabaseState}
    (same : f.engine.Same engine) (keys : engine.orderedKeys = f.engine.orderedKeys) (world : σ) :
    Follows s ⟨engine, world, f.scan⟩ where
  indexed := h.indexed.same same keys
  limits := same.limits.trans h.limits
  databaseID := same.databaseID.trans h.databaseID
  grows := by rw [same.current]; exact h.grows
  quiet := by rw [same.current, same.records, keys]; exact h.quiet
  cursor := h.cursor
  got := by rw [same.current]; exact h.got

theorem Follows.request {f : ScanRun σ} (h : Follows s f) (r : Request σ) :
    Follows s (f.step (.request r)) := by
  have hindexed := h.indexed.run f.world r
  have hshows := (r.shows f.engine f.world).1
  simp only [step]
  generalize (r.turn f.engine f.world).published = frames at hshows
  generalize (r.run f.engine f.world).2.1 = s' at hshows hindexed ⊢
  cases hshows with
  | nothing same keys => exact h.same same keys _
  | commit batch single revision now active valid publishes =>
    have hlater : s.current < s'.current := by
      rw [publishes.current]
      exact h.grows.trans_lt publishes.increasing
    exact
      { indexed := hindexed
        limits := publishes.limits.trans h.limits
        databaseID := publishes.databaseID.trans h.databaseID
        grows := hlater.le
        quiet := fun heq => absurd heq hlater.ne'
        cursor := h.cursor
        got := fun heq => absurd heq hlater.ne' }

theorem Scan.records_take (scan : Scan) (page : ScanPage) :
    (scan.take (.ok page)).records = scan.records ++ page.records := by
  simp [Scan.records, Scan.take]

/-- Reading a page moves the clock and the client. -/
theorem Follows.of_scan {f : ScanRun σ} (h : Follows s f) (clock : Nondecreasing) {scan : Scan}
    (hcursor : scan.status = .running → scan.pages = [] ∧ scan.cursor = [] ∨
      scan.pages ≠ [] ∧ ∃ cursor, Resumes s scan cursor)
    (hgot : f.engine.current = s.current → ∃ asOf,
      (∀ page ∈ scan.pages, page.observedRevision = s.current ∧ page.asOf = asOf) ∧
        Got s scan (s.matching scan.start asOf)) :
    Follows s ⟨{ f.engine with clock }, f.world, scan⟩ where
  indexed := h.indexed.same ⟨rfl, rfl, rfl, rfl, rfl⟩ rfl
  limits := h.limits
  databaseID := h.databaseID
  grows := h.grows
  quiet := h.quiet
  cursor := hcursor
  got := hgot

/-- A page that continues what the client has got keeps the invariant. -/
theorem Follows.take {f : ScanRun σ} (h : Follows s f)
    (clock : Nondecreasing) {asOf : Time} {rest : List Record} {result : Except Error ScanPage}
    (hreads : f.engine.ReadsPage f.scan.start asOf rest result)
    (hpages : ∀ page ∈ f.scan.pages, page.observedRevision = f.engine.current ∧ page.asOf = asOf)
    (hsub : ∀ record ∈ rest, record ∈ f.engine.matching f.scan.start asOf)
    (hrest : f.engine.current = s.current →
      s.matching f.scan.start asOf = f.scan.records ++ rest ∧
        f.scan.pages.length ≤ f.scan.records.length) :
    Follows s ⟨{ f.engine with clock }, f.world, f.scan.take result⟩ := by
  have hall : ∀ {page : ScanPage}, page.observedRevision = f.engine.current → page.asOf = asOf →
      ∀ other ∈ f.scan.pages ++ [page],
        other.observedRevision = f.engine.current ∧ other.asOf = asOf := by
    intro page hobserved htime other hother
    rcases List.mem_append.mp hother with hother | hother
    · exact hpages other hother
    · rw [List.mem_singleton.mp hother]
      exact ⟨hobserved, htime⟩
  cases hreads with
  | whole page truncated records observed time =>
    have hstatus : (f.scan.take (.ok page)).status = .finished := by simp [Scan.take, truncated]
    refine h.of_scan clock (fun hrunning => by rw [hstatus] at hrunning; cases hrunning)
      fun hquiet => ?_
    refine ⟨asOf, fun other hother => hquiet ▸ hall observed time other hother,
      .whole hstatus ?_⟩
    rw [Scan.records_take, records, ← (hrest hquiet).1]
    rfl
  | part page last next truncated split lastRecord cursor observed time =>
    have hstatus : (f.scan.take (.ok page)).status = .running := by simp [Scan.take, truncated]
    have hlastMem : last ∈ page.records := List.mem_of_getLast? lastRecord
    obtain ⟨hrecord, hstart, -⟩ := h.indexed.mem_matching.mp
      (hsub last (split ▸ List.mem_append_left _ hlastMem))
    refine h.of_scan clock (fun _ => .inr ⟨by simp [Scan.take],
      ⟨f.scan.start, last.key, f.engine.current, asOf⟩, ?_⟩) fun hquiet => ?_
    · exact
        { encoded := by rw [← h.databaseID]; exact cursor
          start := rfl
          lastKey := h.limits ▸ h.indexed.valid hrecord
          matching := hstart
          revision := h.indexed.current
          last := by
            rw [Scan.records_take, List.getLast?_append, lastRecord]
            rfl
          pages := hall observed time }
    · obtain ⟨hmatching, hcount⟩ := hrest hquiet
      refine ⟨asOf, fun other hother => hquiet ▸ hall observed time other hother,
        .part hstatus ⟨next, ?_⟩ ?_⟩
      · rw [Scan.records_take, List.append_assoc, ← split]
        exact hmatching.symm
      · have hpos : 0 < page.records.length := List.length_pos_of_mem hlastMem
        rw [Scan.records_take, List.length_append]
        simp only [Scan.take, List.length_append, List.length_singleton]
        omega
  | tooLarge record mem large =>
    refine h.of_scan clock (fun hrunning => by cases hrunning) fun hquiet => ?_
    rw [h.limits] at large
    refine ⟨asOf, fun other hother => hquiet ▸ hpages other hother,
      .tooLarge record (by rw [← h.limits]; rfl) ?_ large⟩
    have hmem : record ∈ s.matching f.scan.start asOf := by
      rw [(hrest hquiet).1]
      exact List.mem_append_right _ mem
    exact hmem

theorem filter_after_last {before rest : List Record} {last : Record}
    (hsorted : (before ++ rest).Pairwise fun a b => a.key < b.key)
    (hlast : before.getLast? = some last) :
    (before ++ rest).filter (fun record => last.key < record.key) = rest := by
  obtain ⟨hbefore, -, hacross⟩ := List.pairwise_append.mp hsorted
  obtain ⟨init, rfl⟩ := List.getLast?_eq_some_iff.mp hlast
  have hnone : (init ++ [last]).filter (fun record => last.key < record.key) = [] := by
    rw [List.filter_eq_nil_iff]
    intro record hrecord
    rw [decide_eq_true_eq, not_lt]
    rcases List.mem_append.mp hrecord with hrecord | hrecord
    · exact ((List.pairwise_append.mp hbefore).2.2 record hrecord last
        (List.mem_singleton.mpr rfl)).le
    · rw [List.mem_singleton.mp hrecord]
  have hall : rest.filter (fun record => last.key < record.key) = rest := by
    rw [List.filter_eq_self]
    intro record hrecord
    rw [decide_eq_true_eq]
    exact hacross last (List.mem_append_right _ (List.mem_singleton.mpr rfl)) record hrecord
  rw [List.filter_append, hnone, hall, List.nil_append]

section

variable {f : ScanRun σ} (h : Follows s f)
  (hstart : validatePrefix f.scan.start s.limits = .ok ()) {limit : Int}
  (hlimit : 0 < limit ∧ limit ≤ s.limits.maxScanRecords)

theorem Resumes.encodable {cursor : ScanCursor} (hresumes : Resumes s f.scan cursor)
    (hstart : validatePrefix f.scan.start s.limits = .ok ()) (hne : f.scan.pages ≠ [])
    (hclock : ∀ page ∈ f.scan.pages, unixNanoRepresentable page.asOf) :
    cursor.Encodable s.limits where
  start := by
    simp only [validatePrefix, ite_error_eq_ok, not_not, not_lt, and_true] at hstart
    rw [hresumes.start]
    exact hstart
  lastKey := hresumes.lastKey
  matching := hresumes.matching
  revision := hresumes.revision
  asOf := by
    obtain ⟨page, hpage⟩ := List.exists_mem_of_ne_nil _ hne
    rw [← (hresumes.pages page hpage).2]
    exact hclock page hpage

include h

theorem Follows.matching_eq (hquiet : f.engine.current = s.current) (start : Bytes) (asOf : Time) :
    f.engine.matching start asOf = s.matching start asOf := by
  obtain ⟨hrecords, hkeys⟩ := h.quiet hquiet
  rw [DatabaseState.matching, DatabaseState.matching, liveMatches, liveMatches, hrecords, hkeys]

include hstart hlimit

/-- A page with the cursor of a scan is read where the last one ended, or refused as stale. -/
theorem Follows.scanPrefix_resumed {cursor : ScanCursor} (hresumes : Resumes s f.scan cursor)
    (hne : f.scan.pages ≠ []) (hclock : ∀ page ∈ f.scan.pages, unixNanoRepresentable page.asOf)
    (source : Time) :
    f.engine.scanPrefix f.scan.start limit f.scan.cursor source
      = (f.engine.scanAt f.scan.start limit (f.engine.clock.now source).1 (some cursor),
          { f.engine with clock := (f.engine.clock.now source).2 }) := by
  have hencodable := hresumes.encodable hstart hne hclock
  rw [← h.limits] at hstart hlimit hencodable
  rw [hresumes.encoded, ← h.databaseID]
  exact scanPrefix_next hstart hlimit source h.indexed.limits hencodable hresumes.start

theorem Follows.page (hclock : ∀ page ∈ f.scan.pages, unixNanoRepresentable page.asOf)
    (source : Time) : Follows s (f.step (.page limit source)) := by
  rw [step]
  by_cases hrunning : f.scan.status = .running
  swap
  · rw [if_neg hrunning]
    exact h
  rw [if_pos hrunning]
  have hcount : f.engine.current = s.current → f.scan.pages.length ≤ f.scan.records.length := by
    intro hquiet
    obtain ⟨asOf, -, hgot⟩ := h.got hquiet
    exact (hgot.running hrunning).2
  rcases h.cursor hrunning with ⟨hpages, hcursor⟩ | ⟨hne, cursor, hresumes⟩
  · have hfirst : f.engine.scanPrefix f.scan.start limit f.scan.cursor source
        = (f.engine.scanAt f.scan.start limit (f.engine.clock.now source).1 none,
            { f.engine with clock := (f.engine.clock.now source).2 }) := by
      rw [hcursor]
      rw [← h.limits] at hstart hlimit
      exact scanPrefix_first hstart hlimit source
    rw [hfirst]
    refine h.take _ (readPage_reads (h.indexed.firstPage_ends hlimit.1)) (by simp [hpages])
      (fun _ hrecord => hrecord) fun hquiet => ⟨?_, hcount hquiet⟩
    rw [← h.matching_eq hquiet, Scan.records, hpages]
    rfl
  · rw [h.scanPrefix_resumed hstart hlimit hresumes hne hclock source]
    simp only [scanAt]
    by_cases hstale : cursor.revision ≠ f.engine.current
    · rw [if_pos hstale]
      refine h.of_scan _ (fun hfailed => by cases hfailed) fun hquiet => ?_
      -- without a commit the cursor has the current revision
      obtain ⟨asOf, hpages, -⟩ := h.got hquiet
      obtain ⟨page, hpage⟩ := List.exists_mem_of_ne_nil _ hne
      exact absurd ((hresumes.pages page hpage).1.symm.trans ((hpages page hpage).1.trans
        hquiet.symm)) hstale
    · rw [if_neg hstale]
      rw [not_not] at hstale
      refine h.take _ (readPage_reads (h.indexed.nextPage_ends (hresumes.start ▸ hresumes.matching)
        hlimit.1)) (hstale ▸ hresumes.pages) (fun _ hrecord => (List.mem_filter.mp hrecord).1)
        fun hquiet => ⟨?_, hcount hquiet⟩
      obtain ⟨asOf, hpages, hgot⟩ := h.got hquiet
      obtain ⟨page, hpage⟩ := List.exists_mem_of_ne_nil _ hne
      have htime : asOf = cursor.asOf :=
        (hpages page hpage).2.symm.trans (hresumes.pages page hpage).2
      obtain ⟨rest, hrest⟩ := (hgot.running hrunning).1
      obtain ⟨last, hlast, hkey⟩ := Option.map_eq_some_iff.mp hresumes.last
      have hsorted : (f.engine.matching f.scan.start cursor.asOf).Pairwise
          fun a b => a.key < b.key := h.indexed.matching_sorted
      rw [h.matching_eq hquiet] at hsorted ⊢
      rw [← htime, ← hrest] at hsorted ⊢
      rw [← hkey, filter_after_last hsorted hlast]

end

/-! ### Whole runs -/

theorem run_concat (f : ScanRun σ) (events : List (ScanEvent σ)) (e : ScanEvent σ) :
    f.run (events ++ [e]) = (f.run events).step e :=
  List.foldl_concat _ _ _ _

theorem step_start (f : ScanRun σ) (e : ScanEvent σ) : (f.step e).scan.start = f.scan.start := by
  cases e with
  | request r => rfl
  | page limit source =>
    rw [step]
    split
    · simp only [Scan.take]
      split <;> rfl
    · rfl

theorem step_pages (f : ScanRun σ) (e : ScanEvent σ) : f.scan.pages <+: (f.step e).scan.pages := by
  cases e with
  | request r => exact List.prefix_rfl
  | page limit source =>
    rw [step]
    split
    · simp only [Scan.take]
      split
      · exact List.prefix_rfl
      · exact List.prefix_append _ _
    · exact List.prefix_rfl

theorem run_start (f : ScanRun σ) (events : List (ScanEvent σ)) :
    (f.run events).scan.start = f.scan.start := by
  induction events using List.reverseRecOn with
  | nil => rfl
  | append_singleton events e ih => rw [run_concat, step_start, ih]

/-- As long as the client goes on, every page it asked for has come. -/
theorem asked_eq {f : ScanRun σ} (hfresh : f.scan.pages = []) (events : List (ScanEvent σ))
    (hrunning : (f.run events).scan.status = .running) :
    asked events = (f.run events).scan.pages.length := by
  induction events using List.reverseRecOn with
  | nil => simp [asked, run, hfresh]
  | append_singleton events e ih =>
    rw [run_concat] at hrunning ⊢
    rw [asked, List.countP_append]
    cases e with
    | request r => exact ih hrunning
    | page limit source =>
      rw [step] at hrunning ⊢
      split at hrunning
      next hbefore =>
        rw [if_pos hbefore]
        simp only [Scan.take] at hrunning ⊢
        split at hrunning
        · cases hrunning
        · simp only [List.length_append, List.length_singleton, ← ih hbefore]
          rfl
      next hbefore => exact absurd hrunning hbefore

theorem Follows.run {f : ScanRun σ} (h : Follows s f)
    (hstart : validatePrefix f.scan.start s.limits = .ok ()) {events : List (ScanEvent σ)}
    (hlimits : ∀ (limit : Int) (source : Time), .page limit source ∈ events →
      0 < limit ∧ limit ≤ s.limits.maxScanRecords)
    (hclock : ∀ page ∈ (f.run events).scan.pages, unixNanoRepresentable page.asOf) :
    Follows s (f.run events) := by
  induction events using List.reverseRecOn with
  | nil => exact h
  | append_singleton events e ih =>
    rw [run_concat] at hclock ⊢
    have hbefore : ∀ page ∈ (f.run events).scan.pages, unixNanoRepresentable page.asOf :=
      fun page hpage => hclock page ((step_pages _ e).subset hpage)
    have hfollows := ih (fun limit source hmem => hlimits limit source
      (List.mem_append_left _ hmem)) hbefore
    cases e with
    | request r => exact hfollows.request r
    | page limit source =>
      refine hfollows.page (by rwa [run_start]) (hlimits limit source ?_) hbefore source
      exact List.mem_append_right _ (List.mem_singleton.mpr rfl)

/-- A client that follows the cursors of a scan while nothing is committed gets exactly the records
with the prefix that were live at the instant of its first page, in order, after at most one page
more than there are such records; only a record that is larger than a page stops it. Once something
was committed, its cursor is stale. -/
theorem scan_exact {config : Config} {s₀ s : DatabaseState} (hopen : newState config = .ok s₀)
    (hcurrent : config.currentRevision < 2 ^ 64) (world : σ) (before : List (Request σ))
    {world' : σ} (hs : (live s₀ world before).2 = (s, world')) {start : Bytes}
    (hstart : validatePrefix start s.limits = .ok ()) (events : List (ScanEvent σ))
    (hlimits : ∀ (limit : Int) (source : Time), .page limit source ∈ events →
      0 < limit ∧ limit ≤ s.limits.maxScanRecords)
    {f : ScanRun σ} (hf : f = run ⟨s, world', { start }⟩ events)
    (hclock : ∀ page ∈ f.scan.pages, unixNanoRepresentable page.asOf) :
    (f.engine.current = s.current → ∃ asOf all,
      (∀ page ∈ f.scan.pages, page.observedRevision = s.current ∧ page.asOf = asOf) ∧
      all.Pairwise (fun a b : Record => a.key < b.key) ∧
      (∀ record, record ∈ all ↔ s.records record.key = some record ∧ start <+: record.key ∧
        recordExpired record asOf = false) ∧
      Got s f.scan all ∧ (f.scan.status = .running → asked events ≤ all.length)) ∧
    (f.scan.status = .running → ∀ page ∈ f.scan.pages, f.engine.current ≠ page.observedRevision →
      ∀ (limit : Int) (source : Time), 0 < limit → limit ≤ s.limits.maxScanRecords →
        (f.step (.page limit source)).scan.status
          = .failed (scanStale page.observedRevision f.engine.current)) := by
  have hindexed : s.Indexed := by
    have hlive := (indexed_of_newState hopen hcurrent).live world before
    rwa [hs] at hlive
  subst hf
  have hfollows : Follows s (run ⟨s, world', { start }⟩ events) :=
    (Follows.begin hindexed world' start).run hstart hlimits hclock
  have hrunStart : (run ⟨s, world', { start }⟩ events).scan.start = start := run_start _ _
  constructor
  · intro hquiet
    obtain ⟨asOf, hpages, hgot⟩ := hfollows.got hquiet
    rw [hrunStart] at hgot
    refine ⟨asOf, s.matching start asOf, hpages, hindexed.matching_sorted,
      fun _ => hindexed.mem_matching, hgot, fun hrunning => ?_⟩
    obtain ⟨hrecords, hcount⟩ := hgot.running hrunning
    rw [asked_eq rfl events hrunning]
    exact hcount.trans hrecords.length_le
  · intro hrunning page hpage hcommitted limit source hpositive hle
    rcases hfollows.cursor hrunning with ⟨hnone, -⟩ | ⟨hne, cursor, hresumes⟩
    · rw [hnone] at hpage
      cases hpage
    · rw [step, if_pos hrunning, hfollows.scanPrefix_resumed (by rwa [hrunStart]) ⟨hpositive, hle⟩
        hresumes hne hclock source]
      rw [(hresumes.pages page hpage).1] at hcommitted ⊢
      rw [scanAt, if_pos hcommitted.symm]
      rfl

/-- Two keys in a new database, read by pages of one record while its clock goes back. -/
def samplePages : List (ScanEvent Unit) :=
  [.page 1 7, .request (.command (.read 3)), .page 1 2]

def sampleTwoKeys : List (Request Unit) :=
  [.command (.mutation none
    ⟨.durable, [], [newPutMutation [97] [1] ⟨.any, 0⟩ none, newPutMutation [98] [2] ⟨.any, 0⟩ none]⟩
    .batch { source := 0 })]

def sampleScan : ScanRun Unit :=
  run ⟨(live sampleEngine () sampleTwoKeys).2.1, (), { start := [] }⟩ samplePages

theorem scan_exact_sampleScan :
    sampleScan.scan.status = .finished ∧
    sampleScan.scan.records = [⟨[97], [1], 1, none⟩, ⟨[98], [2], 1, none⟩] ∧
    sampleScan.scan.pages.length = 2 ∧ ∃ asOf, ∀ record, record ∈ sampleScan.scan.records ↔
      (live sampleEngine () sampleTwoKeys).2.1.records record.key = some record ∧
        [] <+: record.key ∧ recordExpired record asOf = false := by
  have hfinished : sampleScan.scan.status = .finished := by decide +kernel
  have hopen := sampleEngine_opens
  have hlimits : ∀ (limit : Int) (source : Time), .page limit source ∈ samplePages →
      0 < limit ∧ limit ≤ (live sampleEngine () sampleTwoKeys).2.1.limits.maxScanRecords := by
    intro limit source hmem
    have hone : limit = 1 := by
      simp only [samplePages, List.mem_cons, ScanEvent.page.injEq, reduceCtorEq, List.not_mem_nil,
        or_false, false_or] at hmem
      rcases hmem with ⟨rfl, -⟩ | ⟨rfl, -⟩ <;> rfl
    rw [hone]
    decide +kernel
  have hs : (live sampleEngine () sampleTwoKeys).2
      = ((live sampleEngine () sampleTwoKeys).2.1, ()) := rfl
  have hclock : ∀ page ∈ sampleScan.scan.pages, unixNanoRepresentable page.asOf := by
    decide +kernel
  have hstart : validatePrefix [] (live sampleEngine () sampleTwoKeys).2.1.limits
      = .ok () := by decide +kernel
  obtain ⟨hquiet, -⟩ := scan_exact hopen (by decide) () sampleTwoKeys hs hstart samplePages hlimits
    (f := sampleScan) rfl hclock
  obtain ⟨asOf, all, -, -, hmem, hgot, -⟩ := hquiet (by decide +kernel)
  refine ⟨hfinished, by decide +kernel, by decide +kernel, asOf, ?_⟩
  rw [hgot.finished hfinished]
  exact hmem

end ScanRun

end GapDB
