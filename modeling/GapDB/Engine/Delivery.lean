import GapDB.Engine.Streams
import GapDB.Engine.Subscribers

/-!
# Delivery to watches

Over every interleaving of the writer, the pumps, their consumers and the clients, every watch of
the system streams exactly what was committed.
-/

namespace GapDB

open Storelib DatabaseState HistoryLog

variable {x : WatcherState} {p : Pump}

namespace WatchSystem

variable {σ : Type}

/-- The commits are the database's history since `base`, and every watch streams from them. -/
structure Sound (base : Nat) (system : WatchSystem σ) : Prop where
  history : system.engine.history.Retains base (commitGroups system.commits)
  increasing : (base :: system.commits.map CommitFrame.revision).Pairwise (· < ·)
  current : system.engine.current = lastRevision base system.commits
  ids : (system.engine.watchers.all.map WatcherState.id).Nodup
  pumped : ∀ x ∈ system.engine.watchers.all, (system.pumps x.id).isSome
  attached : ∀ x ∈ system.engine.watchers.watchers, ∀ p, system.pumps x.id = some p →
    Streams system.commits system.engine.current (¬ system.engine.Degraded) x p
  detached : ∀ x ∈ system.engine.watchers.detached, ∀ p, system.pumps x.id = some p →
    Streams system.commits system.engine.current False x p

theorem Sound.streams {base : Nat} {system : WatchSystem σ} (h : system.Sound base)
    (hx : x ∈ system.engine.watchers.all) (hp : system.pumps x.id = some p) :
    Streams system.commits system.engine.current False x p := by
  rcases List.mem_append.mp hx with hx | hx
  · exact (h.attached x hx p hp).mono False.elim
  · exact h.detached x hx p hp

theorem sound_opened {config : Config} {s : DatabaseState} (h : newState config = .ok s)
    (world : σ) : (opened s config world).Sound config.snapshotRevision := by
  obtain ⟨-, -, records, schedule, history, -, hrebuild, rfl⟩ := newState_eq_ok h
  obtain ⟨hincreasing, hlast, rfl⟩ := rebuildFrom_eq_ok hrebuild
  refine ⟨(initialized_retains _ _).appendCommits _, hincreasing, hlast.symm, ?_, ?_, ?_, ?_⟩
  · exact List.nodup_nil
  · exact fun x hx => absurd hx List.not_mem_nil
  · exact fun x hx => absurd hx List.not_mem_nil
  · exact fun x hx => absurd hx List.not_mem_nil

/-- The database has grown by the commits `new`. -/
structure Grows (base : Nat) (system system' : WatchSystem σ) (new : List CommitFrame) :
    Prop where
  commits : system'.commits = system.commits ++ new
  history : system'.engine.history.Retains base (commitGroups system'.commits)
  increasing : (base :: system'.commits.map CommitFrame.revision).Pairwise (· < ·)
  current : system'.engine.current = lastRevision base system'.commits

section

variable {base : Nat} {system system' : WatchSystem σ} {new : List CommitFrame}

theorem Grows.lt (hgrows : Grows base system system' new) (h : system.Sound base) :
    ∀ r ∈ new.map CommitFrame.revision, system.engine.current < r := by
  have hincreasing := hgrows.increasing
  rw [hgrows.commits] at hincreasing
  rw [h.current]
  exact lastRevision_lt_of_pairwise hincreasing

theorem Grows.le (hgrows : Grows base system system' new) (h : system.Sound base) :
    system.engine.current ≤ system'.engine.current := by
  rw [hgrows.current, h.current]
  refine le_lastRevision_of_mem hgrows.increasing _ ?_
  rw [hgrows.commits, List.map_append, ← List.cons_append]
  exact List.mem_append_left _ (lastRevision_mem _ _)

/-- A watch that the writer no longer feeds misses what is new. -/
theorem Grows.streams (hgrows : Grows base system system' new) (h : system.Sound base)
    {complete : Prop} (hx : Streams system.commits system.engine.current complete x p) :
    Streams system'.commits system'.engine.current
      (complete ∧ committedAfter x.start p.after new = []) x p := by
  refine hx.extend (hgrows.le h) ?_ fun g hg => ?_
  · rw [hgrows.commits, committedAfter_append]
  · exact hgrows.lt h _ (revision_of_mem_committedAfter hg)

/-- A system whose writer has served its watchers. -/
theorem Sound.of_serves (h : system.Sound base) (hgrows : Grows base system system' new)
    {keep : WatcherState → WatcherState → Prop}
    (hserves : system.engine.watchers.Serves system'.engine.watchers keep)
    (hpumps : system'.pumps = system.pumps)
    (hkeep : ∀ x x' p, keep x x' →
      Streams system.commits system.engine.current (¬ system.engine.Degraded) x p →
      Streams system'.commits system'.engine.current (¬ system'.engine.Degraded) x' p) :
    system'.Sound base := by
  refine ⟨hgrows.history, hgrows.increasing, hgrows.current, hserves.ids.nodup_iff.mpr h.ids, ?_,
    ?_, ?_⟩
  · intro x' hx'
    have hmem := hserves.ids.mem_iff.mp (List.mem_map.mpr ⟨x', hx', rfl⟩)
    obtain ⟨x, hx, heq⟩ := List.mem_map.mp hmem
    rw [hpumps, ← heq]
    exact h.pumped x hx
  · intro x' hx' p hp
    obtain ⟨x, hx, hid, hkept⟩ := hserves.watchers x' hx'
    rw [hpumps, hid] at hp
    exact hkeep x x' p hkept (h.attached x hx p hp)
  · intro x' hx' p hp
    rw [hpumps] at hp
    rcases hserves.detached x' hx' with hx' | ⟨x, hx, message, rfl⟩
    · exact (hgrows.streams h (h.detached x' hx' p hp)).mono False.elim
    · have hmissed := (hgrows.streams h (h.attached x hx p hp)).mono False.elim
      exact ⟨hmissed.after, hmissed.lastDelivered, hmissed.registration, fun hphase =>
        ⟨(hmissed.open_ hphase).termination, (hmissed.open_ hphase).delivered⟩, hmissed.ended⟩

/-- The database grows by what becomes visible. -/
theorem Grows.of_shows (h : system.Sound base)
    (hshows : system.engine.Shows system'.engine new)
    (hcommits : system'.commits = system.commits ++ new) : Grows base system system' new := by
  cases hshows with
  | nothing same keys =>
    rw [List.append_nil] at hcommits
    refine ⟨by rw [hcommits, List.append_nil], ?_, ?_, ?_⟩
    · rw [hcommits, same.history]
      exact h.history
    · rw [hcommits]
      exact h.increasing
    · rw [hcommits, same.current]
      exact h.current
  | commit batch single revision now active valid publishes =>
    refine ⟨hcommits, ?_, ?_, ?_⟩
    · rw [hcommits, publishes.history, commitGroups_append]
      exact h.history.append _
    · rw [hcommits]
      refine pairwise_append_of_lastRevision h.increasing ?_
      rw [← h.current]
      exact List.pairwise_pair.mpr publishes.increasing
    · rw [hcommits, publishes.current, lastRevision_append]
      rfl

/-- A commit that the watchers are told about. -/
theorem Sound.of_publish (h : system.Sound base) {frame : CommitFrame}
    (hgrows : Grows base system system' [frame]) (hactive : ¬ system.engine.Degraded)
    (hwatchers : system'.engine.watchers
      = system.engine.watchers.publish (commitEvents frame))
    (hpumps : system'.pumps = system.pumps) : system'.Sound base := by
  have hlt : system.engine.current < frame.revision := hgrows.lt h _ (by simp)
  have hunconcerned : ∀ x p, matchingEvents x.start frame = [] →
      Streams system.commits system.engine.current (¬ system.engine.Degraded) x p →
      Streams system'.commits system'.engine.current (¬ system'.engine.Degraded) x p := by
    intro x p hnone hx
    refine (hgrows.streams h hx).mono fun _ => ⟨hactive, ?_⟩
    simp [committedAfter, hnone]
  by_cases hempty : frame.effects = []
  · have hevents : commitEvents frame = [] := by simp [commitEvents, hempty]
    rw [hevents, Watchers.publish] at hwatchers
    refine h.of_serves hgrows (.of_eq hwatchers) hpumps ?_
    rintro x x' p rfl hx
    exact hunconcerned _ p (by simp [matchingEvents, hevents]) hx
  · obtain ⟨first, rest, hevents, hrevision⟩ := commitEvents_eq_cons hempty
    have hserves := Watchers.publish_serves h.ids hevents
    rw [← hwatchers, hrevision] at hserves
    refine h.of_serves hgrows hserves hpumps ?_
    rintro x x' p (⟨hnone, rfl⟩ | ⟨hsome, queuedEvents, rfl⟩) hx
    · exact hunconcerned _ p hnone hx
    · refine (hx.queue hactive (hgrows.le h) ?_ ?_).mono fun _ => hactive
      · have hafter : p.after < frame.revision := hx.after.trans_lt hlt
        have hsome' : matchingEvents x.start frame ≠ [] := hsome
        rw [hgrows.commits, committedAfter_append]
        rw [committedAfter_singleton, if_pos ⟨hafter, hsome'⟩]
        rfl
      · exact hlt

/-- A commit of which the watchers hear nothing, or no commit at all. -/
theorem Sound.of_silence (h : system.Sound base) (hgrows : Grows base system system' new)
    (hwatchers : system'.engine.watchers = system.engine.watchers)
    (hpumps : system'.pumps = system.pumps)
    (hnew : ¬ system'.engine.Degraded → ¬ system.engine.Degraded ∧ new = []) :
    system'.Sound base := by
  refine h.of_serves hgrows (.of_eq hwatchers) hpumps ?_
  rintro x x' p rfl hx
  refine (hgrows.streams h hx).mono fun hactive => ⟨(hnew hactive).1, ?_⟩
  rw [(hnew hactive).2]
  rfl

/-- A registration starts a watch with everything retained for it in the backlog. -/
theorem Streams.of_fresh {history : HistoryLog} {commits : List CommitFrame}
    {current after id : Nat}
    {start : Bytes} (hretains : history.Retains base (commitGroups commits))
    (hx : Watchers.Fresh history current start after id x) :
    Streams commits current (x.backlogFits = true) x { after, phase := .backlog x.backlog } := by
  have hgroups : committedAfter x.start after commits
      = matchingGroups start after history.commits := by
    rw [hx.start, hretains.matchingGroups start hx.retained]
  refine ⟨hx.after_le, hx.lastDelivered.trans_le hx.after_le, hx.registration.le, fun _ => ?_,
    fun hphase => by cases hphase⟩
  have hlast : ∀ g ∈ committedAfter x.start after commits, x.lastDelivered < g.revision := by
    intro g hg
    rw [hx.lastDelivered]
    exact lt_of_mem_committedAfter hg
  by_cases hfits : x.backlogFits = true
  · refine ⟨rfl, [], [], [], ⟨?_, rfl, .inl rfl, ?_⟩, rfl, fun _ => rfl, ?_⟩
    · simp only [Pump.pending]
      rw [hx.live, hx.backlog, if_pos hfits, hgroups]
      simp
    · intro g hg
      refine hlast g ?_
      simp only [Pump.pending] at hg
      rw [hx.live, hx.backlog, if_pos hfits, ← hgroups] at hg
      simpa using hg
    · intro _ g hg
      simp [hx.live] at hg
  · refine ⟨rfl, [], committedAfter x.start after commits, [], ⟨?_, rfl, .inl rfl, ?_⟩, rfl,
      fun h => absurd h hfits, fun h => absurd h hfits⟩
    · simp only [Pump.pending]
      rw [hx.live, hx.backlog, if_neg hfits]
      simp
    · intro g hg
      refine hlast g ?_
      simp only [Pump.pending] at hg
      rw [hx.live, hx.backlog, if_neg hfits] at hg
      simpa using hg

/-- One more watch, under an identifier that no other has. -/
theorem Sound.of_fresh (h : system.Sound base) {start : Bytes} {after id : Nat}
    (hfree : system.pumps id = none)
    (hx : Watchers.Fresh system.engine.history system.engine.current start after id x)
    (hgrows : Grows base system system' [])
    (hall : system'.engine.watchers.all.Perm (x :: system.engine.watchers.all))
    (hattached : ∀ y ∈ system'.engine.watchers.watchers,
      y ∈ system.engine.watchers.watchers ∨ y = x ∧ x.backlogFits = true)
    (hdetached : ∀ y ∈ system'.engine.watchers.detached,
      y ∈ system.engine.watchers.detached ∨ y = x)
    (hlifecycle : system'.engine.Degraded ↔ system.engine.Degraded)
    (hcurrent : system'.engine.current = system.engine.current)
    (hpumps : system'.pumps = Function.update system.pumps id (some
      { after, phase := .backlog (((system'.engine.watchers.find id).map
        WatcherState.backlog).getD []) })) :
    system'.Sound base := by
  have hfresh : ∀ y ∈ system.engine.watchers.all, y.id ≠ id := by
    intro y hy heq
    have hsome := h.pumped y hy
    rw [heq, hfree] at hsome
    cases hsome
  have hids : (system'.engine.watchers.all.map WatcherState.id).Nodup := by
    rw [(hall.map _).nodup_iff, List.map_cons, List.nodup_cons]
    refine ⟨?_, h.ids⟩
    rw [hx.id]
    intro hmem
    obtain ⟨y, hy, heq⟩ := List.mem_map.mp hmem
    exact hfresh y hy heq
  have hfind : system'.engine.watchers.find id = some x := by
    rw [← hx.id]
    exact Watchers.find_of_mem hids (hall.mem_iff.mpr (by simp))
  rw [hfind] at hpumps
  have hcommits := hgrows.commits
  rw [List.append_nil] at hcommits
  have hstream := Streams.of_fresh h.history hx
  -- the pumps of the others are where they were
  have hother : ∀ y ∈ system.engine.watchers.all, system'.pumps y.id = system.pumps y.id :=
    fun y hy => by rw [hpumps, Function.update_of_ne (hfresh y hy)]
  have hnew : ∀ p, system'.pumps x.id = some p →
      p = { after, phase := .backlog x.backlog } := by
    intro p hp
    rw [hpumps, hx.id, Function.update_self, Option.some.injEq] at hp
    exact hp.symm
  refine ⟨hgrows.history, hgrows.increasing, hgrows.current, hids, ?_, ?_, ?_⟩
  · intro y hy
    rcases List.mem_cons.mp (hall.mem_iff.mp hy) with rfl | hy
    · rw [hpumps, hx.id, Function.update_self]
      rfl
    · rw [hother y hy]
      exact h.pumped y hy
  · intro y hy p hp
    rw [hcommits, hcurrent]
    rcases hattached y hy with hy | ⟨rfl, hfits⟩
    · rw [hother y (List.mem_append_left _ hy)] at hp
      exact (h.attached y hy p hp).mono fun hactive => hlifecycle.not.mp hactive
    · rw [hnew p hp]
      exact hstream.mono fun _ => hfits
  · intro y hy p hp
    rw [hcommits, hcurrent]
    rcases hdetached y hy with hy | rfl
    · rw [hother y (List.mem_append_right _ hy)] at hp
      exact h.detached y hy p hp
    · rw [hnew p hp]
      exact hstream.mono False.elim

theorem Sound.of_register (h : system.Sound base) {queueDepth after : Nat} {start : Bytes}
    (hfree : system.pumps (u64 (system.engine.watchers.nextWatcherID + 1)) = none) :
    (system.serve (.command (.register queueDepth start after))).Sound base := by
  have hcases := system.engine.watchers.register_cases system.engine.limits system.engine.history
    system.engine.current queueDepth start after
  obtain ⟨hshows, -, hpublished⟩ := Request.shows system.engine system.world
    (.command (.register queueDepth start after))
  rw [hpublished rfl] at hshows
  have hgrows : Grows base system (system.serve (.command (.register queueDepth start after))) [] :=
    .of_shows h hshows (congrArg (system.commits ++ ·) (hpublished rfl))
  have hengine : (system.serve (.command (.register queueDepth start after))).engine
      = { system.engine with
          watchers := (system.engine.watchers.register system.engine.limits system.engine.history
            system.engine.current queueDepth start after).2 } := rfl
  have hpumps : (system.serve (.command (.register queueDepth start after))).pumps
      = match (system.engine.watchers.register system.engine.limits system.engine.history
          system.engine.current queueDepth start after).1 with
        | .ok id => Function.update system.pumps id (some
            { after, phase := .backlog ((((system.serve (.command (.register queueDepth start
              after))).engine.watchers.find id).map WatcherState.backlog).getD []) })
        | .error _ => system.pumps := by
    simp only [serve, started, Request.run, Command.run]
    cases (system.engine.watchers.register system.engine.limits system.engine.history
      system.engine.current queueDepth start after).1 <;> rfl
  generalize system.serve (.command (.register queueDepth start after)) = system' at *
  generalize system.engine.watchers.register system.engine.limits system.engine.history
    system.engine.current queueDepth start after = result at *
  obtain ⟨result, watchers⟩ := result
  have hwatchers : system'.engine.watchers = watchers := by rw [hengine]
  have hlifecycle : system'.engine.Degraded ↔ system.engine.Degraded := by
    rw [Degraded, Degraded, hengine]
  have hcurrent : system'.engine.current = system.engine.current := by rw [hengine]
  cases hcases with
  | refused e =>
    exact h.of_silence hgrows hwatchers hpumps fun hactive => ⟨hlifecycle.not.mp hactive, rfl⟩
  | accepted x _ fresh attached detached fits =>
    refine h.of_fresh hfree fresh hgrows ?_ ?_ ?_ hlifecycle hcurrent hpumps
    · rw [hwatchers, Watchers.all, attached, detached, Watchers.all, List.append_assoc]
      exact List.perm_middle
    · intro y hy
      rw [hwatchers, attached] at hy
      rcases List.mem_append.mp hy with hy | hy
      · exact .inl hy
      · exact .inr ⟨List.mem_singleton.mp hy, fits⟩
    · intro y hy
      rw [hwatchers, detached] at hy
      exact .inl hy
  | lagged x _ fresh attached detached fits =>
    refine h.of_fresh hfree fresh hgrows ?_ ?_ ?_ hlifecycle hcurrent hpumps
    · rw [hwatchers, Watchers.all, attached, detached, Watchers.all, ← List.append_assoc]
      exact List.perm_append_singleton _ _
    · intro y hy
      rw [hwatchers, attached] at hy
      exact .inl hy
    · intro y hy
      rw [hwatchers, detached] at hy
      rcases List.mem_append.mp hy with hy | hy
      · exact .inl hy
      · exact .inr (List.mem_singleton.mp hy)

theorem started_eq {r : Request σ} (h : ∀ queueDepth start after,
    r ≠ .command (.register queueDepth start after)) : system.started r = system.pumps := by
  cases r with
  | snapshot | shutdown => rfl
  | command c =>
    cases c with
    | register queueDepth start after => exact absurd rfl (h queueDepth start after)
    | mutation | expiry | unregister | retire | read | durableAdmin | markAdminDegraded | drain =>
      rfl

/-- A request that gives up watchers, and does nothing else for them. -/
theorem Sound.of_detach (h : system.Sound base) {r : Request σ}
    (hgrows : Grows base system (system.serve r) [])
    (hserves : system.engine.watchers.Serves (system.serve r).engine.watchers fun x x' => x' = x)
    (hpumps : (system.serve r).pumps = system.pumps) : (system.serve r).Sound base := by
  refine h.of_serves hgrows hserves hpumps ?_
  rintro x x' p rfl hx
  refine (hgrows.streams h hx).mono fun hactive => ⟨fun hd => ?_, rfl⟩
  exact hactive (Request.degraded_run hd system.world r)

theorem shutdown_watchers (s : DatabaseState) (barrier : Option WAL.BarrierFault) :
    (s.shutdown barrier).2.watchers = s.watchers.shutdown s.current := by
  unfold DatabaseState.shutdown
  simp only
  split <;> rfl

/-- Whatever the writer is asked for, it keeps every stream exact. -/
theorem Sound.serve (h : system.Sound base) {r : Request σ} (hr : system.admits r = true) :
    (system.serve r).Sound base := by
  obtain ⟨hshows, htells, hpublished⟩ := r.shows system.engine system.world
  have hgrows : Grows base system (system.serve r)
      (r.turn system.engine system.world).published := .of_shows h hshows rfl
  have hdegraded : ¬ (system.serve r).engine.Degraded → ¬ system.engine.Degraded :=
    fun hactive hd => hactive (Request.degraded_run hd system.world r)
  cases hwatch : r.forWatchers with
  | false =>
    have hpumps : (system.serve r).pumps = system.pumps := by
      refine started_eq fun queueDepth start after heq => ?_
      rw [heq] at hwatch
      cases hwatch
    have htells := htells hwatch
    generalize (r.turn system.engine system.world).published = new at *
    cases htells with
    | nothing watchers =>
      exact h.of_silence hgrows watchers hpumps fun hactive => ⟨hdegraded hactive, rfl⟩
    | commit frame watchers =>
      have hactive : ¬ system.engine.Degraded := by
        cases hshows with
        | commit _ _ _ _ active => exact active
      exact h.of_publish hgrows hactive watchers hpumps
    | silence frame watchers degraded =>
      exact h.of_silence hgrows watchers hpumps fun hactive => absurd degraded hactive
  | true =>
    rw [hpublished hwatch] at hgrows
    cases r with
    | snapshot => cases hwatch
    | shutdown barrier =>
      refine h.of_detach hgrows ?_ rfl
      have hwatchers := shutdown_watchers system.engine barrier
      have hserves := Watchers.shutdown_serves h.ids system.engine.current
      rw [← hwatchers] at hserves
      exact hserves
    | command c =>
      cases c with
      | mutation | expiry | read | durableAdmin | markAdminDegraded | drain => cases hwatch
      | retire => cases hr
      | unregister id => exact h.of_detach hgrows (Watchers.detach_serves h.ids id _) rfl
      | register queueDepth start after =>
        exact h.of_register (by simpa [admits] using hr)

/-! ### Pumps and clients -/

/-- The list in which `x` has taken the place of the watcher with its identifier. -/
theorem mem_replace {xs : List WatcherState} {y : WatcherState}
    (h : y ∈ xs.map fun other => if other.id = x.id then x else other) :
    ∃ z ∈ xs, y.id = z.id ∧ (z.id = x.id ∧ y = x ∨ z.id ≠ x.id ∧ y = z) := by
  obtain ⟨z, hz, rfl⟩ := List.mem_map.mp h
  refine ⟨z, hz, ?_⟩
  split
  · next heq => exact ⟨heq.symm, .inl ⟨heq, rfl⟩⟩
  · next hne => exact ⟨rfl, .inr ⟨hne, rfl⟩⟩

theorem store_ids (w : Watchers) (x : WatcherState) :
    (w.store x).all.map WatcherState.id = w.all.map WatcherState.id := by
  have hone : ∀ xs : List WatcherState,
      (xs.map fun other => if other.id = x.id then x else other).map WatcherState.id
        = xs.map WatcherState.id := by
    intro xs
    rw [List.map_map]
    refine List.map_congr_left fun other _ => ?_
    simp only [Function.comp_apply]
    split
    · next heq => exact heq.symm
    · rfl
  rw [Watchers.all, List.map_append, Watchers.store, hone, hone, Watchers.all, List.map_append]

/-- A watch and its pump move on together, the others stay as they are. -/
theorem Sound.of_store (h : system.Sound base) {x' : WatcherState} {p' : Pump}
    (hx : x ∈ system.engine.watchers.all) (hp : system.pumps x.id = some p)
    (hid : x'.id = x.id)
    (hstreams : ∀ complete, Streams system.commits system.engine.current complete x p →
      Streams system.commits system.engine.current complete x' p') :
    Sound base { system with
      engine := { system.engine with watchers := system.engine.watchers.store x' }
      pumps := Function.update system.pumps x.id (some p') } := by
  have hkept : ∀ {complete : Prop} {xs : List WatcherState},
      (∀ z ∈ xs, z ∈ system.engine.watchers.all) → (∀ z ∈ xs, ∀ q, system.pumps z.id = some q →
        Streams system.commits system.engine.current complete z q) →
      ∀ y ∈ xs.map (fun other => if other.id = x'.id then x' else other),
      ∀ q, Function.update system.pumps x.id (some p') y.id = some q →
        Streams system.commits system.engine.current complete y q := by
    intro complete xs hall hxs y hy q hq
    obtain ⟨z, hz, -, ⟨hzid, rfl⟩ | ⟨hzid, rfl⟩⟩ := mem_replace hy
    · obtain rfl := List.inj_on_of_nodup_map h.ids (hall z hz) hx (hzid.trans hid)
      rw [hid, Function.update_self, Option.some.injEq] at hq
      subst hq
      exact hstreams complete (hxs _ hz p hp)
    · rw [Function.update_of_ne (hid ▸ hzid)] at hq
      exact hxs _ hz q hq
  refine ⟨h.history, h.increasing, h.current, ?_, ?_, ?_, ?_⟩
  · simp only [store_ids]
    exact h.ids
  · intro y hy
    have hmem : y.id ∈ system.engine.watchers.all.map WatcherState.id := by
      rw [← store_ids _ x']
      exact List.mem_map.mpr ⟨y, hy, rfl⟩
    obtain ⟨z, hz, heq⟩ := List.mem_map.mp hmem
    simp only [← heq]
    by_cases hne : z.id = x.id
    · rw [hne, Function.update_self]
      rfl
    · rw [Function.update_of_ne hne]
      exact h.pumped z hz
  · exact hkept (fun z hz => List.mem_append_left _ hz) h.attached
  · exact hkept (fun z hz => List.mem_append_right _ hz) h.detached

/-- A change to one pump alone. -/
theorem Sound.of_pump (h : system.Sound base) {id : Nat} {p' : Pump} (hp : system.pumps id = some p)
    (hstreams : ∀ x complete, Streams system.commits system.engine.current complete x p →
      Streams system.commits system.engine.current complete x p') :
    Sound base { system with pumps := Function.update system.pumps id (some p') } := by
  have hkept : ∀ {complete : Prop} {x : WatcherState},
      (∀ q, system.pumps x.id = some q →
        Streams system.commits system.engine.current complete x q) →
      ∀ q, Function.update system.pumps id (some p') x.id = some q →
        Streams system.commits system.engine.current complete x q := by
    intro complete x hx q hq
    by_cases hid : x.id = id
    · rw [hid, Function.update_self, Option.some.injEq] at hq
      subst hq
      exact hstreams x complete (hx p (hid ▸ hp))
    · rw [Function.update_of_ne hid] at hq
      exact hx q hq
  refine ⟨h.history, h.increasing, h.current, h.ids, ?_, ?_, ?_⟩
  · intro x hx
    by_cases hid : x.id = id
    · simp only [hid, Function.update_self]
      rfl
    · simp only [Function.update_of_ne hid]
      exact h.pumped x hx
  · exact fun x hx => hkept (h.attached x hx)
  · exact fun x hx => hkept (h.detached x hx)

/-- No action makes a stream inexact. -/
theorem Sound.step (h : system.Sound base) {action : WatchAction σ}
    (hstep : system.step action = some system') : system'.Sound base := by
  cases action with
  | request r =>
    simp only [WatchSystem.step] at hstep
    split at hstep
    · next hadmits =>
      cases hstep
      exact h.serve hadmits.2
    · cases hstep
  | pump id choice =>
    simp only [WatchSystem.step] at hstep
    split at hstep
    · next x p hx hp =>
      obtain ⟨⟨x', p'⟩, hpump, heq⟩ := Option.map_eq_some_iff.mp hstep
      subst heq
      have hmem := List.mem_of_find?_eq_some hx
      obtain rfl : x.id = id := by simpa using List.find?_some hx
      have hcases := Pump.step_cases hpump
      have hbelow : ∀ g ∈ committedAfter x.start p.after system.commits,
          g.revision ≤ system.engine.current := by
        intro g hg
        rw [h.current]
        exact le_lastRevision_of_mem h.increasing _
          (List.mem_cons_of_mem _ (revision_of_mem_committedAfter hg))
      have hincreasing : ((committedAfter x.start p.after system.commits).map
          EventGroup.revision).Pairwise (· < ·) :=
        committedAfter_pairwise (List.pairwise_cons.mp h.increasing).2
      have hid := ((h.streams hmem hp).step hincreasing hbelow hcases).1
      exact h.of_store hmem hp hid fun complete hstreams =>
        (hstreams.step hincreasing hbelow hcases).2
    · cases hstep
  | close id =>
    obtain ⟨p, hp, heq⟩ := Option.map_eq_some_iff.mp hstep
    subst heq
    refine h.of_pump hp fun x complete hx => ?_
    refine ⟨hx.after, hx.lastDelivered, hx.registration, fun hphase => ?_, fun hphase => ?_⟩
    · exact ⟨(hx.open_ hphase).termination, (hx.open_ hphase).delivered⟩
    · exact ⟨(hx.ended hphase).delivered⟩

/-- No run makes a stream inexact. -/
theorem Sound.run (h : system.Sound base) (actions : List (WatchAction σ)) :
    (system.run actions).Sound base := by
  induction actions generalizing system with
  | nil => exact h
  | cons action actions ih =>
    rw [WatchSystem.run, List.foldl_cons]
    cases hstep : system.step action with
    | none => exact ih h
    | some system' => exact ih (h.step hstep)

end

/-! ### Sizes of commits -/

/-- The position of an event in its commit fits its 32-bit field. -/
structure Bounded (system : WatchSystem σ) : Prop where
  limits : system.engine.limits.Valid
  effects : ∀ c ∈ system.commits, c.effects.length ≤ 2 ^ 32

theorem Bounded.serve {system : WatchSystem σ} (h : system.Bounded) (r : Request σ) :
    (system.serve r).Bounded := by
  have hshows := (r.shows system.engine system.world).1
  have hcommits : (system.serve r).commits
      = system.commits ++ (r.turn system.engine system.world).published := rfl
  have hengine : (system.serve r).engine = (r.run system.engine system.world).2.1 := rfl
  rw [← hengine] at hshows
  generalize (r.turn system.engine system.world).published = new at *
  cases hshows with
  | nothing same =>
    rw [List.append_nil] at hcommits
    exact ⟨same.limits ▸ h.limits, hcommits ▸ h.effects⟩
  | commit batch single revision now active valid publishes =>
    refine ⟨publishes.limits ▸ h.limits, fun c hc => ?_⟩
    rw [hcommits] at hc
    rcases List.mem_append.mp hc with hc | hc
    · exact h.effects c hc
    · rw [List.mem_singleton.mp hc, commitFrame, List.length_map]
      have hcount := ((validateBatchAt_eq_ok h.limits).mp valid).operations
      have hlimit := h.limits.operations
      omega

theorem Bounded.step {system system' : WatchSystem σ} (h : system.Bounded)
    {action : WatchAction σ} (hstep : system.step action = some system') : system'.Bounded := by
  cases action with
  | request r =>
    simp only [WatchSystem.step] at hstep
    split at hstep
    · cases hstep
      exact h.serve r
    · cases hstep
  | pump id choice =>
    simp only [WatchSystem.step] at hstep
    split at hstep
    · obtain ⟨result, -, rfl⟩ := Option.map_eq_some_iff.mp hstep
      exact ⟨h.limits, h.effects⟩
    · cases hstep
  | close id =>
    obtain ⟨p, -, rfl⟩ := Option.map_eq_some_iff.mp hstep
    exact ⟨h.limits, h.effects⟩

theorem Bounded.run {system : WatchSystem σ} (h : system.Bounded)
    (actions : List (WatchAction σ)) : (system.run actions).Bounded := by
  induction actions generalizing system with
  | nil => exact h
  | cons action actions ih =>
    rw [WatchSystem.run, List.foldl_cons]
    cases hstep : system.step action with
    | none => exact ih h
    | some system' => exact ih (h.step hstep)

/-! ### What a watcher can rely on -/

/-- What a consumer has is a prefix of what was committed for it. -/
theorem Sound.received_isPrefix {base : Nat} {system : WatchSystem σ} (h : system.Sound base)
    {id : Nat} (hx : system.engine.watchers.find id = some x) (hp : system.pumps id = some p) :
    p.received <+: committedEvents x.start p.after system.commits := by
  obtain rfl : x.id = id := by simpa using List.find?_some hx
  have hstreams := h.streams (List.mem_of_find?_eq_some hx) hp
  rw [← committedAfter_events]
  by_cases hphase : p.phase = .finished
  · obtain ⟨t, done, rest, sent, -, hdelivered, -⟩ := (hstreams.ended hphase).delivered
    exact hdelivered.isPrefix
  · obtain ⟨-, done, missed, sent, hdelivered, -⟩ := hstreams.open_ hphase
    exact hdelivered.isPrefix

/-- Watch streams are exact. In any interleaving, the events a watch has delivered are a prefix of
the committed events that match it and come after its start, in the order of revision and
position; a watch that was ended by lag or shutdown stopped between whole commits; and everything
up to the last delivered revision it reports has been delivered. -/
theorem watch_delivers_committed {config : Config} {s : DatabaseState}
    (hopen : newState config = .ok s)
    (hrecovered : ∀ c ∈ config.recoveredCommits, c.effects.length ≤ 2 ^ 32) (world : σ)
    (actions : List (WatchAction σ)) {id : Nat} {x : WatcherState} {p : Pump}
    (hx : ((opened s config world).run actions).engine.watchers.find id = some x)
    (hp : ((opened s config world).run actions).pumps id = some p) :
    p.received <+:
        committedEvents x.start p.after ((opened s config world).run actions).commits ∧
      (committedEvents x.start p.after ((opened s config world).run actions).commits).Pairwise
        Before ∧
      ∀ t, p.termination = some t →
        (t.reason ≠ .client → ∃ n, p.received = committedEvents x.start p.after
          (((opened s config world).run actions).commits.take n)) ∧
        (∀ event ∈ committedEvents x.start p.after ((opened s config world).run actions).commits,
          event.revision ≤ t.lastDeliveredRevision → event ∈ p.received) ∧
        ∀ e, t.error = some e → e.lastDeliveredRevision = some t.lastDeliveredRevision := by
  have hsound := (sound_opened hopen world).run actions
  have hbounded : (opened s config world).Bounded :=
    ⟨(opened_of_newState hopen).limitsValid, hrecovered⟩
  have hbounded := hbounded.run actions
  generalize (opened s config world).run actions = system at *
  refine ⟨hsound.received_isPrefix hx hp, committedEvents_before
    (List.pairwise_cons.mp hsound.increasing).2 hbounded.effects, fun t ht => ?_⟩
  obtain rfl : x.id = id := by simpa using List.find?_some hx
  have hstreams := hsound.streams (List.mem_of_find?_eq_some hx) hp
  have hphase : p.phase = .finished := by
    by_contra hphase
    rw [(hstreams.open_ hphase).termination] at ht
    cases ht
  obtain ⟨t', done, rest, sent, ht', hdelivered, hreason, -, herror⟩ :=
    (hstreams.ended hphase).delivered
  obtain rfl : t' = t := Option.some.inj (ht'.symm.trans ht)
  refine ⟨fun hne => ?_, fun event hevent hle => ?_, herror⟩
  · obtain ⟨n, hn⟩ := exists_take_of_committedAfter hdelivered.groups
    refine ⟨n, ?_⟩
    rw [← committedAfter_events, hn, hdelivered.received, hreason hne, List.append_nil]
  · rw [← committedAfter_events] at hevent
    obtain ⟨g, hg, hevent⟩ := List.mem_flatMap.mp hevent
    refine hdelivered.mem_of_le hg hevent ?_
    rwa [← revision_of_mem_group hg hevent]

/-- A watch of a new database: it is registered, a key is put, the pump delivers the event, and
the owner shuts down. -/
def sampleWatch : List (WatchAction Unit) :=
  [.request (.command (.register 0 [97] 0)), .request (.command samplePut), .pump 1 .proceed,
    .pump 1 .proceed, .pump 1 .proceed, .pump 1 .proceed, .pump 1 .proceed, .pump 1 .proceed,
    .request (.shutdown none), .pump 1 .takeEnd]

theorem watch_delivers_committed_sampleWatch :
    newState (newDatabase sampleID defaultLimits) = .ok sampleEngine ∧ ∃ x p,
      ((opened sampleEngine (newDatabase sampleID defaultLimits) ()).run
        sampleWatch).engine.watchers.find 1 = some x ∧
      ((opened sampleEngine (newDatabase sampleID defaultLimits) ()).run sampleWatch).pumps 1
        = some p ∧
      p.received = [⟨1, 0, .put, [97], some ⟨[97], [1], 1, none⟩⟩] ∧
      p.termination = some ⟨.shutdown, 1, none⟩ ∧
      p.received <+: committedEvents x.start p.after
        ((opened sampleEngine (newDatabase sampleID defaultLimits) ()).run
          sampleWatch).commits := by
  have hopen := sampleEngine_opens
  have hfound : (((opened sampleEngine (newDatabase sampleID defaultLimits) ()).run
      sampleWatch).engine.watchers.find 1).isSome = true := by decide +kernel
  obtain ⟨x, hx⟩ := Option.isSome_iff_exists.mp hfound
  have hp : ((opened sampleEngine (newDatabase sampleID defaultLimits) ()).run sampleWatch).pumps 1
      = some ⟨0, .finished, false, [⟨1, 0, .put, [97], some ⟨[97], [1], 1, none⟩⟩],
          some ⟨.shutdown, 1, none⟩⟩ := by decide +kernel
  exact ⟨hopen, x, _, hx, hp, rfl, rfl,
    (watch_delivers_committed hopen (fun c hc => absurd hc List.not_mem_nil) () sampleWatch hx
      hp).1⟩

end WatchSystem

end GapDB
