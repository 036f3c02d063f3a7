import GapDB.Engine.Pump

/-!
# The watchers of the writer

What `registerWatch`, `publishWatchers`, `unregisterWatch` and `shutdownWatchers` do to the
watchers the writer holds: each of them is kept, with at most one group more in its queue, or it
is given up, which changes nothing but its end message.
-/

namespace GapDB

open Storelib DatabaseState HistoryLog

variable {w : Watchers} {before : List WatcherState}

namespace Watchers

/-- What the writer does to its watchers: it keeps some, changed by `keep`, and gives up others,
which changes nothing but their end message. -/
structure Serves (w w' : Watchers) (keep : WatcherState → WatcherState → Prop) : Prop where
  ids : (w'.all.map WatcherState.id).Perm (w.all.map WatcherState.id)
  watchers : ∀ x' ∈ w'.watchers, ∃ x ∈ w.watchers, x'.id = x.id ∧ keep x x'
  detached : ∀ x' ∈ w'.detached, x' ∈ w.detached ∨
    ∃ x ∈ w.watchers, ∃ message, x' = { x with end_ := some message }

theorem detach_of_not_mem {id : Nat} (h : ∀ x ∈ w.watchers, x.id ≠ id)
    (message : WatcherState → WatchEnd) : w.detach id message = w := by
  have hnone : w.watchers.find? (·.id == id) = none := by simpa using h
  rw [detach, hnone]

theorem detach_of_split {behind : List WatcherState} {x : WatcherState}
    (hsplit : w.watchers = before ++ x :: behind)
    (hids : (w.watchers.map WatcherState.id).Nodup) (message : WatcherState → WatchEnd) :
    (w.detach x.id message).watchers = before ++ behind ∧
      (w.detach x.id message).detached = w.detached ++ [{ x with end_ := some (message x) }] := by
  rw [hsplit, List.map_append, List.map_cons, List.nodup_append, List.nodup_cons] at hids
  obtain ⟨-, ⟨hbehind, -⟩, hbefore⟩ := hids
  have hbefore' : ∀ y ∈ before, y.id ≠ x.id := fun y hy =>
    hbefore _ (List.mem_map.mpr ⟨y, hy, rfl⟩) _ (by simp)
  have hbehind' : ∀ y ∈ behind, y.id ≠ x.id := fun y hy heq =>
    hbehind (List.mem_map.mpr ⟨y, hy, heq⟩)
  have hfind : w.watchers.find? (·.id == x.id) = some x := by
    rw [hsplit, List.find?_append, List.find?_eq_none.mpr (by simpa using hbefore')]
    simp
  rw [detach, hfind]
  refine ⟨?_, rfl⟩
  simp only [hsplit, List.filter_append, List.filter_cons, bne_self_eq_false]
  rw [List.filter_eq_self.mpr (by simpa using hbefore'),
    List.filter_eq_self.mpr (by simpa using hbehind')]
  simp

theorem detach_serves (hids : (w.all.map WatcherState.id).Nodup) (id : Nat)
    (message : WatcherState → WatchEnd) :
    w.Serves (w.detach id message) fun x x' => x' = x := by
  by_cases h : ∃ x ∈ w.watchers, x.id = id
  · obtain ⟨x, hx, rfl⟩ := h
    obtain ⟨before, behind, hsplit⟩ := List.append_of_mem hx
    rw [all, List.map_append] at hids
    obtain ⟨hwatchers, hdetached⟩ := detach_of_split hsplit (List.nodup_append.mp hids).1 message
    refine ⟨?_, ?_, ?_⟩
    · rw [all, all, hwatchers, hdetached, hsplit, List.perm_iff_count]
      intro n
      simp only [List.map_append, List.map_cons, List.map_nil, List.count_append, List.count_cons,
        List.count_nil]
      omega
    · intro y hy
      refine ⟨y, ?_, rfl, rfl⟩
      rw [hwatchers] at hy
      rw [hsplit]
      rcases List.mem_append.mp hy with hy | hy
      · exact List.mem_append_left _ hy
      · exact List.mem_append_right _ (List.mem_cons_of_mem _ hy)
    · intro y hy
      rw [hdetached] at hy
      rcases List.mem_append.mp hy with hy | hy
      · exact .inl hy
      · exact .inr ⟨x, hx, message x, List.mem_singleton.mp hy⟩
  · push Not at h
    rw [detach_of_not_mem h]
    exact ⟨.refl _, fun y hy => ⟨y, hy, rfl, rfl⟩, fun y hy => .inl hy⟩

/-- What the publication of a commit does to a watcher that it keeps. -/
def Offered (revision : Nat) (events : List ChangeEvent) (x x' : WatcherState) : Prop :=
  (matching x revision events).events = [] ∧ x' = x ∨
    (matching x revision events).events ≠ [] ∧ ∃ queuedEvents,
      x' = { x with live := x.live ++ [matching x revision events], queuedEvents }

/-- One turn of `publishWatchers` replaces the watcher or gives it up. -/
theorem publishTo_of_split (revision : Nat) (events : List ChangeEvent)
    {behind : List WatcherState} {x : WatcherState} (hsplit : w.watchers = before ++ x :: behind)
    (hids : (w.watchers.map WatcherState.id).Nodup) :
    ∃ kept lagged, (publishTo revision events w x).watchers = (before ++ kept) ++ behind ∧
      (publishTo revision events w x).detached = w.detached ++ lagged ∧
      (kept ++ lagged).map WatcherState.id = [x.id] ∧
      (∀ x' ∈ kept, Offered revision events x x') ∧
      ∀ x' ∈ lagged, ∃ message, x' = { x with end_ := some message } := by
  unfold publishTo
  simp only
  split
  · next hnone =>
    refine ⟨[x], [], by simp [hsplit], by simp, rfl, ?_, by simp⟩
    intro x' hx'
    exact .inl ⟨List.length_eq_zero_iff.mp hnone, List.mem_singleton.mp hx'⟩
  next hsome =>
  split
  · obtain ⟨hwatchers, hdetached⟩ := detach_of_split hsplit hids fun watcher =>
      watchLagEnd watcher.lastDelivered revision
    exact ⟨[], _, by simp [hwatchers], hdetached, rfl, by simp, fun x' hx' =>
      ⟨_, List.mem_singleton.mp hx'⟩⟩
  · rw [hsplit, List.map_append, List.map_cons, List.nodup_append, List.nodup_cons] at hids
    obtain ⟨-, ⟨hbehind, -⟩, hbefore⟩ := hids
    have hothers : ∀ ys : List WatcherState, (∀ y ∈ ys, y.id ≠ x.id) →
        (ys.map fun other =>
          if other.id = x.id then
            { other with
              live := other.live ++ [matching x revision events]
              queuedEvents := other.queuedEvents + (matching x revision events).events.length }
          else other) = ys := by
      intro ys hys
      refine (List.map_congr_left fun y hy => if_neg (hys y hy)).trans (List.map_id' ys)
    refine ⟨[{ x with
      live := x.live ++ [matching x revision events]
      queuedEvents := x.queuedEvents + (matching x revision events).events.length }], [], ?_,
      by simp, rfl, fun x' hx' => ?_, by simp⟩
    · simp only [hsplit, List.map_append, List.map_cons]
      rw [hothers before fun y hy => hbefore _ (List.mem_map.mpr ⟨y, hy, rfl⟩) _ (by simp),
        hothers behind fun y hy heq => hbehind (List.mem_map.mpr ⟨y, hy, heq⟩)]
      simp
    · exact .inr ⟨fun h => hsome (by rw [h]; rfl), _, List.mem_singleton.mp hx'⟩

/-- The loop of `publishWatchers` over the watchers `todo`, the others having had their turn. -/
theorem publish_loop (revision : Nat) (events : List ChangeEvent) (todo : List WatcherState)
    (hsplit : w.watchers = before ++ todo) (hids : (w.all.map WatcherState.id).Nodup) :
    ((todo.foldl (publishTo revision events) w).all.map WatcherState.id).Perm
        (w.all.map WatcherState.id) ∧
      (∀ x' ∈ (todo.foldl (publishTo revision events) w).watchers, x' ∈ before ∨
        ∃ x ∈ todo, x'.id = x.id ∧ Offered revision events x x') ∧
      ∀ x' ∈ (todo.foldl (publishTo revision events) w).detached, x' ∈ w.detached ∨
        ∃ x ∈ todo, ∃ message, x' = { x with end_ := some message } := by
  induction todo generalizing w before with
  | nil =>
    rw [List.append_nil] at hsplit
    exact ⟨.refl _, fun x' hx' => .inl (hsplit ▸ hx'), fun x' hx' => .inl hx'⟩
  | cons x todo ih =>
    have hwatchers := hids
    rw [all, List.map_append] at hwatchers
    obtain ⟨kept, lagged, hkept, hlagged, hid, hoffered, hmessage⟩ :=
      publishTo_of_split revision events hsplit (List.nodup_append.mp hwatchers).1
    have hperm : ((publishTo revision events w x).all.map WatcherState.id).Perm
        (w.all.map WatcherState.id) := by
      rw [all, all, hkept, hlagged, hsplit, List.perm_iff_count]
      intro n
      have hcount := congrArg (List.count n) hid
      simp only [List.map_append, List.map_cons, List.count_append, List.count_cons,
        List.count_nil] at hcount ⊢
      omega
    obtain ⟨hperm', hwatchers', hdetached'⟩ := ih hkept (hperm.nodup_iff.mpr hids)
    refine ⟨hperm'.trans hperm, ?_, ?_⟩
    · intro x' hx'
      rcases hwatchers' x' hx' with hx' | ⟨y, hy, hy'⟩
      · rcases List.mem_append.mp hx' with hx' | hx'
        · exact .inl hx'
        · have hid' : x'.id = x.id := by
            have hmem : x'.id ∈ (kept ++ lagged).map WatcherState.id :=
              List.mem_map.mpr ⟨x', List.mem_append_left _ hx', rfl⟩
            simpa [hid] using hmem
          exact .inr ⟨x, by simp, hid', hoffered x' hx'⟩
      · exact .inr ⟨y, List.mem_cons_of_mem _ hy, hy'⟩
    · intro x' hx'
      rcases hdetached' x' hx' with hx' | ⟨y, hy, hy'⟩
      · rw [hlagged] at hx'
        rcases List.mem_append.mp hx' with hx' | hx'
        · exact .inl hx'
        · exact .inr ⟨x, by simp, hmessage x' hx'⟩
      · exact .inr ⟨y, List.mem_cons_of_mem _ hy, hy'⟩

theorem publish_serves (hids : (w.all.map WatcherState.id).Nodup)
    {events : List ChangeEvent} {first : ChangeEvent} {rest : List ChangeEvent}
    (h : events = first :: rest) :
    w.Serves (w.publish events) (Offered first.revision events) := by
  subst h
  obtain ⟨hperm, hwatchers, hdetached⟩ :=
    publish_loop first.revision (first :: rest) w.watchers (List.nil_append _).symm hids
  refine ⟨hperm, fun x' hx' => ?_, hdetached⟩
  exact (hwatchers x' hx').resolve_left List.not_mem_nil

theorem Serves.trans_eq {w' w'' : Watchers} (h : w.Serves w' fun x x' => x' = x)
    (h' : w'.Serves w'' fun x x' => x' = x) : w.Serves w'' fun x x' => x' = x := by
  refine ⟨h'.ids.trans h.ids, ?_, ?_⟩
  · intro x'' hx''
    obtain ⟨x', hx', -, rfl⟩ := h'.watchers x'' hx''
    exact h.watchers _ hx'
  · intro x'' hx''
    rcases h'.detached x'' hx'' with hx'' | ⟨x', hx', message, rfl⟩
    · exact h.detached _ hx''
    · obtain ⟨x, hx, -, rfl⟩ := h.watchers x' hx'
      exact .inr ⟨_, hx, message, rfl⟩

/-- `shutdownWatchers` gives up every watcher. -/
theorem shutdown_serves (hids : (w.all.map WatcherState.id).Nodup) (current : Nat) :
    w.Serves (w.shutdown current) fun x x' => x' = x := by
  have hloop : ∀ (xs : List WatcherState) (w' : Watchers), w.Serves w' (fun x x' => x' = x) →
      w.Serves (xs.foldl (fun w watcher => w.unregister watcher.id .shutdown current) w')
        fun x x' => x' = x := by
    intro xs
    induction xs with
    | nil => exact fun w' h => h
    | cons x xs ih =>
      intro w' h
      have hnext := detach_serves (h.ids.nodup_iff.mpr hids) x.id
        fun _ => ⟨.shutdown, current, none⟩
      exact ih _ (h.trans_eq hnext)
  exact hloop _ _ ⟨.refl _, fun x hx => ⟨x, hx, rfl, rfl⟩, fun x hx => .inl hx⟩

theorem Serves.of_eq {w' : Watchers} (h : w' = w) : w.Serves w' fun x x' => x' = x := by
  subst h
  exact ⟨.refl _, fun x hx => ⟨x, hx, rfl, rfl⟩, fun _ hx => .inl hx⟩

theorem find_of_mem (hids : (w.all.map WatcherState.id).Nodup) {x : WatcherState}
    (hx : x ∈ w.all) : w.find x.id = some x := by
  cases hfind : w.find x.id with
  | none =>
    have hne := List.find?_eq_none.mp hfind x hx
    simp at hne
  | some y =>
    have hid : y.id = x.id := by simpa using List.find?_some hfind
    rw [List.inj_on_of_nodup_map hids (List.mem_of_find?_eq_some hfind) hx hid]

/-- A watcher just registered. -/
structure Fresh (history : HistoryLog) (current : Nat) (start : Bytes) (after id : Nat)
    (x : WatcherState) : Prop where
  backlog : x.backlog = if x.backlogFits then matchingGroups start after history.commits else []
  id : x.id = id
  start : x.start = start
  live : x.live = []
  lastDelivered : x.lastDelivered = after
  registration : x.registration = current
  after_le : after ≤ current
  retained : history.compactedThrough ≤ after

/-- Every way in which a registration can end. -/
inductive Registers (w : Watchers) (history : HistoryLog) (current : Nat) (start : Bytes)
    (after : Nat) : Except Error Nat → Watchers → Prop where
  | refused (e : Error) : Registers w history current start after (.error e) w
  | accepted (x : WatcherState) (w' : Watchers)
      (fresh : Fresh history current start after (u64 (w.nextWatcherID + 1)) x)
      (watchers : w'.watchers = w.watchers ++ [x]) (detached : w'.detached = w.detached)
      (fits : x.backlogFits = true) :
      Registers w history current start after (.ok (u64 (w.nextWatcherID + 1))) w'
  | lagged (x : WatcherState) (w' : Watchers)
      (fresh : Fresh history current start after (u64 (w.nextWatcherID + 1)) x)
      (watchers : w'.watchers = w.watchers) (detached : w'.detached = w.detached ++ [x])
      (fits : x.backlogFits = false) :
      Registers w history current start after (.ok (u64 (w.nextWatcherID + 1))) w'

theorem register_cases (w : Watchers) (limits : Limits) (history : HistoryLog)
    (current queueDepth : Nat) (start : Bytes) (after : Nat) :
    w.Registers history current start after
      (w.register limits history current queueDepth start after).1
      (w.register limits history current queueDepth start after).2 := by
  unfold register
  split
  · exact .refused _
  next hafter =>
  rw [replayGroupsForWatch]
  by_cases hcompacted : after < history.compactedThrough
  · rw [if_pos hcompacted]
    exact .refused _
  rw [if_neg hcompacted]
  simp only
  split
  · exact .refused _
  have hwatch := watchGroups_eq start after limits.watchBufferEvents history.commits
    (Nat.zero_le _)
  cases hgroups : watchGroups start after limits.watchBufferEvents history.commits 0 with
  | none =>
    exact .lagged _ _ ⟨rfl, rfl, rfl, rfl, rfl, rfl, by omega, by omega⟩ rfl rfl rfl
  | some backlog =>
    rw [hgroups] at hwatch
    split at hwatch
    · rw [Option.some.injEq] at hwatch
      subst hwatch
      exact .accepted _ _ ⟨rfl, rfl, rfl, rfl, rfl, rfl, by omega, by omega⟩ rfl rfl rfl
    · cases hwatch

end Watchers

end GapDB
