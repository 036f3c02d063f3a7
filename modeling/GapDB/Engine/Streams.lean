import GapDB.Engine.Pump

/-!
# Watch streams are exact

At every moment of every interleaving, what a watch still has to deliver is queued in front of its
pump, in commit order and without a gap, unless the watch has been given up. So the events its
consumer has seen are a prefix of the committed ones.
-/

namespace GapDB

open Storelib DatabaseState HistoryLog

variable {commits : List CommitFrame} {received sent : List ChangeEvent}
    {done rest : List EventGroup}

/-! ### One watch -/

/-- Of all matching groups, `done` have been delivered whole and `sent` of the next one; what has
been announced as delivered does not reach into the rest. -/
structure Delivered (groups : List EventGroup) (last : Nat) (received : List ChangeEvent)
    (done rest : List EventGroup) (sent : List ChangeEvent) : Prop where
  groups : groups = done ++ rest
  received : received = done.flatMap EventGroup.events ++ sent
  next : sent = [] ∨ ∃ g later, rest = g :: later ∧ sent <+: g.events
  last : ∀ g ∈ rest, last < g.revision

/-- What the pump has yet to deliver. -/
def Pump.pending (p : Pump) (w : WatcherState) : List EventGroup :=
  match p.phase with
  | .backlog rest => rest ++ w.live
  | .live => w.live
  | .entering group rest | .sending group _ rest => group :: (rest.getD [] ++ w.live)
  | .delivered _ rest => rest.getD [] ++ w.live
  | .finished => []

/-- The part of the current group that the consumer has. -/
def PumpPhase.Sent (sent : List ChangeEvent) : PumpPhase → Prop
  | .sending group unsent _ => group.events = sent ++ unsent
  | _ => sent = []

/-- A watch that is still open: the groups behind those delivered are in its queue, unless it will
never get them. -/
structure OpenStream (groups : List EventGroup) (complete : Prop) (w : WatcherState) (p : Pump) :
    Prop where
  termination : p.termination = none
  delivered : ∃ done missed sent,
    Delivered groups w.lastDelivered p.received done (p.pending w ++ missed) sent ∧
      p.phase.Sent sent ∧ (complete → missed = []) ∧
      (w.backlogFits → ∀ g ∈ w.live ++ missed, w.registration < g.revision)

/-- A watch that has ended. -/
structure EndedStream (groups : List EventGroup) (current : Nat) (p : Pump) : Prop where
  delivered : ∃ t done rest sent, p.termination = some t ∧
    Delivered groups t.lastDeliveredRevision p.received done rest sent ∧
      (t.reason ≠ .client → sent = []) ∧ t.lastDeliveredRevision ≤ current ∧
      ∀ e, t.error = some e → e.lastDeliveredRevision = some t.lastDeliveredRevision

structure Streams (commits : List CommitFrame) (current : Nat) (complete : Prop)
    (w : WatcherState) (p : Pump) : Prop where
  after : p.after ≤ current
  lastDelivered : w.lastDelivered ≤ current
  registration : w.registration ≤ current
  open_ : p.phase ≠ .finished →
    OpenStream (committedAfter w.start p.after commits) complete w p
  ended : p.phase = .finished → EndedStream (committedAfter w.start p.after commits) current p

/-- Everything a step of the pump can do. -/
inductive Pump.Steps (p : Pump) (w : WatcherState) : WatcherState → Pump → Prop where
  | switch (phase : p.phase = .backlog []) :
      Steps p w
        { w with
          backlog := []
          lastDelivered := if w.backlogFits then w.registration else w.lastDelivered }
        { p with phase := .live }
  | next (group : EventGroup) (rest : List EventGroup)
      (phase : p.phase = .backlog (group :: rest)) :
      Steps p w w { p with phase := .entering group (some rest) }
  | take (group : EventGroup) (live : List EventGroup) (phase : p.phase = .live)
      (queue : w.live = group :: live) :
      Steps p w { w with live } { p with phase := .entering group none }
  | enter (group : EventGroup) (rest : Option (List EventGroup))
      (phase : p.phase = .entering group rest) :
      Steps p w w { p with phase := .sending group group.events rest }
  | send (group : EventGroup) (event : ChangeEvent) (unsent : List ChangeEvent)
      (rest : Option (List EventGroup)) (phase : p.phase = .sending group (event :: unsent) rest) :
      Steps p w w { p with phase := .sending group unsent rest, received := p.received ++ [event] }
  | sent (group : EventGroup) (rest : Option (List EventGroup))
      (phase : p.phase = .sending group [] rest) :
      Steps p w { w with lastDelivered := group.revision } { p with phase := .delivered group rest }
  | retire (group : EventGroup) (rest : Option (List EventGroup))
      (phase : p.phase = .delivered group rest) :
      Steps p w { w with queuedEvents := w.queuedEvents - group.events.length }
        { p with phase := (rest.map PumpPhase.backlog).getD .live }
  | leave (choice : PumpChoice) (w' : WatcherState) (p' : Pump) (active : p.phase ≠ .finished)
      (between : choice = .takeEnd → ∀ sent, p.phase.Sent sent → sent = [])
      (left : p.leave w choice = some (w', p')) : Steps p w w' p'

theorem Pump.step_cases {p p' : Pump} {w w' : WatcherState} {choice : PumpChoice}
    (h : p.step w choice = some (w', p')) : p.Steps w w' p' := by
  unfold Pump.step at h
  split at h
  · next hphase =>
    cases h
    exact .switch hphase
  · next group rest hphase =>
    cases h
    exact .next group rest hphase
  · next hphase =>
    split at h
    · cases h
    · next group live hqueue =>
      cases h
      exact .take group live hphase hqueue
  · next group rest hphase =>
    split at h
    · cases h
      exact .enter group rest hphase
    · cases h
  · next hphase _ =>
    refine .leave _ _ _ (by simp [hphase]) (fun _ sent hsent => ?_) h
    rwa [hphase] at hsent
  · next hphase _ =>
    refine .leave _ _ _ (by simp [hphase]) (fun _ sent hsent => ?_) h
    rwa [hphase] at hsent
  · next group event unsent rest hphase =>
    cases h
    exact .send group event unsent rest hphase
  · next group event unsent rest hphase =>
    exact .leave _ _ _ (by simp [hphase]) (fun hend => by cases hend) h
  · next group rest hphase =>
    cases h
    exact .sent group rest hphase
  · next group rest hphase =>
    cases h
    have hretire := Pump.Steps.retire (w := w) group rest hphase
    cases rest <;> exact hretire
  · cases h

section

variable {groups : List EventGroup} {current : Nat} {complete : Prop} {w w' : WatcherState}
  {p p' : Pump}

/-- A select that ends the watch does so between whole commits, except for the client's own stop. -/
theorem OpenStream.leave {choice : PumpChoice} (h : OpenStream groups complete w p)
    (hlast : w.lastDelivered ≤ current)
    (hsent : choice = .takeEnd → ∀ sent, p.phase.Sent sent → sent = [])
    (hstep : p.leave w choice = some (w', p')) :
    w'.start = w.start ∧ w'.lastDelivered = w.lastDelivered ∧ w'.registration = w.registration ∧
      w'.id = w.id ∧ p'.after = p.after ∧ p'.phase = .finished ∧
      EndedStream groups current p' := by
  obtain ⟨-, done, missed, sent, hdelivered, hphase, -⟩ := h
  cases choice with
  | proceed => cases hstep
  | takeEnd =>
    obtain ⟨message, -, heq⟩ := Option.map_eq_some_iff.mp hstep
    simp only [Prod.mk.injEq] at heq
    obtain ⟨rfl, rfl⟩ := heq
    refine ⟨rfl, rfl, rfl, rfl, rfl, rfl, _, done, _, sent, rfl, hdelivered, ?_, hlast, ?_⟩
    · exact fun _ => hsent rfl sent hphase
    · intro e he
      obtain ⟨e', -, rfl⟩ := Option.map_eq_some_iff.mp he
      rfl
  | takeStop =>
    simp only [Pump.leave] at hstep
    split at hstep
    · simp only [Option.some.injEq, Prod.mk.injEq] at hstep
      obtain ⟨rfl, rfl⟩ := hstep
      refine ⟨rfl, rfl, rfl, rfl, rfl, rfl, _, done, _, sent, rfl, hdelivered, ?_, hlast, ?_⟩
      · exact fun hne => absurd rfl hne
      · intro e he
        cases he
    · cases hstep

/-- One step of the pump keeps the stream exact. -/
theorem Streams.step (h : Streams commits current complete w p)
    (hincreasing : ((committedAfter w.start p.after commits).map EventGroup.revision).Pairwise
      (· < ·))
    (hle : ∀ g ∈ committedAfter w.start p.after commits, g.revision ≤ current)
    (hstep : p.Steps w w' p') :
    w'.id = w.id ∧ Streams commits current complete w' p' := by
  obtain ⟨hafter, hlast, hregistration, hopen, hended⟩ := h
  generalize hgroups : committedAfter w.start p.after commits
    = groups at hincreasing hle hopen hended
  have hfinish : ∀ {w' : WatcherState} {p' : Pump}, w'.id = w.id → w'.start = w.start →
      p'.after = p.after → w'.registration = w.registration → w'.lastDelivered ≤ current →
      p'.phase ≠ .finished → OpenStream groups complete w' p' →
      w'.id = w.id ∧ Streams commits current complete w' p' := by
    intro w' p' hid hstart hafter' hregistration' hlast' hphase hstream
    refine ⟨hid, hafter' ▸ hafter, hlast', hregistration' ▸ hregistration, fun _ => ?_,
      fun hphase' => absurd hphase' hphase⟩
    rwa [hstart, hafter', hgroups]
  have hactive : p.phase ≠ .finished := by
    cases hstep with
    | leave choice w' p' active => exact active
    | switch phase | next _ _ phase | take _ _ phase | enter _ _ phase | send _ _ _ _ phase
    | sent _ _ phase | retire _ _ phase => simp [phase]
  have hstream := hopen hactive
  obtain ⟨hterminated, done, missed, sent, hdelivered, hsent, hcomplete, hlive⟩ := hopen hactive
  cases hstep with
  | switch phase =>
    simp only [Pump.pending, phase, List.nil_append] at hdelivered
    rw [phase] at hsent
    refine hfinish rfl rfl rfl rfl ?_ (by simp) ⟨hterminated, done, missed, sent,
      ⟨hdelivered.groups, hdelivered.received, hdelivered.next, ?_⟩, hsent, hcomplete, hlive⟩
    · simp only
      split
      · exact hregistration
      · exact hlast
    · intro g hg
      simp only
      split
      · next hfits => exact hlive hfits g hg
      · exact hdelivered.last g hg
  | next group rest phase =>
    simp only [Pump.pending, phase] at hdelivered
    rw [phase] at hsent
    exact hfinish rfl rfl rfl rfl hlast (by simp)
      ⟨hterminated, done, missed, sent, hdelivered, hsent, hcomplete, hlive⟩
  | take group live phase queue =>
    simp only [Pump.pending, phase, queue] at hdelivered
    rw [phase] at hsent
    refine hfinish rfl rfl rfl rfl hlast (by simp)
      ⟨hterminated, done, missed, sent, hdelivered, hsent, hcomplete, fun hfits g hg => ?_⟩
    refine hlive hfits g ?_
    rw [queue]
    exact List.mem_cons_of_mem _ hg
  | enter group rest phase =>
    simp only [Pump.pending, phase] at hdelivered
    rw [phase] at hsent
    obtain rfl : sent = [] := hsent
    exact hfinish rfl rfl rfl rfl hlast (by simp)
      ⟨hterminated, done, missed, [], hdelivered, rfl, hcomplete, hlive⟩
  | send group event unsent rest phase =>
    simp only [Pump.pending, phase] at hdelivered
    rw [phase] at hsent
    have hevents : group.events = (sent ++ [event]) ++ unsent := by
      rw [List.append_assoc]
      exact hsent
    refine hfinish rfl rfl rfl rfl hlast (by simp) ⟨hterminated, done, missed, sent ++ [event],
      ⟨hdelivered.groups, ?_, .inr ⟨group, _, rfl, ⟨unsent, hevents.symm⟩⟩, hdelivered.last⟩,
      hevents, hcomplete, hlive⟩
    simp only [hdelivered.received, List.append_assoc]
  | sent group rest phase =>
    simp only [Pump.pending, phase] at hdelivered
    rw [phase] at hsent
    have hevents : group.events = sent := by
      rw [show group.events = sent ++ [] from hsent, List.append_nil]
    have hsplit := hdelivered.groups
    rw [List.cons_append] at hsplit
    have hmem : group ∈ groups := by simp [hsplit]
    -- the group has been delivered whole: everything behind it is later
    have hbehind : ∀ g ∈ rest.getD [] ++ w.live ++ missed, group.revision < g.revision := by
      intro g hg
      rw [hsplit, List.map_append, List.map_cons, List.pairwise_append, List.pairwise_cons]
        at hincreasing
      exact hincreasing.2.1.1 _ (List.mem_map.mpr ⟨g, hg, rfl⟩)
    refine hfinish rfl rfl rfl rfl (hle group hmem) (by simp) ⟨hterminated, done ++ [group], missed,
      [], ⟨?_, ?_, .inl rfl, hbehind⟩, rfl, hcomplete, hlive⟩
    · simp only [Pump.pending]
      rw [hsplit]
      simp
    · simp only [hdelivered.received, List.flatMap_append, List.flatMap_singleton, hevents,
        List.append_nil]
  | retire group rest phase =>
    simp only [Pump.pending, phase] at hdelivered
    rw [phase] at hsent
    obtain rfl : sent = [] := hsent
    cases rest with
    | none | some =>
      exact hfinish rfl rfl rfl rfl hlast (by simp)
        ⟨hterminated, done, missed, [], hdelivered, rfl, hcomplete, hlive⟩
  | leave choice w' p' active between left =>
    obtain ⟨hstart, hlast', hregistration', hid, hafter', hphase, hend⟩ :=
      hstream.leave hlast between left
    refine ⟨hid, hafter' ▸ hafter, hlast' ▸ hlast, hregistration' ▸ hregistration,
      fun hne => absurd hphase hne, fun _ => ?_⟩
    rwa [hstart, hafter', hgroups]

theorem Delivered.isPrefix {last : Nat} (h : Delivered groups last received done rest sent) :
    received <+: groups.flatMap EventGroup.events := by
  rw [h.groups, h.received, List.flatMap_append, List.prefix_append_right_inj]
  rcases h.next with rfl | ⟨g, later, rfl, hpart⟩
  · exact List.nil_prefix
  · rw [List.flatMap_cons]
    exact hpart.trans (List.prefix_append _ _)

/-- Nothing up to the announced revision is missing. -/
theorem Delivered.mem_of_le {last : Nat} (h : Delivered groups last received done rest sent)
    {g : EventGroup} (hg : g ∈ groups) {event : ChangeEvent} (hevent : event ∈ g.events)
    (hle : g.revision ≤ last) : event ∈ received := by
  rw [h.groups] at hg
  rcases List.mem_append.mp hg with hg | hg
  · rw [h.received]
    exact List.mem_append_left _ (List.mem_flatMap.mpr ⟨g, hg, hevent⟩)
  · exact absurd (h.last g hg) (by omega)

theorem Delivered.extend {last : Nat}
    {new : List EventGroup} (h : Delivered groups last received done rest sent)
    (hnew : ∀ g ∈ new, last < g.revision) :
    Delivered (groups ++ new) last received done (rest ++ new) sent where
  groups := by rw [h.groups, List.append_assoc]
  received := h.received
  next := by
    rcases h.next with h | ⟨g, later, rfl, hpart⟩
    · exact .inl h
    · exact .inr ⟨g, later ++ new, rfl, hpart⟩
  last := by
    intro g hg
    rcases List.mem_append.mp hg with hg | hg
    · exact h.last g hg
    · exact hnew g hg

theorem Streams.mono {complete' : Prop}
    (h : Streams commits current complete w p) (hcomplete : complete' → complete) :
    Streams commits current complete' w p := by
  refine ⟨h.after, h.lastDelivered, h.registration, fun hphase => ?_, h.ended⟩
  obtain ⟨hterminated, done, missed, sent, hdelivered, hsent, hmissed, hlive⟩ := h.open_ hphase
  exact ⟨hterminated, done, missed, sent, hdelivered, hsent, hmissed ∘ hcomplete, hlive⟩

/-- Commits that the writer does not put into the queue are missed. -/
theorem Streams.extend {commits' : List CommitFrame} {current' : Nat}
    {new : List EventGroup} (h : Streams commits current complete w p) (hle : current ≤ current')
    (hgroups : committedAfter w.start p.after commits'
      = committedAfter w.start p.after commits ++ new)
    (hnew : ∀ g ∈ new, current < g.revision) :
    Streams commits' current' (complete ∧ new = []) w p := by
  refine ⟨h.after.trans hle, h.lastDelivered.trans hle, h.registration.trans hle,
    fun hphase => ?_, fun hphase => ?_⟩
  · obtain ⟨hterminated, done, missed, sent, hdelivered, hsent, hmissed, hlive⟩ := h.open_ hphase
    refine ⟨hterminated, done, missed ++ new, sent, ?_, hsent, ?_, ?_⟩
    · rw [hgroups, ← List.append_assoc]
      exact hdelivered.extend fun g hg => h.lastDelivered.trans_lt (hnew g hg)
    · rintro ⟨hcomplete, rfl⟩
      rw [hmissed hcomplete, List.append_nil]
    · intro hfits g hg
      rw [← List.append_assoc] at hg
      rcases List.mem_append.mp hg with hg | hg
      · exact hlive hfits g hg
      · exact h.registration.trans_lt (hnew g hg)
  · obtain ⟨t, done, rest, sent, hterminated, hdelivered, hreason, hlast, herror⟩ :=
      (h.ended hphase).delivered
    refine ⟨t, done, rest ++ new, sent, hterminated, ?_, hreason, hlast.trans hle, herror⟩
    rw [hgroups]
    exact hdelivered.extend fun g hg => hlast.trans_lt (hnew g hg)

/-- A commit that is queued is the next one the pump will find. -/
theorem Streams.queue {commits' : List CommitFrame} {current' queuedEvents : Nat}
    {group : EventGroup} (h : Streams commits current complete w p) (hcomplete : complete)
    (hle : current ≤ current')
    (hgroups : committedAfter w.start p.after commits'
      = committedAfter w.start p.after commits ++ [group])
    (hnew : current < group.revision) :
    Streams commits' current' complete
      { w with live := w.live ++ [group], queuedEvents } p := by
  refine ⟨h.after.trans hle, h.lastDelivered.trans hle, h.registration.trans hle,
    fun hphase => ?_, fun hphase => ?_⟩
  · obtain ⟨hterminated, done, missed, sent, hdelivered, hsent, hmissed, hlive⟩ := h.open_ hphase
    rw [hmissed hcomplete, List.append_nil] at hdelivered hlive
    have hpending : p.pending { w with live := w.live ++ [group], queuedEvents }
        = p.pending w ++ [group] := by
      unfold Pump.pending
      cases hp : p.phase with
      | finished => exact absurd hp hphase
      | backlog | live | entering | sending | delivered => simp
    refine ⟨hterminated, done, [], sent, ?_, hsent, fun _ => rfl, ?_⟩
    · rw [hgroups, hpending, List.append_nil]
      refine hdelivered.extend fun g hg => ?_
      rw [List.mem_singleton.mp hg]
      exact h.lastDelivered.trans_lt hnew
    · intro hfits g hg
      rw [List.append_nil] at hg
      rcases List.mem_append.mp hg with hg | hg
      · exact hlive hfits g hg
      · rw [List.mem_singleton.mp hg]
        exact h.registration.trans_lt hnew
  · refine (h.extend hle hgroups fun g hg => ?_).ended hphase
    rw [List.mem_singleton.mp hg]
    exact hnew

end

end GapDB
