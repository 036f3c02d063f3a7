import GapDB.Engine.ExpiryHeap
import GapDB.Engine.Records

/-!
# What the expiry schedule says

Seen from outside, the schedule is an agenda: for every key the instant and the revision that are
scheduled for it. Scheduling a record or removing a key changes the agenda at that key only; what
is popped is the earliest entry. The agenda of a record map lists its dated records.
-/

namespace GapDB

open Storelib Storelib.Heap

abbrev Agenda := Key → Option (Time × Nat)

/-- The dated records of a map. -/
def RecordMap.agenda (m : RecordMap) : Agenda := fun key =>
  (m key).bind fun record => record.expiresAt.map fun t => (t, record.revision)

theorem RecordMap.agenda_update (m : RecordMap) (key : Key) (record : Option Record) :
    RecordMap.agenda (Function.update m key record) = Function.update m.agenda key
      (record.bind fun record => record.expiresAt.map fun t => (t, record.revision)) := by
  funext other
  by_cases h : other = key
  · subst h
    simp [RecordMap.agenda]
  · simp [RecordMap.agenda, Function.update_of_ne h]

namespace ExpirySchedule

variable {s s' r : ExpirySchedule} {agenda : Agenda} {p : Nat} {key : Key}

/-- The schedule is in order and holds exactly the entries of the agenda. -/
structure Holds (s : ExpirySchedule) (agenda : Agenda) : Prop where
  heaped : s.Heaped
  used : ∀ p ∈ s.expiries, p < s.fresh
  byKey : ∀ key p, s.expiryByKey key = some p ↔ p ∈ s.expiries ∧ (s.candidates p).key = key
  entries : ∀ key, agenda key
    = (s.expiryByKey key).map fun p => ((s.candidates p).at_, (s.candidates p).revision)

theorem holds_empty : ({} : ExpirySchedule).Holds fun _ => none where
  heaped := ⟨⟨List.nodup_nil, fun i hi => absurd hi (Nat.not_lt_zero i)⟩,
    fun k _ hk => absurd hk (Nat.not_lt_zero k)⟩
  used := by simp
  byKey := by simp
  entries := by simp

theorem Holds.agenda_eq_none (h : s.Holds agenda) :
    agenda key = none ↔ s.expiryByKey key = none := by
  rw [h.entries, Option.map_eq_none_iff]

/-- An entry of the heap is on the agenda. -/
theorem Holds.agenda_of_mem (h : s.Holds agenda) (hp : p ∈ s.expiries) :
    agenda (s.candidates p).key = some ((s.candidates p).at_, (s.candidates p).revision) := by
  rw [h.entries, (h.byKey _ p).mpr ⟨hp, rfl⟩]
  rfl

/-- The schedule fits a record map exactly: one candidate for each dated record and no other, found
by key and by index, in heap order, with an earliest record on top. -/
structure Exact (s : ExpirySchedule) (records : RecordMap) : Prop where
  nodup : s.expiries.Nodup
  sound : ∀ p ∈ s.expiries, ∃ record, records (s.candidates p).key = some record ∧
    record.revision = (s.candidates p).revision ∧ record.expiresAt = some (s.candidates p).at_
  complete : ∀ key record t, records key = some record → record.expiresAt = some t →
    ∃! p, p ∈ s.expiries ∧ (s.candidates p).key = key
  byKey : ∀ key p, s.expiryByKey key = some p ↔ p ∈ s.expiries ∧ (s.candidates p).key = key
  index : ∀ i, i < s.expiries.length → (s.item i).index = i
  ordered : ∀ i j, j = 2 * i + 1 ∨ j = 2 * i + 2 → j < s.expiries.length → ¬ s.less j i = true
  earliest : ∀ key record t, records key = some record → record.expiresAt = some t →
    (s.item 0).at_ ≤ t

/-- A dated record is on the agenda. -/
theorem Holds.mem_of_dated {records : RecordMap} (h : s.Holds records.agenda) {record : Record}
    {t : Time} (hrecord : records key = some record) (hdate : record.expiresAt = some t) :
    ∃ p ∈ s.expiries, (s.candidates p).key = key ∧ (s.candidates p).at_ = t := by
  have hentry := h.entries key
  rw [RecordMap.agenda, hrecord, Option.bind_some, hdate, Option.map_some] at hentry
  obtain ⟨p, hfiled, hp⟩ := Option.map_eq_some_iff.mp hentry.symm
  obtain ⟨hmem, hkey⟩ := (h.byKey key p).mp hfiled
  exact ⟨p, hmem, hkey, congrArg Prod.fst hp⟩

/-! ### Taking an entry out -/

theorem Holds.take (h : s.Holds agenda) (hkey : (s.candidates p).key = key)
    (hpopped : Popped p { s with expiryByKey := Function.update s.expiryByKey key none } r) :
    r.Holds (Function.update agenda key none) := by
  have hperm : (p :: r.expiries).Perm s.expiries := hpopped.perm
  have hmem : p ∈ s.expiries := hperm.mem_iff.mp List.mem_cons_self
  have hnodup := hperm.nodup_iff.mpr h.heaped.placed.nodup
  have hnot : p ∉ r.expiries := (List.nodup_cons.mp hnodup).1
  have hin : ∀ q ∈ r.expiries, q ∈ s.expiries := fun q hq =>
    hperm.mem_iff.mp (List.mem_cons_of_mem _ hq)
  have hbyKey : r.expiryByKey = Function.update s.expiryByKey key none := hpopped.keeps.byKey
  have hname : ∀ q, (r.candidates q).key = (s.candidates q).key := hpopped.keeps.key
  refine ⟨hpopped.heaped, fun q hq => ?_, fun other q => ?_, fun other => ?_⟩
  · rw [hpopped.keeps.fresh]
    exact h.used q (hin q hq)
  · rw [hbyKey, hname]
    by_cases hother : other = key
    · subst hother
      rw [Function.update_self]
      refine iff_of_false (by simp) ?_
      rintro ⟨hq, hqkey⟩
      -- both pointers would be filed under this key
      have hqp := ((h.byKey other q).mpr ⟨hin q hq, hqkey⟩).symm.trans
        ((h.byKey other p).mpr ⟨hmem, hkey⟩)
      exact hnot (Option.some.inj hqp ▸ hq)
    · rw [Function.update_of_ne hother, h.byKey]
      refine and_congr_left fun hqkey => ⟨fun hq => ?_, hin q⟩
      rcases List.mem_cons.mp (hperm.mem_iff.mpr hq) with rfl | hq
      · exact absurd (hqkey.symm.trans hkey) hother
      · exact hq
  · rw [hbyKey]
    by_cases hother : other = key
    · subst hother
      simp
    · rw [Function.update_of_ne hother, Function.update_of_ne hother, h.entries]
      simp only [hpopped.keeps.at_, hpopped.keeps.revision]

theorem Holds.slot_of_mem (h : s.Holds agenda) (hp : p ∈ s.expiries) :
    (s.candidates p).index.toNat < s.expiries.length ∧
      s.slot (s.candidates p).index.toNat = p := by
  obtain ⟨i, hi, rfl⟩ := List.getElem_of_mem hp
  have hslot : s.slot i = s.expiries[i] := by
    show s.expiries.getD i 0 = s.expiries[i]
    grind
  have hindex := h.heaped.placed.index i hi
  have hitem : s.item i = s.candidates s.expiries[i] := congrArg s.candidates hslot
  rw [hitem] at hindex
  rw [hindex, Int.toNat_natCast]
  exact ⟨hi, hslot⟩

/-- Nothing is earlier than what is on top. -/
theorem Holds.root_le (h : s.Holds agenda) (hp : p ∈ s.expiries) :
    (s.item 0).at_ ≤ (s.candidates p).at_ := by
  obtain ⟨hlt, hslot⟩ := h.slot_of_mem hp
  have hroot := time_le_of_rank_le (h.heaped.ordered.root_le _ hlt)
  have hitem : s.item (s.candidates p).index.toNat = s.candidates p := congrArg s.candidates hslot
  unfold time at hroot
  rwa [hitem] at hroot

theorem Holds.exact {records : RecordMap} (h : s.Holds records.agenda) : s.Exact records where
  nodup := h.heaped.placed.nodup
  sound p hp := by
    have hentry := h.agenda_of_mem hp
    obtain ⟨record, hrecord, hdated⟩ := Option.bind_eq_some_iff.mp hentry
    obtain ⟨t, hdate, heq⟩ := Option.map_eq_some_iff.mp hdated
    obtain ⟨rfl, hrevision⟩ := Prod.mk.inj heq
    exact ⟨record, hrecord, hrevision, hdate⟩
  complete key record t hrecord hdate := by
    obtain ⟨p, hp, hkey, _⟩ := h.mem_of_dated hrecord hdate
    refine ⟨p, ⟨hp, hkey⟩, fun q hq => ?_⟩
    -- both are filed under the key
    have hfiled := ((h.byKey key q).mpr hq).symm.trans ((h.byKey key p).mpr ⟨hp, hkey⟩)
    exact Option.some.inj hfiled
  byKey := h.byKey
  index := h.heaped.placed.index
  ordered i j hj hlt hless := by
    have hparent : parent j = i := by
      unfold parent
      omega
    have hle := h.heaped.ordered j (by omega) hlt
    rw [hparent] at hle
    exact absurd ((candidateLess_iff _ _).mp hless) (not_lt.mpr hle)
  earliest key record t hrecord hdate := by
    obtain ⟨p, hp, _, rfl⟩ := h.mem_of_dated hrecord hdate
    exact h.root_le hp

theorem Holds.removeScheduledExpiry (h : s.Holds agenda) (key : Key) :
    (s.removeScheduledExpiry key).Holds (Function.update agenda key none) := by
  unfold ExpirySchedule.removeScheduledExpiry
  cases hfiled : s.expiryByKey key with
  | none =>
    have hnone : Function.update agenda key none = agenda := by
      rw [← h.agenda_eq_none.mpr hfiled]
      exact Function.update_eq_self key agenda
    rw [hnone]
    exact h
  | some p =>
    obtain ⟨hp, hkey⟩ := (h.byKey key p).mp hfiled
    obtain ⟨hlt, hslot⟩ := h.slot_of_mem hp
    have hheaped : { s with expiryByKey := Function.update s.expiryByKey key none }.Heaped :=
      ⟨⟨h.heaped.placed.nodup, h.heaped.placed.index⟩, h.heaped.ordered⟩
    have hpopped := remove_spec hheaped hlt
    have hslot' : { s with expiryByKey := Function.update s.expiryByKey key none }.slot
        (s.candidates p).index.toNat = p := hslot
    rw [hslot'] at hpopped
    exact h.take hkey hpopped

/-! ### Putting an entry in -/

theorem Holds.add (h : s.Holds agenda) (hp : p ∉ s.expiries) (hnone : s.expiryByKey key = none)
    (hheaped : r.Heaped) (hperm : r.expiries.Perm (p :: s.expiries))
    (hsame : ∀ q ∈ s.expiries, (r.candidates q).key = (s.candidates q).key ∧
      (r.candidates q).at_ = (s.candidates q).at_ ∧
      (r.candidates q).revision = (s.candidates q).revision)
    (hkey : (r.candidates p).key = key) (hfresh : p < r.fresh ∧ s.fresh ≤ r.fresh)
    (hbyKey : r.expiryByKey = Function.update s.expiryByKey key (some p)) :
    r.Holds (Function.update agenda key
      (some ((r.candidates p).at_, (r.candidates p).revision))) := by
  refine ⟨hheaped, fun q hq => ?_, fun other q => ?_, fun other => ?_⟩
  · rcases List.mem_cons.mp (hperm.mem_iff.mp hq) with rfl | hq
    · exact hfresh.1
    · exact (h.used q hq).trans_le hfresh.2
  · rw [hbyKey, hperm.mem_iff, List.mem_cons]
    by_cases hother : other = key
    · subst hother
      rw [Function.update_self, Option.some.injEq]
      constructor
      · rintro rfl
        exact ⟨.inl rfl, hkey⟩
      · rintro ⟨rfl | hq, hqkey⟩
        · rfl
        · rw [(hsame q hq).1] at hqkey
          have hfiled := (h.byKey other q).mpr ⟨hq, hqkey⟩
          rw [hnone] at hfiled
          cases hfiled
    · rw [Function.update_of_ne hother, h.byKey]
      constructor
      · rintro ⟨hq, hqkey⟩
        exact ⟨.inr hq, (hsame q hq).1.trans hqkey⟩
      · rintro ⟨rfl | hq, hqkey⟩
        · exact absurd (hqkey.symm.trans hkey) hother
        · exact ⟨hq, (hsame q hq).1.symm.trans hqkey⟩
  · rw [hbyKey]
    by_cases hother : other = key
    · subst hother
      simp
    · rw [Function.update_of_ne hother, Function.update_of_ne hother, h.entries]
      cases hfiled : s.expiryByKey other with
      | none => rfl
      | some q =>
        obtain ⟨hq, -⟩ := (h.byKey other q).mp hfiled
        simp only [Option.map_some, (hsame q hq).2.1, (hsame q hq).2.2]

/-- A popped candidate goes back to the heap. -/
theorem Holds.pushBack (h : s.Holds agenda) (hp : p ∉ s.expiries) (hfresh : p < s.fresh)
    (hkey : (s.candidates p).key = key) (hnone : agenda key = none) :
    ({ s with expiryByKey := Function.update s.expiryByKey key (some p) }.push p).Holds
      (Function.update agenda key (some ((s.candidates p).at_, (s.candidates p).revision))) := by
  have hheaped : { s with expiryByKey := Function.update s.expiryByKey key (some p) }.Heaped :=
    ⟨⟨h.heaped.placed.nodup, h.heaped.placed.index⟩, h.heaped.ordered⟩
  obtain ⟨hkeeps, hperm, hheaped'⟩ := push_spec hheaped hp
  have hadd := h.add hp (h.agenda_eq_none.mp hnone) hheaped' hperm
    (fun q _ => ⟨hkeeps.key q, hkeeps.at_ q, hkeeps.revision q⟩) ((hkeeps.key p).trans hkey)
    ⟨by rw [hkeeps.fresh]; exact hfresh, by rw [hkeeps.fresh]⟩ hkeeps.byKey
  rw [hkeeps.at_, hkeeps.revision] at hadd
  exact hadd

/-- A filed candidate is dated anew. -/
theorem Holds.redate (h : s.Holds agenda) (hfiled : s.expiryByKey key = some p) (at_ : Time)
    (revision : Nat) :
    let candidate := { s.candidates p with at_, revision }
    ({ s with candidates := Function.update s.candidates p candidate }.fix
      candidate.index.toNat).Holds (Function.update agenda key (some (at_, revision))) := by
  intro candidate
  obtain ⟨hp, hkey⟩ := (h.byKey key p).mp hfiled
  obtain ⟨hlt, hslot⟩ := h.slot_of_mem hp
  set dated : ExpirySchedule :=
    { s with candidates := Function.update s.candidates p candidate } with hdated
  have hself : dated.candidates p = candidate := Function.update_self ..
  have hother : ∀ q, q ≠ p → dated.candidates q = s.candidates q := fun q hq =>
    Function.update_of_ne hq ..
  have hname : ∀ q, (dated.candidates q).key = (s.candidates q).key := by
    intro q
    by_cases hq : q = p
    · rw [hq, hself]
    · rw [hother q hq]
  have hindex : ∀ q, (dated.candidates q).index = (s.candidates q).index := by
    intro q
    by_cases hq : q = p
    · rw [hq, hself]
    · rw [hother q hq]
  have hplaced : dated.Placed :=
    ⟨h.heaped.placed.nodup, fun i hi => (hindex _).trans (h.heaped.placed.index i hi)⟩
  have hloose : Loose dated.rank dated.expiries.length candidate.index.toNat := by
    refine h.heaped.ordered.loose fun k hk hne => ?_
    have hslotk : s.slot k ≠ p := by
      intro heq
      exact hne (h.heaped.placed.slot_inj hk hlt (heq.trans hslot.symm))
    exact congrArg candidateRank (hother _ hslotk)
  obtain ⟨hkeeps, hperm, hheaped⟩ := fix_spec hplaced hlt hloose
  have hperm' : (dated.fix candidate.index.toNat).expiries.Perm s.expiries := hperm
  have hbyKey : (dated.fix candidate.index.toNat).expiryByKey = s.expiryByKey := hkeeps.byKey
  have hfresh : (dated.fix candidate.index.toNat).fresh = s.fresh := hkeeps.fresh
  refine ⟨hheaped, fun q hq => ?_, fun other q => ?_, fun other => ?_⟩
  · rw [hfresh]
    exact h.used q (hperm'.mem_iff.mp hq)
  · rw [hbyKey, hperm'.mem_iff, hkeeps.key, hname]
    exact h.byKey other q
  · rw [hbyKey]
    by_cases heq : other = key
    · rw [heq, hfiled, Function.update_self, Option.map_some, hkeeps.at_, hkeeps.revision, hself]
    · rw [Function.update_of_ne heq, h.entries]
      cases hfiled' : s.expiryByKey other with
      | none => rfl
      | some q =>
        have hq : q ≠ p := by
          rintro rfl
          exact heq (((h.byKey other q).mp hfiled').2.symm.trans hkey)
        rw [Option.map_some, Option.map_some, hkeeps.at_, hkeeps.revision, hother q hq]

theorem Holds.scheduleRecordExpiry (h : s.Holds agenda) (record : Record) :
    (s.scheduleRecordExpiry record).Holds (Function.update agenda record.key
      (record.expiresAt.map fun t => (t, record.revision))) := by
  unfold ExpirySchedule.scheduleRecordExpiry
  cases hdate : record.expiresAt with
  | none => exact h.removeScheduledExpiry record.key
  | some at_ =>
    simp only [Option.map_some]
    cases hfiled : s.expiryByKey record.key with
    | some p => exact h.redate hfiled at_ record.revision
    | none =>
      -- a fresh pointer is in no slot
      have hfresh : s.fresh ∉ s.expiries := fun hmem => lt_irrefl _ (h.used _ hmem)
      set filed : ExpirySchedule :=
        { s with
          candidates := Function.update s.candidates s.fresh ⟨at_, record.key, record.revision, 0⟩
          fresh := s.fresh + 1
          expiryByKey := Function.update s.expiryByKey record.key (some s.fresh) }
      have hself : filed.candidates s.fresh = ⟨at_, record.key, record.revision, 0⟩ :=
        Function.update_self ..
      have hother : ∀ q ∈ s.expiries, filed.candidates q = s.candidates q := fun q hq =>
        Function.update_of_ne (fun heq : q = s.fresh => hfresh (heq ▸ hq)) ..
      have hitem : ∀ i, i < s.expiries.length → filed.item i = s.item i := by
        intro i hi
        refine hother _ ?_
        show s.expiries.getD i 0 ∈ s.expiries
        grind
      have hheaped : filed.Heaped := by
        refine ⟨⟨h.heaped.placed.nodup, fun i hi => ?_⟩, fun k hk hlt => ?_⟩
        · rw [hitem i hi]
          exact h.heaped.placed.index i hi
        · have hparent := parent_lt hk
          have hlt' : k < s.expiries.length := hlt
          unfold rank
          rw [hitem k hlt', hitem _ (hparent.trans hlt')]
          exact h.heaped.ordered k hk hlt'
      obtain ⟨hkeeps, hperm, hheaped'⟩ := push_spec hheaped (p := s.fresh) hfresh
      have hsame : ∀ q ∈ s.expiries,
          ((filed.push s.fresh).candidates q).key = (s.candidates q).key ∧
          ((filed.push s.fresh).candidates q).at_ = (s.candidates q).at_ ∧
          ((filed.push s.fresh).candidates q).revision = (s.candidates q).revision := by
        intro q hq
        rw [hkeeps.key, hkeeps.at_, hkeeps.revision, hother q hq]
        exact ⟨rfl, rfl, rfl⟩
      have hkey : ((filed.push s.fresh).candidates s.fresh).key = record.key := by
        rw [hkeeps.key, hself]
      have hbound : s.fresh < (filed.push s.fresh).fresh ∧
          s.fresh ≤ (filed.push s.fresh).fresh := by
        rw [hkeeps.fresh]
        exact ⟨Nat.lt_succ_self _, Nat.le_succ _⟩
      have hadd := h.add hfresh hfiled hheaped' hperm hsame hkey hbound hkeeps.byKey
      rw [hkeeps.at_, hkeeps.revision, hself] at hadd
      exact hadd

/-! ### After a commit -/

/-- The events of a commit bring the schedule up to date with the records, also where the keys the
commit writes were already taken off the agenda. -/
theorem Holds.afterCommit {m : RecordMap} {mutations : List Mutation} {single : SingleOperation}
    {revision index : Nat} (h : s.Holds agenda)
    (hagenda : ∀ key, agenda key = m.agenda key ∨ key ∈ mutations.map Mutation.key) :
    (s.afterCommit (m.applyAll revision single index mutations).2).Holds
      (RecordMap.agenda (m.applyAll revision single index mutations).1) := by
  induction mutations generalizing s agenda m index with
  | nil =>
    have heq : agenda = m.agenda := funext fun key => (hagenda key).resolve_right (by simp)
    rw [heq] at h
    exact h
  | cons mutation mutations ih =>
    have hother : ∀ key, key ≠ mutation.key →
        agenda key = m.agenda key ∨ key ∈ mutations.map Mutation.key := by
      intro key hkey
      rcases hagenda key with h | h
      · exact .inl h
      · rcases List.mem_cons.mp h with h | h
        · exact absurd h hkey
        · exact .inr h
    rw [RecordMap.applyAll]
    by_cases hdelete : mutation.kind = .delete
    · -- the entry of a deleted key goes, whatever the event is called
      have hstep := h.removeScheduledExpiry mutation.key
      have hrest := @ih _ _ (Function.update m mutation.key none) (index + 1) hstep fun key => by
          rw [RecordMap.agenda_update]
          by_cases hkey : key = mutation.key
          · subst hkey
            simp
          · rw [Function.update_of_ne hkey, Function.update_of_ne hkey]
            exact hother key hkey
      unfold RecordMap.apply
      simp only [hdelete, if_true]
      by_cases hexpiry : single = .expiry
      · simp only [hexpiry, if_true] at hrest ⊢
        exact hrest
      · simp only [hexpiry, if_false] at hrest ⊢
        exact hrest
    · set record := newRecord mutation.key mutation.valueBytes revision mutation.expiresAt
        with hrecord
      have hstep := h.scheduleRecordExpiry record
      have hrest := @ih _ _ (Function.update m mutation.key (some record)) (index + 1) hstep
        fun key => by
          rw [RecordMap.agenda_update]
          by_cases hkey : key = mutation.key
          · subst hkey
            exact .inl (by simp [hrecord, newRecord])
          · rw [Function.update_of_ne hkey, Function.update_of_ne (by exact hkey)]
            exact hother key hkey
      unfold RecordMap.apply
      simp only [hdelete, if_false]
      exact hrest

/-! ### Collecting what is due -/

/-- What the collector hands to the commit step. -/
structure Collected (limits : Limits) (records : RecordMap) (now : Time)
    (due : List ExpiryCandidate) : Prop where
  distinct : (due.map ExpiryCandidate.key).Nodup
  current : ∀ c ∈ due, ∃ record, records c.key = some record ∧ record.revision = c.revision ∧
    recordExpired record now = true
  operations : due.length ≤ limits.maxBatchOperations
  bytes : due ≠ [] → 32 + (due.map fun c => 20 + c.key.length).sum ≤ limits.commitBytes

section

variable {limits : Limits} {records : RecordMap} {now : Time} {due : List ExpiryCandidate}

theorem Collected.append {c : ExpiryCandidate} (h : Collected limits records now due)
    (hroom : due.length < limits.maxBatchOperations)
    (hcurrent : (records c.key).any (fun record => record.revision = c.revision ∧
      record.expiresAt = some c.at_ ∧ recordExpired record now) = true)
    (hnew : c.key ∉ due.map ExpiryCandidate.key)
    (hfits : 32 + (due.map fun c => 20 + c.key.length).sum + (20 + c.key.length)
      ≤ limits.commitBytes) : Collected limits records now (due ++ [c]) := by
  refine ⟨?_, ?_, ?_, fun _ => ?_⟩
  · rw [List.map_append, List.map_singleton]
    exact List.nodup_append.mpr ⟨h.distinct, List.nodup_singleton _, by
      intro a ha b hb
      rw [List.mem_singleton.mp hb]
      exact fun heq => hnew (heq ▸ ha)⟩
  · intro d hd
    rcases List.mem_append.mp hd with hd | hd
    · exact h.current d hd
    · obtain rfl := List.mem_singleton.mp hd
      cases hrecord : records d.key with
      | none => simp [hrecord] at hcurrent
      | some record =>
        simp only [hrecord, Option.any_some, decide_eq_true_eq] at hcurrent
        exact ⟨record, rfl, hcurrent.1, hcurrent.2.2⟩
  · rw [List.length_append, List.length_singleton]
    omega
  · rw [List.map_append, List.sum_append]
    simp only [List.map_cons, List.map_nil, List.sum_cons, List.sum_nil]
    omega

/-- Whatever the heap holds, only expired records of the scheduled revision are collected. -/
theorem collectDue_collected (fuel : Nat) (s : ExpirySchedule)
    (h : Collected limits records now due) {encodedBytes : Nat}
    (hbytes : encodedBytes = 32 + (due.map fun c => 20 + c.key.length).sum) :
    Collected limits records now (s.collectDue limits records now due encodedBytes fuel).2 := by
  induction fuel generalizing s due encodedBytes with
  | zero => exact h
  | succ fuel ih =>
    rw [collectDue]
    by_cases hstop : limits.maxBatchOperations ≤ due.length ∨ s.expiries = [] ∨
        now < (s.item 0).at_
    · rw [if_pos hstop]
      exact h
    · rw [if_neg hstop]
      simp only
      split
      · exact ih _ h hbytes
      next hkept =>
        obtain ⟨hcurrent, hnew⟩ := not_or.mp hkept
        split
        · exact h
        next hfits =>
          refine ih _ (h.append (by omega) (not_not.mp hcurrent) hnew (by omega)) ?_
          rw [List.map_append, List.sum_append, hbytes]
          simp only [List.map_cons, List.map_nil, List.sum_cons, List.sum_nil]
          omega

theorem mem_collectDue (fuel : Nat) (s : ExpirySchedule) (encodedBytes : Nat)
    {c : ExpiryCandidate} (hc : c ∈ due) :
    c ∈ (s.collectDue limits records now due encodedBytes fuel).2 := by
  induction fuel generalizing s due encodedBytes with
  | zero => exact hc
  | succ fuel ih =>
    rw [collectDue]
    split
    · exact hc
    · simp only
      split
      · exact ih _ _ hc
      · split
        · exact hc
        · exact ih _ _ (List.mem_append_left _ hc)

/-- The agenda of the records without what was collected. -/
def remaining (records : RecordMap) (due : List ExpiryCandidate) : Agenda := fun key =>
  if key ∈ due.map ExpiryCandidate.key then none else records.agenda key

theorem agenda_eq_some {t : Time} {revision : Nat} (h : records.agenda key = some (t, revision)) :
    ∃ record, records key = some record ∧ record.revision = revision ∧
      record.expiresAt = some t := by
  unfold RecordMap.agenda at h
  cases hrecord : records key with
  | none => simp [hrecord] at h
  | some record =>
    rw [hrecord] at h
    cases hdate : record.expiresAt with
    | none => simp [hdate] at h
    | some at_ =>
      simp only [Option.bind_some, hdate, Option.map_some, Option.some.injEq, Prod.mk.injEq] at h
      exact ⟨record, rfl, h.2, by rw [hdate, h.1]⟩

@[simp] theorem remaining_nil : remaining records [] = records.agenda := by
  funext key
  simp [remaining]

theorem remaining_append (due : List ExpiryCandidate) (c : ExpiryCandidate) :
    remaining records (due ++ [c]) = Function.update (remaining records due) c.key none := by
  funext key
  by_cases hkey : key = c.key
  · subst hkey
    simp [remaining]
  · simp [remaining, hkey]

/-- The popped candidate `p` of a schedule that agrees with the records, as `collectDue` sees it. -/
structure Front (records : RecordMap) (now : Time) (due : List ExpiryCandidate) (p : Nat)
    (s₁ : ExpirySchedule) (c : ExpiryCandidate) : Prop where
  filed : s₁.expiryByKey c.key = some p
  holds : { s₁ with expiryByKey := Function.update s₁.expiryByKey c.key none }.Holds
    (remaining records (due ++ [c]))
  back : ({ s₁ with
      expiryByKey := Function.update (Function.update s₁.expiryByKey c.key none) c.key
        (some p) }.push p).Holds (remaining records due)
  new : c.key ∉ due.map ExpiryCandidate.key
  current : (records c.key).any (fun record => record.revision = c.revision ∧
    record.expiresAt = some c.at_ ∧ recordExpired record now) = true

theorem Holds.front (h : s.Holds (remaining records due)) (hne : s.expiries ≠ [])
    (hdue : ¬ now < (s.item 0).at_) :
    Front records now due s.pop.1 s.pop.2 (s.pop.2.candidates s.pop.1) := by
  obtain ⟨hfirst, hpopped⟩ := pop_spec h.heaped hne
  have hitem : s.item 0 = s.candidates s.pop.1 := congrArg s.candidates hfirst.symm
  rw [hitem] at hdue
  generalize s.pop.1 = p at *
  generalize s.pop.2 = s₁ at *
  have hmem : p ∈ s.expiries := hpopped.perm.mem_iff.mp List.mem_cons_self
  have hat := hpopped.keeps.at_ p
  have hkey := hpopped.keeps.key p
  have hrevision := hpopped.keeps.revision p
  have hout : p ∉ s₁.expiries :=
    (List.nodup_cons.mp (hpopped.perm.nodup_iff.mpr h.heaped.placed.nodup)).1
  -- the agenda has the entry, so it is not yet collected and the record is still there
  have hentry := h.agenda_of_mem hmem
  rw [← hkey, ← hat, ← hrevision] at hentry
  have hnew : (s₁.candidates p).key ∉ due.map ExpiryCandidate.key := by
    intro hin
    rw [remaining, if_pos hin] at hentry
    cases hentry
  rw [remaining, if_neg hnew] at hentry
  obtain ⟨record, hrecord, hrev, hdate⟩ := agenda_eq_some hentry
  have hexpired : recordExpired record now = true := by
    rw [← hat] at hdue
    simpa [recordExpired, hdate, isExpired] using hdue
  have hholds : { s₁ with
      expiryByKey := Function.update s₁.expiryByKey (s₁.candidates p).key none }.Holds
        (remaining records (due ++ [s₁.candidates p])) := by
    rw [remaining_append]
    refine h.take hkey.symm ⟨⟨hpopped.keeps.at_, hpopped.keeps.key, hpopped.keeps.revision,
      hpopped.keeps.fresh, ?_⟩, hpopped.perm,
      ⟨⟨hpopped.heaped.placed.nodup, hpopped.heaped.placed.index⟩, hpopped.heaped.ordered⟩⟩
    show Function.update s₁.expiryByKey _ none = Function.update s.expiryByKey _ none
    rw [hpopped.keeps.byKey]
  refine ⟨?_, hholds, ?_, hnew, ?_⟩
  · rw [hpopped.keeps.byKey, h.byKey]
    exact ⟨hmem, hkey.symm⟩
  · have hused : p < s₁.fresh := by
      rw [hpopped.keeps.fresh]
      exact h.used p hmem
    have hnone : remaining records (due ++ [s₁.candidates p]) (s₁.candidates p).key = none := by
      rw [remaining_append, Function.update_self]
    have hback := hholds.pushBack hout hused rfl hnone
    have hagenda : Function.update (remaining records (due ++ [s₁.candidates p]))
        (s₁.candidates p).key (some ((s₁.candidates p).at_, (s₁.candidates p).revision))
          = remaining records due := by
      rw [remaining_append, Function.update_idem, ← hentry]
      have hsame : records.agenda (s₁.candidates p).key
          = remaining records due (s₁.candidates p).key := by
        rw [remaining, if_neg hnew]
      rw [hsame, Function.update_eq_self]
    rw [← hagenda]
    exact hback
  · simp [hrecord, hrev, hdate, hexpired]

/-- The collector leaves the schedule with what it did not collect. -/
theorem collectDue_holds (fuel : Nat) {s : ExpirySchedule} {encodedBytes : Nat}
    (h : s.Holds (remaining records due)) :
    (s.collectDue limits records now due encodedBytes fuel).1.Holds
      (remaining records (s.collectDue limits records now due encodedBytes fuel).2) := by
  induction fuel generalizing s due encodedBytes with
  | zero => exact h
  | succ fuel ih =>
    rw [collectDue]
    by_cases hstop : limits.maxBatchOperations ≤ due.length ∨ s.expiries = [] ∨
        now < (s.item 0).at_
    · rw [if_pos hstop]
      exact h
    · rw [if_neg hstop]
      obtain ⟨-, hne, hdue⟩ := not_or.mp hstop |>.imp_right not_or.mp
      have hfront := h.front hne hdue
      have hkept : ¬ (¬ (records (s.pop.2.candidates s.pop.1).key).any (fun record =>
          record.revision = (s.pop.2.candidates s.pop.1).revision ∧
            record.expiresAt = some (s.pop.2.candidates s.pop.1).at_ ∧
            recordExpired record now) = true ∨
          (s.pop.2.candidates s.pop.1).key ∈ due.map ExpiryCandidate.key) :=
        not_or.mpr ⟨not_not.mpr hfront.current, hfront.new⟩
      simp only [if_pos hfront.filed, if_neg hkept]
      split
      · exact hfront.back
      · exact ih hfront.holds

/-- If a dated record is due, something is collected. -/
theorem collectDue_ne_nil {s : ExpirySchedule} (hlimits : 0 < limits.maxBatchOperations)
    (h : s.Holds (remaining records []))
    (hfits : ∀ key t revision, records.agenda key = some (t, revision) →
      32 + 20 + key.length ≤ limits.commitBytes)
    {t : Time} {revision : Nat} (hentry : records.agenda key = some (t, revision)) (ht : t ≤ now) :
    (s.collectDue limits records now [] 32 s.expiries.length).2 ≠ [] := by
  have hagenda : remaining records [] key = some (t, revision) := by
    rw [remaining_nil]
    exact hentry
  rw [h.entries] at hagenda
  obtain ⟨p, hfiled, hp⟩ := Option.map_eq_some_iff.mp hagenda
  obtain ⟨hmem, -⟩ := (h.byKey key p).mp hfiled
  have hne : s.expiries ≠ [] := List.ne_nil_of_mem hmem
  -- the front is at least as early as this entry
  have hfirst : ¬ now < (s.item 0).at_ := by
    have hroot := h.root_le hmem
    rw [(Prod.mk.inj hp).1] at hroot
    exact not_lt.mpr (hroot.trans ht)
  have hfront := h.front hne hfirst
  obtain ⟨fuel, hfuel⟩ := Nat.exists_eq_succ_of_ne_zero (List.length_pos_iff.mpr hne).ne'
  have hstop : ¬ (limits.maxBatchOperations ≤ ([] : List ExpiryCandidate).length ∨
      s.expiries = [] ∨ now < (s.item 0).at_) := by
    rintro (h | h | h)
    · exact absurd h (Nat.not_le.mpr hlimits)
    · exact hne h
    · exact hfirst h
  have hkept : ¬ (¬ (records (s.pop.2.candidates s.pop.1).key).any (fun record =>
      record.revision = (s.pop.2.candidates s.pop.1).revision ∧
        record.expiresAt = some (s.pop.2.candidates s.pop.1).at_ ∧
        recordExpired record now) = true ∨
      (s.pop.2.candidates s.pop.1).key ∈ ([] : List ExpiryCandidate).map ExpiryCandidate.key) :=
    not_or.mpr ⟨not_not.mpr hfront.current, hfront.new⟩
  have hroom : ¬ limits.commitBytes < 32 + (20 + (s.pop.2.candidates s.pop.1).key.length) := by
    have hcurrent := hfront.current
    cases hrecord : records (s.pop.2.candidates s.pop.1).key with
    | none => simp [hrecord] at hcurrent
    | some record =>
      simp only [hrecord, Option.any_some, decide_eq_true_eq] at hcurrent
      have hdated : records.agenda (s.pop.2.candidates s.pop.1).key
          = some ((s.pop.2.candidates s.pop.1).at_, record.revision) := by
        simp [RecordMap.agenda, hrecord, hcurrent.2.1]
      have hbound := hfits _ _ _ hdated
      omega
  rw [hfuel, collectDue, if_neg hstop]
  simp only [if_pos hfront.filed, if_neg hkept, if_neg hroom]
  exact List.ne_nil_of_mem (mem_collectDue fuel _ _ (List.mem_append_right _ List.mem_cons_self))

end

end ExpirySchedule

end GapDB
