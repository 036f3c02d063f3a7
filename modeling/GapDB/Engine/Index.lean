import GapDB.Engine.Effects
import GapDB.Engine.Transactions

/-!
# The ordered index lists the records

The index holds the keys of the records in strictly increasing order, whatever was committed. The
planner works with three cases; all of them come out as one set of keys.
-/

namespace GapDB

open Storelib

variable {s : DatabaseState} {limits : Limits} {batch : Batch} {revision : Nat} {σ : Type}

variable {world : σ}

/-- `keys` are the keys with `present`, in increasing order. -/
structure Lists (keys : List Key) (present : Key → Prop) : Prop where
  sorted : keys.Pairwise (· < ·)
  mem : ∀ key, key ∈ keys ↔ present key

theorem pairwise_insertionSort_of_nodup {keys : List Key} (h : keys.Nodup) :
    (keys.insertionSort (· ≤ ·)).Pairwise (· < ·) := by
  refine ((List.pairwise_insertionSort (· ≤ ·) keys).and
    ((List.perm_insertionSort (· ≤ ·) keys).nodup_iff.mpr h)).imp ?_
  rintro a b ⟨hle, hne⟩
  exact hle.lt_of_ne hne

/-! ### Search -/

theorem keyExists_iff {keys : List Key} (hsorted : keys.Pairwise (· < ·)) (key : Key) :
    keyExists keys key = true ↔ key ∈ keys := by
  rw [keyExists, beq_iff_eq]
  constructor
  · exact fun h => List.mem_of_getElem? h
  · intro hmem
    have hlt : searchStrings keys key < keys.length :=
      List.findIdx_lt_length_of_exists ⟨key, hmem, by simp⟩
    rw [List.getElem?_eq_getElem hlt, Option.some.injEq]
    have hle : key ≤ keys[searchStrings keys key] :=
      of_decide_eq_true (List.findIdx_getElem (w := hlt))
    obtain ⟨j, hj, heq⟩ := List.getElem_of_mem hmem
    rcases hle.lt_or_eq with hbelow | hequal
    · -- the key stands further to the left, where the search would have stopped
      have hbefore : j < searchStrings keys key := by
        by_contra hnot
        rcases (Nat.not_lt.mp hnot).lt_or_eq with h | h
        · exact absurd (hbelow.trans (List.pairwise_iff_getElem.mp hsorted _ _ hlt hj h))
            (by rw [heq]; exact lt_irrefl _)
        · subst h
          exact absurd hbelow (by rw [heq]; exact lt_irrefl _)
      have hnot := List.not_of_lt_findIdx hbefore
      simp [heq] at hnot
    · exact hequal.symm

/-! ### The merge -/

theorem mem_mergeKeys (removed base additions : List Key) (key : Key) :
    key ∈ mergeKeys removed base additions ↔ key ∈ base ∧ key ∉ removed ∨ key ∈ additions := by
  fun_induction mergeKeys removed base additions with
  | case1 additions => simp
  | case2 additions head base hremoved ih =>
    rw [ih, List.mem_cons]
    constructor
    · rintro (⟨hmem, hkept⟩ | hmem)
      · exact .inl ⟨.inr hmem, hkept⟩
      · exact .inr hmem
    · rintro (⟨rfl | hmem, hkept⟩ | hmem)
      · exact absurd hremoved hkept
      · exact .inl ⟨hmem, hkept⟩
      · exact .inr hmem
  | case3 head base hkept ih | case4 head base hkept addition additions hlt ih =>
    rw [List.mem_cons, ih]
    constructor
    · rintro (rfl | ⟨hmem, hkeep⟩ | hmem)
      · exact .inl ⟨List.mem_cons_self, hkept⟩
      · exact .inl ⟨List.mem_cons_of_mem _ hmem, hkeep⟩
      · exact .inr hmem
    · rintro (⟨hmem, hkeep⟩ | hmem)
      · rcases List.mem_cons.mp hmem with rfl | hmem
        · exact .inl rfl
        · exact .inr (.inl ⟨hmem, hkeep⟩)
      · exact .inr (.inr hmem)
  | case5 head base hkept addition additions hge ih =>
    rw [List.mem_cons, ih, List.mem_cons (a := key) (b := addition)]
    tauto

theorem pairwise_mergeKeys {removed base additions : List Key} (hbase : base.Pairwise (· < ·))
    (hadditions : additions.Pairwise (· < ·)) (hnew : ∀ key ∈ additions, key ∉ base) :
    (mergeKeys removed base additions).Pairwise (· < ·) := by
  fun_induction mergeKeys removed base additions with
  | case1 additions => exact hadditions
  | case2 additions head base hremoved ih =>
    exact ih (List.pairwise_cons.mp hbase).2 hadditions
      fun key hkey hmem => hnew key hkey (List.mem_cons_of_mem _ hmem)
  | case3 head base hkept ih =>
    obtain ⟨hhead, hbase⟩ := List.pairwise_cons.mp hbase
    refine List.pairwise_cons.mpr ⟨fun key hkey => ?_, ih hbase hadditions fun _ h => by cases h⟩
    rcases (mem_mergeKeys _ _ _ _).mp hkey with ⟨hmem, -⟩ | hmem
    · exact hhead key hmem
    · cases hmem
  | case4 head base hkept addition additions hlt ih =>
    obtain ⟨hhead, hbase⟩ := List.pairwise_cons.mp hbase
    refine List.pairwise_cons.mpr ⟨fun key hkey => ?_, ih hbase hadditions
      fun key hkey hmem => hnew key hkey (List.mem_cons_of_mem _ hmem)⟩
    rcases (mem_mergeKeys _ _ _ _).mp hkey with ⟨hmem, -⟩ | hmem
    · exact hhead key hmem
    · rcases List.mem_cons.mp hmem with rfl | hmem
      · exact hlt
      · exact hlt.trans ((List.pairwise_cons.mp hadditions).1 key hmem)
  | case5 head base hkept addition additions hge ih =>
    obtain ⟨haddition, hrest⟩ := List.pairwise_cons.mp hadditions
    have hlt : addition < head := by
      refine (not_lt.mp hge).lt_of_ne ?_
      rintro rfl
      exact hnew _ List.mem_cons_self List.mem_cons_self
    refine List.pairwise_cons.mpr ⟨fun key hkey => ?_, ih hbase hrest
      fun key hkey => hnew key (List.mem_cons_of_mem _ hkey)⟩
    rcases (mem_mergeKeys _ _ _ _).mp hkey with ⟨hmem, -⟩ | hmem
    · rcases List.mem_cons.mp hmem with rfl | hmem
      · exact hlt
      · exact hlt.trans ((List.pairwise_cons.mp hbase).1 key hmem)
    · exact haddition key hmem

/-! ### The plan -/

/-- The keys that a batch leaves: those it puts, and those it does not delete. -/
def leftBy (mutations : List Mutation) (present : Key → Prop) (key : Key) : Prop :=
  (∃ m ∈ mutations, m.key = key ∧ m.kind = .put) ∨
    present key ∧ ∀ m ∈ mutations, m.key = key → m.kind ≠ .delete

section

variable {keys : List Key} {mutations : List Mutation}

/-- Every mutation puts or deletes, and no key twice. -/
structure Planned (mutations : List Mutation) : Prop where
  kinds : ∀ m ∈ mutations, m.kind = .put ∨ m.kind = .delete
  distinct : (mutations.map Mutation.key).Nodup

theorem Planned.unique (h : Planned mutations) {m m' : Mutation} (hm : m ∈ mutations)
    (hm' : m' ∈ mutations) (heq : m.key = m'.key) : m = m' :=
  List.inj_on_of_nodup_map h.distinct hm hm' heq

theorem mem_deleted (hsorted : keys.Pairwise (· < ·)) {key : Key} :
    key ∈ (mutations.filter fun m => m.kind = .delete ∧ keyExists keys m.key).map Mutation.key ↔
      key ∈ keys ∧ ∃ m ∈ mutations, m.key = key ∧ m.kind = .delete := by
  simp only [List.mem_map, List.mem_filter, decide_eq_true_eq, keyExists_iff hsorted]
  constructor
  · rintro ⟨m, ⟨hm, hkind, hmem⟩, rfl⟩
    exact ⟨hmem, m, hm, rfl, hkind⟩
  · rintro ⟨hmem, m, hm, rfl, hkind⟩
    exact ⟨m, ⟨hm, hkind, hmem⟩, rfl⟩

theorem mem_added (hsorted : keys.Pairwise (· < ·)) {key : Key} :
    key ∈ (mutations.filter fun m => m.kind = .put ∧ ¬ keyExists keys m.key).map Mutation.key ↔
      key ∉ keys ∧ ∃ m ∈ mutations, m.key = key ∧ m.kind = .put := by
  simp only [List.mem_map, List.mem_filter, decide_eq_true_eq, keyExists_iff hsorted]
  constructor
  · rintro ⟨m, ⟨hm, hkind, hmem⟩, rfl⟩
    exact ⟨hmem, m, hm, rfl, hkind⟩
  · rintro ⟨hmem, m, hm, rfl, hkind⟩
    exact ⟨m, ⟨hm, hkind, hmem⟩, rfl⟩

/-- The loop of the merge asks for what is not deleted; that is a put. -/
theorem Planned.filter_added (h : Planned mutations) :
    (mutations.filter fun m => m.kind ≠ .delete ∧ ¬ keyExists keys m.key)
      = mutations.filter fun m => m.kind = .put ∧ ¬ keyExists keys m.key := by
  refine List.filter_congr fun m hm => ?_
  rcases h.kinds m hm with hkind | hkind
  · simp [hkind]
  · simp [hkind]

theorem Planned.pairwise_sorted (h : Planned mutations) (p : Mutation → Bool) :
    (((mutations.filter p).map Mutation.key).insertionSort (· ≤ ·)).Pairwise (· < ·) :=
  pairwise_insertionSort_of_nodup (h.distinct.sublist (List.filter_sublist.map _))

/-- A key that the batch leaves is added, or was there and is not deleted. -/
theorem Planned.leftBy_iff (h : Planned mutations) (key : Key) :
    leftBy mutations (· ∈ keys) key ↔
      (key ∈ keys ∧ ¬ (key ∈ keys ∧ ∃ m ∈ mutations, m.key = key ∧ m.kind = .delete)) ∨
        key ∉ keys ∧ ∃ m ∈ mutations, m.key = key ∧ m.kind = .put := by
  constructor
  · rintro (⟨m, hm, hkey, hkind⟩ | ⟨hmem, hkept⟩)
    · by_cases hmem : key ∈ keys
      · refine .inl ⟨hmem, ?_⟩
        rintro ⟨-, m', hm', hkey', hkind'⟩
        rw [h.unique hm hm' (hkey.trans hkey'.symm), hkind'] at hkind
        cases hkind
      · exact .inr ⟨hmem, m, hm, hkey, hkind⟩
    · refine .inl ⟨hmem, ?_⟩
      rintro ⟨-, m, hm, hkey, hkind⟩
      exact hkept m hm hkey hkind
  · rintro (⟨hmem, hkept⟩ | ⟨-, hput⟩)
    · exact .inr ⟨hmem, fun m hm hkey hkind => hkept ⟨hmem, m, hm, hkey, hkind⟩⟩
    · exact .inl hput

theorem mergeOrderedKeyDelta_lists (hsorted : keys.Pairwise (· < ·)) (h : Planned mutations) :
    Lists (mergeOrderedKeyDelta keys mutations).keys (leftBy mutations (· ∈ keys)) := by
  constructor
  · refine pairwise_mergeKeys hsorted (h.pairwise_sorted _) fun key hkey => ?_
    rw [List.mem_insertionSort, h.filter_added, mem_added hsorted] at hkey
    exact hkey.1
  · intro key
    rw [mergeOrderedKeyDelta, mem_mergeKeys, List.mem_insertionSort, h.filter_added,
      mem_added hsorted, mem_deleted hsorted, h.leftBy_iff]

theorem le_getLastD (hsorted : keys.Pairwise (· < ·)) {key : Key} (hmem : key ∈ keys) :
    key ≤ keys.getLastD [] := by
  rw [List.getLastD_eq_getLast?, List.getLast?_eq_some_getLast (List.ne_nil_of_mem hmem),
    Option.getD_some]
  obtain ⟨i, hi, rfl⟩ := List.getElem_of_mem hmem
  rw [List.getLast_eq_getElem]
  rcases (Nat.le_sub_one_of_lt hi).lt_or_eq with hlt | heq
  · exact (List.pairwise_iff_getElem.mp hsorted _ _ hi (by omega) hlt).le
  · simp only [heq, le_refl]

/-- Whichever case the planner takes, the index then lists what the batch leaves. -/
theorem planOrderedKeys_lists {slice : KeySlice} (hsorted : slice.keys.Pairwise (· < ·))
    (h : Planned mutations) :
    Lists (slice.adopt (planOrderedKeys slice mutations)).keys
      (leftBy mutations (· ∈ slice.keys)) := by
  have hdeleted := @mem_deleted _ mutations hsorted
  have hadded := @mem_added _ mutations hsorted
  unfold planOrderedKeys
  simp only
  split
  next hnone =>
    -- neither a new key nor a key that goes
    rw [hnone.1] at hdeleted
    rw [hnone.2] at hadded
    refine ⟨by simpa [KeySlice.adopt] using hsorted, fun key => ?_⟩
    have hstays : ¬ (key ∈ slice.keys ∧ ∃ m ∈ mutations, m.key = key ∧ m.kind = .delete) :=
      fun hgone => List.not_mem_nil (hdeleted.mpr hgone)
    have hold : ¬ (key ∉ slice.keys ∧ ∃ m ∈ mutations, m.key = key ∧ m.kind = .put) :=
      fun hnew => List.not_mem_nil (hadded.mpr hnew)
    rw [h.leftBy_iff]
    simp only [KeySlice.adopt, List.append_nil]
    exact ⟨fun hmem => .inl ⟨hmem, hstays⟩, fun hleft => hleft.elim (·.1) fun hnew =>
      absurd hnew hold⟩
  next hchanged =>
  split
  · exact mergeOrderedKeyDelta_lists hsorted h
  next hbulk =>
  -- every new key comes after the last one
  obtain ⟨hnodelete, hlast⟩ := not_or.mp hbulk
  have hlists : Lists (slice.keys ++ ((mutations.filter fun m => m.kind = .put ∧
      ¬ keyExists slice.keys m.key).map Mutation.key).insertionSort (· ≤ ·))
      (leftBy mutations (· ∈ slice.keys)) := by
    constructor
    · refine List.pairwise_append.mpr ⟨hsorted, h.pairwise_sorted _, fun a ha b hb => ?_⟩
      have hle : a ≤ slice.keys.getLastD [] := le_getLastD hsorted ha
      have hnew := (List.mem_insertionSort _).mp hb
      by_cases hempty : slice.keys.getLastD [] = []
      · -- the empty key is the only one, and comes before every other
        have hnil : ∀ key : Key, [] ≤ key := fun key => not_lt.mp (List.not_lt_nil key)
        rw [hempty] at hle
        obtain rfl : a = [] := le_antisymm hle (hnil a)
        refine lt_of_le_of_ne (hnil b) fun heq => ?_
        exact (hadded.mp hnew).1 (heq ▸ ha)
      · exact hle.trans_lt (not_le.mp fun hbefore => hlast ⟨hempty, b, hnew, hbefore⟩)
    · intro key
      have hstays : ¬ (key ∈ slice.keys ∧ ∃ m ∈ mutations, m.key = key ∧ m.kind = .delete) := by
        intro hgone
        have hmem := hdeleted.mpr hgone
        rw [not_not.mp hnodelete] at hmem
        exact List.not_mem_nil hmem
      rw [List.mem_append, List.mem_insertionSort, hadded, h.leftBy_iff]
      exact or_congr_left ⟨fun hmem => ⟨hmem, hstays⟩, fun hmem => hmem.1⟩
  split <;> exact hlists

/-- There is only one such list. -/
theorem Lists.unique {keys' : List Key} {present : Key → Prop} (h : Lists keys present)
    (h' : Lists keys' present) : keys = keys' := by
  have hnodup : ∀ {l : List Key}, l.Pairwise (· < ·) → l.Nodup := fun hl => hl.imp ne_of_lt
  have hperm : keys.Perm keys' := (List.perm_ext_iff_of_nodup (hnodup h.sorted)
    (hnodup h'.sorted)).mpr fun key => (h.mem key).trans (h'.mem key).symm
  exact hperm.eq_of_pairwise' h.sorted h'.sorted

/-- The key set after a batch, sorted. -/
def sortedAfter (keys : List Key) (mutations : List Mutation) : List Key :=
  ((keys.filter fun key => ¬ ∃ m ∈ mutations, m.key = key ∧ m.kind = .delete) ++
    (mutations.filter fun m => m.kind = .put).map Mutation.key).dedup.insertionSort (· ≤ ·)

theorem sortedAfter_lists (keys : List Key) (mutations : List Mutation) :
    Lists (sortedAfter keys mutations) (leftBy mutations (· ∈ keys)) := by
  refine ⟨pairwise_insertionSort_of_nodup (List.nodup_dedup _), fun key => ?_⟩
  rw [sortedAfter, List.mem_insertionSort, List.mem_dedup, List.mem_append, or_comm]
  simp only [leftBy, List.mem_map, List.mem_filter, decide_eq_true_eq, not_exists, not_and]
  constructor
  · rintro (⟨m, ⟨hm, hkind⟩, hkey⟩ | hkept)
    · exact .inl ⟨m, hm, hkey, hkind⟩
    · exact .inr hkept
  · rintro (⟨m, hm, hkey, hkind⟩ | hkept)
    · exact .inl ⟨m, ⟨hm, hkind⟩, hkey⟩
    · exact .inr hkept

end

/-! ### The invariant -/

namespace DatabaseState

/-- The index and the records agree, and the records are well formed. -/
structure Indexed (s : DatabaseState) : Prop where
  limits : s.limits.Valid
  current : s.current < 2 ^ 64
  lists : Lists s.orderedKeys.keys fun key => (s.records key).isSome
  key : ∀ {key record}, s.records key = some record → record.key = key
  valid : ∀ {key record}, s.records key = some record → ValidKey s.limits key
  revision : ∀ {key record}, s.records key = some record → record.revision ≤ s.current

theorem Indexed.same {s' : DatabaseState} (h : s.Indexed) (same : s.Same s')
    (keys : s'.orderedKeys = s.orderedKeys) : s'.Indexed := by
  obtain ⟨hrecords, hcurrent, -, hlimits, -⟩ := same
  exact
    { limits := by rw [hlimits]; exact h.limits
      current := by rw [hcurrent]; exact h.current
      lists := by rw [hrecords, keys]; exact h.lists
      key := by rw [hrecords]; exact h.key
      valid := by rw [hrecords, hlimits]; exact h.valid
      revision := by rw [hrecords, hcurrent]; exact h.revision }

theorem planned_of_valid {now : Time} (h : batch.Valid limits now) : Planned batch.mutations := by
  refine ⟨fun m hm => ?_, (List.nodup_append.mp h.distinct).2.1⟩
  have hpayload := (h.mutations m hm).payload
  unfold Mutation.Payload at hpayload
  cases hkind : m.kind with
  | put => exact .inl rfl
  | delete => exact .inr rfl
  | unknown => simp [hkind] at hpayload

/-- What a commit leaves under a key: what the batch puts there, or what was there. -/
theorem replayCommit_cases (m : RecordMap) (h : Planned batch.mutations)
    (single : SingleOperation) (revision : Nat) (key : Key) :
    (∃ mutation ∈ batch.mutations, mutation.key = key ∧
      replayCommit m (commitFrame batch single revision) key = mutation.record revision) ∨
    (∀ mutation ∈ batch.mutations, mutation.key ≠ key) ∧
      replayCommit m (commitFrame batch single revision) key = m key := by
  rw [replayCommit_eq_writeAll, commitFrame_writes]
  have hkeys : (batch.mutations.map fun m => (m.key, m.record revision)).map Prod.fst
      = batch.mutations.map Mutation.key := by
    rw [List.map_map]
    rfl
  by_cases hmem : ∃ mutation ∈ batch.mutations, mutation.key = key
  · obtain ⟨mutation, hmutation, rfl⟩ := hmem
    exact .inl ⟨mutation, hmutation, rfl,
      writeAll_of_mem (List.mem_map_of_mem hmutation) (hkeys ▸ h.distinct)⟩
  · refine .inr ⟨fun mutation hmutation heq => hmem ⟨mutation, hmutation, heq⟩, ?_⟩
    refine writeAll_of_not_mem ?_
    rw [hkeys, List.mem_map]
    exact hmem

theorem record_eq_some {mutation : Mutation} {record : Record}
    (h : mutation.record revision = some record) :
    record = newRecord mutation.key mutation.valueBytes revision mutation.expiresAt := by
  unfold Mutation.record at h
  split at h
  · cases h
  · exact (Option.some.inj h).symm

theorem Indexed.publishes {s' : DatabaseState} (h : s.Indexed) {now : Time}
    (valid : batch.Valid s.limits now) {single : SingleOperation}
    (hrevision : revision < 2 ^ 64) (publishes : s.Publishes batch single revision s') :
    s'.Indexed := by
  have hplanned := planned_of_valid valid
  have hcases := replayCommit_cases s.records hplanned single revision
  have hlists := planOrderedKeys_lists h.lists.sorted hplanned
  rw [← publishes.keys] at hlists
  rw [← publishes.records] at hcases
  refine
    { limits := by rw [publishes.limits]; exact h.limits
      current := by rw [publishes.current]; exact hrevision
      lists := ⟨hlists.sorted, fun key => ?_⟩
      key := fun {key record} hrecord => ?_
      valid := fun {key record} hrecord => ?_
      revision := fun {key record} hrecord => ?_ }
  · rw [hlists.mem, leftBy, h.lists.mem]
    rcases hcases key with ⟨mutation, hmutation, rfl, heq⟩ | ⟨hother, heq⟩
    · rw [heq, Mutation.record]
      rcases hplanned.kinds mutation hmutation with hkind | hkind
      · simp only [hkind, reduceCtorEq, if_false, Option.isSome_some, iff_true]
        exact .inl ⟨mutation, hmutation, rfl, hkind⟩
      · simp only [hkind, if_true, Option.isSome_none, Bool.false_eq_true, iff_false, not_or,
          not_and]
        refine ⟨?_, fun _ hkept => hkept mutation hmutation rfl hkind⟩
        rintro ⟨put, hput, hkey, hputs⟩
        rw [hplanned.unique hput hmutation hkey, hkind] at hputs
        cases hputs
    · rw [heq]
      constructor
      · rintro (⟨mutation, hmutation, hkey, -⟩ | ⟨hsome, -⟩)
        · exact absurd hkey (hother mutation hmutation)
        · exact hsome
      · exact fun hsome => .inr ⟨hsome, fun mutation hmutation hkey =>
          absurd hkey (hother mutation hmutation)⟩
  · rcases hcases key with ⟨mutation, hmutation, rfl, heq⟩ | ⟨-, heq⟩
    · obtain rfl := record_eq_some (heq.symm.trans hrecord)
      rfl
    · exact h.key (heq ▸ hrecord)
  · rw [publishes.limits]
    rcases hcases key with ⟨mutation, hmutation, rfl, -⟩ | ⟨-, heq⟩
    · exact (valid.mutations mutation hmutation).key
    · exact h.valid (heq ▸ hrecord)
  · rw [publishes.current]
    rcases hcases key with ⟨mutation, hmutation, rfl, heq⟩ | ⟨-, heq⟩
    · obtain rfl := record_eq_some (heq.symm.trans hrecord)
      exact le_refl _
    · exact (h.revision (heq ▸ hrecord)).trans publishes.increasing.le

/-! ### The allocator's words -/

theorem nextRevision_lt {allocator : RangeAllocator} {reserve : Option (ReserveFunc σ)}
    (h : (allocator.nextRevision reserve world).1 = .ok revision) : revision < 2 ^ 64 := by
  unfold RangeAllocator.nextRevision at h
  split at h
  · cases h
  split at h
  · obtain rfl := Outcome.ok.inj h
    exact allocator.next_lt
  split at h
  · cases h
  split at h
  · cases h
  · cases h
  · split at h
    next hvalid =>
      obtain rfl := Outcome.ok.inj h
      exact hvalid.first_lt
    · cases h

theorem assignedRevision_lt {reserve : Option (ReserveFunc σ)}
    {single : SingleOperation} {faults : ExecuteFaults}
    (h : s.assignedRevision reserve world batch single faults = some revision) :
    revision < 2 ^ 64 := by
  have hallocate : ∀ s : DatabaseState, (s.allocate reserve world).1 = .ok revision →
      revision < 2 ^ 64 := by
    intro s h
    unfold allocate at h
    cases hs : s.allocator with
    | none => simp [hs] at h
    | some allocator =>
      rw [hs] at h
      exact nextRevision_lt h
  unfold assignedRevision prepare at h
  by_cases hlifecycle : s.lifecycle ≠ .ready ∧ s.lifecycle ≠ .draining
  · simp [if_pos hlifecycle] at h
  simp only [if_neg hlifecycle] at h
  cases hvalid : validateBatchAt batch s.limits (s.clock.now faults.source).1 with
  | error e => simp [hvalid] at h
  | ok u =>
    simp only [hvalid] at h
    cases hphase : predicatePhase { s with clock := (s.clock.now faults.source).2 } batch single
        (s.clock.now faults.source).1 faults with
    | error | panic => simp [hphase] at h
    | ok u =>
      simp only [hphase] at h
      have hallocated := hallocate { s with clock := (s.clock.now faults.source).2 }
      generalize allocate { s with clock := (s.clock.now faults.source).2 } reserve world = result
        at h hallocated
      obtain ⟨outcome, s', world'⟩ := result
      cases outcome with
      | error e => cases h
      | panic => cases h
      | ok n =>
        obtain rfl := Option.some.inj h
        exact hallocated rfl

theorem assigned_lt {c : Command σ}
    (h : c.assigned s world = some revision) : revision < 2 ^ 64 := by
  cases c with
  | mutation reserve batch single faults => exact assignedRevision_lt h
  | expiry reserve source faults =>
    simp only [Command.assigned, assignedExpiry] at h
    split at h
    · cases h
    · exact assignedRevision_lt h
  | register | unregister | retire | read | durableAdmin | markAdminDegraded | drain => cases h

theorem published_lt {r : Request σ}
    {frame : CommitFrame} (h : frame ∈ (r.turn s world).published) : frame.revision < 2 ^ 64 := by
  have hframe : (r.turn s world).frame = some frame := by
    unfold Turn.published at h
    split at h
    · cases h
    · exact Option.mem_toList.mp h
  cases r with
  | snapshot | shutdown => cases hframe
  | command c =>
    have hframe : c.frame s world = some frame := hframe
    unfold Command.frame at hframe
    split at hframe
    next revision hbatch hassigned =>
      obtain rfl := Option.some.inj hframe
      exact assigned_lt hassigned
    · cases hframe

theorem Indexed.shows {s' : DatabaseState} (h : s.Indexed) {frames : List CommitFrame}
    (hshows : s.Shows s' frames) (hbound : ∀ frame ∈ frames, frame.revision < 2 ^ 64) :
    s'.Indexed := by
  cases hshows with
  | nothing same keys => exact h.same same keys
  | commit batch single revision now active valid publishes =>
    exact h.publishes ((validateBatchAt_eq_ok h.limits).mp valid)
      (hbound _ List.mem_cons_self) publishes

theorem Indexed.run (h : s.Indexed) (world : σ) (r : Request σ) : (r.run s world).2.1.Indexed :=
  h.shows (r.shows s world).1 fun _ hframe => published_lt hframe

theorem Indexed.live (h : s.Indexed) (world : σ)
    (rs : List (Request σ)) : (live s world rs).2.1.Indexed := by
  induction rs generalizing s world with
  | nil => exact h
  | cons r rs ih => exact ih (h.run world r) _

/-! ### The opened engine -/

theorem checkInitial_eq_ok {current : Nat} {m : RecordMap} {record : Record}
    (h : checkInitial limits current m record = .ok ()) :
    ValidKey limits record.key ∧ (record.revision ≠ 0 ∧ record.revision ≤ current) ∧
      m record.key = none := by
  unfold checkInitial at h
  split at h
  · cases h
  next hkey =>
  simp only [ite_error_eq_ok, not_or, not_lt, and_true, Option.not_isSome_iff_eq_none] at h
  exact ⟨validateKey_eq_ok.mp hkey, h.1, h.2.2.2⟩

/-- Records that are taken over one by one have different keys, all well formed. -/
theorem takeRecords_spec {current : Nat} {records : List Record}
    {m m' : RecordMap} {schedule schedule' : ExpirySchedule}
    (h : takeRecords limits current records m schedule = .ok (m', schedule')) :
    (records.map Record.key).Nodup ∧
      (∀ record ∈ records, ValidKey limits record.key ∧ record.revision ≠ 0 ∧
        record.revision ≤ current) ∧
      (∀ record ∈ records, m record.key = none ∧ m' record.key = some record) ∧
      ∀ key, key ∉ records.map Record.key → m' key = m key := by
  induction records generalizing m schedule with
  | nil =>
    simp only [takeRecords, Except.ok.injEq, Prod.mk.injEq] at h
    simp [h.1]
  | cons record records ih =>
    rw [takeRecords] at h
    split at h
    · cases h
    next hcheck =>
    obtain ⟨hkey, hrevision, hnew⟩ := checkInitial_eq_ok hcheck
    obtain ⟨hnodup, hvalid, hmem, hother⟩ := ih h
    have hfresh : record.key ∉ records.map Record.key := by
      intro hdouble
      obtain ⟨other, hin, heq⟩ := List.mem_map.mp hdouble
      have hnone := (hmem other hin).1
      rw [heq, Function.update_self] at hnone
      cases hnone
    have hrest : ∀ other ∈ records, other.key ≠ record.key :=
      fun other hin heq => hfresh (heq ▸ List.mem_map_of_mem hin)
    refine ⟨List.nodup_cons.mpr ⟨hfresh, hnodup⟩, ?_, ?_, ?_⟩
    · intro other hin
      rcases List.mem_cons.mp hin with rfl | hin
      · exact ⟨hkey, hrevision⟩
      · exact hvalid other hin
    · intro other hin
      rcases List.mem_cons.mp hin with rfl | hin
      · exact ⟨hnew, by rw [hother _ hfresh, Function.update_self]⟩
      · obtain ⟨hnone, hsome⟩ := hmem other hin
        exact ⟨by rwa [Function.update_of_ne (hrest other hin)] at hnone, hsome⟩
    · intro key hnot
      simp only [List.map_cons, List.mem_cons, not_or] at hnot
      rw [hother key hnot.2, Function.update_of_ne hnot.1]

theorem takeRecords_mem {current : Nat} {records : List Record}
    {m : RecordMap} {schedule schedule' : ExpirySchedule}
    (h : takeRecords limits current records (fun _ => none) schedule = .ok (m, schedule'))
    {key : Key} {record : Record} (hrecord : m key = some record) :
    record ∈ records ∧ record.key = key := by
  obtain ⟨-, -, hmem, hother⟩ := takeRecords_spec h
  by_cases hin : key ∈ records.map Record.key
  · obtain ⟨other, hother, rfl⟩ := List.mem_map.mp hin
    rw [(hmem other hother).2, Option.some.injEq] at hrecord
    exact ⟨hrecord ▸ hother, congrArg Record.key hrecord.symm⟩
  · rw [hother key hin] at hrecord
    cases hrecord

/-- An opened engine is indexed. Its revision is a 64-bit word. -/
theorem indexed_of_newState {config : Config} (h : newState config = .ok s)
    (hcurrent : config.currentRevision < 2 ^ 64) : s.Indexed := by
  have hlimits := (opened_of_newState h).limitsValid
  obtain ⟨-, -, records, schedule, history, htake, -, rfl⟩ := newState_eq_ok h
  obtain ⟨hnodup, hvalid, hmem, hother⟩ := takeRecords_spec htake
  have hcases : ∀ {key record}, records key = some record →
      record ∈ config.records ∧ record.key = key := takeRecords_mem htake
  refine
    { limits := hlimits
      current := hcurrent
      lists := ⟨?_, fun key => ?_⟩
      key := fun hrecord => (hcases hrecord).2
      valid := fun hrecord => (hcases hrecord).2 ▸ (hvalid _ (hcases hrecord).1).1
      revision := fun hrecord => (hvalid _ (hcases hrecord).1).2.2 }
  · exact pairwise_insertionSort_of_nodup hnodup
  · rw [List.mem_insertionSort]
    constructor
    · intro hin
      obtain ⟨record, hrecord, rfl⟩ := List.mem_map.mp hin
      exact Option.isSome_iff_exists.mpr ⟨record, (hmem record hrecord).2⟩
    · intro hsome
      obtain ⟨record, hrecord⟩ := Option.isSome_iff_exists.mp hsome
      exact (hcases hrecord).2 ▸ List.mem_map_of_mem (hcases hrecord).1

end DatabaseState

end GapDB
