import GapDB.Engine.Index
import GapDB.Engine.Pages
import GapDB.Storelib.Lex

/-!
# What a page holds

A page is the next part of the records that match and are live at its instant, and its cursor says
where the part after it begins.
-/

namespace GapDB

open Storelib DatabaseState

variable {record : Record} {keys : List Key}

variable {s : DatabaseState} {start : Bytes} {asOf : Time} {limit : Int}

/-! ### The cursor -/

/-- A cursor that the decoder accepts. -/
structure ScanCursor.Encodable (limits : Limits) (cursor : ScanCursor) : Prop where
  start : validUtf8 cursor.start ∧ cursor.start.length ≤ limits.maxKeyBytes
  lastKey : ValidKey limits cursor.lastKey
  matching : cursor.start <+: cursor.lastKey
  revision : cursor.revision < 2 ^ 64
  asOf : unixNanoRepresentable cursor.asOf

namespace ScanCursor

variable (id : DatabaseID) (cursor : ScanCursor)

theorem body_length :
    (cursor.body id).length = 48 + cursor.start.length + cursor.lastKey.length := by
  have hmagic : scanCursorMagic.length = 8 := by decide
  simp only [body, List.length_append, putUint_length, hmagic, id.size]
  omega

/-- What the decoder reads. -/
structure Fields (bs : Bytes) : Prop where
  length : bs.length = 52 + cursor.start.length + cursor.lastKey.length
  magic : slice bs 0 8 = scanCursorMagic
  id : slice bs 8 24 = id.bytes
  revision : uint (slice bs 24 32) = cursor.revision
  asOf : uint (slice bs 32 40) = int64Bits (unixNano cursor.asOf)
  prefixBytes : uint (slice bs 40 44) = cursor.start.length
  lastBytes : uint (slice bs 44 48) = cursor.lastKey.length
  start : slice bs 48 (48 + cursor.start.length) = cursor.start
  lastKey : slice bs (48 + cursor.start.length) (bs.length - 4) = cursor.lastKey
  crc : crc32c (slice bs 0 (bs.length - 4)) = uint (slice bs (bs.length - 4) bs.length)

variable {cursor}

theorem fields {limits : Limits} (hl : limits.Valid) (h : cursor.Encodable limits) :
    Fields id cursor (cursor.body id ++ putUint 4 (crc32c (cursor.body id))) := by
  have hbody := body_length id cursor
  have hmagic : scanCursorMagic.length = 8 := by decide
  have hsize := id.size
  have hkeys := hl.keyBytes
  have hstart : cursor.start.length < 256 ^ 4 := by have := h.start.2; omega
  have hlast : cursor.lastKey.length < 256 ^ 4 := by have := h.lastKey.length; omega
  have hlength : (cursor.body id ++ putUint 4 (crc32c (cursor.body id))).length
      = 52 + cursor.start.length + cursor.lastKey.length := by
    rw [List.length_append, hbody, putUint_length]
    omega
  have hfield : ∀ i j, j ≤ 48 + cursor.start.length + cursor.lastKey.length →
      slice (cursor.body id ++ putUint 4 (crc32c (cursor.body id))) i j
        = slice (cursor.body id) i j := by
    intro i j hj
    rw [slice_append_left _ _ _ _ (by omega)]
  obtain ⟨head, hhead, hsplit⟩ : ∃ head : Bytes, head.length = 48 ∧
      cursor.body id = head ++ (cursor.start ++ cursor.lastKey) :=
    ⟨scanCursorMagic ++ (id.bytes ++ (putUint 8 cursor.revision ++
      (putUint 8 (int64Bits (unixNano cursor.asOf)) ++ (putUint 4 cursor.start.length ++
        putUint 4 cursor.lastKey.length)))), by simp [hmagic, hsize], by simp [body]⟩
  have hend : 52 + cursor.start.length + cursor.lastKey.length - 4 = (cursor.body id).length := by
    omega
  constructor
  · exact hlength
  · rw [hfield _ _ (by omega), body, slice_append_exact _ _ _ hmagic]
  · rw [hfield _ _ (by omega)]
    simp [body, slice_append_right, slice_append_exact, hmagic, hsize]
  · rw [hfield _ _ (by omega)]
    simp [body, slice_append_right, slice_append_exact, hmagic, hsize,
      uint_putUint (w := 8) (by simpa using h.revision)]
  · rw [hfield _ _ (by omega)]
    simp [body, slice_append_right, slice_append_exact, hmagic, hsize,
      uint_putUint (int64Bits_lt _)]
  · rw [hfield _ _ (by omega)]
    simp [body, slice_append_right, slice_append_exact, hmagic, hsize, uint_putUint hstart]
  · rw [hfield _ _ (by omega)]
    simp [body, slice_append_right, slice_append_exact, hmagic, hsize, uint_putUint hlast]
  · rw [hfield _ _ (by omega), hsplit, slice_append_right _ _ _ _ hhead.le, hhead, Nat.sub_self]
    exact slice_append_exact _ _ _ (by omega)
  · rw [hlength, hend, hfield _ _ (by omega), hbody, hsplit,
      slice_append_right _ _ _ _ (by omega), slice_append_right _ _ _ _ (by omega), hhead]
    have hbegin : 48 + cursor.start.length - 48 - cursor.start.length = 0 := by omega
    rw [hbegin]
    exact slice_exact _ _ (by omega)
  · rw [hlength, hend, hfield _ _ (by omega), slice_exact _ _ rfl,
      slice_append_right _ _ _ _ le_rfl, Nat.sub_self, slice_exact _ _ (by simp; omega),
      uint_putUint (crc32c_lt _)]

/-- A decoder reads back the cursor that was encoded. -/
theorem decode_encode {limits : Limits} (hl : limits.Valid) (h : cursor.Encodable limits) :
    decodeScanCursor id limits (encodeScanCursor id cursor) = .ok cursor := by
  have f := fields id hl h
  have hstart := h.start
  have hlast := h.lastKey
  have hbound : base64Length (52 + cursor.start.length + cursor.lastKey.length)
      ≤ base64Length (52 + 2 * limits.maxKeyBytes) :=
    base64Length_mono (by have := hlast.length; omega)
  have hread : readScanCursor id limits (cursor.body id ++ putUint 4 (crc32c (cursor.body id)))
      = .ok cursor := by
    have hkey := f.lastKey
    have hcrc := f.crc
    simp only [f.length] at hkey hcrc
    simp only [readScanCursor, f.length, f.magic, f.id, f.revision, f.asOf, f.prefixBytes,
      f.lastBytes, f.start, hkey, hcrc, scanCursorFixedBytes, int64_int64Bits h.asOf]
    simp [hstart.1, hstart.2, hlast.utf8, hlast.length, hlast.nonempty, h.matching, h.asOf]
  rw [decodeScanCursor, encodeScanCursor, base64Encode_length, f.length, base64Decode_encode]
  simp only [scanCursorFixedBytes, f.length, ne_eq, not_true_eq_false, or_false, hread]
  rw [if_neg (by omega), if_neg (by have := hlast.length; omega)]

end ScanCursor

/-! ### One page -/

namespace DatabaseState

/-- The records under `keys` that match and are live. -/
def liveMatches (s : DatabaseState) (start : Bytes) (asOf : Time) (keys : List Key) :
    List Record :=
  (keys.filter fun key => start <+: key).filterMap (s.records.visible asOf)

/-- Everything that a scan should return. -/
def matching (s : DatabaseState) (start : Bytes) (asOf : Time) : List Record :=
  s.liveMatches start asOf s.orderedKeys.keys

/-- How the loop over the index ends when `records` are on the page already and `rest` are still to
come. -/
inductive PageEnds (s : DatabaseState) (records rest : List Record) :
    Except Error (List Record × Bool) → Prop where
  | whole : PageEnds s records rest (.ok (records ++ rest, false))
  | part (page next : List Record) (split : rest = page ++ next) (page_ne : records ++ page ≠ [])
      (next_ne : next ≠ []) : PageEnds s records rest (.ok (records ++ page, true))
  | tooLarge (record : Record) (next : List Record) (empty : records = [])
      (first : rest = record :: next)
      (large : s.limits.maxScanBytes < scanRecordBytes record) :
      PageEnds s records rest
        (.error (scanRecordTooLarge (scanRecordBytes record) s.limits.maxScanBytes))

section

variable {records rest : List Record}
  {result : Except Error (List Record × Bool)}

theorem PageEnds.done (h : rest = []) : s.PageEnds records rest (.ok (records, false)) := by
  have hwhole : s.PageEnds records rest (.ok (records ++ rest, false)) := .whole
  rwa [h, List.append_nil, ← h] at hwhole

theorem PageEnds.cons (h : s.PageEnds (records ++ [record]) rest result) :
    s.PageEnds records (record :: rest) result := by
  cases h with
  | whole =>
    rw [List.append_assoc]
    exact .whole
  | part page next split page_ne next_ne =>
    rw [List.append_assoc]
    exact .part (record :: page) next (by rw [split]; rfl) (by simp) next_ne
  | tooLarge other next empty first large => simp at empty

end

theorem liveMatches_cons {key : Key}
    (hkey : start <+: key) (hrecord : s.records key = some record) :
    s.liveMatches start asOf (key :: keys)
      = if recordExpired record asOf then s.liveMatches start asOf keys
        else record :: s.liveMatches start asOf keys := by
  have hvisible : s.records.visible asOf key
      = if recordExpired record asOf then none else some record := by
    cases hexpired : recordExpired record asOf <;>
      simp [RecordMap.visible, hrecord, Option.filter, hexpired]
  rw [liveMatches, List.filter_cons_of_pos (by simpa using hkey), List.filterMap_cons, hvisible]
  cases recordExpired record asOf <;> rfl

theorem liveMatches_eq_nil {key : Key}
    (hkey : ¬ start <+: key) (hmatch : (key :: keys).takeWhile (fun key => start <+: key)
      = (key :: keys).filter fun key => start <+: key) :
    s.liveMatches start asOf (key :: keys) = [] := by
  rw [List.takeWhile_cons_of_neg (by simpa using hkey), eq_comm] at hmatch
  rw [liveMatches, hmatch]
  rfl

theorem scanKeys_ends (hlimit : 0 < limit)
    (asOf : Time) (hpresent : ∀ key ∈ keys, (s.records key).isSome)
    (hmatch : keys.takeWhile (fun key => start <+: key) = keys.filter fun key => start <+: key)
    {records : List Record} {used : Nat} (hused : records = [] → used = 0) :
    s.PageEnds records (s.liveMatches start asOf keys)
      (s.scanKeys start limit asOf keys records used) := by
  induction keys generalizing records used with
  | nil => exact .done rfl
  | cons key keys ih =>
    rw [scanKeys]
    by_cases hkey : start <+: key
    · rw [List.takeWhile_cons_of_pos (by simpa using hkey),
        List.filter_cons_of_pos (by simpa using hkey), List.cons.injEq] at hmatch
      obtain ⟨record, hrecord⟩ := Option.isSome_iff_exists.mp (hpresent key List.mem_cons_self)
      have hrest : ∀ {records : List Record} {used : Nat}, (records = [] → used = 0) →
          s.PageEnds records (s.liveMatches start asOf keys)
            (s.scanKeys start limit asOf keys records used) :=
        fun h => ih (fun key hmem => hpresent key (List.mem_cons_of_mem _ hmem)) hmatch.2 h
      rw [if_neg (not_not.mpr hkey), hrecord, liveMatches_cons hkey hrecord]
      simp only
      by_cases hexpired : recordExpired record asOf = true
      · rw [if_pos hexpired, if_pos hexpired]
        exact hrest hused
      rw [if_neg hexpired, if_neg hexpired]
      by_cases hfull : records.length = limit ∨
          s.limits.maxScanBytes < used + scanRecordBytes record
      · rw [if_pos hfull]
        by_cases hempty : records = []
        · rw [if_pos hempty]
          refine .tooLarge record _ hempty rfl ?_
          -- an empty page is full only for want of bytes
          rcases hfull with hcount | hbytes
          · simp [hempty] at hcount
            omega
          · rwa [hused hempty, Nat.zero_add] at hbytes
        · rw [if_neg hempty]
          have hpart : s.PageEnds records (record :: s.liveMatches start asOf keys)
              (.ok (records ++ [], true)) :=
            .part [] _ rfl (by simpa using hempty) (List.cons_ne_nil _ _)
          rwa [List.append_nil] at hpart
      · rw [if_neg hfull]
        exact (hrest fun h => by simp at h).cons
    · rw [if_pos hkey]
      exact .done (liveMatches_eq_nil hkey hmatch)

/-! ### Where a page starts -/

/-- Nothing before the prefix matches it. -/
theorem matching_eq (s : DatabaseState) (start : Bytes) (asOf : Time) :
    s.matching start asOf
      = s.liveMatches start asOf (s.orderedKeys.keys.filter fun key => start ≤ key) := by
  rw [matching, liveMatches, liveMatches, List.filter_filter]
  congr 1
  refine List.filter_congr fun key _ => ?_
  by_cases hstart : start <+: key
  · simp [hstart, le_of_isPrefix hstart]
  · simp [hstart]

section

variable (h : s.Indexed)

include h

theorem Indexed.visible_key {key : Key}
    (hvisible : s.records.visible asOf key = some record) : record.key = key :=
  h.key (Option.eq_some_of_filter_eq_some hvisible)

theorem Indexed.mem_matching : record ∈ s.matching start asOf ↔
      s.records record.key = some record ∧ start <+: record.key ∧
        recordExpired record asOf = false := by
  simp only [matching, liveMatches, List.mem_filterMap, List.mem_filter, decide_eq_true_eq]
  constructor
  · rintro ⟨key, ⟨-, hstart⟩, hvisible⟩
    obtain rfl := h.visible_key hvisible
    obtain ⟨hrecord, hlive⟩ := Option.filter_eq_some_iff.mp hvisible
    exact ⟨hrecord, hstart, by simpa using hlive⟩
  · rintro ⟨hrecord, hstart, hlive⟩
    refine ⟨record.key, ⟨(h.lists.mem _).mpr (by rw [hrecord]; rfl), hstart⟩, ?_⟩
    exact Option.filter_eq_some_iff.mpr ⟨hrecord, by simpa using hlive⟩

theorem Indexed.matching_sorted :
    (s.matching start asOf).Pairwise fun a b => a.key < b.key := by
  refine List.Pairwise.filterMap _ ?_ (h.lists.sorted.filter _)
  intro a b hab r hr r' hr'
  rw [h.visible_key hr, h.visible_key hr']
  exact hab

/-- The index from the first key with the property `p` on, and what a loop over it relies on. -/
theorem Indexed.keys_drop (p : Key → Bool) (hup : ∀ a b, a < b → p a = true → p b = true)
    (hafter : ∀ key, p key = true → start ≤ key) :
    s.orderedKeys.keys.drop (s.orderedKeys.keys.findIdx p) = s.orderedKeys.keys.filter p ∧
      (∀ key ∈ s.orderedKeys.keys.filter p, (s.records key).isSome) ∧
      (s.orderedKeys.keys.filter p).takeWhile (fun key => start <+: key)
        = (s.orderedKeys.keys.filter p).filter fun key => start <+: key := by
  refine ⟨drop_findIdx_eq_filter h.lists.sorted hup, fun key hkey => ?_, ?_⟩
  · exact (h.lists.mem key).mp (List.mem_filter.mp hkey).1
  · refine takeWhile_eq_filter (h.lists.sorted.filter p) fun a ha b _ hab hb => ?_
    rw [decide_eq_true_eq] at hb ⊢
    exact isPrefix_between (hafter a (List.mem_filter.mp ha).2) hab.le hb

theorem Indexed.keys_from (p : Key → Bool) (hup : ∀ a b, a < b → p a = true → p b = true)
    (hafter : ∀ key, p key = true → start ≤ key) (hlimit : 0 < limit) :
    s.PageEnds [] (s.liveMatches start asOf (s.orderedKeys.keys.filter p))
      (s.scanKeys start limit asOf (s.orderedKeys.keys.drop (s.orderedKeys.keys.findIdx p))
        [] 0) := by
  obtain ⟨hdrop, hpresent, hmatch⟩ := h.keys_drop p hup hafter
  rw [hdrop]
  exact scanKeys_ends hlimit asOf hpresent hmatch fun _ => rfl

theorem Indexed.firstPage_ends (hlimit : 0 < limit) : s.PageEnds [] (s.matching start asOf)
      (s.scanKeys start limit asOf
        (s.orderedKeys.keys.drop (s.orderedKeys.keys.findIdx fun key => start ≤ key)) [] 0) := by
  rw [matching_eq]
  refine h.keys_from _ (fun a b hab ha => ?_) (fun key hkey => of_decide_eq_true hkey) hlimit
  rw [decide_eq_true_eq] at ha ⊢
  exact ha.trans hab.le

theorem Indexed.nextPage_ends {lastKey : Key} (hstart : start <+: lastKey) (hlimit : 0 < limit) :
    s.PageEnds [] ((s.matching start asOf).filter fun record => lastKey < record.key)
      (s.scanKeys start limit asOf
        (s.orderedKeys.keys.drop (s.orderedKeys.keys.findIdx fun key => lastKey < key)) [] 0) := by
  have hrest : (s.matching start asOf).filter (fun record => lastKey < record.key)
      = s.liveMatches start asOf (s.orderedKeys.keys.filter fun key => lastKey < key) := by
    rw [matching, liveMatches, liveMatches, List.filter_filterMap, List.filter_comm]
    conv_rhs => rw [List.filterMap_filter]
    refine List.filterMap_congr fun key _ => ?_
    cases hvisible : s.records.visible asOf key with
    | none => simp
    | some record => simp [Option.filter, h.visible_key hvisible]
  rw [hrest]
  refine h.keys_from _ (fun a b hab ha => ?_) (fun key hkey => ?_) hlimit
  · rw [decide_eq_true_eq] at ha ⊢
    exact ha.trans hab
  · exact (le_of_isPrefix hstart).trans (of_decide_eq_true hkey : lastKey < key).le

end

/-- What a page holds when `rest` are the records from its start on. -/
inductive ReadsPage (s : DatabaseState) (start : Bytes) (asOf : Time) (rest : List Record) :
    Except Error ScanPage → Prop where
  | whole (page : ScanPage) (truncated : page.truncated = false) (records : page.records = rest)
      (observed : page.observedRevision = s.current) (time : page.asOf = asOf) :
      ReadsPage s start asOf rest (.ok page)
  | part (page : ScanPage) (last : Record) (next : List Record) (truncated : page.truncated = true)
      (split : rest = page.records ++ next) (lastRecord : page.records.getLast? = some last)
      (cursor : page.cursor = encodeScanCursor s.databaseID ⟨start, last.key, s.current, asOf⟩)
      (observed : page.observedRevision = s.current) (time : page.asOf = asOf) :
      ReadsPage s start asOf rest (.ok page)
  | tooLarge (record : Record) (mem : record ∈ rest)
      (large : s.limits.maxScanBytes < scanRecordBytes record) :
      ReadsPage s start asOf rest
        (.error (scanRecordTooLarge (scanRecordBytes record) s.limits.maxScanBytes))

theorem readPage_reads
    {rest : List Record} (h : s.PageEnds [] rest (s.scanKeys start limit asOf keys [] 0)) :
    s.ReadsPage start asOf rest (s.readPage start limit asOf keys) := by
  unfold readPage
  generalize s.scanKeys start limit asOf keys [] 0 = result at h
  cases h with
  | whole => exact .whole _ rfl rfl rfl rfl
  | part page next split page_ne next_ne =>
    have hpage : page ≠ [] := page_ne
    obtain ⟨last, hlast⟩ : ∃ last, page.getLast? = some last :=
      ⟨_, List.getLast?_eq_some_getLast hpage⟩
    refine .part _ last next rfl split hlast ?_ rfl rfl
    simp only [List.nil_append, hlast, if_true, Option.map_some, Option.getD_some]
  | tooLarge record next empty first large =>
    exact .tooLarge record (by rw [first]; exact List.mem_cons_self) large

section

variable (hstart : validatePrefix start s.limits = .ok ())
  (hlimit : 0 < limit ∧ limit ≤ s.limits.maxScanRecords) (source : Time)

include hstart hlimit

theorem openScan_first : s.openScan start limit [] = .ok none := by
  unfold openScan
  rw [hstart]
  simp only
  rw [if_neg (by omega)]
  rfl

theorem openScan_next (hl : s.limits.Valid) {cursor : ScanCursor}
    (hcursor : cursor.Encodable s.limits) (heq : cursor.start = start) :
    s.openScan start limit (encodeScanCursor s.databaseID cursor) = .ok (some cursor) := by
  have hne : encodeScanCursor s.databaseID cursor ≠ [] := by
    intro hempty
    have hlength := congrArg List.length hempty
    rw [encodeScanCursor, base64Encode_length, (ScanCursor.fields s.databaseID hl hcursor).length,
      List.length_nil, base64Length] at hlength
    omega
  unfold openScan
  rw [hstart]
  simp only
  rw [if_neg (by omega), if_neg hne, ScanCursor.decode_encode s.databaseID hl hcursor]
  simp [heq]

theorem scanPrefix_first :
    s.scanPrefix start limit [] source
      = (s.scanAt start limit (s.clock.now source).1 none,
          { s with clock := (s.clock.now source).2 }) := by
  rw [scanPrefix, openScan_first hstart hlimit]

theorem scanPrefix_next (hl : s.limits.Valid) {cursor : ScanCursor}
    (hcursor : cursor.Encodable s.limits) (heq : cursor.start = start) :
    s.scanPrefix start limit (encodeScanCursor s.databaseID cursor) source
      = (s.scanAt start limit (s.clock.now source).1 (some cursor),
          { s with clock := (s.clock.now source).2 }) := by
  rw [scanPrefix, openScan_next hstart hlimit hl hcursor heq]

end

/-! ### The index under the lock -/

theorem scanKeys_not_internal
    (hpresent : ∀ key ∈ keys, (s.records key).isSome) {records : List Record}
    {used : Nat} {e : Error} (h : s.scanKeys start limit asOf keys records used = .error e) :
    e.code ≠ .internal := by
  induction keys generalizing records used with
  | nil => cases h
  | cons key keys ih =>
    obtain ⟨record, hrecord⟩ := Option.isSome_iff_exists.mp (hpresent key List.mem_cons_self)
    have hrest := fun {records : List Record} {used : Nat} =>
      @ih (fun key hmem => hpresent key (List.mem_cons_of_mem _ hmem)) records used
    rw [scanKeys, hrecord] at h
    split at h
    · cases h
    simp only at h
    split at h
    · exact hrest h
    split at h
    · split at h
      · cases h
        simp [scanRecordTooLarge]
      · cases h
    · exact hrest h

/-- A reader that finds a key in the index finds its record. -/
theorem Indexed.scanAt_not_internal (h : s.Indexed)
    {now : Time} {cursor : Option ScanCursor} {e : Error}
    (herror : s.scanAt start limit now cursor = .error e) : e.code ≠ .internal := by
  have hread : ∀ {asOf : Time} {n : Nat},
      s.readPage start limit asOf (s.orderedKeys.keys.drop n) = .error e → e.code ≠ .internal := by
    intro asOf n hpage
    unfold readPage at hpage
    split at hpage
    · next hscan =>
      cases hpage
      exact scanKeys_not_internal
        (fun key hmem => (h.lists.mem key).mp (List.mem_of_mem_drop hmem)) hscan
    · cases hpage
  unfold scanAt at herror
  split at herror
  · exact hread herror
  · split at herror
    · cases herror
      simp [scanStale]
    · exact hread herror

end DatabaseState

open DatabaseState

/-- The ordered index is exact: in every reachable state it lists the keys of the records in
increasing order, and a request replaces index and records together or leaves both, so that a reader
who holds the lock never misses the record of a key it finds. Each plan for a batch, whichever the
capacity and the keys call for, gives the sorted key set after it. -/
theorem ordered_index_exact {σ : Type} {config : Config} {s₀ s : DatabaseState}
    (hopen : newState config = .ok s₀) (hcurrent : config.currentRevision < 2 ^ 64)
    {world₀ world : σ} {rs : List (Request σ)} (hreached : (live s₀ world₀ rs).2 = (s, world)) :
    (s.orderedKeys.keys.Pairwise (· < ·) ∧
      ∀ key, key ∈ s.orderedKeys.keys ↔ (s.records key).isSome) ∧
    (∀ (slice : KeySlice) (mutations : List Mutation), slice.keys.Pairwise (· < ·) →
      Planned mutations →
      (slice.adopt (planOrderedKeys slice mutations)).keys = sortedAfter slice.keys mutations ∧
        (mergeOrderedKeyDelta slice.keys mutations).keys = sortedAfter slice.keys mutations) ∧
    (∀ r : Request σ,
      ((r.run s world).2.1.records = s.records ∧
          (r.run s world).2.1.orderedKeys = s.orderedKeys) ∨
        ∃ batch single revision durableThrough, Planned batch.mutations ∧
          (r.run s world).2.1.records
            = (s.publish batch single revision durableThrough).1.records ∧
          (r.run s world).2.1.orderedKeys
            = (s.publish batch single revision durableThrough).1.orderedKeys) ∧
    ∀ start limit now cursor e, s.scanAt start limit now cursor = .error e →
      e.code ≠ .internal := by
  have hindexed : s.Indexed := by
    have h := (indexed_of_newState hopen hcurrent).live world₀ rs
    rwa [hreached] at h
  refine ⟨⟨hindexed.lists.sorted, hindexed.lists.mem⟩, ?_, ?_, ?_⟩
  · intro slice mutations hsorted hplanned
    have hafter := sortedAfter_lists slice.keys mutations
    exact ⟨(planOrderedKeys_lists hsorted hplanned).unique hafter,
      (mergeOrderedKeyDelta_lists hsorted hplanned).unique hafter⟩
  · intro r
    have hshows := (r.shows s world).1
    cases hpublished : (r.turn s world).published with
    | nil =>
      rw [hpublished] at hshows
      cases hshows with
      | nothing same keys => exact .inl ⟨same.records, keys⟩
    | cons frame frames =>
      rw [hpublished] at hshows
      cases hshows with
      | commit batch single revision now active valid publishes =>
        refine .inr ⟨batch, single, revision, 0,
          planned_of_valid ((validateBatchAt_eq_ok hindexed.limits).mp valid), ?_, publishes.keys⟩
        rw [publishes.records, publish, applyAll_eq]
        rfl
  · exact fun start limit now cursor e => hindexed.scanAt_not_internal

/-- Two puts out of order, and a delete. -/
def sampleKeyedPuts : List (Request Unit) :=
  [.command (.mutation none ⟨.memory, [], [newPutMutation [98] [1] ⟨.any, 0⟩ none]⟩ .put
      { source := 0 }),
    .command (.mutation none ⟨.memory, [], [newPutMutation [97] [2] ⟨.any, 0⟩ none,
      newPutMutation [99] [3] ⟨.any, 0⟩ none]⟩ .batch { source := 0 }),
    .command (.mutation none ⟨.memory, [], [newDeleteMutation [98] 1]⟩ .deleteIfRevision
      { source := 0 })]

theorem ordered_index_exact_sampleKeyedPuts :
    ∃ s₀, newState (newDatabase sampleID defaultLimits) = .ok s₀ ∧
      (live s₀ () sampleKeyedPuts).2.1.orderedKeys.keys = [[97], [99]] ∧
      ∀ key, key ∈ (live s₀ () sampleKeyedPuts).2.1.orderedKeys.keys ↔
        ((live s₀ () sampleKeyedPuts).2.1.records key).isSome := by
  refine ⟨_, rfl, by decide +kernel, ?_⟩
  exact (@ordered_index_exact _ (newDatabase sampleID defaultLimits) _ _ rfl (by decide) _ _ _
    rfl).1.2

end GapDB
