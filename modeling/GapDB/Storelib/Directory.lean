import GapDB.Storelib.BufferedFile
import Mathlib.Data.List.Dedup
import Mathlib.Logic.Function.Basic

/-!
# Directories

A directory maps names to files. Changing an entry takes effect at once for the running system,
but until the directory is synced a power loss may bring back anything the name held before.
Replacing a file goes through a temporary name, so that a crash leaves the old file or the new one.
-/

namespace Storelib

structure Directory (ν : Type) where
  live : ν → Option File
  /-- What the name held since the last sync of the directory, the latest first. -/
  older : ν → List (Option File)
  /-- Names outside this list have never been used. -/
  names : List ν
  covers : ∀ n ∉ names, live n = none ∧ older n = []

namespace Directory

variable {ν : Type}

def empty : Directory ν := ⟨fun _ => none, fun _ => [], [], fun _ _ => ⟨rfl, rfl⟩⟩

/-- Everything a power loss can leave under a name. -/
def possible (d : Directory ν) (n : ν) : List (Option File) := d.live n :: d.older n

theorem live_mem_possible (d : Directory ν) (n : ν) : d.live n ∈ d.possible n :=
  List.mem_cons_self

/-- Sync the directory: which entries there are is settled. -/
def sync (d : Directory ν) : Directory ν where
  live := d.live
  older _ := []
  names := d.names
  covers m hm := ⟨(d.covers m hm).1, rfl⟩

@[simp] theorem live_sync (d : Directory ν) : d.sync.live = d.live := rfl

@[simp] theorem possible_sync (d : Directory ν) (n : ν) : d.sync.possible n = [d.live n] := rfl

/-- A power loss: `pick` says which of its possible entries a name keeps, and how many bytes
beyond the synced ones survive of the file. -/
def survive (d : Directory ν) (pick : ν → Nat × Nat) : Directory ν where
  live n := ((d.possible n).getD (pick n).1 (d.live n)).map fun f => f.cut (pick n).2
  older _ := []
  names := d.names
  covers m hm := by
    have h := d.covers m hm
    refine ⟨?_, rfl⟩
    rw [possible, h.1, h.2]
    cases (pick m).1 <;> simp

/-- What survives is one of the possible entries, cut somewhere beyond what was synced. -/
theorem exists_survive (d : Directory ν) (pick : ν → Nat × Nat) (n : ν) :
    ∃ v ∈ d.possible n, (d.survive pick).live n = v.map fun f => f.cut (pick n).2 := by
  refine ⟨(d.possible n).getD (pick n).1 (d.live n), ?_, rfl⟩
  rw [List.getD_eq_getElem?_getD]
  cases h : (d.possible n)[(pick n).1]? with
  | none => exact d.live_mem_possible n
  | some v => exact List.mem_of_getElem? h

theorem possible_survive (d : Directory ν) (pick : ν → Nat × Nat) (n : ν) :
    (d.survive pick).possible n = [(d.survive pick).live n] := rfl

/-- The two directories agree on a name, also after a crash. -/
def Agree (d d' : Directory ν) (n : ν) : Prop := d'.live n = d.live n ∧ d'.older n = d.older n

theorem Agree.refl (d : Directory ν) (n : ν) : d.Agree d n := ⟨rfl, rfl⟩

theorem Agree.trans {d d' d'' : Directory ν} {n : ν} (h : d.Agree d' n) (h' : d'.Agree d'' n) :
    d.Agree d'' n :=
  ⟨h'.1.trans h.1, h'.2.trans h.2⟩

theorem Agree.possible_eq {d d' : Directory ν} {n : ν} (h : d.Agree d' n) :
    d'.possible n = d.possible n := by
  rw [possible, h.1, h.2, possible]

variable [DecidableEq ν]

/-- The names in use. -/
def readDir (d : Directory ν) : List ν := d.names.dedup.filter fun n => (d.live n).isSome

theorem mem_readDir {d : Directory ν} {n : ν} : n ∈ d.readDir ↔ (d.live n).isSome := by
  rw [readDir, List.mem_filter, List.mem_dedup]
  refine ⟨fun h => h.2, fun h => ⟨?_, h⟩⟩
  by_contra hn
  simp [(d.covers n hn).1] at h

/-- Change an entry: create, replace or remove it. -/
def link (d : Directory ν) (n : ν) (file : Option File) : Directory ν where
  live := Function.update d.live n file
  older := Function.update d.older n (d.possible n)
  names := n :: d.names
  covers m hm := by
    simp only [List.mem_cons, not_or] at hm
    simpa [Function.update_of_ne hm.1] using d.covers m hm.2

/-- Change the contents behind an entry. -/
def store (d : Directory ν) (n : ν) (file : File) : Directory ν where
  live := Function.update d.live n (some file)
  older := d.older
  names := n :: d.names
  covers m hm := by
    simp only [List.mem_cons, not_or] at hm
    simpa [Function.update_of_ne hm.1] using d.covers m hm.2

section

variable (d : Directory ν) {n m : ν} (file : Option File) (f : File)

@[simp] theorem live_link_self : (d.link n file).live n = file := by simp [link]

@[simp] theorem older_link_self : (d.link n file).older n = d.possible n := by simp [link]

theorem agree_link (h : m ≠ n) : d.Agree (d.link n file) m := by
  simp [Agree, link, Function.update_of_ne h]

@[simp] theorem live_store_self : (d.store n f).live n = some f := by simp [store]

@[simp] theorem older_store : (d.store n f).older = d.older := rfl

theorem agree_store (h : m ≠ n) : d.Agree (d.store n f) m := by
  simp [Agree, store, Function.update_of_ne h]

theorem live_store_of_ne (h : m ≠ n) : (d.store n f).live m = d.live m := (agree_store d f h).1

theorem possible_store_self : (d.store n f).possible n = some f :: d.older n := by
  simp [possible]

end

/-! ### Replacing a file -/

end Directory

/-- When an operation breaks off: before it takes effect, part-way, or after it took effect. -/
inductive BreakMode where
  | before
  | during (extent : Nat)
  | after
deriving DecidableEq

inductive ReplaceStage where
  | create | write | sync | close | rename | syncDirectory
deriving DecidableEq

inductive ReplaceEnd where
  | done
  /-- The temporary name was taken. -/
  | occupied
  | broke (stage : ReplaceStage) (mode : BreakMode)
deriving DecidableEq

/-- The new file may already be under its final name. -/
def ReplaceEnd.Applied : ReplaceEnd → Prop
  | .broke .rename .after | .broke .syncDirectory _ => True
  | _ => False

namespace Directory

variable {ν : Type}

/-- Everything a replacement can leave behind. -/
inductive Replaced (d : Directory ν) (temp final : ν) (bytes : Bytes) (e : ReplaceEnd)
    (d' : Directory ν) : Prop where
  | untouched (ne : e ≠ .done) (unapplied : ¬ e.Applied) (agree : ∀ n ≠ temp, d.Agree d' n)
  | renamed (applied : e.Applied) (live : d'.live final = some (.stable bytes))
      (older : d'.older final = d.possible final)
      (agree : ∀ n ≠ temp, n ≠ final → d.Agree d' n)
  | settled (ended : e.Applied ∨ e = .done) (live : d'.live final = some (.stable bytes))
      (others : ∀ n ≠ temp, n ≠ final → d'.live n = d.live n) (older : ∀ n, d'.older n = [])

section

variable {d d' : Directory ν} {temp final : ν} {bytes : Bytes} {e : ReplaceEnd}

/-- Whatever a replacement leaves, a power loss finds the old file or the new one. -/
theorem Replaced.possible_final (h : Replaced d temp final bytes e d') (hne : final ≠ temp) :
    ∀ v ∈ d'.possible final, v = some (.stable bytes) ∨ v ∈ d.possible final := by
  intro v hv
  cases h with
  | untouched ne unapplied agree => exact .inr ((agree final hne).possible_eq ▸ hv)
  | renamed applied live older agree =>
    rw [possible, live, older, List.mem_cons] at hv
    exact hv
  | settled ended live others older =>
    rw [possible, live, older, List.mem_singleton] at hv
    exact .inl hv

/-- Other names can only lose possibilities. -/
theorem Replaced.possible_of_ne (h : Replaced d temp final bytes e d') {n : ν} (htemp : n ≠ temp)
    (hfinal : n ≠ final) : d'.live n = d.live n ∧ ∀ v ∈ d'.possible n, v ∈ d.possible n := by
  cases h with
  | untouched ne unapplied agree =>
    exact ⟨(agree n htemp).1, fun v hv => (agree n htemp).possible_eq ▸ hv⟩
  | renamed applied live older agree =>
    exact ⟨(agree n htemp hfinal).1, fun v hv => (agree n htemp hfinal).possible_eq ▸ hv⟩
  | settled ended live others older =>
    refine ⟨others n htemp hfinal, fun v hv => ?_⟩
    rw [possible, older, others n htemp hfinal, List.mem_singleton] at hv
    exact hv ▸ d.live_mem_possible n

/-- A replacement that succeeded is settled, and so is every other entry. -/
theorem Replaced.of_done (h : Replaced d temp final bytes .done d') :
    d'.live final = some (.stable bytes) ∧
      (∀ n ≠ temp, n ≠ final → d'.live n = d.live n) ∧ ∀ n, d'.older n = [] := by
  cases h with
  | untouched ne => exact absurd rfl ne
  | renamed applied => exact absurd applied (by simp [ReplaceEnd.Applied])
  | settled ended live others older => exact ⟨live, others, older⟩

/-- A replacement that is not reported as applied has touched the temporary name only. -/
theorem Replaced.of_unapplied (h : Replaced d temp final bytes e d') (hne : e ≠ .done)
    (hunapplied : ¬ e.Applied) : ∀ n ≠ temp, d.Agree d' n := by
  cases h with
  | untouched ne unapplied agree => exact agree
  | renamed applied => exact absurd applied hunapplied
  | settled ended => exact absurd ended (by simp [hunapplied, hne])

end

variable [DecidableEq ν]

/-- After the rename of a file that was written under a temporary name. -/
def renamed (d : Directory ν) (temp final : ν) (bytes : Bytes) : Directory ν :=
  (d.link final (some (.stable bytes))).link temp none

/-- Write `bytes` under a new temporary name, sync the file, rename it and sync the directory. -/
def replace (d : Directory ν) (temp final : ν) (bytes : Bytes)
    (fault : Option (ReplaceStage × BreakMode)) : ReplaceEnd × Directory ν :=
  let created := d.link temp (some (.volatile []))
  let written k := created.store temp (.volatile (bytes.take k))
  let synced := created.store temp (.stable bytes)
  if fault = some (.create, .before) then (.broke .create .before, d)
  else if (d.live temp).isSome then (.occupied, d)
  else
    match fault with
    | none => (.done, (synced.renamed temp final bytes).sync)
    | some (stage, mode) => (.broke stage mode,
      match stage, mode with
      | .create, .after | .write, .before => created
      | .create, _ => d
      | .write, .during k => written k
      | .write, .after => written bytes.length
      | .sync, .after | .close, _ => synced
      | .sync, _ => written bytes.length
      | .rename, .after => synced.renamed temp final bytes
      | .rename, _ => synced
      | .syncDirectory, .after => (synced.renamed temp final bytes).sync
      | .syncDirectory, _ => synced.renamed temp final bytes)

theorem replaced_of_renamed {d d' : Directory ν} {temp final : ν} {bytes : Bytes} {e : ReplaceEnd}
    (hne : final ≠ temp) (hagree : ∀ n ≠ temp, d.Agree d' n) (applied : e.Applied) :
    Replaced d temp final bytes e (d'.renamed temp final bytes) ∧
      Replaced d temp final bytes e (d'.renamed temp final bytes).sync ∧
      Replaced d temp final bytes .done (d'.renamed temp final bytes).sync := by
  have hfinal := (d'.link final (some (.stable bytes))).agree_link none hne
  have hlive : (d'.renamed temp final bytes).live final = some (.stable bytes) := by
    rw [Directory.renamed, hfinal.1, live_link_self]
  have hothers : ∀ n ≠ temp, n ≠ final → d.Agree (d'.renamed temp final bytes) n := by
    intro n htemp hn
    exact ((hagree n htemp).trans (d'.agree_link _ hn)).trans (agree_link _ none htemp)
  refine ⟨.renamed applied hlive ?_ hothers, .settled (.inl applied) hlive
    (fun n h h' => (hothers n h h').1) fun _ => rfl, .settled (.inr rfl) hlive
    (fun n h h' => (hothers n h h').1) fun _ => rfl⟩
  rw [Directory.renamed, hfinal.2, older_link_self, (hagree final hne).possible_eq]

theorem replace_cases (d : Directory ν) {temp final : ν} (hne : final ≠ temp) (bytes : Bytes)
    (fault : Option (ReplaceStage × BreakMode)) :
    Replaced d temp final bytes (d.replace temp final bytes fault).1
      (d.replace temp final bytes fault).2 := by
  have hcreated : ∀ n ≠ temp, d.Agree (d.link temp (some (.volatile []))) n :=
    fun n hn => d.agree_link _ hn
  have hstored : ∀ f, ∀ n ≠ temp, d.Agree ((d.link temp (some (.volatile []))).store temp f) n :=
    fun f n hn => (hcreated n hn).trans (agree_store _ f hn)
  have happlied : (ReplaceEnd.broke .rename .after).Applied := trivial
  unfold replace
  simp only
  split
  · exact .untouched (by simp) (by simp [ReplaceEnd.Applied]) fun n _ => .refl d n
  split
  · exact .untouched (by simp) (by simp [ReplaceEnd.Applied]) fun n _ => .refl d n
  cases fault with
  | none => exact (replaced_of_renamed hne (hstored _) happlied).2.2
  | some fault =>
    obtain ⟨stage, mode⟩ := fault
    cases stage with
    | create =>
      cases mode with
      | after => exact .untouched (by simp) (by simp [ReplaceEnd.Applied]) hcreated
      | before | during k =>
        exact .untouched (by simp) (by simp [ReplaceEnd.Applied]) fun n _ => .refl d n
    | write =>
      cases mode with
      | before => exact .untouched (by simp) (by simp [ReplaceEnd.Applied]) hcreated
      | during k | after => exact .untouched (by simp) (by simp [ReplaceEnd.Applied]) (hstored _)
    | sync => cases mode <;> exact .untouched (by simp) (by simp [ReplaceEnd.Applied]) (hstored _)
    | close => exact .untouched (by simp) (by simp [ReplaceEnd.Applied]) (hstored _)
    | rename =>
      cases mode with
      | after => exact (replaced_of_renamed hne (hstored _) happlied).1
      | before | during k =>
        exact .untouched (by simp) (by simp [ReplaceEnd.Applied]) (hstored _)
    | syncDirectory =>
      have hsync : (ReplaceEnd.broke .syncDirectory mode).Applied := by cases mode <;> trivial
      cases mode with
      | after => exact (replaced_of_renamed hne (hstored _) hsync).2.1
      | before | during k => exact (replaced_of_renamed hne (hstored _) hsync).1

/-! ### Creating a file in place -/

end Directory

inductive CreateStage where
  | create | write | sync
deriving DecidableEq

inductive CreateEnd where
  | done
  /-- The name was taken. -/
  | occupied
  | broke (stage : CreateStage) (mode : BreakMode)
deriving DecidableEq

namespace Directory

variable {ν : Type} [DecidableEq ν]

/-- Create a file that must not exist, write `bytes` to it and sync it, but not the directory. -/
def create (d : Directory ν) (name : ν) (bytes : Bytes) (fault : Option (CreateStage × BreakMode)) :
    CreateEnd × Directory ν :=
  let created := d.link name (some (.volatile []))
  let written k := created.store name (.volatile (bytes.take k))
  let synced := created.store name (.stable bytes)
  if fault = some (.create, .before) then (.broke .create .before, d)
  else if (d.live name).isSome then (.occupied, d)
  else
    match fault with
    | none => (.done, synced)
    | some (stage, mode) => (.broke stage mode,
      match stage, mode with
      | .create, .after | .write, .before => created
      | .create, _ => d
      | .write, .during k => written k
      | .write, .after => written bytes.length
      | .sync, .after => synced
      | .sync, _ => written bytes.length)

/-- Creating a file touches no other name. -/
theorem create_agree (d : Directory ν) (name : ν) (bytes : Bytes)
    (fault : Option (CreateStage × BreakMode)) {n : ν} (hn : n ≠ name) :
    d.Agree (d.create name bytes fault).2 n := by
  have hcreated : d.Agree (d.link name (some (.volatile []))) n := d.agree_link _ hn
  have hstored : ∀ f, d.Agree ((d.link name (some (.volatile []))).store name f) n :=
    fun f => hcreated.trans (agree_store _ f hn)
  unfold create
  simp only
  split
  · exact .refl d n
  split
  · exact .refl d n
  cases fault with
  | none => exact hstored _
  | some fault =>
    obtain ⟨stage, mode⟩ := fault
    cases stage with
    | create =>
      cases mode with
      | after => exact hcreated
      | before | during k => exact .refl d n
    | write =>
      cases mode with
      | before => exact hcreated
      | during k | after => exact hstored _
    | sync => cases mode <;> exact hstored _

/-- A file that was created did not exist, and a power loss keeps it or forgets it. -/
theorem create_done {d d' : Directory ν} {name : ν} {bytes : Bytes}
    {fault : Option (CreateStage × BreakMode)} (h : d.create name bytes fault = (.done, d')) :
    d.live name = none ∧ d'.live name = some (.stable bytes) ∧ d'.older name = d.possible name := by
  unfold create at h
  simp only at h
  split at h
  · cases h
  split at h
  · cases h
  next hnone =>
  cases fault with
  | some fault => cases h
  | none =>
    obtain rfl : _ = d' := congrArg Prod.snd h
    exact ⟨by simpa using hnone, by simp, by simp⟩

end Directory

end Storelib
