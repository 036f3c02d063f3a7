import GapDB.Engine.RecoveryReads
import GapDB.Persist.SnapshotCodec
import GapDB.Server.Guarantees

/-!
# What an engine is opened with

Whatever the files of a directory hold, an engine that is opened on them gets a revision that is a
word and records whose expiry is a number of nanoseconds: both were read from fields of 64 bits.
-/

namespace GapDB

open Storelib

variable {limits : Limits}

/-! ### The log -/

/-- What a scan has collected was decoded. -/
structure WALReplay.Decoded (limits : Limits) (result : WALReplay) : Prop where
  commits : ∀ commit ∈ result.commits, commit.Encodable limits
  revision : result.recoveredRevision < 2 ^ 64

theorem scanFrames_decoded {physicalSize reservedEnd : Nat} {rest : Bytes}
    {result replay : WALReplay} (hresult : result.Decoded limits)
    (h : scanFrames physicalSize reservedEnd limits rest result = .ok replay) :
    replay.Decoded limits := by
  -- a frame that was read is not empty, so that the rest gets shorter
  induction hn : rest.length using Nat.strong_induction_on generalizing rest result with
  | _ n ih =>
  rcases scanFrames_eq_ok h with ⟨-, rfl⟩ | ⟨hne, hframing, ⟨-, rfl⟩ | ⟨commit, hreads, hrest⟩⟩
  · exact hresult
  · exact ⟨hresult.commits, hresult.revision⟩
  · obtain ⟨hfits, hbytes⟩ := decodeCommitFrame_eq_ok hreads.decoded
    have hshorter : (rest.drop (declaredLength rest)).length < n := by
      have hsize : 0 < declaredLength rest := by
        have hlength := congrArg List.length hbytes
        rw [commit.bytes_length, List.length_take] at hlength
        have hfull : commit.size = 32 + commit.payloadSize := rfl
        omega
      have hpositive : 0 < rest.length := List.length_pos_of_ne_nil hne
      rw [List.length_drop]
      omega
    refine ih _ hshorter ⟨?_, hfits.revision⟩ hrest rfl
    intro c hc
    rcases List.mem_append.mp hc with hold | hnew
    · exact hresult.commits c hold
    · rw [List.mem_singleton.mp hnew]
      exact hfits

theorem scanWAL_decoded {file : Bytes} {id : DatabaseID} {after reservedEnd : Nat}
    {replay : WALReplay} (hafter : after < 2 ^ 64)
    (h : scanWAL file id after reservedEnd limits = .ok replay) : replay.Decoded limits := by
  obtain ⟨-, header, -, h⟩ := scanWAL_eq_ok h
  exact scanFrames_decoded ⟨by simp, hafter⟩ h

/-! ### The records -/

theorem expiry_of_replayRecords {snapshot : List Record} {commits : List CommitFrame}
    (hsnapshot : ∀ record ∈ snapshot, ∀ t, record.expiresAt = some t → unixNanoRepresentable t)
    (hcommits : ∀ commit ∈ commits, commit.Encodable limits) {key : Key} {record : Record}
    (h : replayRecords snapshot commits key = some record) {t : Time}
    (ht : record.expiresAt = some t) : unixNanoRepresentable t := by
  rw [replayRecords_eq_writeAll] at h
  rcases writeAll_eq_some h with hnone | hwritten
  · cases hnone
  rcases List.mem_append.mp hwritten with hmem | hmem
  · obtain ⟨stored, hstored, heq⟩ := List.mem_map.mp hmem
    obtain rfl := Option.some.inj (Prod.mk.inj heq).2
    exact hsnapshot stored hstored t ht
  · obtain ⟨commit, hcommit, hmem⟩ := List.mem_flatMap.mp hmem
    obtain ⟨effect, heffect, heq⟩ := List.mem_map.mp hmem
    have hpayload := ((hcommits commit hcommit).valid.effects effect heffect).payload
    rw [Effect.write, Prod.mk.injEq] at heq
    obtain ⟨-, heq⟩ := heq
    split at heq
    · next hput =>
      obtain rfl := Option.some.inj heq
      rw [Effect.Payload, hput] at hpayload
      exact hpayload.2 t ht
    · cases heq

/-- An engine opened by a recovery, from any files. -/
theorem recovered_of_recoverRuntime {queueCapacity : Int} {faults : RecoverFaults}
    {disk disk' : Disk} {opened : OpenedRuntime}
    (h : recoverRuntime limits queueCapacity faults disk = (.ok opened, disk')) :
    ∃ config, newState config = .ok opened.engine ∧ config.Recovered := by
  obtain ⟨loaded, allocation, log, hloads, -, -, hengine, -⟩ := recoverRuntime_eq_ok h
  obtain ⟨_, _, -, -, -, -, hdecode⟩ := loadSnapshot_eq_ok hloads.snapshot
  obtain ⟨hencodable, -⟩ := decodeSnapshot_eq_ok hdecode
  have hrevision : loaded.manifest.snapshotRevision < 2 ^ 64 := by
    have hvalid := hloads.valid
    rw [validateSnapshotState, ite_error_eq_ok, not_not] at hvalid
    rw [← hvalid.1]
    exact hencodable.revision
  obtain ⟨tail, hscan, -⟩ := hloads.scan
  obtain ⟨hcommits, hcurrent⟩ := scanWAL_decoded hrevision hscan
  refine ⟨_, hengine, hcurrent, ?_⟩
  · intro record hrecord t ht
    obtain ⟨key, -, hfound⟩ := List.mem_filterMap.mp hrecord
    exact expiry_of_replayRecords (fun record hmem => (hencodable.records record hmem).expiry)
      hcommits hfound ht

theorem newState_of_initializeRuntime {queueCapacity : Int} {faults : InitializeFaults}
    {disk disk' : Disk} {opened : OpenedRuntime}
    (h : initializeRuntime limits queueCapacity faults disk = (.ok opened, disk')) :
    ∃ identity log allocation,
      newState (initialConfig limits queueCapacity identity log allocation)
        = .ok opened.engine := by
  unfold initializeRuntime at h
  split at h
  · cases h
  · cases h
  split at h
  · cases h
  obtain ⟨⟨_, created⟩, -, h⟩ := andStart_eq_ok h
  dsimp only at h
  split at h
  · cases h
  obtain ⟨⟨identity, allocation⟩, -, h⟩ := andStart_eq_ok h
  unfold initializeGeneration at h
  split at h
  · cases h
  obtain ⟨-, -, h⟩ := andStart_eq_ok h
  obtain ⟨log, -, h⟩ := andStart_eq_ok h
  obtain ⟨-, -, h⟩ := andStart_eq_ok h
  exact ⟨identity, log, allocation, (openRuntime_eq_ok h).2.1⟩

/-- The engine of every owner, whether it creates the database or finds one in the files. -/
theorem recovered_of_start {queueCapacity : Int} {faults : StartFaults} {disk disk' : Disk}
    {opened : OpenedRuntime}
    (h : start limits queueCapacity faults disk = (.ok opened, disk')) :
    ∃ config, newState config = .ok opened.engine ∧ config.Recovered := by
  unfold start at h
  split at h
  · cases h
  · cases h
  split at h
  · exact recovered_of_recoverRuntime h
  · obtain ⟨identity, log, allocation, hengine⟩ := newState_of_initializeRuntime h
    -- a new database has no record
    exact ⟨_, hengine, by simp [initialConfig], by simp [initialConfig]⟩

theorem sampleStart_recovers {disk : Disk} (h : (disk.live identityFilename).isSome) :
    start defaultLimits 0 sampleStart disk
      = recoverRuntime defaultLimits 0 sampleStart.recover disk := if_pos h

theorem sampleClosed_identified :
    ((Machine.initial.run defaultLimits 0 sampleClosed).disk.live identityFilename).isSome := by
  decide +kernel

theorem recovered_of_start_sampleClosed : ∃ opened disk' config,
    start defaultLimits 0 sampleStart (Machine.initial.run defaultLimits 0 sampleClosed).disk
      = (.ok opened, disk') ∧
    (opened.engine.records [97]).bind Record.expiresAt = some 1000 ∧
    newState config = .ok opened.engine ∧ config.Recovered := by
  obtain ⟨opened, disk', hok, hexpires⟩ := sampleClosed_recovers
  have hstart : start defaultLimits 0 sampleStart
      (Machine.initial.run defaultLimits 0 sampleClosed).disk = (.ok opened, disk') :=
    (sampleStart_recovers sampleClosed_identified).trans hok
  obtain ⟨config, hconfig⟩ := recovered_of_start hstart
  exact ⟨opened, disk', config, hstart, hexpires, hconfig⟩

end GapDB
