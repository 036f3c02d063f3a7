import GapDB.Engine.Readers
import GapDB.Storelib.Reader
import GapDB.Storelib.Sha256

/-!
# The recovery snapshot on the wire

`gapdb/recovery_snapshot.go`: the binary frame a recovery snapshot travels in. It names the
database, the request, the revision and the instant, then holds the records in the order of their
keys, and ends with a digest of all that.
-/

namespace GapDB

open Storelib

def recoverySnapshotMagic : Bytes := ascii "GDBREC1\n"

def sha256Size : Nat := 32

/-- The engine's result under the identity of the request, which the server adds. -/
structure RecoverySnapshotReply extends RecoverySnapshotResult where
  requestID : Bytes
deriving DecidableEq

/-- `Limits{MaxKeyBytes: HardMaxKeyBytes}`. -/
def recoveryLimits : Limits where
  maxKeyBytes := hardCeilings.maxKeyBytes
  maxValueBytes := 0
  maxFrameBytes := 0
  maxBatchBytes := 0
  maxBatchOperations := 0
  maxScanRecords := 0
  maxScanBytes := 0
  watchBufferEvents := 0
  maxWatchClients := 0
  maxConcurrentClients := 0
  maxHistoryEvents := 0
  maxHistoryBytes := 0

def recoverySnapshotTooLarge (received maximum : Int) : ReadError :=
  .api { code := .frameTooLarge, message := "Recovery snapshot exceeds the requested byte limit.",
         retry := .never, receivedBytes := received.toNat, maximumBytes := maximum.toNat,
         safeActions := [.reduceRequest, .abort] }

/-! ### The encoder -/

/-- An identity that a frame can carry. -/
def IdentityOk (identity : Bytes) : Prop :=
  identity ≠ [] ∧ identity.length ≤ 65535 ∧ validUtf8 identity

instance (identity : Bytes) : Decidable (IdentityOk identity) := by
  unfold IdentityOk
  infer_instance

def recoverySnapshotHeaderBytes (databaseID requestID : Bytes) : Except ReadError Int :=
  let size := recoverySnapshotMagic.length + 2 + databaseID.length + 2 + requestID.length + 8 + 8 +
    4 + sha256Size
  if ¬ IdentityOk databaseID ∨ ¬ IdentityOk requestID then
    .error (.plain "recovery snapshot identity is unbounded")
  else if maxInt < size then .error (.plain "recovery snapshot header is unbounded")
  else .ok size

/-- `writeUint16`. -/
def writeIdentity (payload identity : Bytes) : Except ReadError Bytes :=
  if ¬ IdentityOk identity then .error (.plain "recovery snapshot identity is unbounded")
  else .ok (payload ++ (putUint 2 identity.length ++ identity))

/-- The fields of one record; `expires` are the bits of its expiry field. -/
def recoveryRecordFrame (record : Record) (expires : Nat) : Bytes :=
  putUint 4 record.key.length ++ (record.key ++ (putUint 8 record.revision ++
    (putUint 8 expires ++ (putUint 4 record.value.length ++ record.value))))

/-- The bits the encoder writes for an expiry: -1 stands for none. -/
def expiryBits (expiresAt : Option Time) : Nat := int64Bits ((expiresAt.map unixNano).getD (-1))

/-- The loop over the records, with the key before and the payload so far. -/
def encodeRecoveryRecords (reply : RecoverySnapshotReply) (request : RecoverySnapshotRequest) :
    List Record → Key → Bytes → Except ReadError Bytes
  | [], _, payload => .ok payload
  | record :: records, previous, payload =>
    if record.key = [] ∨ hardCeilings.maxKeyBytes < record.key.length ∨ ¬ validUtf8 record.key ∨
        ¬ previous < record.key ∨ ¬ request.start <+: record.key ∨ record.revision = 0 ∨
        reply.observedRevision < record.revision ∨ request.maxBytes < record.value.length ∨
        2 ^ 32 - 1 < record.value.length then
      .error (.plain "recovery snapshot record is invalid")
    -- the difference is converted to an unsigned word
    else if (request.maxBytes - sha256Size - payload.length) % (2 ^ 64 : Nat)
        < recoveryRecordBytes record then
      .error (recoverySnapshotTooLarge
        (min (payload.length + sha256Size + recoveryRecordBytes record) maxInt) request.maxBytes)
    else if record.expiresAt.any fun t =>
        ¬ unixNanoRepresentable t ∨ unixNano t < 0 ∨ ¬ reply.asOf < t then
      .error (.plain "recovery snapshot expiry is invalid")
    else
      encodeRecoveryRecords reply request records record.key
        (payload ++ recoveryRecordFrame record (expiryBits record.expiresAt))

def encodeRecoverySnapshot (reply : RecoverySnapshotReply) (request : RecoverySnapshotRequest) :
    Except ReadError Bytes :=
  match validateRecoverySnapshotRequest request recoveryLimits with
  | .error e => .error (.api e)
  | .ok () =>
    if reply.observedRevision ≠ request.expectedRevision ∨ reply.asOf = zeroTime ∨
        request.maxRecords < reply.records.length ∨ 2 ^ 32 - 1 < reply.records.length then
      .error (.plain "recovery snapshot identity is incomplete")
    else
      match recoverySnapshotHeaderBytes reply.databaseID reply.requestID with
      | .error e => .error e
      | .ok headerBytes =>
        if request.maxBytes < headerBytes then
          .error (recoverySnapshotTooLarge headerBytes request.maxBytes)
        else if ¬ unixNanoRepresentable reply.asOf then
          .error (.plain "recovery snapshot time is unrepresentable")
        else
          match writeIdentity recoverySnapshotMagic reply.databaseID with
          | .error e => .error e
          | .ok payload =>
            match writeIdentity payload reply.requestID with
            | .error e => .error e
            | .ok payload =>
              let payload := payload ++ (putUint 8 reply.observedRevision ++
                (putUint 8 (int64Bits (unixNano reply.asOf)) ++ putUint 4 reply.records.length))
              if request.maxBytes < payload.length + sha256Size then
                .error (recoverySnapshotTooLarge (payload.length + sha256Size) request.maxBytes)
              else
                match encodeRecoveryRecords reply request reply.records [] payload with
                | .error e => .error e
                | .ok payload => .ok (payload ++ sha256 payload)

/-! ### The decoder -/

/-- `readIdentity` of the decoder. -/
def readFrameIdentity (rest : Bytes) : Except ReadError (Bytes × Bytes) :=
  orFail (.plain "recovery snapshot identity is malformed") (readUint 2 rest) fun (size, rest) =>
  if size = 0 then .error (.plain "recovery snapshot identity is malformed") else
  -- `io.ReadFull` reports a missing first byte in its own way
  orFail (.plain (if rest = [] then "EOF" else "unexpected EOF")) (readFull size rest)
    fun (identity, rest) =>
  if ¬ validUtf8 identity then .error (.plain "recovery snapshot identity is not UTF-8")
  else .ok (identity, rest)

def keyMalformed : ReadError := .plain "recovery snapshot key is malformed"

def recordTruncated : ReadError := .plain "recovery snapshot record is truncated"

/-- One pass of the loop over the records. The sizes are words of 32 bits and never exceed
`maxInt`. -/
def decodeRecoveryRecord (request : RecoverySnapshotRequest) (revision : Nat) (asOf : Time)
    (previous : Key) (rest : Bytes) : Except ReadError (Record × Bytes) :=
  orFail keyMalformed (readUint 4 rest) fun (keySize, rest) =>
  if keySize = 0 ∨ hardCeilings.maxKeyBytes < keySize then .error keyMalformed else
  orFail keyMalformed (readFull keySize rest) fun (key, rest) =>
  if ¬ validUtf8 key then .error keyMalformed else
  orFail recordTruncated (readUint 8 rest) fun (recordRevision, rest) =>
  orFail recordTruncated (readUint 8 rest) fun (expiresNS, rest) =>
  orFail recordTruncated (readUint 4 rest) fun (valueSize, rest) =>
  orFail recordTruncated (readFull valueSize rest) fun (value, rest) =>
  if ¬ previous < key ∨ ¬ request.start <+: key ∨ recordRevision = 0 ∨
      revision < recordRevision then
    .error (.plain "recovery snapshot membership is invalid")
  else if 0 ≤ int64 expiresNS then
    if ¬ asOf < int64 expiresNS then
      .error (.plain "recovery snapshot contains an expired record")
    else .ok (⟨key, value, recordRevision, some (int64 expiresNS)⟩, rest)
  else .ok (⟨key, value, recordRevision, none⟩, rest)

/-- The loop, with the number of records to come and the key before. -/
def decodeRecoveryRecords (request : RecoverySnapshotRequest) (revision : Nat) (asOf : Time) :
    Nat → Key → Bytes → Except ReadError (List Record × Bytes)
  | 0, _, rest => .ok ([], rest)
  | count + 1, previous, rest =>
    match decodeRecoveryRecord request revision asOf previous rest with
    | .error e => .error e
    | .ok (record, rest) =>
      match decodeRecoveryRecords request revision asOf count record.key rest with
      | .error e => .error e
      | .ok (records, rest) => .ok (record :: records, rest)

def headerMalformed : ReadError := .plain "recovery snapshot header is malformed"

/-- The part of the frame between the magic and the digest. -/
def decodeRecoveryBody (expectedRequestID : Bytes) (request : RecoverySnapshotRequest)
    (body : Bytes) : Except ReadError RecoverySnapshotReply :=
  match readFrameIdentity body with
  | .error e => .error e
  | .ok (databaseID, rest) =>
    match readFrameIdentity rest with
    | .error _ => .error (.plain "recovery snapshot request identity differs")
    | .ok (requestID, rest) =>
      if requestID ≠ expectedRequestID then
        .error (.plain "recovery snapshot request identity differs") else
      orFail headerMalformed (readUint 8 rest) fun (revision, rest) =>
      orFail headerMalformed (readUint 8 rest) fun (asOfNS, rest) =>
      orFail headerMalformed (readUint 4 rest) fun (count, rest) =>
      if revision ≠ request.expectedRevision ∨ request.maxRecords < count then
        .error headerMalformed
      else
        match decodeRecoveryRecords request revision (int64 asOfNS) count [] rest with
        | .error e => .error e
        | .ok (records, rest) =>
          if rest.length ≠ 0 ∨ int64 asOfNS = zeroTime then
            .error (.plain ("recovery snapshot has " ++ toString rest.length ++ " trailing bytes"))
          else .ok ⟨⟨databaseID, revision, int64 asOfNS, records⟩, requestID⟩

def decodeRecoverySnapshot (payload expectedRequestID : Bytes) (request : RecoverySnapshotRequest) :
    Except ReadError RecoverySnapshotReply :=
  match validateRecoverySnapshotRequest request recoveryLimits with
  | .error e => .error (.api e)
  | .ok () =>
    if payload.length < recoverySnapshotMagic.length + sha256Size ∨
        request.maxBytes < payload.length ∨ slice payload 0 8 ≠ recoverySnapshotMagic then
      .error (.plain "recovery snapshot frame is invalid")
    else if sha256 (payload.take (payload.length - sha256Size))
        ≠ payload.drop (payload.length - sha256Size) then
      .error (.plain "recovery snapshot digest differs")
    else
      decodeRecoveryBody expectedRequestID request
        (slice payload 8 (payload.length - sha256Size))

end GapDB
