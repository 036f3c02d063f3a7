import GapDB.Storelib.Bytes

/-!
# Files behind a write buffer

A file knows how much of it a successful sync has covered. A writer in front of it holds
bytes that it has accepted and not yet emitted; it emits them in order, so file and buffer
together are the stream of accepted bytes.
-/

namespace Storelib

/-- The bytes of a file, of which the first `synced` are on stable storage. -/
structure File where
  bytes : Bytes
  synced : Nat
  synced_le : synced ≤ bytes.length
deriving DecidableEq

namespace File

/-- A file that was written and synced as a whole. -/
def stable (bs : Bytes) : File := ⟨bs, bs.length, le_rfl⟩

/-- A file nothing of which is on stable storage. -/
def volatile (bs : Bytes) : File := ⟨bs, 0, Nat.zero_le _⟩

def append (f : File) (bs : Bytes) : File :=
  ⟨f.bytes ++ bs, f.synced, by simpa using f.synced_le.trans (Nat.le_add_right _ _)⟩

def sync (f : File) : File := stable f.bytes

def truncate (f : File) (n : Nat) : File :=
  ⟨f.bytes.take n, min f.synced n, by
    have := f.synced_le
    simp only [List.length_take]
    omega⟩

/-- A crash keeps what was synced and cuts the rest anywhere. -/
def Survives (f : File) (bs : Bytes) : Prop := bs <+: f.bytes ∧ f.synced ≤ bs.length

/-- The surviving file if the crash cuts it after `keep` bytes. -/
def cut (f : File) (keep : Nat) : File := stable (f.bytes.take (max f.synced keep))

theorem survives_cut (f : File) (keep : Nat) : f.Survives (f.cut keep).bytes := by
  refine ⟨List.take_prefix _ _, ?_⟩
  have := f.synced_le
  simp only [cut, stable, List.length_take]
  omega

end File

structure BufferedFile where
  file : File
  buffer : Bytes := []
deriving DecidableEq

namespace BufferedFile

/-- Everything accepted so far. -/
def stream (b : BufferedFile) : Bytes := b.file.bytes ++ b.buffer

def accept (b : BufferedFile) (bs : Bytes) : BufferedFile := { b with buffer := b.buffer ++ bs }

/-- Hand the first `n` buffered bytes to the file. -/
def emit (b : BufferedFile) (n : Nat) : BufferedFile :=
  ⟨b.file.append (b.buffer.take n), b.buffer.drop n⟩

def flush (b : BufferedFile) : BufferedFile := b.emit b.buffer.length

def sync (b : BufferedFile) : BufferedFile := { b with file := b.file.sync }

@[simp] theorem stream_accept (b : BufferedFile) (bs : Bytes) :
    (b.accept bs).stream = b.stream ++ bs := by
  simp [stream, accept]

@[simp] theorem stream_emit (b : BufferedFile) (n : Nat) : (b.emit n).stream = b.stream := by
  simp [stream, emit, File.append]

@[simp] theorem stream_flush (b : BufferedFile) : b.flush.stream = b.stream := b.stream_emit _

@[simp] theorem stream_sync (b : BufferedFile) : b.sync.stream = b.stream := rfl

@[simp] theorem synced_accept (b : BufferedFile) (bs : Bytes) :
    (b.accept bs).file.synced = b.file.synced := rfl

@[simp] theorem synced_emit (b : BufferedFile) (n : Nat) :
    (b.emit n).file.synced = b.file.synced := rfl

/-- After a flush and a sync everything accepted is on stable storage. -/
theorem synced_sync_flush (b : BufferedFile) : b.flush.sync.file.synced = b.stream.length := by
  simp [sync, File.sync, File.stable, flush, emit, File.append, stream]

theorem synced_le_stream (b : BufferedFile) : b.file.synced ≤ b.stream.length := by
  have := b.file.synced_le
  simp only [stream, List.length_append]
  omega

theorem synced_le_sync (b : BufferedFile) : b.file.synced ≤ b.sync.file.synced := b.file.synced_le

end BufferedFile

end Storelib
