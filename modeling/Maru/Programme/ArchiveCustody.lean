import Maru.Framework.Chunks
import Maru.Framework.Except
import Maru.Framework.Lists
import Maru.Framework.Uuid

/-!
# Custody of archive chunks

`programme/archive_custody.py`: the sink that splits what a worker writes into stored
chunks, and the verification of the chunks before the first byte is disclosed. SHA-256 is a
parameter, from the bytes of a message to its hexadecimal digest; the object that hashes is
kept as the bytes it was updated with.
-/

namespace Maru.Programme

def maxContentBytes : Nat := 1073741824

def maxMetadataBytes : Nat := 2097152

def writeChunkBytes : Nat := 1048576

def maxChunks : Nat := (maxContentBytes + maxMetadataBytes) / writeChunkBytes

abbrev Bytes := List UInt8

structure ProgrammeArchiveUnavailableError where
deriving DecidableEq

structure ProgrammeArchiveChunk where
  taskId : Uuid
  sequence : Nat
  sizeBytes : Nat
  sha256 : String
  payload : Bytes

/-- The state of a task, and what its completion recorded. -/
structure ProgrammeArchiveTask where
  id : Uuid
  state : String
  artifactDigest : String
  chunkRoot : String
  artifactBytes : Nat
  chunkCount : Nat

variable (sha256 : Bytes → String)

/-- What the root is updated with for one chunk. -/
def rootLine (sequence : Nat) (payload : Bytes) : Bytes :=
  s!"{sequence}:{payload.length}:{sha256 payload}\n".toUTF8.toList

/-- The row that `_store` creates. -/
def chunkOf (taskId : Uuid) (sequence : Nat) (payload : Bytes) : ProgrammeArchiveChunk where
  taskId := taskId
  sequence := sequence
  sizeBytes := payload.length
  sha256 := sha256 payload
  payload := payload

/-- `programme_archive_chunk_seq`, `programme_archive_chunk_size` -/
def chunkStorable (row : ProgrammeArchiveChunk) : Prop :=
  (1 ≤ row.sequence ∧ row.sequence ≤ 1026) ∧ 1 ≤ row.sizeBytes ∧ row.sizeBytes ≤ 1048576

instance (row : ProgrammeArchiveChunk) : Decidable (chunkStorable row) := inferInstanceAs (Decidable (_ ∧ _))

/-! ## The sink -/

/-- A sink, with the rows that it has stored: between writes it holds at most a partial chunk. -/
structure ArchiveChunkSink where
  taskId : Uuid
  pending : Bytes
  count : Nat
  size : Nat
  digest : Bytes
  root : Bytes
  finished : Bool
  stored : List ProgrammeArchiveChunk
  partialChunk : pending.length < writeChunkBytes

def ArchiveChunkSink.fresh (taskId : Uuid) : ArchiveChunkSink where
  taskId := taskId
  pending := []
  count := 0
  size := 0
  digest := []
  root := []
  finished := false
  stored := []
  partialChunk := by decide

/-- `_store`, of what is pending. -/
def ArchiveChunkSink.store (sink : ArchiveChunkSink) (payload : Bytes) :
    Except ProgrammeArchiveUnavailableError ArchiveChunkSink :=
  let row := chunkOf sha256 sink.taskId (sink.count + 1) payload
  if chunkStorable row then
    .ok { sink with
      count := sink.count + 1
      stored := sink.stored ++ [row]
      root := sink.root ++ rootLine sha256 (sink.count + 1) payload
      pending := []
      partialChunk := by decide }
  else .error {}

/-- The loop of `write`, over what is left of the buffer. -/
def ArchiveChunkSink.extend (sink : ArchiveChunkSink) (data : Bytes) :
    Except ProgrammeArchiveUnavailableError ArchiveChunkSink :=
  if empty : data = [] then .ok sink
  else
    let length := min (writeChunkBytes - sink.pending.length) data.length
    let pending := sink.pending ++ data.take length
    if full : pending.length = writeChunkBytes then
      match sink.store sha256 pending with
      | .ok next => next.extend (data.drop length)
      | .error e => .error e
    else
      ArchiveChunkSink.extend
        { sink with
          pending := pending
          partialChunk := by
            have := sink.partialChunk
            simp only [pending, length, List.length_append, List.length_take] at full ⊢
            omega }
        (data.drop length)
termination_by data.length
decreasing_by all_goals
  have := List.length_pos_of_ne_nil empty
  have := sink.partialChunk
  rw [List.length_drop]
  omega

def ArchiveChunkSink.write (sink : ArchiveChunkSink) (value : Bytes) :
    Except ProgrammeArchiveUnavailableError ArchiveChunkSink := do
  require (¬ (sink.finished = true ∨ maxContentBytes + maxMetadataBytes < sink.size + value.length)) {}
  ArchiveChunkSink.extend sha256 { sink with size := sink.size + value.length, digest := sink.digest ++ value } value

def ArchiveChunkSink.finish (sink : ArchiveChunkSink) : Except ProgrammeArchiveUnavailableError ArchiveChunkSink := do
  require (¬ (sink.finished = true ∨ sink.size = 0)) {}
  let sink ← if sink.pending ≠ [] then sink.store sha256 sink.pending else .ok sink
  return { sink with finished := true }

/-- Some writes, and `finish`. -/
def writeArchive (taskId : Uuid) (writes : List Bytes) : Except ProgrammeArchiveUnavailableError ArchiveChunkSink := do
  let sink ← writes.foldlM (ArchiveChunkSink.write sha256) (ArchiveChunkSink.fresh taskId)
  sink.finish sha256

/-! ## Verification -/

/-- What `_verified_chunks` has gathered from the rows before. -/
structure VerifiedChunks where
  result : List Bytes
  total : Nat
  digest : Bytes
  root : Bytes

/-- What is checked of the row that comes at a place. -/
structure RowHolds (task : ProgrammeArchiveTask) (sequence : Nat) (row : ProgrammeArchiveChunk) : Prop where
  within : sequence ≤ task.chunkCount
  numbered : row.sequence = sequence
  size : row.sizeBytes = row.payload.length
  bounded : 1 ≤ row.payload.length ∧ row.payload.length ≤ writeChunkBytes
  full : sequence < task.chunkCount → row.payload.length = writeChunkBytes
  digest : sha256 row.payload = row.sha256

/-- The loop of `_verified_chunks`, from a place on. -/
def verifyRows (task : ProgrammeArchiveTask) :
    Nat → List ProgrammeArchiveChunk → VerifiedChunks → Except ProgrammeArchiveUnavailableError VerifiedChunks
  | _, [], found => .ok found
  | sequence, row :: rows, found =>
    let payload := row.payload
    let actual := sha256 payload
    if task.chunkCount < sequence ∨ row.sequence ≠ sequence ∨ row.sizeBytes ≠ payload.length ∨
        ¬ (1 ≤ payload.length ∧ payload.length ≤ writeChunkBytes) ∨
        (sequence < task.chunkCount ∧ payload.length ≠ writeChunkBytes) ∨ actual ≠ row.sha256 then .error {}
    else if task.artifactBytes < found.total + payload.length then .error {}
    else
      verifyRows task (sequence + 1) rows
        { result := found.result ++ [payload]
          total := found.total + payload.length
          digest := found.digest ++ payload
          root := found.root ++ rootLine sha256 sequence payload }

/-- The rows of a task in their order. -/
def taskRows (chunks : List ProgrammeArchiveChunk) (taskId : Uuid) : List ProgrammeArchiveChunk :=
  sortBy ProgrammeArchiveChunk.sequence (chunks.filter fun row => row.taskId = taskId)

def verifiedChunks (chunks : List ProgrammeArchiveChunk) (task : ProgrammeArchiveTask) :
    Except ProgrammeArchiveUnavailableError (List Bytes) := do
  require (¬ (task.state ≠ "ready" ∨ ¬ (1 ≤ task.chunkCount ∧ task.chunkCount ≤ maxChunks) ∨
    ¬ (1 ≤ task.artifactBytes ∧ task.artifactBytes ≤ maxContentBytes + maxMetadataBytes))) {}
  let found ← verifyRows sha256 task 1 (taskRows chunks task.id) ⟨[], 0, [], []⟩
  require (¬ (found.result.length ≠ task.chunkCount ∨ found.total ≠ task.artifactBytes ∨
    sha256 found.digest ≠ task.artifactDigest ∨ sha256 found.root ≠ task.chunkRoot)) {}
  return found.result

end Maru.Programme
