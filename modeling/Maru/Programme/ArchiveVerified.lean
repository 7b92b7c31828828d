import Maru.Programme.ArchiveCustody

/-!
# A stored archive is verified, and nothing else

The sink stores the chunks of what was written, numbered from one, whatever the sizes of the
writes (`writeArchive_ok`). `_verified_chunks` accepts exactly numbered chunks with the
facts that the task records (`verifiedChunks_eq_ok`). `archive_custody`: the rows of a
completed archive are accepted for a task with the sink's facts, and no other rows are.
-/

namespace Maru.Programme

variable {sha256 : Bytes → String}

/-- A check that holds lets the archive be available. -/
theorem require_available {p : Prop} [Decidable p] (h : p) :
    require p ({} : ProgrammeArchiveUnavailableError) = .ok () :=
  require_eq_ok.mpr h

/-! ## Numbered chunks -/

/-- The rows of the payloads, numbered from a place on. -/
def numbered (sha256 : Bytes → String) (taskId : Uuid) : Nat → List Bytes → List ProgrammeArchiveChunk
  | _, [] => []
  | sequence, payload :: payloads =>
    chunkOf sha256 taskId sequence payload :: numbered sha256 taskId (sequence + 1) payloads

/-- What the root is updated with for the payloads. -/
def rootText (sha256 : Bytes → String) : Nat → List Bytes → Bytes
  | _, [] => []
  | sequence, payload :: payloads => rootLine sha256 sequence payload ++ rootText sha256 (sequence + 1) payloads

theorem numbered_concat (taskId : Uuid) (sequence : Nat) (payloads : List Bytes) (payload : Bytes) :
    numbered sha256 taskId sequence (payloads ++ [payload]) =
      numbered sha256 taskId sequence payloads ++ [chunkOf sha256 taskId (sequence + payloads.length) payload] := by
  induction payloads generalizing sequence with
  | nil => rfl
  | cons p payloads ih =>
    rw [List.cons_append, numbered, ih, numbered, List.cons_append, List.length_cons, Nat.add_right_comm, Nat.add_assoc]

theorem rootText_concat (sequence : Nat) (payloads : List Bytes) (payload : Bytes) :
    rootText sha256 sequence (payloads ++ [payload]) =
      rootText sha256 sequence payloads ++ rootLine sha256 (sequence + payloads.length) payload := by
  induction payloads generalizing sequence with
  | nil => simp [rootText]
  | cons p payloads ih =>
    rw [List.cons_append, rootText, ih, rootText, List.append_assoc, List.length_cons, Nat.add_right_comm, Nat.add_assoc]

theorem payload_numbered (taskId : Uuid) (sequence : Nat) (payloads : List Bytes) :
    (numbered sha256 taskId sequence payloads).map (·.payload) = payloads := by
  induction payloads generalizing sequence with
  | nil => rfl
  | cons p payloads ih => rw [numbered, List.map_cons, ih, chunkOf]

theorem sequence_numbered (taskId : Uuid) (sequence : Nat) (payloads : List Bytes) :
    (numbered sha256 taskId sequence payloads).map (·.sequence) = List.range' sequence payloads.length := by
  induction payloads generalizing sequence with
  | nil => rfl
  | cons p payloads ih => rw [numbered, List.map_cons, ih, chunkOf, List.length_cons, List.range'_succ]

theorem sorted_numbered (taskId : Uuid) (sequence : Nat) (payloads : List Bytes) :
    (numbered sha256 taskId sequence payloads).Pairwise (·.sequence ≤ ·.sequence) := by
  have sorted : ((numbered sha256 taskId sequence payloads).map (·.sequence)).Pairwise (· ≤ ·) := by
    rw [sequence_numbered]
    exact List.pairwise_le_range'
  exact List.pairwise_map.mp sorted

theorem task_numbered {taskId : Uuid} {sequence : Nat} {payloads : List Bytes} {row : ProgrammeArchiveChunk}
    (h : row ∈ numbered sha256 taskId sequence payloads) : row.taskId = taskId := by
  induction payloads generalizing sequence with
  | nil => cases h
  | cons p payloads ih =>
    rcases List.mem_cons.mp h with rfl | h
    · rfl
    · exact ih h

/-- The rows of a task, among others in any order, are walked in their numbering. -/
theorem taskRows_numbered {chunks : List ProgrammeArchiveChunk} {taskId : Uuid} {payloads : List Bytes}
    (h : (chunks.filter fun row => row.taskId = taskId).Perm (numbered sha256 taskId 1 payloads)) :
    taskRows chunks taskId = numbered sha256 taskId 1 payloads := by
  have inj : ∀ a ∈ numbered sha256 taskId 1 payloads, ∀ b ∈ numbered sha256 taskId 1 payloads,
      a.sequence = b.sequence → a = b := by
    intro a ha b hb same
    have once : ((numbered sha256 taskId 1 payloads).map (·.sequence)).Nodup := by
      rw [sequence_numbered]
      exact List.nodup_range'
    exact List.inj_on_of_nodup_map once ha hb same
  have sorted : sortBy ProgrammeArchiveChunk.sequence _ = sortBy ProgrammeArchiveChunk.sequence _ :=
    sortBy_eq_of_perm (fun a ha b hb => inj a (h.mem_iff.mp ha) b (h.mem_iff.mp hb)) h
  exact sorted.trans ((sorted_numbered taskId 1 payloads).insertionSort_eq)

/-! ## Writing -/

/-- A sink that has cut the stream into full chunks, up to what is pending and left of a write. -/
structure ArchiveChunkSink.Filled (sha256 : Bytes → String) (sink : ArchiveChunkSink)
    (fulls : List Bytes) (left written : Bytes) : Prop where
  stored : sink.stored = numbered sha256 sink.taskId 1 fulls
  full : ∀ p ∈ fulls, p.length = writeChunkBytes
  count : sink.count = fulls.length
  root : sink.root = rootText sha256 1 fulls
  joined : fulls.flatten ++ sink.pending ++ left = written
  size : sink.size = written.length
  digest : sink.digest = written
  limit : written.length ≤ maxContentBytes + maxMetadataBytes

theorem maxChunks_eq : maxContentBytes + maxMetadataBytes = maxChunks * writeChunkBytes := by decide

/-- A payload that fits the limit is stored. -/
theorem store_ok {sink : ArchiveChunkSink} {fulls : List Bytes} {left written : Bytes}
    (h : sink.Filled sha256 fulls left written) {payload rest : Bytes} (split : sink.pending ++ left = payload ++ rest)
    (some : 1 ≤ payload.length) (short : payload.length ≤ writeChunkBytes) :
    ∃ next, sink.store sha256 payload = .ok next ∧ next.taskId = sink.taskId ∧ next.finished = sink.finished ∧
      next.pending = [] ∧ next.stored = numbered sha256 sink.taskId 1 (fulls ++ [payload]) ∧
      next.count = (fulls ++ [payload]).length ∧ next.root = rootText sha256 1 (fulls ++ [payload]) ∧
      (fulls ++ [payload]).flatten ++ rest = written ∧ next.size = written.length ∧ next.digest = written := by
  have joined : (fulls ++ [payload]).flatten ++ rest = written := by
    rw [← h.joined, List.flatten_append, List.flatten_singleton, List.append_assoc, ← split, List.append_assoc]
  have length := congrArg List.length joined
  have limit := h.limit
  rw [List.flatten_append, List.flatten_singleton, List.length_append, List.length_append,
    Chunked.length_flatten h.full] at length
  rw [maxChunks_eq] at limit
  have storable : chunkStorable (chunkOf sha256 sink.taskId (sink.count + 1) payload) := by
    have count := h.count
    simp only [chunkStorable, chunkOf]
    unfold maxChunks maxContentBytes maxMetadataBytes writeChunkBytes at *
    omega
  have place : sink.count + 1 = 1 + fulls.length := by rw [h.count, Nat.add_comm]
  unfold ArchiveChunkSink.store
  refine ⟨_, if_pos storable, rfl, rfl, rfl, ?_, ?_, ?_, joined, h.size, h.digest⟩
  · rw [numbered_concat, ← h.stored, place]
  · rw [List.length_append, List.length_singleton, h.count]
  · rw [rootText_concat, ← h.root, place]

/-- The loop of `write` ends with the whole buffer cut or pending. -/
theorem extend_ok {data : Bytes} {sink : ArchiveChunkSink} {fulls : List Bytes} {written : Bytes}
    (h : sink.Filled sha256 fulls data written) : ∃ next fulls', sink.extend sha256 data = .ok next ∧
      next.Filled sha256 fulls' [] written ∧ next.taskId = sink.taskId ∧ next.finished = sink.finished := by
  induction hn : data.length using Nat.strong_induction_on generalizing sink fulls data with
  | _ n ih =>
    rw [ArchiveChunkSink.extend]
    by_cases empty : data = []
    · subst empty
      exact ⟨sink, fulls, dif_pos rfl, h, rfl, rfl⟩
    · have some := List.length_pos_of_ne_nil empty
      have short := sink.partialChunk
      rw [dif_neg empty]
      obtain ⟨length, hlength⟩ : ∃ length, length = min (writeChunkBytes - sink.pending.length) data.length := ⟨_, rfl⟩
      simp only [← hlength]
      have split : sink.pending ++ data = (sink.pending ++ data.take length) ++ data.drop length := by
        rw [List.append_assoc, List.take_append_drop]
      have shorter : (data.drop length).length < n := by
        rw [List.length_drop]
        omega
      by_cases full : (sink.pending ++ data.take length).length = writeChunkBytes
      · rw [dif_pos full]
        have positive : 1 ≤ (sink.pending ++ data.take length).length := by omega
        obtain ⟨next, stored, task, finished, pending, rows, count, root, joined, size, digest⟩ :=
          store_ok h split positive full.le
        simp only [stored]
        have filled : next.Filled sha256 (fulls ++ [sink.pending ++ data.take length]) (data.drop length) written := {
          stored := by rw [rows, task]
          full := by
            intro p hp
            rcases List.mem_append.mp hp with hp | hp
            · exact h.full p hp
            · rw [List.mem_singleton.mp hp, full]
          count
          root
          joined := by rw [pending, List.append_nil, joined]
          size
          digest
          limit := h.limit }
        obtain ⟨last, fulls', run, filled', task', finished'⟩ := ih _ shorter filled rfl
        exact ⟨last, fulls', run, filled', task'.trans task, finished'.trans finished⟩
      · rw [dif_neg full]
        exact ih _ shorter
          { stored := h.stored, full := h.full, count := h.count, root := h.root, size := h.size,
            digest := h.digest, limit := h.limit
            joined := by rw [← h.joined, List.append_assoc, ← split, List.append_assoc] } rfl

/-- A write within the limit. -/
theorem write_ok {sink : ArchiveChunkSink} {fulls : List Bytes} {written value : Bytes}
    (h : sink.Filled sha256 fulls [] written) (opened : sink.finished = false)
    (limit : (written ++ value).length ≤ maxContentBytes + maxMetadataBytes) : ∃ next fulls',
      sink.write sha256 value = .ok next ∧ next.Filled sha256 fulls' [] (written ++ value) ∧
        next.taskId = sink.taskId ∧ next.finished = false := by
  rw [List.length_append] at limit
  have allowed : ¬ (sink.finished = true ∨ maxContentBytes + maxMetadataBytes < sink.size + value.length) := by
    rw [opened, h.size]
    simp only [Bool.false_eq_true, false_or]
    omega
  obtain ⟨next, fulls', run, filled, task, finished⟩ := @extend_ok sha256 value
    { sink with size := sink.size + value.length, digest := sink.digest ++ value } fulls (written ++ value)
    { stored := h.stored, full := h.full, count := h.count, root := h.root
      joined := by rw [← h.joined, List.append_nil]
      size := by rw [List.length_append, ← h.size]
      digest := by rw [← h.digest]
      limit := by rw [List.length_append]; exact limit }
  refine ⟨next, fulls', ?_, filled, task, finished.trans opened⟩
  rw [ArchiveChunkSink.write, require_available allowed]
  exact run

theorem filled_fresh (taskId : Uuid) : (ArchiveChunkSink.fresh taskId).Filled sha256 [] [] [] where
  stored := rfl
  full := List.forall_mem_nil _
  count := rfl
  root := rfl
  joined := rfl
  size := rfl
  digest := rfl
  limit := Nat.zero_le _

theorem writes_ok {writes : List Bytes} {sink : ArchiveChunkSink} {fulls : List Bytes}
    {written : Bytes} (h : sink.Filled sha256 fulls [] written) (opened : sink.finished = false)
    (limit : (written ++ writes.flatten).length ≤ maxContentBytes + maxMetadataBytes) :
    ∃ next fulls', writes.foldlM (ArchiveChunkSink.write sha256) sink = .ok next ∧
        next.Filled sha256 fulls' [] (written ++ writes.flatten) ∧ next.taskId = sink.taskId ∧
          next.finished = false := by
  induction writes generalizing sink fulls written with
  | nil =>
    rw [List.flatten_nil, List.append_nil]
    exact ⟨sink, fulls, rfl, h, rfl, opened⟩
  | cons value writes ih =>
    rw [List.flatten_cons, ← List.append_assoc] at limit ⊢
    have first : (written ++ value).length ≤ maxContentBytes + maxMetadataBytes := by
      rw [List.length_append] at limit
      omega
    obtain ⟨next, fulls', run, filled, task, opened'⟩ := write_ok h opened first
    obtain ⟨last, fulls'', run', filled', task', finished⟩ := ih filled opened' limit
    refine ⟨last, fulls'', ?_, filled', task'.trans task, finished⟩
    rw [List.foldlM_cons, run]
    exact run'

/-- What a completed sink has stored and recorded. -/
structure ArchiveChunkSink.Stored (sha256 : Bytes → String) (sink : ArchiveChunkSink)
    (taskId : Uuid) (payloads : List Bytes) (written : Bytes) : Prop where
  owner : sink.taskId = taskId
  finished : sink.finished = true
  stored : sink.stored = numbered sha256 taskId 1 payloads
  chunked : Chunked writeChunkBytes written payloads
  count : sink.count = payloads.length
  root : sink.root = rootText sha256 1 payloads
  size : sink.size = written.length
  digest : sink.digest = written

theorem finish_ok {sink : ArchiveChunkSink} {fulls : List Bytes} {written : Bytes}
    (h : sink.Filled sha256 fulls [] written) (opened : sink.finished = false) (some : written ≠ []) :
    ∃ next payloads, sink.finish sha256 = .ok next ∧ next.Stored sha256 sink.taskId payloads written := by
  have positive := List.length_pos_of_ne_nil some
  have allowed : ¬ (sink.finished = true ∨ sink.size = 0) := by
    rw [opened, h.size]
    simp only [Bool.false_eq_true, false_or]
    omega
  by_cases pending : sink.pending = []
  · have whole : fulls.flatten = written := by rw [← h.joined, pending, List.append_nil, List.append_nil]
    refine ⟨{ sink with finished := true }, fulls, ?_, ?_⟩
    · rw [ArchiveChunkSink.finish, require_available allowed, ok_bind, if_neg (not_not.mpr pending)]
      rfl
    exact ⟨rfl, rfl, h.stored, whole ▸ .of_full h.full (by decide), h.count, h.root, h.size, h.digest⟩
  · have last := List.length_pos_of_ne_nil pending
    have short := sink.partialChunk.le
    obtain ⟨next, stored, task, finished, _, rows, count, root, joined, size, digest⟩ :=
      store_ok h (show sink.pending ++ [] = sink.pending ++ [] from rfl) last short
    have whole : fulls.flatten ++ sink.pending = written := by rw [← h.joined, List.append_nil]
    refine ⟨{ next with finished := true }, fulls ++ [sink.pending], ?_, ?_⟩
    · rw [ArchiveChunkSink.finish, require_available allowed, ok_bind, if_pos pending, stored]
      rfl
    exact ⟨task, rfl, rows, whole ▸ .concat h.full last short, count, root, size, digest⟩

/-- Whatever the sizes of the writes, the sink stores the chunks of all that was written. -/
theorem writeArchive_ok (taskId : Uuid) {writes : List Bytes} (some : writes.flatten ≠ [])
    (limit : writes.flatten.length ≤ maxContentBytes + maxMetadataBytes) : ∃ sink payloads,
      writeArchive sha256 taskId writes = .ok sink ∧ sink.Stored sha256 taskId payloads writes.flatten := by
  obtain ⟨sink, fulls, run, filled, task, opened⟩ := writes_ok (filled_fresh taskId) rfl
    (show ([] ++ writes.flatten).length ≤ maxContentBytes + maxMetadataBytes by rw [List.nil_append]; exact limit)
  rw [List.nil_append] at filled
  obtain ⟨next, payloads, finished, stored⟩ := finish_ok filled opened some
  refine ⟨next, payloads, ?_, ?_⟩
  · rw [writeArchive, run]
    exact finished
  · rw [task] at stored
    exact stored

/-! ## Verifying -/

/-- What is checked of the rows from a place on. -/
def RowsHold (sha256 : Bytes → String) (task : ProgrammeArchiveTask) : Nat → List ProgrammeArchiveChunk → Prop
  | _, [] => True
  | sequence, row :: rows => RowHolds sha256 task sequence row ∧ RowsHold sha256 task (sequence + 1) rows

/-- What has been gathered behind some more payloads. -/
def VerifiedChunks.after (sha256 : Bytes → String) (found : VerifiedChunks) (sequence : Nat)
    (payloads : List Bytes) : VerifiedChunks where
  result := found.result ++ payloads
  total := found.total + payloads.flatten.length
  digest := found.digest ++ payloads.flatten
  root := found.root ++ rootText sha256 sequence payloads

theorem not_refused_iff {task : ProgrammeArchiveTask} {sequence : Nat} {row : ProgrammeArchiveChunk} :
    ¬ (task.chunkCount < sequence ∨ row.sequence ≠ sequence ∨ row.sizeBytes ≠ row.payload.length ∨
      ¬ (1 ≤ row.payload.length ∧ row.payload.length ≤ writeChunkBytes) ∨
      (sequence < task.chunkCount ∧ row.payload.length ≠ writeChunkBytes) ∨ sha256 row.payload ≠ row.sha256) ↔
      RowHolds sha256 task sequence row := by
  constructor
  · intro h
    simp only [not_or, not_not, Nat.not_lt] at h
    obtain ⟨within, place, size, bounded, full, digest⟩ := h
    exact ⟨within, place, size, bounded, fun before => not_not.mp fun short => full ⟨before, short⟩, digest⟩
  · rintro ⟨within, place, size, bounded, full, digest⟩
    simp only [not_or, not_not, Nat.not_lt]
    exact ⟨within, place, size, bounded, fun h => h.2 (full h.1), digest⟩

theorem verifyRows_ok {task : ProgrammeArchiveTask} {rows : List ProgrammeArchiveChunk} {sequence : Nat}
    {found last : VerifiedChunks} (h : verifyRows sha256 task sequence rows found = .ok last) :
    RowsHold sha256 task sequence rows ∧ last = found.after sha256 sequence (rows.map (·.payload)) := by
  induction rows generalizing sequence found with
  | nil =>
    obtain rfl := Except.ok.inj h
    refine ⟨trivial, ?_⟩
    simp [VerifiedChunks.after, rootText]
  | cons row rows ih =>
    rw [verifyRows] at h
    split at h
    · cases h
    · rename_i accepted
      split at h
      · cases h
      · obtain ⟨rest, rfl⟩ := ih h
        refine ⟨⟨not_refused_iff.mp accepted, rest⟩, ?_⟩
        simp only [VerifiedChunks.after, List.map_cons, List.flatten_cons, rootText,
          List.append_assoc, List.singleton_append, List.length_append, Nat.add_assoc]

theorem verifyRows_of {task : ProgrammeArchiveTask} {rows : List ProgrammeArchiveChunk}
    {sequence : Nat} {found : VerifiedChunks} (h : RowsHold sha256 task sequence rows)
    (within : found.total + (rows.map (·.payload)).flatten.length ≤ task.artifactBytes) :
    verifyRows sha256 task sequence rows found = .ok (found.after sha256 sequence (rows.map (·.payload))) := by
  induction rows generalizing sequence found with
  | nil => simp [verifyRows, VerifiedChunks.after, rootText]
  | cons row rows ih =>
    obtain ⟨first, rest⟩ := h
    rw [List.map_cons, List.flatten_cons, List.length_append, ← Nat.add_assoc] at within
    have fits : ¬ task.artifactBytes < found.total + row.payload.length := by omega
    rw [verifyRows, if_neg (not_refused_iff.mpr first), if_neg fits, ih rest within]
    simp only [VerifiedChunks.after, List.map_cons, List.flatten_cons, rootText, List.append_assoc,
      List.singleton_append, List.length_append, Nat.add_assoc]

/-- As many rows as the task counts hold when they are the numbered chunks of a stream. -/
theorem rowsHold_iff {task : ProgrammeArchiveTask} {rows : List ProgrammeArchiveChunk} {sequence : Nat} {taskId : Uuid}
    (tasks : ∀ row ∈ rows, row.taskId = taskId) (count : sequence + rows.length = task.chunkCount + 1) :
    RowsHold sha256 task sequence rows ↔ rows = numbered sha256 taskId sequence (rows.map (·.payload)) ∧
      Chunked writeChunkBytes (rows.map (·.payload)).flatten (rows.map (·.payload)) := by
  induction rows generalizing sequence with
  | nil => exact iff_of_true trivial ⟨rfl, .nil⟩
  | cons row rows ih =>
    obtain ⟨task', tasks⟩ := List.forall_mem_cons.mp tasks
    rw [List.length_cons] at count
    rw [RowsHold, ih tasks (by omega), List.map_cons, numbered, List.cons.injEq]
    constructor
    · rintro ⟨holds, rest, chunked⟩
      refine ⟨⟨?_, rest⟩, rfl, ?_, List.forall_mem_cons.mpr ⟨holds.bounded, chunked.bounded⟩⟩
      · have place := holds.numbered
        have size := holds.size
        have digest := holds.digest
        cases row
        simp only at task' place size digest
        simp only [chunkOf, task', place, size, digest]
      · rw [List.isChain_cons]
        refine ⟨fun next hnext => holds.full ?_, chunked.full⟩
        cases rows with
        | nil => cases hnext
        | cons other rows =>
          rw [List.length_cons] at count
          omega
    · rintro ⟨⟨first, rest⟩, chunked⟩
      refine ⟨?_, rest, chunked.tail⟩
      have columns := first
      exact {
        within := by omega
        numbered := by rw [columns, chunkOf]
        size := by rw [columns, chunkOf]
        bounded := chunked.bounded _ List.mem_cons_self
        full := by
          intro before
          cases rows with
          | nil =>
            rw [List.length_nil] at count
            omega
          | cons other rows => exact chunked.head_full
        digest := by rw [columns, chunkOf] }

/-- The recorded facts are those of the payloads. -/
structure ProgrammeArchiveTask.Records (sha256 : Bytes → String) (task : ProgrammeArchiveTask)
    (payloads : List Bytes) : Prop where
  count : task.chunkCount = payloads.length
  size : task.artifactBytes = payloads.flatten.length
  digest : task.artifactDigest = sha256 payloads.flatten
  root : task.chunkRoot = sha256 (rootText sha256 1 payloads)

/-- The task is ready, and its counts are within the limits. -/
def ProgrammeArchiveTask.Disclosable (task : ProgrammeArchiveTask) : Prop :=
  task.state = "ready" ∧ (1 ≤ task.chunkCount ∧ task.chunkCount ≤ maxChunks) ∧
    1 ≤ task.artifactBytes ∧ task.artifactBytes ≤ maxContentBytes + maxMetadataBytes

theorem mem_taskRows {chunks : List ProgrammeArchiveChunk} {taskId : Uuid} {row : ProgrammeArchiveChunk} :
    row ∈ taskRows chunks taskId ↔ row ∈ chunks ∧ row.taskId = taskId := by
  rw [taskRows, (sortBy_perm ProgrammeArchiveChunk.sequence _).mem_iff, List.mem_filter, decide_eq_true_eq]

/-- The verification accepts exactly the numbered chunks of which the task has recorded the facts.
-/
theorem verifiedChunks_eq_ok {chunks : List ProgrammeArchiveChunk} {task : ProgrammeArchiveTask}
    {result : List Bytes} : verifiedChunks sha256 chunks task = .ok result ↔ task.Disclosable ∧
      taskRows chunks task.id = numbered sha256 task.id 1 result ∧ Chunked writeChunkBytes result.flatten result ∧
      task.Records sha256 result := by
  have tasks : ∀ row ∈ taskRows chunks task.id, row.taskId = task.id := fun row hr => (mem_taskRows.mp hr).2
  have admitted : ¬ (task.state ≠ "ready" ∨ ¬ (1 ≤ task.chunkCount ∧ task.chunkCount ≤ maxChunks) ∨
      ¬ (1 ≤ task.artifactBytes ∧ task.artifactBytes ≤ maxContentBytes + maxMetadataBytes)) ↔ task.Disclosable := by
    simp only [not_or, not_not, ProgrammeArchiveTask.Disclosable]
  constructor
  · intro h
    rw [verifiedChunks, seq_eq_ok] at h
    obtain ⟨ready, h⟩ := h
    obtain ⟨found, run, h⟩ := bind_eq_ok.mp h
    obtain ⟨holds, rfl⟩ := verifyRows_ok run
    obtain ⟨complete, h⟩ := seq_eq_ok.mp h
    have complete := require_eq_ok.mp complete
    have same : (taskRows chunks task.id).map (·.payload) = result := Except.ok.inj h
    simp only [VerifiedChunks.after, List.nil_append, Nat.zero_add, same, not_or, not_not] at complete
    obtain ⟨count, size, digest, root⟩ := complete
    have length : 1 + (taskRows chunks task.id).length = task.chunkCount + 1 := by
      rw [← count, ← same, List.length_map, Nat.add_comm]
    obtain ⟨rows, chunked⟩ := (rowsHold_iff tasks length).mp holds
    rw [same] at rows chunked
    exact ⟨admitted.mp (require_eq_ok.mp ready), rows, chunked, count.symm, size.symm, digest.symm, root.symm⟩
  · rintro ⟨ready, rows, chunked, records⟩
    have same : (taskRows chunks task.id).map (·.payload) = result := by rw [rows, payload_numbered]
    have length : 1 + (taskRows chunks task.id).length = task.chunkCount + 1 := by
      rw [records.count, ← same, List.length_map, Nat.add_comm]
    have holds : RowsHold sha256 task 1 (taskRows chunks task.id) := by
      refine (rowsHold_iff tasks length).mpr ?_
      rw [same]
      exact ⟨rows, chunked⟩
    have run := @verifyRows_of _ _ _ _ ⟨[], 0, [], []⟩ holds (by rw [same, records.size, Nat.zero_add])
    rw [same] at run
    have complete : ¬ (result.length ≠ task.chunkCount ∨ result.flatten.length ≠ task.artifactBytes ∨
        sha256 result.flatten ≠ task.artifactDigest ∨ sha256 (rootText sha256 1 result) ≠ task.chunkRoot) := by
      simp only [not_or, not_not]
      exact ⟨records.count.symm, records.size.symm, records.digest.symm, records.root.symm⟩
    rw [verifiedChunks, require_available (admitted.mpr ready), ok_bind, run, ok_bind]
    simp only [VerifiedChunks.after, List.nil_append, Nat.zero_add]
    rw [require_available complete]
    rfl

/-! ## Custody -/

/-- The task has recorded the facts of the sink. -/
structure ProgrammeArchiveTask.RecordsSink (sha256 : Bytes → String) (task : ProgrammeArchiveTask)
    (sink : ArchiveChunkSink) : Prop where
  id : task.id = sink.taskId
  ready : task.state = "ready"
  count : task.chunkCount = sink.count
  size : task.artifactBytes = sink.size
  digest : task.artifactDigest = sha256 sink.digest
  root : task.chunkRoot = sha256 sink.root

/-- The rows of the task, among others and in any order, are those of the list. -/
def HoldsRows (chunks : List ProgrammeArchiveChunk) (taskId : Uuid) (rows : List ProgrammeArchiveChunk) : Prop :=
  (chunks.filter fun row => row.taskId = taskId).Perm rows

/-- No other message has the digest. -/
def CollisionFree (sha256 : Bytes → String) (message : Bytes) : Prop :=
    ∀ other, sha256 other = sha256 message → other = message

section

variable {taskId : Uuid} {sink : ArchiveChunkSink} {payloads : List Bytes} {written : Bytes}
  (h : sink.Stored sha256 taskId payloads written)

include h

theorem ArchiveChunkSink.Stored.records {task : ProgrammeArchiveTask}
    (recorded : task.RecordsSink sha256 sink) : task.Records sha256 payloads where
  count := recorded.count.trans h.count
  size := by rw [recorded.size, h.size, h.chunked.joined]
  digest := by rw [recorded.digest, h.digest, h.chunked.joined]
  root := by rw [recorded.root, h.root]

theorem ArchiveChunkSink.Stored.length_le (limit : written.length ≤ maxContentBytes + maxMetadataBytes) :
    payloads.length ≤ maxChunks := by
  rw [h.chunked.length_eq (by decide)]
  unfold maxChunks maxContentBytes maxMetadataBytes writeChunkBytes at *
  omega

/-- The stored rows are accepted, for a task that has recorded the sink's facts. -/
theorem ArchiveChunkSink.Stored.verified (some : written ≠ [])
    (limit : written.length ≤ maxContentBytes + maxMetadataBytes) {task : ProgrammeArchiveTask}
    (recorded : task.RecordsSink sha256 sink) {chunks : List ProgrammeArchiveChunk}
    (rows : HoldsRows chunks taskId sink.stored) : verifiedChunks sha256 chunks task = .ok payloads := by
  have id : task.id = taskId := recorded.id.trans h.owner
  rw [verifiedChunks_eq_ok, id, h.chunked.joined]
  have filled := List.length_pos_of_ne_nil some
  have chunks_pos : 1 ≤ payloads.length := by
    rcases Nat.eq_zero_or_pos payloads.length with empty | positive
    · exact absurd (h.chunked.eq_nil_iff.mp (List.eq_nil_of_length_eq_zero empty)) some
    · exact positive
  have count := recorded.count.trans h.count
  have size := recorded.size.trans h.size
  refine ⟨⟨recorded.ready, ?_, ?_⟩, ?_, h.chunked, h.records recorded⟩
  · rw [count]
    exact ⟨chunks_pos, h.length_le limit⟩
  · rw [size]
    exact ⟨filled, limit⟩
  · refine taskRows_numbered ?_
    rw [← h.stored]
    exact rows

/-- Whatever is accepted for the recorded facts are the stored rows. -/
theorem ArchiveChunkSink.Stored.only (free : CollisionFree sha256 written) {task : ProgrammeArchiveTask}
    (recorded : task.RecordsSink sha256 sink) {chunks : List ProgrammeArchiveChunk}
    {result : List Bytes} (accepted : verifiedChunks sha256 chunks task = .ok result) :
    result = payloads ∧ HoldsRows chunks taskId sink.stored := by
  have id : task.id = taskId := recorded.id.trans h.owner
  obtain ⟨_, rows, chunked, records⟩ := verifiedChunks_eq_ok.mp accepted
  have same : result.flatten = written := by
    refine free _ ?_
    rw [← records.digest, recorded.digest, h.digest]
  rw [same] at chunked
  have payloads_eq : result = payloads := chunked.unique h.chunked
  refine ⟨payloads_eq, ?_⟩
  rw [payloads_eq, ← id.symm, ← h.stored] at rows
  rw [HoldsRows, ← rows]
  exact (sortBy_perm ProgrammeArchiveChunk.sequence _).symm

end

/-- What is written in any pieces is stored as numbered chunks that are verified; a task with
recorded facts is only ever disclosed from the rows that it counts, with the recorded length and
digest, and after a completed archive only from the rows of the archive. -/
theorem archive_custody (sha256 : Bytes → String) (taskId : Uuid) (writes : List Bytes) (some : writes.flatten ≠ [])
    (limit : writes.flatten.length ≤ maxContentBytes + maxMetadataBytes) : ∃ sink,
      writeArchive sha256 taskId writes = .ok sink ∧
      (∀ row ∈ sink.stored, row.taskId = taskId) ∧
      (sink.stored.map (·.payload)).flatten = writes.flatten ∧
      (sink.stored.map (·.payload)).IsChain (fun payload _ => payload.length = writeChunkBytes) ∧
      sink.stored.map (·.sequence) = List.range' 1 ((writes.flatten.length + writeChunkBytes - 1) / writeChunkBytes) ∧
      (writes.flatten.length + writeChunkBytes - 1) / writeChunkBytes ≤ maxChunks ∧
      (∀ task chunks, task.RecordsSink sha256 sink → HoldsRows chunks taskId sink.stored →
        verifiedChunks sha256 chunks task = .ok (sink.stored.map (·.payload))) ∧
      (∀ task chunks result, verifiedChunks sha256 chunks task = .ok result →
        (taskRows chunks task.id).map (·.sequence) = List.range' 1 task.chunkCount ∧
        (taskRows chunks task.id).map (·.payload) = result ∧
        result.flatten.length = task.artifactBytes ∧ sha256 result.flatten = task.artifactDigest) ∧
      (CollisionFree sha256 writes.flatten → ∀ task chunks result, task.RecordsSink sha256 sink →
        verifiedChunks sha256 chunks task = .ok result → HoldsRows chunks taskId sink.stored) := by
  obtain ⟨sink, payloads, run, stored⟩ := @writeArchive_ok sha256 taskId _ some limit
  have same : sink.stored.map (·.payload) = payloads := by rw [stored.stored, payload_numbered]
  have length := stored.chunked.length_eq (by decide)
  refine ⟨sink, run, ?_, ?_, ?_, ?_, ?_, ?_, ?_, ?_⟩
  · intro row hr
    rw [stored.stored] at hr
    exact task_numbered hr
  · rw [same, stored.chunked.joined]
  · rw [same]
    exact stored.chunked.full
  · rw [stored.stored, sequence_numbered, length]
  · rw [← length]
    exact stored.length_le limit
  · intro task chunks recorded rows
    rw [same]
    exact stored.verified some limit recorded rows
  · intro task chunks result accepted
    obtain ⟨_, rows, _, records⟩ := verifiedChunks_eq_ok.mp accepted
    rw [rows, sequence_numbered, payload_numbered, records.count]
    exact ⟨rfl, rfl, records.size.symm, records.digest.symm⟩
  · intro free task chunks result recorded accepted
    exact (stored.only free recorded accepted).2

/-- One byte, and then as many as a chunk has. -/
def demoWrites : List Bytes := [[1], List.replicate writeChunkBytes 1]

theorem demoWrites_length : demoWrites.flatten.length = writeChunkBytes + 1 := by
  rw [demoWrites, List.flatten_cons, List.flatten_singleton, List.length_append, List.length_replicate, Nat.add_comm]
  rfl

/-- The root of the two chunks. -/
def demoRoot : Bytes :=
  ("1:1048576:ee78cd29d3a534713b36e6ff6fa3668c8a8f851a542d5eb2401c25ca4e057d02\n" ++
    "2:1:4bf5122f344554c53bde2ebb8cd2b7e3d1600ad631c385a5d7cce23c7785459a\n").toUTF8.toList

/-- SHA-256 of all bytes, of either chunk, of their root and, for all others here, of nothing. -/
def demoSha256 (message : Bytes) : String :=
  if message = demoWrites.flatten then "9301803fdab97f7cc1553cac441bf2bf045c0c5da11270bfbf4c92606c6ea491"
  else if message = List.replicate writeChunkBytes
    1 then "ee78cd29d3a534713b36e6ff6fa3668c8a8f851a542d5eb2401c25ca4e057d02"
  else if message = [1] then "4bf5122f344554c53bde2ebb8cd2b7e3d1600ad631c385a5d7cce23c7785459a"
  else if message = demoRoot then "c36cbf096f2a5b9b131f8981c004433ca5aef511208a6935367f4db415182291"
  else "e3b0c44298fc1c149afbf4c8996fb92427ae41e4649b934ca495991b7852b855"

theorem demoSha256_free : CollisionFree demoSha256 demoWrites.flatten := by
  intro other h
  by_contra different
  rw [demoSha256, if_neg different, demoSha256, if_pos rfl] at h
  split_ifs at h <;> exact absurd h (by decide)

/-- The bytes are stored in two chunks, and disclosed from what was stored and from nothing else. -/
theorem demo_custody : ∃ sink task, writeArchive demoSha256 7 demoWrites = .ok sink ∧
    task.RecordsSink demoSha256 sink ∧ sink.stored.map (·.sequence) = [1, 2] ∧
    verifiedChunks demoSha256 sink.stored task = .ok (sink.stored.map (·.payload)) ∧
    ∀ chunks result, verifiedChunks demoSha256 chunks task = .ok result → HoldsRows chunks 7 sink.stored := by
  obtain ⟨sink, run, owned, _, _, numbered, _, accepts, _, only⟩ := archive_custody demoSha256 7 demoWrites
    (List.ne_nil_of_length_pos (by rw [demoWrites_length]; exact Nat.succ_pos _)) (by rw [demoWrites_length]; decide)
  have rows : HoldsRows sink.stored 7 sink.stored := by
    rw [HoldsRows, List.filter_eq_self.mpr fun row hr => by simpa using owned row hr]
  have recorded : ProgrammeArchiveTask.RecordsSink demoSha256
      ⟨sink.taskId, "ready", demoSha256 sink.digest, demoSha256 sink.root, sink.size, sink.count⟩ sink :=
    ⟨rfl, rfl, rfl, rfl, rfl, rfl⟩
  rw [demoWrites_length] at numbered
  exact ⟨sink, _, run, recorded, numbered, accepts _ _ recorded rows,
    fun chunks result => only demoSha256_free _ chunks result recorded⟩

/-- A sink that nothing was written to is not completed, and no task without chunks is disclosed. -/
theorem empty_archive_refused : ([[]] : List Bytes).flatten.length ≤ maxContentBytes +
    maxMetadataBytes ∧ ∀ sha256, writeArchive sha256 7 [[]] = .error {} ∧
      ∀ chunks task result, task.chunkCount = 0 → verifiedChunks sha256 chunks task ≠ .ok result := by
  refine ⟨Nat.zero_le _, fun sha256 => ⟨?_, ?_⟩⟩
  · have fits : ([] ++ [] : Bytes).length ≤ maxContentBytes + maxMetadataBytes := Nat.zero_le _
    obtain ⟨next, fulls, run, filled, _, opened⟩ := @write_ok sha256 _ _ _ _ (filled_fresh 7) rfl fits
    have refused : next.finish sha256 = .error {} := by
      have size : next.size = 0 := filled.size
      rw [ArchiveChunkSink.finish, size, opened]
      rfl
    rw [writeArchive, List.foldlM_cons, run]
    exact refused
  · intro chunks task result none accepted
    have ready := (verifiedChunks_eq_ok.mp accepted).1.2.1.1
    omega

end Maru.Programme
