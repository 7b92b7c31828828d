import Maru.Logistics.Commands

/-!
# Offline scans

`ingest_offline_scan_batch`: a device uploads what it scanned while it was offline. Each
operation that is new is applied as a movement if it still fits the projection, and is kept
for review with a discrepancy if it does not; one whose key has been seen is a duplicate or
a conflict. `remainsAppendable` is the predicate by which the database refuses to keep for
review what could have been applied.
-/

namespace Maru.Logistics

def maxOfflineOperations : Nat := 500

structure OfflineOperationInput where
  sequence : Int
  idempotencyKey : Uuid
  expectedSubjectSequence : Int
  action : EventType
  labelCode : String
  occurredAt : Moment
  sourceLabelCode : String := ""
  destinationLabelCode : String := ""
  quantity : Option Int := none
  observedCondition : String := ""

/-- An operation whose input has been normalized. -/
structure OfflineOperation where
  sequence : Nat
  idempotencyKey : Uuid
  expectedSubjectSequence : Nat
  action : EventType
  labelCode : String
  occurredAt : Moment
  sourceLabelCode : String
  destinationLabelCode : String
  quantity : Option Int
  observedCondition : String
  quantity_nonneg : ∀ q ∈ quantity, 0 ≤ q
  condition_text : observedCondition = "" ∨ btrim observedCondition ≠ ""

/-- `asdict(operation)` -/
def OfflineOperation.json (operation : OfflineOperation) : List (String × Json) := [
  ("action", .str operation.action.value),
  ("destination_label_code", .str operation.destinationLabelCode),
  ("expected_subject_sequence", .int operation.expectedSubjectSequence),
  ("idempotency_key", Json.uuid operation.idempotencyKey),
  ("label_code", .str operation.labelCode),
  ("observed_condition", .str operation.observedCondition),
  ("occurred_at", .str operation.occurredAt.str),
  ("quantity", Json.opt .int operation.quantity),
  ("sequence", .int operation.sequence),
  ("source_label_code", .str operation.sourceLabelCode)]

def OfflineOperation.digest (lib : Primitives) (operation : OfflineOperation) : String :=
  canonicalDigest lib operation.json

def optionalLabelCode (lib : Primitives) (value : String) : Except LogisticsError String :=
  if value = "" then .ok "" else normalizedLabelCode lib value

/-- The loop body that normalizes the operation at an index. -/
def normalizedOperation (lib : Primitives) (receivedAt : Int) (index : Nat)
    (operation : OfflineOperationInput) : Except LogisticsError OfflineOperation := do
  require (0 ≤ operation.expectedSubjectSequence)
    (.invalid s!"operations.{index}.expected_subject_sequence" "Enter a non-negative subject sequence.")
  require (operation.occurredAt.instant ≤ receivedAt)
    (.invalid s!"operations.{index}.occurred_at" "Offline time cannot be in the future.")
  if hq : ∀ q ∈ operation.quantity, 0 ≤ q ∧ q ≤ maxTrackedQuantity then
    let labelCode ← normalizedLabelCode lib operation.labelCode
    let sourceLabelCode ← optionalLabelCode lib operation.sourceLabelCode
    let destinationLabelCode ← optionalLabelCode lib operation.destinationLabelCode
    match hc : normalizedText lib operation.observedCondition
      s!"operations.{index}.observed_condition" 120 false true with
    | .error e => throw e
    | .ok observedCondition => return {
        sequence := operation.sequence.toNat, idempotencyKey := operation.idempotencyKey,
        expectedSubjectSequence := operation.expectedSubjectSequence.toNat, action := operation.action, labelCode,
        occurredAt := operation.occurredAt, sourceLabelCode, destinationLabelCode, quantity := operation.quantity,
        observedCondition, quantity_nonneg := fun q hm => (hq q hm).1, condition_text := btrim_normalizedText hc }
  else throw (.invalid s!"operations.{index}.quantity" "Enter a bounded quantity.")

namespace Catalog

def activeLabel? (catalog : Catalog) (organizationId : Uuid) (code : String) : Option LogisticsLabel :=
  (catalog.labels.get? (organizationId, code)).filter fun label => label.lifecycle = .active

/-- The node of the active label with a code. -/
def labelledNode? (catalog : Catalog) (organizationId : Uuid) (code : String) : Option Uuid :=
  ((catalog.activeLabel? organizationId code).filter fun label => label.subject.kind = .node).map (·.subject.objectId)

/-- The node of an end of the route, if its label is given; nothing if that label is not there. -/
def routeLabel? (catalog : Catalog) (organizationId : Uuid) (code : String) : Option (Option Uuid) :=
  if code = "" then some none else (catalog.labelledNode? organizationId code).map some

end Catalog

/-! ## The guards of the database -/

/-- The existing row under the guard of a reviewed operation: what it says
could still be appended. -/
def remainsAppendable (catalog : Catalog) (custody : Custody) (organizationId editionId : Uuid)
    (operation : OfflineScanOperation) : Bool :=
  match catalog.activeLabel? organizationId operation.labelCode with
  | none => false
  | some label =>
    let subject := catalog.subject? label.subject
    let node := subject.bind (·.node?)
    let lot := subject.bind (·.lot?)
    let state := (custody.currentStates.get? label.subject).filter fun state => state.organizationId = organizationId
    let current := (state.bind (·.currentNodeId)).bind catalog.nodes.get?
    let source :=
      if operation.sourceLabelCode = "" then none
      else (catalog.labelledNode? organizationId operation.sourceLabelCode).bind catalog.nodes.get?
    let destination :=
      if operation.destinationLabelCode = "" then none
      else (catalog.labelledNode? organizationId operation.destinationLabelCode).bind catalog.nodes.get?
    (subject.any fun subject => subject.organizationId = organizationId && inEdition editionId subject.allocationId) &&
    (current.all fun node => node.isIn organizationId editionId) &&
    (operation.sourceLabelCode = "" || source.any fun node => node.isIn organizationId editionId) &&
    (operation.destinationLabelCode = "" || destination.any fun node => node.isIn organizationId editionId) &&
    (operation.expectedSubjectSequence = (state.map (·.eventSequence)).getD 0) &&
    ((state.isNone && operation.action = .receive) || (state.isSome && operation.action != .receive)) &&
    (operation.sourceLabelCode = "" || source.any fun node => state.bind (·.currentNodeId) = some node.id) &&
    ((operation.action.moves && destination.isSome) ||
      ((operation.action ∈ [.count, .condition, .damage] : Bool) && operation.sourceLabelCode = "" &&
        operation.destinationLabelCode = "") ||
      (operation.action = .return && destination.isSome)) &&
    (node.all fun subject => destination.all fun destination => containable subject.kind destination.kind) &&
    (node.all fun subject => destination.all fun destination =>
      subject.id ∉ custody.ancestors destination.id && (custody.ancestors destination.id).length <
        maxContainmentDepth) &&
    (!(operation.action ∈ [.receive, .damage] : Bool) || btrim operation.observedCondition != "") &&
    (match lot with
      | some lot => operation.quantity.any fun quantity =>
          (operation.action = .receive && quantity ≤ lot.initialQuantity) || operation.action = .count ||
          (!(operation.action ∈ [.receive, .count] : Bool) && state.bind (·.quantityOnHand) = some quantity)
      | none => operation.quantity.all fun quantity => quantity = 1)

/-- `maru_validate_logistics_evidence_scope` on an inserted operation. -/
def guardOperation (store : Store) (operation : OfflineScanOperation) : Except LogisticsError Unit := do
  let batch ← getOr (.integrity "offline Logistics operation scope mismatch")
    (store.uploads.batches.get? operation.batchId)
  require (batch.status = .pending ∧ 1 ≤ operation.sequence ∧
      operation.sequence ≤ batch.operationCount ∧ operation.occurredAt ≤ batch.createdAt ∧
      (operation.appliedEventId.all fun id => (store.custody.events.get? id).any fun event =>
        event.organizationId = batch.organizationId && event.editionId = batch.editionId) ∧
      operation.discrepancyId.all fun id => (store.custody.discrepancies.get? id).any fun discrepancy =>
        discrepancy.organizationId = batch.organizationId && discrepancy.editionId = batch.editionId)
    (.integrity "offline Logistics operation scope mismatch")
  require (operation.result = .review → operation.reasonCode = "logistics_offline_state_conflict" →
      remainsAppendable store.catalog store.custody batch.organizationId batch.editionId operation = false)
    (.integrity "offline state-conflict review remains appendable")

/-- The same guard on a new batch. -/
def guardBatch (world : World) (sur : Surroundings) (custody : Custody) (batch : OfflineScanBatch) :
    Except LogisticsError Unit := do
  require (batch.createdAt < batch.expiresAt ∧ world.accountKind batch.submittedById = .person ∧
      sur.isActive batch.submittedById ∧
      batch.snapshotVersion ≤ (((custody.controls.get? batch.editionId).filter fun control =>
        control.organizationId = batch.organizationId).map (·.aggregateVersion)).getD 0)
    (.integrity "offline Logistics batch snapshot or lifetime is invalid")
  require (world.editionOrganization batch.editionId = some batch.organizationId)
    (.integrity "offline Logistics batch scope mismatch")

/-- The operation is unsettled: it needs someone to look at it. -/
def OfflineScanOperation.isOpen (operation : OfflineScanOperation) : Bool :=
  !(operation.result ∈ [.applied, .duplicate] : Bool) || operation.discrepancyId.isSome

/-- The same guard on a batch that is closed. -/
def guardBatchClosure (sur : Surroundings) (uploads : Uploads) (batch : OfflineScanBatch) : Except LogisticsError Unit :=
  let operations := uploads.operations.filter fun operation => operation.batchId = batch.id
  require (sur.now < batch.expiresAt ∧ operations.length = batch.operationCount ∧
      (∀ operation ∈ operations, 1 ≤ operation.sequence ∧ operation.sequence ≤ batch.operationCount) ∧
      (operations.any fun operation => operation.sequence = 1) ∧
      (operations.any fun operation => operation.sequence = batch.operationCount) ∧
      batch.status = if operations.any (·.isOpen) then .review else .applied)
    (.integrity "offline Logistics batch must close one complete reconciliation")

/-! ## One operation -/

/-- `OfflineScanOperation.objects.create`, with the unique constraints of `full_clean`. -/
def Store.createOperation (store : Store) (operation : OfflineScanOperation) : Except LogisticsError Store := do
  require (store.uploads.operations.all fun other =>
    ¬ (other.batchId = operation.batchId ∧ other.sequence = operation.sequence))
    (.invalid "__all__" "log_offline_batch_seq_uq")
  require (store.uploads.operations.all fun other =>
      ¬ (other.batchId = operation.batchId ∧ other.idempotencyKey = operation.idempotencyKey))
    (.invalid "__all__" "log_offline_batch_key_uq")
  require (operation.result = .duplicate ∨ operation.appliedEventId = none ∨ store.uploads.operations.all fun other =>
      ¬ (other.result ≠ .duplicate ∧ other.appliedEventId = operation.appliedEventId))
    (.invalid "__all__" "log_offline_event_nondup_uq")
  require (operation.result = .duplicate ∨ operation.discrepancyId = none ∨ store.uploads.operations.all fun other =>
      ¬ (other.result ≠ .duplicate ∧ other.discrepancyId = operation.discrepancyId))
    (.invalid "__all__" "log_offline_discrepancy_nondup_uq")
  guardOperation store operation
  return { store with uploads := { store.uploads with operations := store.uploads.operations ++ [operation] } }

/-- What is settled about an operation. -/
structure Verdict where
  result : OperationResult
  reasonCode : String
  appliedEventId : Option Uuid
  discrepancyId : Option Uuid
deriving DecidableEq

/-- The operation of a batch, as it is kept. -/
def OfflineOperation.row (lib : Primitives) (operation : OfflineOperation) (batchId : Uuid)
    (verdict : Verdict) : OfflineScanOperation where
  batchId := batchId
  sequence := operation.sequence
  idempotencyKey := operation.idempotencyKey
  expectedSubjectSequence := operation.expectedSubjectSequence
  action := operation.action
  labelCode := operation.labelCode
  sourceLabelCode := operation.sourceLabelCode
  destinationLabelCode := operation.destinationLabelCode
  quantity := operation.quantity
  observedCondition := operation.observedCondition
  occurredAt := operation.occurredAt.instant
  operationDigest := operation.digest lib
  result := verdict.result
  reasonCode := verdict.reasonCode
  appliedEventId := verdict.appliedEventId
  discrepancyId := verdict.discrepancyId

/-- `LogisticsDiscrepancy.objects.create` for an operation that is not applied: it is about the
label's subject, or about the batch where the label is not known. -/
def Store.createConflict (store : Store) (world : World) (batch : OfflineScanBatch) (label : Option LogisticsLabel)
    (id : Uuid) (description : String) : Except LogisticsError Store := do
  let custody ← store.custody.writeDiscrepancy world {
    id, organizationId := batch.organizationId, editionId := batch.editionId, kind := .offlineConflict,
    subject := (label.map (·.subject)).getD ⟨.node, batch.id⟩, description }
  return { store with custody }

/-- `except (...)`: the errors of a movement that make it a conflict. -/
def LogisticsError.isConflict : LogisticsError → Bool
  | .containmentCycle | .resourceUnavailable | .stateConflict | .versionConflict | .invalid _ _ => true
  | .authorizationDenied | .retryConflict | .integrity _ => false

/-- The movement of an operation whose labels are known. -/
def OfflineOperation.movement (operation : OfflineOperation) (subject : SubjectLocator)
    (source destination : Option Uuid) : Movement where
  eventType := operation.action
  subject := subject
  occurredAt := operation.occurredAt
  sourceNodeId := source
  destinationNodeId := destination
  quantity := operation.quantity
  conditionAfter := operation.observedCondition
  quantity_nonneg := operation.quantity_nonneg
  one_custodian := Movement.no_custodian
  condition_text := operation.condition_text

/-- The references of an operation: its subject and the ends of its route. -/
def OfflineOperation.references (operation : OfflineOperation) (catalog : Catalog)
    (organizationId : Uuid) : Option (SubjectLocator × Option Uuid × Option Uuid) := do
  let label ← catalog.activeLabel? organizationId operation.labelCode
  let source ← catalog.routeLabel? organizationId operation.sourceLabelCode
  let destination ← catalog.routeLabel? organizationId operation.destinationLabelCode
  return (label.subject, source, destination)

/-- How an operation is made: who uploads it in which batch, and the identifiers drawn for it. -/
structure OperationContext where
  actorId : Uuid
  reason : String
  eventId : Uuid
  discrepancyId : Uuid

def OperationContext.movement (context : OperationContext) (batch : OfflineScanBatch) : MovementContext where
  actorId := context.actorId
  organizationId := batch.organizationId
  editionId := batch.editionId
  reason := context.reason
  sourceChannel := "offline"
  eventId := context.eventId
  discrepancyId := context.discrepancyId

/-- A new operation: applied, or kept with a discrepancy. -/
def Store.settleOperation (store : Store) (world : World) (sur : Surroundings) (batch : OfflineScanBatch)
    (context : OperationContext) (operation : OfflineOperation) : Except LogisticsError (Store × Verdict) :=
  match operation.references store.catalog batch.organizationId with
  | some (subject, source, destination) =>
    match store.appendMovementEvent world sur (context.movement batch)
        (operation.movement subject source destination) operation.expectedSubjectSequence with
    | .ok (store, record) =>
      .ok (store, ⟨.applied, "logistics_offline_applied", some record.event.id, record.discrepancy.map (·.id)⟩)
    | .error e =>
      if e.isConflict then do
        let store ← store.createConflict world batch
          (store.catalog.activeLabel? batch.organizationId operation.labelCode)
          context.discrepancyId "Offline scan conflicts with the current subject projection."
        return (store, ⟨.review, "logistics_offline_state_conflict", none, some context.discrepancyId⟩)
      else .error e
  | none => do
    let store ← store.createConflict world batch (store.catalog.activeLabel? batch.organizationId operation.labelCode)
      context.discrepancyId "Offline scan contains an unknown or invalid label."
    return (store, ⟨.review, "logistics_offline_label_unavailable", none, some context.discrepancyId⟩)

/-- An operation whose key has a receipt. -/
def Store.repeatOperation (store : Store) (world : World) (lib : Primitives) (batch : OfflineScanBatch)
    (context : OperationContext) (operation : OfflineOperation) (prior : OfflineOperationReceipt) :
    Except LogisticsError (Store × Verdict) :=
  if prior.organizationId = batch.organizationId ∧ prior.editionId = batch.editionId ∧
      prior.operationDigest = operation.digest lib then
    .ok (store, ⟨.duplicate, "logistics_offline_duplicate", prior.appliedEventId, prior.discrepancyId⟩)
  else do
    let store ← store.createConflict world batch (store.catalog.activeLabel? batch.organizationId operation.labelCode)
      context.discrepancyId "Offline idempotency evidence conflicts with prior use."
    return (store, ⟨.review, "logistics_offline_idempotency_conflict", none, some context.discrepancyId⟩)

/-- `OfflineOperationReceipt.objects.create` -/
def Store.createOperationReceipt (store : Store) (lib : Primitives) (batch : OfflineScanBatch)
    (operation : OfflineOperation) (verdict : Verdict) : Except LogisticsError Store := do
  let receipts ← getOr (.invalid "idempotency_key" "Offline operation receipt with this Idempotency key already exists.")
    (store.uploads.receipts.insert? {
      organizationId := batch.organizationId, editionId := batch.editionId, idempotencyKey := operation.idempotencyKey,
      operationDigest := operation.digest lib, result := verdict.result, reasonCode := verdict.reasonCode,
      appliedEventId := verdict.appliedEventId, discrepancyId := verdict.discrepancyId })
  return { store with uploads := { store.uploads with receipts } }

/-- The loop body of the reconciliation. -/
def Store.ingestOperation (store : Store) (world : World) (lib : Primitives) (sur : Surroundings)
    (batch : OfflineScanBatch)
    (context : OperationContext) (operation : OfflineOperation) : Except LogisticsError Store :=
  match store.uploads.receipts.get? operation.idempotencyKey with
  | some prior => do
    let (store, verdict) ← store.repeatOperation world lib batch context operation prior
    store.createOperation (operation.row lib batch.id verdict)
  | none => do
    let (store, verdict) ← store.settleOperation world sur batch context operation
    let store ← store.createOperationReceipt lib batch operation verdict
    store.createOperation (operation.row lib batch.id verdict)

/-! ## The batch -/

structure OfflineBatchInput where
  editionId : Uuid
  deviceCode : String
  snapshotVersion : Int
  policyVersion : String
  expiresAt : Moment
  operations : List OfflineOperationInput

/-- A batch whose input has been normalized. -/
structure OfflineBatch where
  deviceCode : String
  policyVersion : String
  reason : String
  operations : List OfflineOperation

/-- The checks of the input, in their order. -/
def normalizedBatch (lib : Primitives) (sur : Surroundings) (request : Request)
    (input : OfflineBatchInput) : Except LogisticsError OfflineBatch := do
  require (sur.now < input.expiresAt.instant) (.invalid "expires_at" "The offline snapshot has expired.")
  require (0 ≤ input.snapshotVersion) (.invalid "snapshot_version" "Enter a non-negative version.")
  require (1 ≤ input.operations.length ∧ input.operations.length ≤ maxOfflineOperations)
    (.invalid "operations" "Submit 1 to 500 operations.")
  require (input.operations.map (·.sequence) = (List.range' 1 input.operations.length).map fun n => (n : Int))
    (.invalid "operations" "Offline operation sequences must be contiguous and ordered.")
  let deviceCode ← normalizedText lib input.deviceCode "device_code" 96 true true
  let policyVersion ← normalizedText lib input.policyVersion "policy_version" 64 true true
  let reason ← normalizedReason lib request.reason
  let _ ← normalizedSourceChannel request.sourceChannel
  let operations ← input.operations.zipIdx.mapM fun (operation, index) =>
    normalizedOperation lib sur.now index operation
  return { deviceCode, policyVersion, reason, operations }

/-- `canonical_digest(payload)` -/
def OfflineBatch.digest (lib : Primitives) (batch : OfflineBatch) (input : OfflineBatchInput) : String :=
  canonicalDigest lib [
    ("device_code", .str batch.deviceCode), ("edition_id", Json.uuid input.editionId),
    ("expires_at", .str input.expiresAt.value.isoformat),
    ("operations", .arr (batch.operations.map fun operation => .obj operation.json)),
    ("policy_version", .str batch.policyVersion), ("reason", .str batch.reason),
    ("snapshot_version", .int input.snapshotVersion)]

/-- The identifiers of an operation are drawn by its place in the batch. -/
def operationContext (sur : Surroundings) (request : Request) (batch : OfflineBatch)
    (operation : OfflineOperation) : OperationContext :=
  ⟨request.actorId, batch.reason, sur.newId (2 * operation.sequence), sur.newId (2 * operation.sequence + 1)⟩

/-- `OfflineScanBatch.objects.create`, after the edition's control is there and knows the snapshot.
-/
def Store.openBatch (store : Store) (world : World) (sur : Surroundings) (request : Request) (input : OfflineBatchInput)
    (batch : OfflineBatch) : Except LogisticsError (Store × OfflineScanBatch) := do
  let (custody, control) ← store.custody.ensureControl world request.organizationId input.editionId
  require (input.snapshotVersion ≤ control.aggregateVersion)
    (.invalid "snapshot_version" "The snapshot version is not known centrally.")
  let row : OfflineScanBatch := {
    id := sur.newId 1, organizationId := request.organizationId, editionId := input.editionId,
    snapshotVersion := input.snapshotVersion.toNat, expiresAt := input.expiresAt.instant,
    operationCount := batch.operations.length, submittedById := request.actorId, createdAt := sur.now }
  guardBatch world sur custody row
  let batches ← getOr (.integrity "logistics_offlinescanbatch_pkey") (store.uploads.batches.insert? row)
  return ({ store with custody, uploads := { store.uploads with batches } }, row)

/-- The batch is closed: for review if one of its operations is open. -/
def Store.closeBatch (store : Store) (sur : Surroundings) (row : OfflineScanBatch) : Except LogisticsError Store := do
  let needsReview := (store.uploads.operations.filter fun operation => operation.batchId = row.id).any (·.isOpen)
  let closed := { row with status := if needsReview then .review else .applied, aggregateVersion := 2 }
  guardBatchClosure sur store.uploads closed
  return { store with uploads := { store.uploads with batches := store.uploads.batches.save closed } }

/-- The events and discrepancies that a transaction inserted. -/
def Custody.insertedSince (before after : Custody) : List LogisticsEvent × List LogisticsDiscrepancy :=
  (after.events.rows.drop before.events.rows.length, after.discrepancies.rows.drop before.discrepancies.rows.length)

/-- The reconciliation of a batch that has no receipt. -/
def Store.reconcileBatch (store : Store) (world : World) (lib : Primitives) (sur : Surroundings) (request : Request)
    (input : OfflineBatchInput) (batch : OfflineBatch) : Except LogisticsError (Store × Uuid × Nat) := do
  let (opened, row) ← store.openBatch world sur request input batch
  let ingested ← batch.operations.foldlM (fun store operation =>
    store.ingestOperation world lib sur row (operationContext sur request batch operation) operation) opened
  let closed ← ingested.closeBatch sur row
  let (events, discrepancies) := store.custody.insertedSince closed.custody
  closed.commit events discrepancies
  return (closed, row.id, 2)

/-- `ingest_offline_scan_batch` -/
def Store.ingestOfflineScanBatch (store : Store) (world : World) (lib : Primitives)
    (sur : Surroundings) (request : Request)
    (input : OfflineBatchInput) : Except LogisticsError (Store × LogisticsCommandResult) := do
  editionContext world sur request input.editionId "logistics.reconcile_offline"
  let batch ← normalizedBatch lib sur request input
  store.command sur request "offline.ingest" (batch.digest lib input) <|
    store.reconcileBatch world lib sur request input batch

end Maru.Logistics
