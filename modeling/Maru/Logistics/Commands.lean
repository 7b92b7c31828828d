import Maru.Framework.Machine
import Maru.Logistics.Movements

/-!
# Commands and their receipts

`logistics/services.py`: what every command shares. A command checks its actor's authority,
normalizes its input, and looks for the receipt of an earlier run with the same content;
only when there is none does it act and keep a receipt (`Store.command`). The two commands
that record one movement stand here.
-/

namespace Maru.Logistics

structure LogisticsCommandResult where
  objectId : Uuid
  receiptId : Uuid
  resultingVersion : Nat
  replayed : Bool

/-- `_command_result` -/
def LogisticsCommandReceipt.result (receipt : LogisticsCommandReceipt) (replayed : Bool) : LogisticsCommandResult :=
  ⟨receipt.resultObjectId, receipt.id, receipt.resultingVersion, replayed⟩

/-- What every command is given. -/
structure Request where
  actorId : Uuid
  organizationId : Uuid
  reason : String
  idempotencyKey : Uuid
  sourceChannel : String := "web"

/-! ## Authority -/

/-- `_require_actor` -/
def requireActor (world : World) (sur : Surroundings) (actorId : Uuid)
    (personOnly : Bool := false) : Except LogisticsError Unit :=
  require (sur.isActive actorId ∧ world.accountKind actorId ≠ .platformAdministrator ∧
    (personOnly → world.accountKind actorId = .person)) .authorizationDenied

/-- `_organization_context` -/
def organizationContext (world : World) (sur : Surroundings) (request : Request)
    (capability : String) : Except LogisticsError Unit := do
  requireActor world sur request.actorId
  require (sur.allows request.actorId capability (.organization request.organizationId)) .authorizationDenied

/-- The edition, with the target at which its capability is asked for. -/
def editionTarget (world : World) (sur : Surroundings) (request : Request) (editionId : Uuid)
    (capability : String) (target : Target) : Except LogisticsError Unit := do
  require (world.editionOrganization editionId = some request.organizationId) .authorizationDenied
  require (sur.allows request.actorId capability target) .authorizationDenied

/-- `_edition_context` -/
def editionContext (world : World) (sur : Surroundings) (request : Request) (editionId : Uuid)
    (capability : String) : Except LogisticsError Unit := do
  requireActor world sur request.actorId
  editionTarget world sur request editionId capability (.edition request.organizationId editionId)

/-- `_catalog_context` -/
def catalogContext (world : World) (sur : Surroundings) (request : Request)
    (editionId : Option Uuid) : Except LogisticsError Unit :=
  match editionId with
  | some id => editionContext world sur request id "logistics.manage_catalog"
  | none => organizationContext world sur request "logistics.manage_catalog"

/-- `_self_context` -/
def selfContext (world : World) (sur : Surroundings) (request : Request) (editionId : Uuid) :
    Except LogisticsError Unit := do
  requireActor world sur request.actorId true
  editionTarget world sur request editionId "logistics.offer_self"
    (.self request.actorId request.organizationId editionId)

/-- `_manifest_context`: the target is that of the manifest, while its department is open. -/
def manifestContext (world : World) (sur : Surroundings) (catalog : Catalog) (request : Request)
    (editionId manifestId : Uuid) : Except LogisticsError Unit := do
  requireActor world sur request.actorId
  let manifest ← getOr .authorizationDenied ((catalog.manifests.get? manifestId).filter fun manifest =>
    manifest.organizationId = request.organizationId && manifest.editionId = editionId &&
      sur.isOpenDepartment request.organizationId editionId manifest.responsibleDepartmentId)
  editionTarget world sur request editionId "logistics.manage_manifest"
    (.manifest request.organizationId editionId manifest.responsibleDepartmentId manifestId)

/-! ## Receipts -/

namespace Store

/-- `_existing_receipt` -/
def existingReceipt (store : Store) (request : Request) (operation digest : String) :
    Except LogisticsError (Option LogisticsCommandReceipt) :=
  match store.receipts.get? (request.actorId, operation, request.idempotencyKey) with
  | none => .ok none
  | some receipt => do
    require (receipt.organizationId = request.organizationId ∧ receipt.requestDigest = digest) .retryConflict
    return some receipt

/-- `_append_evidence` -/
def appendEvidence (store : Store) (sur : Surroundings) (request : Request) (operation digest : String) (objectId : Uuid)
    (version : Nat) : Except LogisticsError (Store × LogisticsCommandResult) := do
  let receipt : LogisticsCommandReceipt := {
    id := sur.newId 0, organizationId := request.organizationId, operation, actorId := request.actorId,
    idempotencyKey := request.idempotencyKey, requestDigest := digest, resultingVersion := version,
    resultObjectId := objectId }
  let receipts ← getOr (.integrity "log_command_idempotency_uq") (store.receipts.insert? receipt)
  return ({ store with receipts }, receipt.result false)

/-- From the lookup of the receipt on: the recorded result, or what the command does with a new one.
-/
def command (store : Store) (sur : Surroundings) (request : Request) (operation digest : String)
    (act : Except LogisticsError (Store × Uuid × Nat)) : Except LogisticsError (Store × LogisticsCommandResult) := do
  match ← store.existingReceipt request operation digest with
  | some receipt => return (store, receipt.result true)
  | none => do
    let (store, objectId, version) ← act
    store.appendEvidence sur request operation digest objectId version

/-- The deferred triggers, on the events and discrepancies that a transaction inserted. -/
def commit (store : Store) (events : List LogisticsEvent)
    (discrepancies : List LogisticsDiscrepancy) : Except LogisticsError Unit := do
  events.forM fun event => do
    requireEventControl store.custody event
    requireEventProjection store.custody store.uploads event
  discrepancies.forM fun discrepancy => requireDiscrepancyOperation store.custody store.uploads discrepancy

end Store

/-! ## Payloads -/

def Json.uuid (id : Uuid) : Json := .str id.text

def Json.opt {α : Type} (f : α → Json) : Option α → Json
  | some a => f a
  | none => .null

def SubjectLocator.json (subject : SubjectLocator) : Json :=
  .obj [("kind", .str subject.kind.value), ("object_id", Json.uuid subject.objectId)]

/-- `asdict(movement)` -/
def MovementInput.json (movement : MovementInput) : Json := .obj [
  ("condition_after", .str movement.conditionAfter),
  ("condition_before", .str movement.conditionBefore),
  ("destination_node_id", Json.opt Json.uuid movement.destinationNodeId),
  ("event_type", .str movement.eventType.value),
  ("evidence_reference", .str movement.evidenceReference),
  ("manifest_id", Json.opt Json.uuid movement.manifestId),
  ("occurred_at", .str movement.occurredAt.str),
  ("quantity", Json.opt .int movement.quantity),
  ("source_node_id", Json.opt Json.uuid movement.sourceNodeId),
  ("subject", movement.subject.json),
  ("to_custodian_account_id", Json.opt Json.uuid movement.toCustodianAccountId),
  ("to_custodian_party_id", Json.opt Json.uuid movement.toCustodianPartyId)]

/-! ## Recording one movement -/

/-- `_append_movement_event` in a store, with the identifiers it draws. -/
def Store.appendMovementEvent (store : Store) (world : World) (sur : Surroundings) (context : MovementContext)
    (movement : Movement) (expectedSequence : Nat) : Except LogisticsError (Store × RecordedMovement) := do
  let (custody, record) ← Logistics.appendMovementEvent world sur store.catalog store.custody
    context movement expectedSequence
  return ({ store with custody }, record)

/-- A movement recorded by a command of its own, committed with it. -/
def Store.appendAlone (store : Store) (world : World) (sur : Surroundings) (context : MovementContext)
    (movement : Movement) (expectedSequence : Nat) : Except LogisticsError (Store × Uuid × Nat) := do
  let (store, record) ← store.appendMovementEvent world sur context movement expectedSequence
  store.commit [record.event] record.discrepancy.toList
  return (store, record.event.id, record.event.eventSequence)

structure RecordEventInput where
  editionId : Uuid
  movement : MovementInput
  expectedSequence : Int

/-- `record_logistics_event` -/
def Store.recordLogisticsEvent (store : Store) (world : World) (lib : Primitives)
    (sur : Surroundings) (request : Request)
    (input : RecordEventInput) : Except LogisticsError (Store × LogisticsCommandResult) := do
  require (0 ≤ input.expectedSequence) (.invalid "expected_sequence" "Enter a non-negative sequence.")
  editionContext world sur request input.editionId "logistics.manage_operations"
  let movement ← normalizedMovement lib input.movement
  let movement ← store.catalog.canonicalManifestMovement request.organizationId input.editionId movement
  let reason ← normalizedReason lib request.reason
  let sourceChannel ← normalizedSourceChannel request.sourceChannel
  let digest := canonicalDigest lib [
    ("edition_id", Json.uuid input.editionId), ("expected_sequence", .int input.expectedSequence),
    ("movement", movement.json), ("reason", .str reason)]
  store.command sur request "event.record" digest <|
    store.appendAlone world sur
      { actorId := request.actorId, organizationId := request.organizationId, editionId := input.editionId, reason,
        sourceChannel, eventId := sur.newId 1, discrepancyId := sur.newId 2 }
      movement input.expectedSequence.toNat

structure ManifestReceiptInput where
  editionId : Uuid
  manifestId : Uuid
  lineId : Uuid
  expectedSequence : Int
  occurredAt : Moment
  conditionAfter : String

/-- The movement of a manifest line that is received. -/
def receiptMovement (manifest : LogisticsManifest) (line : LogisticsManifestLine) (occurredAt : Moment)
    (conditionAfter : String) (text : conditionAfter = "" ∨ btrim conditionAfter ≠ "")
      (destination : Uuid) : Movement where
  eventType := .receive
  subject := line.subject
  occurredAt := occurredAt
  destinationNodeId := some destination
  quantity := if line.subject.kind = .stockLot then some line.quantity else none
  conditionAfter := conditionAfter
  manifestId := some manifest.id
  evidenceReference := line.reference
  quantity_nonneg := by
    intro q hq
    split at hq
    · cases hq
      exact Int.le_trans (by decide) line.quantity_pos
    · cases hq
  one_custodian := Movement.no_custodian
  condition_text := text

/-- `record_manifest_receipt` -/
def Store.recordManifestReceipt (store : Store) (world : World) (lib : Primitives)
    (sur : Surroundings) (request : Request)
    (input : ManifestReceiptInput) : Except LogisticsError (Store × LogisticsCommandResult) := do
  require (0 ≤ input.expectedSequence) (.invalid "expected_sequence" "Enter a non-negative sequence.")
  manifestContext world sur store.catalog request input.editionId input.manifestId
  let manifest ← getOr .resourceUnavailable ((store.catalog.manifests.get? input.manifestId).filter fun manifest =>
    manifest.organizationId = request.organizationId && manifest.editionId = input.editionId &&
    (manifest.kind ∈ [.inbound, .stageReceiving] : Bool) && (manifest.status ∈ [.sealed, .completed] : Bool))
  let line ← getOr .resourceUnavailable (store.catalog.manifestLines.rows.find? fun line =>
    line.id = input.lineId && line.manifestId = manifest.id)
  let destination ← getOr .resourceUnavailable (line.packedInNodeId <|> manifest.destinationNodeId)
  match h : normalizedText lib input.conditionAfter "condition_after" 120 true true with
  | .error e => throw e
  | .ok condition => do
    let reason ← normalizedReason lib request.reason
    let sourceChannel ← normalizedSourceChannel request.sourceChannel
    let digest := canonicalDigest lib [
      ("condition_after", .str condition), ("expected_sequence", .int input.expectedSequence),
      ("line_id", Json.uuid line.id), ("manifest_id", Json.uuid manifest.id),
      ("occurred_at", .str input.occurredAt.str), ("reason", .str reason)]
    store.command sur request "manifest.receive" digest <|
      store.appendAlone world sur
        { actorId := request.actorId, organizationId := request.organizationId, editionId := input.editionId, reason,
          sourceChannel, eventId := sur.newId 1, discrepancyId := sur.newId 2 }
        (receiptMovement manifest line input.occurredAt condition (btrim_normalizedText h) destination)
        input.expectedSequence.toNat

end Maru.Logistics
