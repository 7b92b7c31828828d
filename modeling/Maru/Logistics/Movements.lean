import Maru.Logistics.Guards

/-!
# Movements

`logistics/services.py`: `_append_movement_event` and what it is made of. `planMovement` is
what it checks and computes before it writes: the event, the projection that replaces the
current one, and the discrepancy that goes with them. `recordMovement` writes the three and
advances the edition's control; there the guards of the database are asked.
-/

namespace Maru.Logistics

structure MovementInput where
  eventType : EventType
  subject : SubjectLocator
  occurredAt : Moment
  sourceNodeId : Option Uuid := none
  destinationNodeId : Option Uuid := none
  toCustodianAccountId : Option Uuid := none
  toCustodianPartyId : Option Uuid := none
  quantity : Option Int := none
  conditionBefore : String := ""
  conditionAfter : String := ""
  manifestId : Option Uuid := none
  evidenceReference : String := ""

def MovementInput.hasRecipient (movement : MovementInput) : Bool :=
  movement.toCustodianAccountId.isSome || movement.toCustodianPartyId.isSome

/-- A movement as `_append_movement_event` is given it, by any of its callers. -/
structure Movement extends MovementInput where
  quantity_nonneg : ∀ q ∈ quantity, 0 ≤ q
  one_custodian : toCustodianAccountId = none ∨ toCustodianPartyId = none
  condition_text : conditionAfter = "" ∨ btrim conditionAfter ≠ ""

/-- A movement that names no custodian names at most one. -/
theorem Movement.no_custodian : (none : Option Uuid) = none ∨ (none : Option Uuid) = none := .inl rfl

def maxTrackedQuantity : Int := 1000000000

/-- `_normalized_movement` -/
def normalizedMovement (lib : Primitives) (movement : MovementInput) : Except LogisticsError Movement := do
  if h : movement.toCustodianAccountId = none ∨ movement.toCustodianPartyId = none then
    if hq : ∀ q ∈ movement.quantity, 0 ≤ q ∧ q ≤ maxTrackedQuantity then
      let before ← normalizedText lib movement.conditionBefore "condition_before" 120 false true
      match hc : normalizedText lib movement.conditionAfter "condition_after" 120 false true with
      | .error e => throw e
      | .ok after =>
        let reference ← normalizedText lib movement.evidenceReference "evidence_reference" 1000
        return {
          movement with
          conditionBefore := before, conditionAfter := after, evidenceReference := reference
          quantity_nonneg := fun q hm => (hq q hm).1, one_custodian := h, condition_text := btrim_normalizedText hc }
    else throw (.invalid "quantity" "Enter a bounded non-negative quantity.")
  else throw (.invalid "custodian" "Select a person or external party, not both.")

/-! ## What a movement looks up -/

def LogisticsNode.isIn (node : LogisticsNode) (organizationId editionId : Uuid) : Bool :=
  node.organizationId = organizationId && inEdition editionId node.editionId

/-- `_lock_subject` -/
def Catalog.lockSubject (catalog : Catalog) (organizationId : Uuid) (locator : SubjectLocator) :
    Except LogisticsError TrackedSubject :=
  getOr .resourceUnavailable ((catalog.subject? locator).filter fun subject => subject.organizationId = organizationId)

/-- `_require_subject_available_in_edition` -/
def requireSubjectAvailableInEdition (subject : TrackedSubject) (editionId : Uuid) : Except LogisticsError Unit :=
  require (inEdition editionId subject.allocationId) .resourceUnavailable

/-- The node of an end of the route, where one is given. -/
def Catalog.routeNode (catalog : Catalog) (organizationId editionId : Uuid) :
    Option Uuid → Except LogisticsError (Option LogisticsNode)
  | none => .ok none
  | some id => do
    let node ← getOr .resourceUnavailable ((catalog.nodes.get? id).filter fun node => node.isIn organizationId editionId)
    return some node

/-- `_lock_eligible_logistics_person` -/
def lockEligibleLogisticsPerson (world : World) (sur : Surroundings) (catalog : Catalog) (actorId organizationId : Uuid)
    (editionId : Option Uuid) (accountId : Uuid) (extraEligibleId : Option Uuid :=
      none) : Except LogisticsError Unit := do
  require (sur.isActive accountId ∧ world.accountKind accountId = .person) .resourceUnavailable
  require (accountId = actorId ∨ extraEligibleId = some accountId ∨ sur.isAssigned accountId organizationId editionId ∨
    catalog.hasOffer accountId organizationId editionId) .resourceUnavailable

/-- `_NODE_PARENT_KINDS` -/
def nodeParentKinds : NodeKind → List NodeKind
  | .storageSite => []
  | .storageArea => [.storageSite, .venueRoom]
  | .rack => [.storageArea, .container]
  | .container => [.storageSite, .storageArea, .vehicle, .loadingZone, .stagingArea, .venueRoom]
  | .box => [.storageArea, .rack, .container, .box, .vehicle, .loadingZone, .stagingArea, .venueRoom]
  | .vehicle => [.storageSite, .loadingZone, .stagingArea]
  | .loadingZone => [.storageSite, .venueRoom]
  | .stagingArea => [.storageSite, .loadingZone, .venueRoom]
  | .venueRoom => []

/-- `_validate_parent_kind` -/
def validateParentKind (subject : TrackedSubject) (destination : Option LogisticsNode) : Except LogisticsError Unit :=
  require (∀ node ∈ subject.node?, ∀ d ∈ destination, d.kind ∈ nodeParentKinds node.kind)
    (.invalid "destination_node_id" "That node type cannot contain this subject.")

/-- `_assert_acyclic_destination` -/
def Custody.assertAcyclicDestination (custody : Custody) (subject : TrackedSubject)
    (destination : Option LogisticsNode) : Except LogisticsError Unit :=
  require (∀ node ∈ subject.node?, ∀ d ∈ destination,
      d.id ≠ node.id ∧ Forest.ascend custody.container? maxContainmentDepth [node.id] (some d.id))
    .containmentCycle

/-! ## Manifests -/

def Catalog.manifestLine? (catalog : Catalog) (manifestId : Uuid) (subject : SubjectLocator) :
    Option LogisticsManifestLine :=
  catalog.manifestLines.get? (manifestId, subject)

/-- `_canonical_manifest_movement` -/
def Catalog.canonicalManifestMovement (catalog : Catalog) (organizationId editionId : Uuid)
    (movement : Movement) : Except LogisticsError Movement :=
  match movement.manifestId with
  | none => .ok movement
  | some manifestId => do
    let manifest ← getOr .resourceUnavailable ((catalog.manifests.get? manifestId).filter fun manifest =>
      manifest.organizationId = organizationId && manifest.editionId = editionId)
    let line ← getOr .resourceUnavailable (catalog.manifestLine? manifest.id movement.subject)
    return { movement with evidenceReference := line.reference }

/-- `route_matches`; `origin` is where the subject is. -/
def LogisticsManifest.routeMatches (manifest : LogisticsManifest) (line : LogisticsManifestLine)
    (movement : MovementInput) (origin : Option Uuid) : Bool :=
  let destination := line.packedInNodeId <|> manifest.destinationNodeId
  let carries := manifest.kind ∈ [.outbound, .transfer, .return]
  (movement.eventType = .receive && (manifest.kind ∈ [.inbound, .stageReceiving] : Bool) &&
    movement.sourceNodeId.isNone &&
      destination.isSome && movement.destinationNodeId = destination) ||
    (movement.eventType = .load && carries && manifest.sourceNodeId.isSome && manifest.vehicleId.isSome &&
      origin = manifest.sourceNodeId && movement.destinationNodeId = manifest.vehicleId) ||
    (movement.eventType = .unload && carries && manifest.vehicleId.isSome && destination.isSome &&
      origin = manifest.vehicleId && movement.destinationNodeId = destination) ||
    (movement.eventType = .return && manifest.kind = .return && manifest.sourceNodeId.isSome && destination.isSome &&
      origin = manifest.sourceNodeId && movement.destinationNodeId = destination)

/-- The manifest that a movement names is sealed, and declares the movement. -/
def Catalog.requireManifest (catalog : Catalog) (organizationId editionId : Uuid)
    (movement : MovementInput) (origin : Option Uuid) : Except LogisticsError Unit :=
  match movement.manifestId with
  | none => .ok ()
  | some manifestId => do
    let manifest ← getOr .resourceUnavailable ((catalog.manifests.get? manifestId).filter fun manifest =>
      manifest.organizationId = organizationId && manifest.editionId = editionId &&
      (manifest.status ∈ [.sealed, .completed] : Bool))
    let line ← getOr .resourceUnavailable (catalog.manifestLine? manifest.id movement.subject)
    require (movement.evidenceReference = line.reference) .resourceUnavailable
    require (manifest.routeMatches line movement origin) .resourceUnavailable

/-! ## The append -/

/-- `_event_state` -/
def eventState (eventType : EventType) (currentState : Option CustodyState) : CustodyState :=
  if eventType = .load then .inTransit
  else if eventType = .handover then .issued
  else if eventType = .return then .returned
  else if eventType ∈ [.receive, .pack, .unpack, .move, .unload] then .stored
  else currentState.getD .received

/-- The quantity that the projection has afterwards. -/
def newQuantity (subject : TrackedSubject) (current : Option LogisticsCurrentState)
    (movement : MovementInput) : Except LogisticsError (Option Int) :=
  match subject.lot? with
  | some lot => do
    let quantity ← getOr (.invalid "quantity" "Stock-lot events require a quantity.") movement.quantity
    if movement.eventType = .receive then
      require (quantity ≤ lot.initialQuantity) (.invalid "quantity" "Received quantity exceeds the registered lot.")
    else if movement.eventType ≠ .count then
      require (some quantity = current.bind (·.quantityOnHand))
        (.invalid "quantity" "Move the complete lot or create a separately tracked lot.")
    return some quantity
  | none => do
    require (∀ q ∈ movement.quantity, q = 1) (.invalid "quantity" "Serialized items have quantity one.")
    return none

structure RecordedMovement where
  event : LogisticsEvent
  state : LogisticsCurrentState
  discrepancy : Option LogisticsDiscrepancy

/-- Who records a movement, and how. -/
structure MovementContext where
  actorId : Uuid
  organizationId : Uuid
  editionId : Uuid
  reason : String
  sourceChannel : String
  eventId : Uuid
  discrepancyId : Uuid

/-- The person who takes custody, where one is named. -/
def lockCustodian (world : World) (sur : Surroundings) (catalog : Catalog) (context : MovementContext)
    (subject : TrackedSubject) : Option Uuid → Except LogisticsError Unit
  | none => .ok ()
  | some accountId =>
    lockEligibleLogisticsPerson world sur catalog context.actorId context.organizationId
      (some context.editionId) accountId subject.ownerAccountId

/-- The discrepancy that an event leaves. -/
def movementDiscrepancy (context : MovementContext) (movement : MovementInput)
    (priorQuantity newQuantity : Option Int) : Option LogisticsDiscrepancy :=
  let discrepancy (kind : DiscrepancyKind) (description : String) : LogisticsDiscrepancy := {
    id := context.discrepancyId, organizationId := context.organizationId, editionId := context.editionId, kind,
    subject := movement.subject, expectedQuantity := priorQuantity, observedQuantity := newQuantity, description,
    detectedEventId := some context.eventId }
  if movement.eventType = .count ∧ priorQuantity ≠ none ∧ newQuantity ≠ priorQuantity then
    some (discrepancy .count "Observed stock count differs from prior projection.")
  else if movement.eventType = .damage then
    some (discrepancy .damage "Damage was recorded during logistics handling.")
  else none

/-- The event and projection that a movement from `current` leads to. -/
def movementRecord (context : MovementContext) (movement : MovementInput) (current : Option LogisticsCurrentState)
    (priorQuantity newQuantity : Option Int) : RecordedMovement :=
  let priorNode := current.bind (·.currentNodeId)
  let replaces := movement.eventType = .handover ∨ movement.eventType = .return ∨ movement.hasRecipient
  let account := if replaces then movement.toCustodianAccountId else current.bind (·.custodianAccountId)
  let party := if replaces then movement.toCustodianPartyId else current.bind (·.custodianPartyId)
  let priorCondition := (current.map (·.condition)).getD ""
  let condition := if movement.conditionAfter = "" then priorCondition else movement.conditionAfter
  let sequence := (current.map (·.eventSequence)).getD 0 + 1
  { event := {
      id := context.eventId, organizationId := context.organizationId, editionId := context.editionId,
      subject := movement.subject, eventType := movement.eventType, eventSequence := sequence,
      sourceNodeId := movement.sourceNodeId <|> priorNode, destinationNodeId := movement.destinationNodeId,
      fromCustodianAccountId := current.bind (·.custodianAccountId), toCustodianAccountId := account,
      fromCustodianPartyId := current.bind (·.custodianPartyId), toCustodianPartyId := party,
      quantity := movement.quantity, conditionBefore := priorCondition, conditionAfter := condition,
      manifestId := movement.manifestId, actorId := context.actorId, occurredAt := movement.occurredAt.instant,
      reason := context.reason, evidenceReference := movement.evidenceReference,
      sourceChannel := context.sourceChannel }
    state := {
      organizationId := context.organizationId, subject := movement.subject,
      currentNodeId :=
        if movement.eventType.moves ∨ movement.eventType = .return then movement.destinationNodeId else priorNode,
      custodianAccountId := account, custodianPartyId := party, quantityOnHand := newQuantity, condition,
      state := eventState movement.eventType (current.map (·.state)), eventSequence := sequence,
      lastEventId := context.eventId }
    discrepancy := movementDiscrepancy context movement priorQuantity newQuantity }

/-- The constraint under which a subject's events have different numbers. -/
def SubjectKind.sequenceConstraint : SubjectKind → String
  | .asset => "log_asset_event_seq_uq"
  | .stockLot => "log_lot_event_seq_uq"
  | .key => "log_key_event_seq_uq"
  | .node => "log_node_event_seq_uq"

/-- `_append_movement_event`, up to its writes. -/
def planMovement (world : World) (sur : Surroundings) (catalog : Catalog) (custody : Custody) (context : MovementContext)
    (movement : Movement) (expectedSequence : Nat) : Except LogisticsError RecordedMovement := do
  let subject ← catalog.lockSubject context.organizationId movement.subject
  requireSubjectAvailableInEdition subject context.editionId
  let current := custody.currentStates.get? movement.subject
  let priorNode := current.bind (·.currentNodeId)
  let _ ← catalog.routeNode context.organizationId context.editionId priorNode
  let _ ← catalog.routeNode context.organizationId context.editionId movement.sourceNodeId
  let destination ← catalog.routeNode context.organizationId context.editionId movement.destinationNodeId
  require (expectedSequence = (current.map (·.eventSequence)).getD 0) .versionConflict
  require (current = none ↔ movement.eventType = .receive) .stateConflict
  require (movement.sourceNodeId = none ∨ movement.sourceNodeId = priorNode) .stateConflict
  require (movement.eventType.moves → destination ≠ none)
    (.invalid "destination_node_id" "This event requires a destination.")
  require (movement.eventType.stays → movement.sourceNodeId = none ∧ movement.destinationNodeId = none)
    (.invalid "destination_node_id" "This event does not move the tracked subject.")
  require (movement.eventType = .handover → movement.hasRecipient)
    (.invalid "custodian" "Handover requires one recipient.")
  require (movement.eventType = .return → destination ≠ none ∨ movement.hasRecipient)
    (.invalid "destination_node_id" "Return requires a destination or recipient.")
  validateParentKind subject destination
  custody.assertAcyclicDestination subject destination
  lockCustodian world sur catalog context subject movement.toCustodianAccountId
  require (movement.toCustodianPartyId.all fun id =>
    catalog.isActivePartyOf context.organizationId id) .resourceUnavailable
  catalog.requireManifest context.organizationId context.editionId movement.toMovementInput
    (movement.sourceNodeId <|> priorNode)
  let priorCondition := (current.map (·.condition)).getD ""
  require (movement.conditionBefore = "" ∨ movement.conditionBefore = priorCondition) .stateConflict
  require (current = none → movement.conditionAfter ≠ "")
    (.invalid "condition_after" "Receiving requires a condition.")
  require (movement.eventType = .damage → movement.conditionAfter ≠ "")
    (.invalid "condition_after" "Damage requires the new condition.")
  let quantity ← newQuantity subject current movement.toMovementInput
  let priorQuantity := if subject.lot?.isSome then current.bind (·.quantityOnHand) else none
  let record := movementRecord context movement.toMovementInput current priorQuantity quantity
  -- `full_clean` of the event: its unique constraints.
  require (custody.events.rows.all fun event =>
      ¬ (event.subject = movement.subject ∧ event.eventSequence = record.event.eventSequence))
    (.invalid "__all__" movement.subject.kind.sequenceConstraint)
  require (movement.manifestId = none ∨ custody.events.rows.all fun event => ¬ (event.manifestId = movement.manifestId ∧
      event.evidenceReference = movement.evidenceReference ∧ event.eventType = movement.eventType))
    (.invalid "__all__" "log_manifest_event_line_type_uq")
  return record

namespace Custody

/-- The projection is written: a new row for a subject received, else over the row it has. -/
def writeState (custody : Custody) (world : World) (catalog : Catalog)
    (state : LogisticsCurrentState) : Except LogisticsError Custody := do
  let prior := custody.currentStates.get? state.subject
  guardCurrentState world catalog custody prior state
  guardStateIdentity prior state
  match prior with
  | none => do
    let currentStates ← getOr (.integrity "logistics_logisticscurrentstate_key") (custody.currentStates.insert? state)
    return { custody with currentStates }
  | some _ => return { custody with currentStates := custody.currentStates.save state }

def writeDiscrepancy (custody : Custody) (world : World) (discrepancy : LogisticsDiscrepancy) :
    Except LogisticsError Custody := do
  guardDiscrepancy world custody discrepancy
  let discrepancies ← getOr (.integrity "logistics_logisticsdiscrepancy_pkey")
    (custody.discrepancies.insert? discrepancy)
  return { custody with discrepancies }

/-- The discrepancy of a movement, where it has one. -/
def writeExplanation (custody : Custody) (world : World) : Option LogisticsDiscrepancy → Except LogisticsError Custody
  | none => .ok custody
  | some discrepancy => custody.writeDiscrepancy world discrepancy

/-- `LogisticsEditionControl.objects.get_or_create`. -/
def ensureControl (custody : Custody) (world : World) (organizationId editionId : Uuid) :
    Except LogisticsError (Custody × LogisticsEditionControl) :=
  match custody.controls.get? editionId with
  | some control => .ok (custody, control)
  | none => do
    let control : LogisticsEditionControl := { organizationId, editionId }
    guardControl world control
    let controls ← getOr (.integrity "logistics_logisticseditioncontrol_edition_id_key")
      (custody.controls.insert? control)
    return ({ custody with controls }, control)

def advanceControl (custody : Custody) (world : World) (organizationId editionId : Uuid) :
    Except LogisticsError Custody := do
  let (custody, control) ← custody.ensureControl world organizationId editionId
  let advanced := { control with aggregateVersion := control.aggregateVersion + 1 }
  guardControl world advanced
  return { custody with controls := custody.controls.save advanced }

/-- The writes of `_append_movement_event`. -/
def recordMovement (custody : Custody) (world : World) (sur : Surroundings) (catalog : Catalog)
    (record : RecordedMovement) : Except LogisticsError Custody := do
  guardEvent world sur catalog custody record.event
  let events ← getOr (.integrity "logistics_logisticsevent_pkey") (custody.events.insert? record.event)
  let logged := { custody with events }
  let projected ← logged.writeState world catalog record.state
  let explained ← projected.writeExplanation world record.discrepancy
  explained.advanceControl world record.event.organizationId record.event.editionId

end Custody

/-- `_append_movement_event` -/
def appendMovementEvent (world : World) (sur : Surroundings) (catalog : Catalog) (custody : Custody)
    (context : MovementContext) (movement : Movement) (expectedSequence : Nat) :
    Except LogisticsError (Custody × RecordedMovement) := do
  let record ← planMovement world sur catalog custody context movement expectedSequence
  let custody ← custody.recordMovement world sur catalog record
  return (custody, record)

end Maru.Logistics
