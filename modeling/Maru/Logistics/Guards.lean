import Maru.Framework.Forest
import Maru.Logistics.Inputs

/-!
# The guards of the database

`logistics/migrations/0002_logistics_write_integrity.py`: the triggers on events, the
projection, discrepancies and edition controls. A trigger that raises is a failure with its
message; the deferred ones run when the transaction commits.
-/

namespace Maru.Logistics

def maxContainmentDepth : Nat := 128

namespace EventType

/-- `'receive', 'pack', 'unpack', 'move', 'load', 'unload'` -/
def moves : EventType → Bool
  | receive | pack | unpack | move | load | unload => true
  | _ => false

/-- `'count', 'condition', 'damage', 'handover'` -/
def stays : EventType → Bool
  | count | condition | damage | handover => true
  | _ => false

/-- `'receive', 'handover', 'return'` -/
def transfersCustody : EventType → Bool
  | receive | handover | «return» => true
  | _ => false

end EventType

/-- `edition_id IS NULL OR edition_id = ...` -/
def inEdition (editionId : Uuid) (allocation : Option Uuid) : Bool :=
  allocation = none ∨ allocation = some editionId

/-- `CASE subject.kind WHEN ... THEN destination.kind IN (...)` -/
def containable : NodeKind → NodeKind → Bool
  | .storageSite, _ => false
  | .storageArea, d => d ∈ [.storageSite, .venueRoom]
  | .rack, d => d ∈ [.storageArea, .container]
  | .container, d => d ∈ [.storageSite, .storageArea, .vehicle, .loadingZone, .stagingArea, .venueRoom]
  | .box, d => d ∈ [.storageArea, .rack, .container, .box, .vehicle, .loadingZone, .stagingArea, .venueRoom]
  | .vehicle, d => d ∈ [.storageSite, .loadingZone, .stagingArea]
  | .loadingZone, d => d ∈ [.storageSite, .venueRoom]
  | .stagingArea, d => d ∈ [.storageSite, .loadingZone, .venueRoom]
  | .venueRoom, _ => false

namespace Catalog

def isNodeOf (catalog : Catalog) (organizationId id : Uuid) : Bool :=
  (catalog.nodes.get? id).any fun node => node.organizationId = organizationId

def isNodeInEdition (catalog : Catalog) (organizationId editionId id : Uuid) : Bool :=
  (catalog.nodes.get? id).any fun node =>
    node.organizationId = organizationId && inEdition editionId node.editionId

def isPartyOf (catalog : Catalog) (organizationId id : Uuid) : Bool :=
  (catalog.parties.get? id).any fun party => party.organizationId = organizationId

def isActivePartyOf (catalog : Catalog) (organizationId id : Uuid) : Bool :=
  (catalog.parties.get? id).any fun party => party.organizationId = organizationId && party.lifecycle = .active

/-- An offer by the account in the organization, in the edition if one is given. -/
def hasOffer (catalog : Catalog) (accountId organizationId : Uuid) (editionId : Option Uuid) : Bool :=
  catalog.offers.rows.any fun offer => offer.offeredById = accountId && offer.organizationId =
    organizationId && editionId.all fun id => offer.editionId = id

end Catalog

/-- `maru_logistics_person_is_eligible` -/
def personIsEligible (world : World) (sur : Surroundings) (catalog : Catalog)
    (accountId actorId organizationId editionId : Uuid) : Bool :=
  world.accountKind accountId = .person && sur.isActive accountId &&
    (accountId = actorId || sur.isAssigned accountId organizationId (some editionId) ||
      catalog.hasOffer accountId organizationId (some editionId))

/-! ## Events -/

/-- The route that a manifest declares for a line. -/
def LogisticsManifest.declaresRoute (manifest : LogisticsManifest) (line : LogisticsManifestLine)
    (eventType : EventType) (source destination : Option Uuid) : Bool :=
  let arrival := line.packedInNodeId <|> manifest.destinationNodeId
  let carries := manifest.kind ∈ [.outbound, .transfer, .return]
  (eventType = .receive && (manifest.kind ∈ [.inbound, .stageReceiving] : Bool) && source.isNone &&
      arrival.isSome && destination = arrival) ||
    (eventType = .load && carries && manifest.sourceNodeId.isSome && manifest.vehicleId.isSome &&
      source = manifest.sourceNodeId && destination = manifest.vehicleId) ||
    (eventType = .unload && carries && manifest.vehicleId.isSome && arrival.isSome &&
      source = manifest.vehicleId && destination = arrival) ||
    (eventType = .return && manifest.kind = .return && manifest.sourceNodeId.isSome && arrival.isSome &&
      source = manifest.sourceNodeId && destination = arrival)

/-- The manifest that an event names is sealed and has a line for it. -/
def Catalog.backsEvent (catalog : Catalog) (event : LogisticsEvent) (manifestId : Uuid) : Bool :=
  (catalog.manifests.get? manifestId).any fun manifest =>
    manifest.organizationId = event.organizationId && manifest.editionId = event.editionId &&
    (manifest.status ∈ [.sealed, .completed] : Bool) &&
    catalog.manifestLines.rows.any fun line =>
      line.manifestId = manifestId && line.subject = event.subject &&
      (line.subject.kind != .stockLot || event.quantity = some line.quantity) &&
      event.evidenceReference = line.reference &&
      manifest.declaresRoute line event.eventType event.sourceNodeId event.destinationNodeId

/-- The projection that the event follows on. -/
def Custody.precedes (custody : Custody) (event : LogisticsEvent) (p : LogisticsCurrentState → Bool) : Bool :=
  (custody.currentStates.get? event.subject).any fun state =>
    state.organizationId = event.organizationId && state.eventSequence + 1 = event.eventSequence && p state

/-- The receiving party is active, or keeps what it has. -/
def receivesAsParty (catalog : Catalog) (custody : Custody) (event : LogisticsEvent) (partyId : Uuid) : Bool :=
  catalog.isPartyOf event.organizationId partyId &&
    (catalog.isActivePartyOf event.organizationId partyId ||
      (!event.eventType.transfersCustody && custody.precedes event fun state => state.custodianPartyId = some partyId))

/-- The receiving account is an eligible person or the owner, or keeps what it has. -/
def receivesAsAccount (world : World) (sur : Surroundings) (catalog : Catalog) (custody : Custody)
    (event : LogisticsEvent) (accountId : Uuid) : Bool :=
  world.accountKind accountId = .person &&
    ((sur.isActive accountId &&
        (personIsEligible world sur catalog accountId event.actorId event.organizationId event.editionId ||
          (catalog.subject? event.subject).any fun subject => subject.ownerAccountId = some accountId)) ||
      (!event.eventType.transfersCustody && custody.precedes event fun state =>
        state.custodianAccountId = some accountId))

/-- `maru_validate_logistics_evidence_scope` on an inserted event. -/
def guardEvent (world : World) (sur : Surroundings) (catalog : Catalog) (custody : Custody)
    (event : LogisticsEvent) : Except LogisticsError Unit := do
  require (world.editionOrganization event.editionId = some event.organizationId)
    (.integrity "Logistics event edition scope mismatch")
  require ((catalog.subject? event.subject).any fun subject =>
      subject.organizationId = event.organizationId && inEdition event.editionId subject.allocationId)
    (.integrity "Logistics event subject exact scope mismatch")
  require ((event.sourceNodeId.all fun id => catalog.isNodeInEdition event.organizationId event.editionId id) ∧
      event.destinationNodeId.all fun id => catalog.isNodeInEdition event.organizationId event.editionId id)
    (.integrity "Logistics event location scope mismatch")
  require (event.manifestId.all fun id => catalog.backsEvent event id)
    (.integrity "Logistics event manifest subject or declared route mismatch")
  require ((event.fromCustodianAccountId = none ∨ event.fromCustodianPartyId = none) ∧
      (event.toCustodianAccountId = none ∨ event.toCustodianPartyId = none) ∧
      (event.fromCustodianPartyId.all fun id => catalog.isPartyOf event.organizationId id) ∧
      (event.toCustodianPartyId.all fun id => receivesAsParty catalog custody event id) ∧
      (event.fromCustodianAccountId.all fun id => world.accountKind id = .person) ∧
      event.toCustodianAccountId.all fun id => receivesAsAccount world sur catalog custody event id)
    (.integrity "Logistics event custodian scope mismatch")
  require (if event.subject.kind = .stockLot then event.quantity ≠ none else ∀ q ∈ event.quantity,
    q = 1) (.integrity "Logistics event quantity shape mismatch")
  require (event.eventType = .receive → ∀ lot ∈ (catalog.subject? event.subject).bind (·.lot?),
      ∀ q ∈ event.quantity, q ≤ lot.initialQuantity)
    (.integrity "received stock quantity exceeds its registered lot")
  require (event.eventType.moves → event.destinationNodeId ≠ none)
    (.integrity "moving Logistics event requires a destination")
  require (event.eventType.stays → event.destinationNodeId = none)
    (.integrity "non-moving Logistics event cannot have a destination")
  require (event.eventType = .handover → event.toCustodianAccountId ≠ none ∨
    event.toCustodianPartyId ≠ none) (.integrity "handover requires a recipient")
  require (event.eventType = .return →
      event.destinationNodeId ≠ none ∨ event.toCustodianAccountId ≠ none ∨ event.toCustodianPartyId ≠ none)
    (.integrity "return requires a destination or recipient")
  require (btrim event.conditionAfter ≠ "") (.integrity "Logistics events require a resulting condition")
  require (event.eventType = .receive → event.eventSequence = 1)
    (.integrity "receive is only valid as the first Logistics event")
  if event.eventSequence = 1 then
    require (event.eventType = .receive ∧ event.sourceNodeId = none ∧ event.fromCustodianAccountId = none ∧
        event.fromCustodianPartyId = none ∧ event.conditionBefore = "" ∧
        custody.currentStates.get? event.subject = none)
      (.integrity "first Logistics event must receive an untracked subject")
  else
    require (custody.precedes event fun state =>
        state.currentNodeId = event.sourceNodeId && state.custodianAccountId = event.fromCustodianAccountId &&
        state.custodianPartyId = event.fromCustodianPartyId && state.condition = event.conditionBefore &&
        (event.subject.kind != .stockLot || event.eventType = .count || state.quantityOnHand = event.quantity))
      (.integrity "Logistics event does not continue its prior projection")

/-! ## The projection -/

/-- `CASE WHEN event.event_type ...` -/
def eventCustody (eventType : EventType) (prior : Option CustodyState) : CustodyState :=
  match eventType with
  | .load => .inTransit
  | .handover => .issued
  | .return => .returned
  | .receive | .pack | .unpack | .move | .unload => .stored
  | .count | .condition | .damage => prior.getD .received

/-- The projection says what its last event recorded. -/
def LogisticsCurrentState.matchesEvent (state : LogisticsCurrentState)
    (prior : Option LogisticsCurrentState) (event : LogisticsEvent) : Bool :=
  event.organizationId = state.organizationId && event.subject = state.subject &&
    event.eventSequence = state.eventSequence &&
    state.currentNodeId = (if event.eventType.moves || event.eventType = .return then event.destinationNodeId
      else event.sourceNodeId) &&
    event.toCustodianAccountId = state.custodianAccountId && event.toCustodianPartyId = state.custodianPartyId &&
    event.conditionAfter = state.condition &&
    (state.subject.kind != .stockLot || event.quantity = state.quantityOnHand) &&
    state.state = eventCustody event.eventType (prior.map (·.state))

/-- The `ancestors` of a node: it and what it is in, as far as the recursion goes. -/
def Custody.ancestors (custody : Custody) (nodeId : Uuid) : List Uuid :=
  Forest.lineage custody.container? maxContainmentDepth (some nodeId)

/-- `maru_guard_logistics_current_state` on the row that replaces `prior`, or is new. -/
def guardCurrentState (world : World) (catalog : Catalog) (custody : Custody) (prior : Option LogisticsCurrentState)
    (state : LogisticsCurrentState) : Except LogisticsError Unit := do
  require (∀ old ∈ prior, state.subject = old.subject ∧ state.eventSequence = old.eventSequence + 1)
    (.integrity "current Logistics projection advances one event for one subject")
  require ((state.custodianAccountId = none ∨ state.custodianPartyId = none) ∧
      (state.subject.kind = .stockLot ↔ state.quantityOnHand ≠ none))
    (.integrity "current Logistics state subject, custody, or quantity shape mismatch")
  require (((catalog.subject? state.subject).any fun subject => subject.organizationId = state.organizationId) ∧
      (state.currentNodeId.all fun id => catalog.isNodeOf state.organizationId id) ∧
      (state.custodianPartyId.all fun id => catalog.isPartyOf state.organizationId id) ∧
      state.custodianAccountId.all fun id => world.accountKind id = .person)
    (.integrity "current Logistics state tenant scope mismatch")
  require ((custody.events.get? state.lastEventId).any fun event => state.matchesEvent prior event)
    (.integrity "current Logistics state does not match its last event")
  match state.subject.kind, state.currentNodeId with
  | .node, some nodeId => do
    require ((catalog.nodes.get? state.subject.objectId).any fun subject =>
        subject.organizationId = state.organizationId && (catalog.nodes.get? nodeId).any fun destination =>
          destination.organizationId = state.organizationId && containable subject.kind destination.kind)
      (.integrity "Logistics node containment type mismatch")
    require (state.subject.objectId ∉ custody.ancestors nodeId ∧ (custody.ancestors nodeId).length < maxContainmentDepth)
      (.integrity "Logistics containment graph must remain acyclic and bounded")
  | _, _ => return ()

/-- `maru_guard_logistics_entity_identity` on the projection. -/
def guardStateIdentity (prior : Option LogisticsCurrentState) (state : LogisticsCurrentState) :
    Except LogisticsError Unit :=
  match prior with
  | none => require (state.eventSequence = 1) (.integrity "current Logistics projection must start at event one")
  | some old => require (state.organizationId = old.organizationId)
      (.integrity "Logistics identity and tenant scope are immutable")

/-! ## Discrepancies and controls -/

/-- The event of the same lot before an event. -/
def Custody.priorLotEvent? (custody : Custody) (event : LogisticsEvent) : Option LogisticsEvent :=
  custody.events.rows.find? fun prior =>
    event.subject.kind = .stockLot && prior.subject = event.subject && prior.eventSequence + 1 = event.eventSequence

/-- The discrepancy says what its event found. -/
def Custody.explains (custody : Custody) (event : LogisticsEvent) (discrepancy : LogisticsDiscrepancy) : Bool :=
  let prior := custody.priorLotEvent? event
  (discrepancy.kind = .count && event.eventType = .count && event.subject.kind = .stockLot && prior.isSome &&
      prior.bind (·.quantity) != event.quantity && discrepancy.expectedQuantity = prior.bind (·.quantity) &&
      discrepancy.observedQuantity = event.quantity) ||
    (discrepancy.kind = .damage && event.eventType = .damage &&
      if event.subject.kind = .stockLot then
        discrepancy.expectedQuantity = prior.bind (·.quantity) && discrepancy.observedQuantity = event.quantity
      else discrepancy.expectedQuantity = none && discrepancy.observedQuantity = none)

def guardDiscrepancy (world : World) (custody : Custody) (discrepancy : LogisticsDiscrepancy) :
    Except LogisticsError Unit := do
  require (world.editionOrganization discrepancy.editionId = some discrepancy.organizationId ∧
      discrepancy.detectedEventId.all fun id => (custody.events.get? id).any fun event =>
        event.organizationId = discrepancy.organizationId && event.editionId =
          discrepancy.editionId && event.subject = discrepancy.subject)
    (.integrity "Logistics discrepancy exact scope mismatch")
  require (discrepancy.kind = .count ∨ discrepancy.kind = .damage → discrepancy.detectedEventId ≠ none)
    (.integrity "count and damage discrepancies require source events")
  require (discrepancy.detectedEventId.all fun id =>
      (custody.events.get? id).any fun event => custody.explains event discrepancy)
    (.integrity "Logistics discrepancy does not match its source event")

def guardControl (world : World) (control : LogisticsEditionControl) : Except LogisticsError Unit :=
  require (world.editionOrganization control.editionId = some control.organizationId)
    (.integrity "Logistics edition control scope mismatch")

/-! ## At commit -/

def Custody.editionEvents (custody : Custody) (organizationId editionId : Uuid) : Nat :=
  custody.events.rows.countP fun event => event.organizationId = organizationId && event.editionId = editionId

/-- `maru_require_logistics_manifest_binding` for an event: its edition's control counts it. -/
def requireEventControl (custody : Custody) (event : LogisticsEvent) : Except LogisticsError Unit :=
  require ((custody.controls.get? event.editionId).any fun control => control.organizationId = event.organizationId &&
      control.aggregateVersion = custody.editionEvents event.organizationId event.editionId)
    (.integrity "Logistics event requires matching edition control version")

/-- `maru_require_logistics_event_projection` for an event. -/
def requireEventProjection (custody : Custody) (uploads : Uploads) (event : LogisticsEvent) :
    Except LogisticsError Unit := do
  require (event.sourceChannel = "offline" → (uploads.operations.countP fun operation =>
      operation.appliedEventId = some event.id && operation.result != .duplicate) = 1)
    (.integrity "offline event requires one canonical operation")
  require ((custody.events.rows.any fun successor => successor.organizationId = event.organizationId &&
        successor.subject = event.subject && event.eventSequence < successor.eventSequence) ∨
      (custody.currentStates.get? event.subject).any fun state => state.organizationId = event.organizationId &&
        state.eventSequence = event.eventSequence && state.lastEventId = event.id)
    (.integrity "Logistics event requires its resulting current-state projection")
  require (event.eventType = .count → ((custody.priorLotEvent? event).any fun prior => prior.quantity ≠ event.quantity) →
      custody.discrepancies.rows.any fun discrepancy => discrepancy.detectedEventId = some event.id &&
        discrepancy.organizationId = event.organizationId && discrepancy.editionId = event.editionId &&
        discrepancy.kind = .count && discrepancy.subject = event.subject &&
        discrepancy.expectedQuantity = (custody.priorLotEvent? event).bind (·.quantity) &&
        discrepancy.observedQuantity = event.quantity)
    (.integrity "changed Logistics count requires discrepancy evidence")
  require (event.eventType = .damage → custody.discrepancies.rows.any fun discrepancy =>
      discrepancy.detectedEventId = some event.id && discrepancy.organizationId = event.organizationId &&
        discrepancy.editionId = event.editionId && discrepancy.kind = .damage && discrepancy.subject = event.subject)
    (.integrity "Logistics damage requires discrepancy evidence")

/-- `maru_require_logistics_event_projection` for a discrepancy. -/
def requireDiscrepancyOperation (custody : Custody) (uploads : Uploads)
    (discrepancy : LogisticsDiscrepancy) : Except LogisticsError Unit :=
  require (discrepancy.kind = .offlineConflict ∨
      (discrepancy.detectedEventId.bind custody.events.get?).any (fun event => event.sourceChannel = "offline") →
      (uploads.operations.countP fun operation =>
        operation.discrepancyId = some discrepancy.id && operation.result != .duplicate) = 1)
    (.integrity "offline discrepancy requires one canonical operation")

end Maru.Logistics
