import Maru.Logistics.CatalogCommands

/-!
# Manifests and offers

`logistics/services.py`: a manifest is drafted, gets lines, is sealed against what the
projection says, and is completed or cancelled; a person offers equipment, withdraws the
offer, or has it reviewed. `logistics/retention.py` disposes of addresses at the end of
their retention.
-/

namespace Maru.Logistics

def maxManifestLines : Nat := 500

def ManifestKind.value : ManifestKind → String
  | .inbound => "inbound"
  | .outbound => "outbound"
  | .transfer => "transfer"
  | .stageReceiving => "stage_receiving"
  | .return => "return"

/-! ## Drafting -/

structure ManifestLineInput where
  subject : SubjectLocator
  quantity : Int
  packedInNodeId : Option Uuid := none
  notes : String := ""

/-- A line whose input has been checked. -/
structure ManifestLine where
  subject : SubjectLocator
  packedInNodeId : Option Uuid
  quantity : Int
  notes : String
  quantity_pos : 1 ≤ quantity

def ManifestLine.json (line : ManifestLine) : Json := .obj [
  ("notes", .str line.notes), ("packed_in_node_id", Json.opt Json.uuid line.packedInNodeId),
  ("quantity", .int line.quantity), ("subject_id", Json.uuid line.subject.objectId),
  ("subject_kind", .str line.subject.kind.value)]

def ManifestLine.row (line : ManifestLine) (id manifestId : Uuid) : LogisticsManifestLine where
  id := id
  manifestId := manifestId
  subject := line.subject
  packedInNodeId := line.packedInNodeId
  quantity := line.quantity
  quantity_pos := line.quantity_pos

/-- The box, container or vehicle that a line is packed in, where one is named. -/
def Catalog.isPackedIn (catalog : Catalog) (organizationId editionId : Uuid) (nodeId : Option Uuid) : Bool :=
  nodeId.all fun id => (catalog.nodes.get? id).any fun node =>
    node.isIn organizationId editionId && (node.kind ∈ [.box, .container, .vehicle] : Bool)

/-- The loop body over the lines of a new manifest. -/
def manifestLine (lib : Primitives) (catalog : Catalog) (organizationId editionId : Uuid) (lines : List ManifestLine)
    (input : ManifestLineInput × Nat) : Except LogisticsError (List ManifestLine) := do
  let (line, position) := input
  let subject ← catalog.lockSubject organizationId line.subject
  requireSubjectAvailableInEdition subject editionId
  require (line.subject ∉ lines.map (·.subject))
    (.invalid s!"lines.{position}.subject" "A manifest subject appears once.")
  if h : 1 ≤ line.quantity ∧ line.quantity ≤ maxTrackedQuantity ∧ (subject.lot?.isSome ∨ line.quantity = 1) then
    require (catalog.isPackedIn organizationId editionId line.packedInNodeId) .resourceUnavailable
    let notes ← normalizedText lib line.notes s!"lines.{position}.notes" 500 false true
    return lines ++ [⟨line.subject, line.packedInNodeId, line.quantity, notes, h.1⟩]
  else throw (.invalid s!"lines.{position}.quantity" "Enter a valid manifest quantity.")

structure ManifestInput where
  editionId : Uuid
  responsibleDepartmentId : Uuid
  manifestNumber : String
  kind : ManifestKind
  title : String
  sourceNodeId : Option Uuid
  destinationNodeId : Option Uuid
  vehicleId : Option Uuid
  providerId : Option Uuid
  loadingStartsAt : Option Moment
  loadingEndsAt : Option Moment
  lines : List ManifestLineInput

/-- The rows of the lines are inserted in their order. -/
def Catalog.insertLines (catalog : Catalog) (sur : Surroundings) (manifestId : Uuid)
    (lines : List ManifestLine) : Except LogisticsError Catalog :=
  lines.zipIdx.foldlM (fun catalog (line, index) => do
    let manifestLines ← getOr (.integrity "log_manifest_line_uq")
      (catalog.manifestLines.insert? (line.row (sur.newId (2 + index)) manifestId))
    return { catalog with manifestLines }) catalog

/-- `create_logistics_manifest` -/
def Store.createLogisticsManifest (store : Store) (world : World) (lib : Primitives)
    (sur : Surroundings) (request : Request)
    (input : ManifestInput) : Except LogisticsError (Store × LogisticsCommandResult) := do
  editionContext world sur request input.editionId "logistics.manage_operations"
  require (1 ≤ input.lines.length ∧ input.lines.length ≤ maxManifestLines)
    (.invalid "lines" "Create a manifest with 1 to 500 lines.")
  require (sur.isOpenDepartment request.organizationId input.editionId input.responsibleDepartmentId)
    .resourceUnavailable
  require ([input.sourceNodeId, input.destinationNodeId, input.vehicleId].all fun id => id.all fun id =>
    (store.catalog.nodes.get? id).any fun node => node.isIn request.organizationId input.editionId) .resourceUnavailable
  require (input.vehicleId.all fun id => (store.catalog.nodes.get? id).any fun node => node.kind = .vehicle)
    (.invalid "vehicle_id" "Select a tracked vehicle node.")
  require (input.providerId.all fun id => store.catalog.isPartyInRole request.organizationId providerRoles id)
    .resourceUnavailable
  require (input.loadingStartsAt.isSome = input.loadingEndsAt.isSome)
    (.invalid "loading_window" "Enter both loading times or neither.")
  require (∀ starts ∈ input.loadingStartsAt, ∀ ends ∈ input.loadingEndsAt,
    starts.instant < ends.instant) (.invalid "loading_ends_at" "End loading after it starts.")
  let manifestNumber ← normalizedText lib input.manifestNumber "manifest_number" 96 true true
  let title ← normalizedText lib input.title "title" 200 true true
  let reason ← normalizedReason lib request.reason
  let _ ← normalizedSourceChannel request.sourceChannel
  let lines ← input.lines.zipIdx.foldlM (manifestLine lib store.catalog request.organizationId input.editionId) []
  let digest := canonicalDigest lib [
    ("department_id", Json.uuid input.responsibleDepartmentId),
    ("destination_node_id", Json.opt Json.uuid input.destinationNodeId), ("edition_id", Json.uuid input.editionId),
    ("kind", .str input.kind.value), ("lines", .arr (lines.map ManifestLine.json)),
    ("loading_ends_at", Json.opt (fun m => .str m.value.isoformat) input.loadingEndsAt),
    ("loading_starts_at", Json.opt (fun m => .str m.value.isoformat) input.loadingStartsAt),
    ("manifest_number", .str manifestNumber), ("provider_id", Json.opt Json.uuid input.providerId),
    ("reason", .str reason), ("source_node_id", Json.opt Json.uuid input.sourceNodeId), ("title", .str title),
    ("vehicle_id", Json.opt Json.uuid input.vehicleId)]
  store.command sur request "manifest.create" digest do
    require (¬ store.catalog.manifests.rows.any fun manifest => manifest.editionId = input.editionId ∧
      manifest.manifestNumber = manifestNumber) (.invalid "__all__" "log_manifest_number_uq")
    let manifests ← getOr (.integrity "logistics_logisticsmanifest_pkey") (store.catalog.manifests.insert? {
      id := sur.newId 1, organizationId := request.organizationId, editionId := input.editionId,
      responsibleDepartmentId := input.responsibleDepartmentId, manifestNumber, kind := input.kind,
      sourceNodeId := input.sourceNodeId, destinationNodeId := input.destinationNodeId, vehicleId := input.vehicleId,
      lineCount := lines.length })
    let catalog ← { store.catalog with manifests }.insertLines sur (sur.newId 1) lines
    return ({ store with catalog }, sur.newId 1, 1)

/-! ## Changing a draft -/

/-- The manifest of the edition, at the expected version and in the expected status. -/
def Catalog.lockManifest (catalog : Catalog) (request : Request) (editionId manifestId : Uuid) (expectedVersion : Int)
    (status : ManifestStatus) : Except LogisticsError LogisticsManifest := do
  let manifest ← getOr .resourceUnavailable ((catalog.manifests.get? manifestId).filter fun manifest =>
    manifest.organizationId = request.organizationId && manifest.editionId = editionId)
  require (manifest.aggregateVersion = expectedVersion) .versionConflict
  require (manifest.status = status) .stateConflict
  return manifest

structure AddLineInput where
  editionId : Uuid
  manifestId : Uuid
  expectedVersion : Int
  line : ManifestLineInput

/-- What `add_manifest_line` does when it has no receipt. -/
def Store.addLine (store : Store) (sur : Surroundings) (request : Request) (input : AddLineInput)
    (line : ManifestLine) : Except LogisticsError (Store × Uuid × Nat) := do
  let manifest ← store.catalog.lockManifest request input.editionId input.manifestId input.expectedVersion .draft
  require (manifest.lineCount < maxManifestLines) .stateConflict
  let subject ← store.catalog.lockSubject request.organizationId line.subject
  requireSubjectAvailableInEdition subject input.editionId
  require (subject.lot?.isSome ∨ line.quantity = 1)
    (.invalid "line.quantity" "Serialized manifest items have quantity one.")
  require (store.catalog.manifestLine? manifest.id line.subject = none) .stateConflict
  require (store.catalog.isPackedIn request.organizationId input.editionId line.packedInNodeId) .resourceUnavailable
  let manifestLines ← getOr (.integrity "log_manifest_line_uq")
    (store.catalog.manifestLines.insert? (line.row (sur.newId 1) manifest.id))
  let changed := { manifest with
    lineCount := manifest.lineCount + 1, aggregateVersion := manifest.aggregateVersion + 1 }
  return ({ store with catalog := { store.catalog with
    manifestLines, manifests := store.catalog.manifests.save changed } }, manifest.id, changed.aggregateVersion)

/-- `add_manifest_line` -/
def Store.addManifestLine (store : Store) (world : World) (lib : Primitives) (sur : Surroundings) (request : Request)
    (input : AddLineInput) : Except LogisticsError (Store × LogisticsCommandResult) := do
  require (1 ≤ input.expectedVersion) (.invalid "expected_version" "Enter a positive version.")
  manifestContext world sur store.catalog request input.editionId input.manifestId
  let reason ← normalizedReason lib request.reason
  let _ ← normalizedSourceChannel request.sourceChannel
  if h : 1 ≤ input.line.quantity ∧ input.line.quantity ≤ maxTrackedQuantity then
    let notes ← normalizedText lib input.line.notes "line.notes" 500 false true
    let line : ManifestLine := ⟨input.line.subject, input.line.packedInNodeId, input.line.quantity, notes, h.1⟩
    let digest := canonicalDigest lib [
      ("expected_version", .int input.expectedVersion), ("line", line.json), ("manifest_id", Json.uuid input.manifestId),
      ("reason", .str reason)]
    store.command sur request "manifest.line.add" digest (store.addLine sur request input line)
  else throw (.invalid "line.quantity" "Enter a valid manifest quantity.")

/-! ## Sealing, completing and cancelling -/

inductive ManifestAction
  | seal | complete | cancelDraft | cancelSealed
deriving DecidableEq

namespace ManifestAction

def value : ManifestAction → String
  | .seal => "seal"
  | .complete => "complete"
  | .cancelDraft => "cancel_draft"
  | .cancelSealed => "cancel_sealed"

/-- `transitions` -/
def transition : ManifestAction → ManifestStatus × ManifestStatus
  | .seal => (.draft, .sealed)
  | .complete => (.sealed, .completed)
  | .cancelDraft => (.draft, .cancelled)
  | .cancelSealed => (.sealed, .cancelled)

end ManifestAction

/-- The walk of `_state_within_node`. -/
def Custody.reaches (custody : Custody) (expectedNodeId : Uuid) : Nat → List Uuid → Option Uuid → Bool
  | 0, _, _ => false
  | _ + 1, _, none => false
  | n + 1, visited, some id =>
    id = expectedNodeId || (id ∉ visited && custody.reaches expectedNodeId n (id :: visited) (custody.container? id))

/-- `_state_within_node` -/
def Custody.stateWithinNode (custody : Custody) (state : LogisticsCurrentState) (expectedNodeId : Uuid) : Bool :=
  custody.reaches expectedNodeId maxContainmentDepth [] state.currentNodeId

/-- The node, where one is given, is of the edition or of none. -/
def Catalog.routeInEdition (catalog : Catalog) (editionId : Uuid) (nodeId : Option Uuid) : Bool :=
  nodeId.all fun id => (catalog.nodes.get? id).any fun node => inEdition editionId node.editionId

/-- A line that is to leave is where the manifest starts, all of it. -/
def Store.requireDeparture (store : Store) (manifest : LogisticsManifest)
    (line : LogisticsManifestLine) : Except LogisticsError Unit := do
  let state ← getOr .stateConflict (store.custody.currentStates.get? line.subject)
  require (line.subject.kind ≠ .stockLot ∨ state.quantityOnHand = some line.quantity) .stateConflict
  require (manifest.sourceNodeId.all fun id => store.custody.stateWithinNode state id) .stateConflict

/-- What sealing asks of a manifest. -/
def Store.requireSealable (store : Store) (request : Request) (editionId : Uuid)
    (manifest : LogisticsManifest) : Except LogisticsError Unit := do
  let lines := store.catalog.manifestLines.rows.filter fun line => line.manifestId = manifest.id
  require (lines ≠ []) .stateConflict
  require ([manifest.sourceNodeId, manifest.destinationNodeId, manifest.vehicleId].all
    (store.catalog.routeInEdition editionId)) .resourceUnavailable
  lines.forM fun line => do
    require (store.catalog.routeInEdition editionId line.packedInNodeId) .resourceUnavailable
    let subject ← store.catalog.lockSubject request.organizationId line.subject
    requireSubjectAvailableInEdition subject editionId
  if (manifest.kind ∈ [.inbound, .stageReceiving] : Bool) then return
  else lines.forM (store.requireDeparture manifest)

/-- What an action asks of a manifest beside its status. -/
def Store.requireAction (store : Store) (request : Request) (editionId : Uuid)
    (manifest : LogisticsManifest) : ManifestAction → Except LogisticsError Unit
  | .seal => store.requireSealable request editionId manifest
  | .complete | .cancelDraft | .cancelSealed => .ok ()

structure ManifestStateInput where
  editionId : Uuid
  manifestId : Uuid
  expectedVersion : Int
  action : ManifestAction

/-- What `change_manifest_state` does when it has no receipt. -/
def Store.changeStatus (store : Store) (request : Request) (input : ManifestStateInput) :
    Except LogisticsError (Store × Uuid × Nat) := do
  let manifest ← store.catalog.lockManifest request input.editionId input.manifestId
    input.expectedVersion input.action.transition.1
  store.requireAction request input.editionId manifest input.action
  let changed := { manifest with
    status := input.action.transition.2, aggregateVersion := manifest.aggregateVersion + 1 }
  return ({ store with catalog := { store.catalog with manifests := store.catalog.manifests.save changed } },
    manifest.id, changed.aggregateVersion)

/-- `change_manifest_state` -/
def Store.changeManifestState (store : Store) (world : World) (lib : Primitives) (sur : Surroundings) (request : Request)
    (input : ManifestStateInput) : Except LogisticsError (Store × LogisticsCommandResult) := do
  require (1 ≤ input.expectedVersion) (.invalid "expected_version" "Enter a positive version.")
  manifestContext world sur store.catalog request input.editionId input.manifestId
  let reason ← normalizedReason lib request.reason
  let _ ← normalizedSourceChannel request.sourceChannel
  let digest := canonicalDigest lib [
    ("action", .str input.action.value), ("expected_version", .int input.expectedVersion),
    ("manifest_id", Json.uuid input.manifestId), ("reason", .str reason)]
  store.command sur request "manifest.state" digest (store.changeStatus request input)

/-! ## Offers -/

def maxOfferItems : Nat := 100

def maxOfferQuantity : Int := 1000000

def OfferItemKind.value : OfferItemKind → String
  | .serialized => "serialized"
  | .bulk => "bulk"

structure OfferItemInput where
  kind : OfferItemKind
  name : String
  quantity : Int
  description : String := ""
  manufacturer : String := ""
  modelName : String := ""
  serialNumber : String := ""
  condition : String
  valueClass : String := ""
  ownershipStatement : String

/-- The loop body over the items of an offer: the item, with its values for the digest. -/
def offerItem (lib : Primitives) (sur : Surroundings) (input : OfferItemInput × Nat) :
    Except LogisticsError (EquipmentOfferItem × Json) := do
  let (item, position) := input
  require (1 ≤ item.quantity ∧ item.quantity ≤ maxOfferQuantity ∧ (item.kind = .serialized → item.quantity = 1))
    (.invalid s!"items.{position}.quantity" "Enter a valid item quantity.")
  let name ← normalizedText lib item.name s!"items.{position}.name" 200 true true
  let description ← normalizedText lib item.description s!"items.{position}.description" 2000 false true
  let manufacturer ← normalizedText lib item.manufacturer s!"items.{position}.manufacturer" 160 false true
  let modelName ← normalizedText lib item.modelName s!"items.{position}.model_name" 160 false true
  let serialNumber ← normalizedText lib item.serialNumber s!"items.{position}.serial_number" 200 false true
  let condition ← normalizedText lib item.condition s!"items.{position}.condition" 120 true true
  let valueClass ← normalizedText lib item.valueClass s!"items.{position}.value_class" 32 false true
  let ownershipStatement ← normalizedText lib item.ownershipStatement
    s!"items.{position}.ownership_statement" 500 true true
  return (⟨sur.newId (3 + position), item.kind, item.quantity, serialNumber⟩, .obj [
    ("condition", .str condition), ("description", .str description), ("kind", .str item.kind.value),
    ("manufacturer", .str manufacturer), ("model_name", .str modelName), ("name", .str name),
    ("ownership_statement", .str ownershipStatement), ("quantity", .int item.quantity),
    ("serial_number", .str serialNumber), ("value_class", .str valueClass)])

structure OfferInput where
  editionId : Uuid
  title : String
  description : String
  pickupLabel : String
  pickupRecipientName : String
  pickupPostalAddress : String
  pickupAccessInstructions : String
  pickupRetentionUntil : Moment
  availableFrom : Moment
  availableUntil : Moment
  requestedReturnAt : Option Moment
  items : List OfferItemInput

/-- `submit_equipment_offer` -/
def Store.submitEquipmentOffer (store : Store) (world : World) (lib : Primitives)
    (sur : Surroundings) (request : Request)
    (input : OfferInput) : Except LogisticsError (Store × LogisticsCommandResult) := do
  selfContext world sur request input.editionId
  require (sur.takesOffers input.editionId) .resourceUnavailable
  let title ← normalizedText lib input.title "title" 200 true true
  let description ← normalizedText lib input.description "description" 5000
  let label ← normalizedText lib input.pickupLabel "pickup_label" 200 true true
  let recipientName ← normalizedText lib input.pickupRecipientName "pickup_recipient_name" 240 false true
  let postalAddress ← normalizedText lib input.pickupPostalAddress "pickup_postal_address" 1000 true
  let accessInstructions ← normalizedText lib input.pickupAccessInstructions "pickup_access_instructions" 5000
  let reason ← normalizedReason lib request.reason
  let _ ← normalizedSourceChannel request.sourceChannel
  require (input.availableFrom.instant < input.availableUntil.instant)
    (.invalid "available_until" "End availability after it starts.")
  require (input.availableUntil.instant ≤ input.pickupRetentionUntil.instant ∧
      ∀ returns ∈ input.requestedReturnAt, returns.instant ≤ input.pickupRetentionUntil.instant)
    (.invalid "pickup_retention_until" "Retain the pickup address through availability and return.")
  require (∀ returns ∈ input.requestedReturnAt, input.availableFrom.instant ≤ returns.instant)
    (.invalid "requested_return_at" "Return cannot precede availability.")
  require (1 ≤ input.items.length ∧ input.items.length ≤ maxOfferItems)
    (.invalid "items" "Offer between 1 and 100 item lines.")
  let items ← input.items.zipIdx.mapM (offerItem lib sur)
  let digest := canonicalDigest lib [
    ("address", .obj [("access_instructions", .str accessInstructions), ("label", .str label),
      ("postal_address", .str postalAddress), ("recipient_name", .str recipientName)]),
    ("available_from", .str input.availableFrom.value.isoformat),
    ("available_until", .str input.availableUntil.value.isoformat), ("description", .str description),
    ("edition_id", Json.uuid input.editionId), ("items", .arr (items.map (·.2))),
    ("pickup_retention_until", .str input.pickupRetentionUntil.value.isoformat), ("reason", .str reason),
    ("requested_return_at", Json.opt (fun m => .str m.value.isoformat) input.requestedReturnAt), ("title", .str title)]
  store.command sur request "offer.submit" digest do
    let addresses ← getOr (.integrity "logistics_restrictedlogisticsaddress_pkey") (store.catalog.addresses.insert? {
      id := sur.newId 1, organizationId := request.organizationId, editionId := some input.editionId,
      subjectAccountId := some request.actorId, purpose := .pickup,
      retentionUntil := some input.pickupRetentionUntil.instant })
    let offers ← getOr (.integrity "logistics_equipmentoffer_pkey") (store.catalog.offers.insert? {
      id := sur.newId 2, organizationId := request.organizationId, editionId := input.editionId,
      offeredById := request.actorId, pickupAddressId := sur.newId 1, availableFrom := input.availableFrom.instant,
      availableUntil := input.availableUntil.instant,
      requestedReturnAt := input.requestedReturnAt.map (·.instant), items := items.map (·.1) })
    return ({ store with catalog := { store.catalog with addresses, offers } }, sur.newId 2, 1)

structure WithdrawOfferInput where
  editionId : Uuid
  offerId : Uuid
  expectedVersion : Int

/-- What `withdraw_equipment_offer` does when it has no receipt. -/
def Store.withdrawOffer (store : Store) (request : Request) (input : WithdrawOfferInput) :
    Except LogisticsError (Store × Uuid × Nat) := do
  let offer ← getOr .authorizationDenied ((store.catalog.offers.get? input.offerId).filter fun offer =>
    offer.organizationId = request.organizationId && offer.editionId = input.editionId &&
      offer.offeredById = request.actorId)
  require (offer.aggregateVersion = input.expectedVersion) .versionConflict
  require (offer.status = .pending) .stateConflict
  let changed := { offer with status := .withdrawn, aggregateVersion := offer.aggregateVersion + 1 }
  return ({ store with catalog := { store.catalog with offers := store.catalog.offers.save changed } }, offer.id,
    changed.aggregateVersion)

/-- `withdraw_equipment_offer` -/
def Store.withdrawEquipmentOffer (store : Store) (world : World) (lib : Primitives)
    (sur : Surroundings) (request : Request)
    (input : WithdrawOfferInput) : Except LogisticsError (Store × LogisticsCommandResult) := do
  require (1 ≤ input.expectedVersion) (.invalid "expected_version" "Enter a positive version.")
  selfContext world sur request input.editionId
  let reason ← normalizedReason lib request.reason
  let _ ← normalizedSourceChannel request.sourceChannel
  let digest := canonicalDigest lib [
    ("expected_version", .int input.expectedVersion), ("offer_id", Json.uuid input.offerId), ("reason", .str reason)]
  store.command sur request "offer.withdraw" digest (store.withdrawOffer request input)

inductive ReviewOutcome
  | accepted | rejected
deriving DecidableEq

def ReviewOutcome.status : ReviewOutcome → OfferStatus
  | .accepted => .accepted
  | .rejected => .rejected

structure ReviewOfferInput where
  editionId : Uuid
  offerId : Uuid
  expectedVersion : Int
  outcome : ReviewOutcome
  responsibleDepartmentId : Option Uuid

/-- The inventory of an accepted item, with the loan that it comes under. -/
def Catalog.acceptItem (catalog : Catalog) (sur : Surroundings) (offer : EquipmentOffer)
    (item : EquipmentOfferItem × Nat) : Except LogisticsError Catalog := do
  let (item, index) := item
  let id := sur.newId (1 + 2 * index)
  let catalogCode := "offer-" ++ item.id.hex
  let agreement (subject : SubjectLocator) : AssetAgreement := {
    id := sur.newId (2 + 2 * index), subject, startsAt := offer.availableFrom, endsAt := offer.availableUntil,
    returnDueAt := offer.requestedReturnAt.getD offer.availableUntil, returnAddressId := none }
  match item.kind with
  | .serialized => do
    let catalog ← catalog.createAsset {
      id, organizationId := offer.organizationId, editionAllocationId := some offer.editionId, catalogCode,
      serialNumber := item.serialNumber, ownerAccountId := some offer.offeredById }
    return { catalog with agreements := catalog.agreements ++ [agreement ⟨.asset, id⟩] }
  | .bulk => do
    let catalog ← catalog.createStockLot {
      id, organizationId := offer.organizationId, editionAllocationId := some offer.editionId, catalogCode,
      ownerAccountId := some offer.offeredById, initialQuantity := item.quantity }
    return { catalog with agreements := catalog.agreements ++ [agreement ⟨.stockLot, id⟩] }

/-- What an offer that is reviewed brings into the inventory. -/
def Catalog.takeOver (catalog : Catalog) (sur : Surroundings) (offer : EquipmentOffer) :
    ReviewOutcome → Except LogisticsError Catalog
  | .accepted => offer.items.zipIdx.foldlM (fun catalog item => catalog.acceptItem sur offer item) catalog
  | .rejected => .ok catalog

/-- An accepted offer goes to a department, a rejected one to none. -/
def reviewDepartment (sur : Surroundings) (request : Request) (input : ReviewOfferInput) : Except LogisticsError Unit :=
  match input.outcome with
  | .accepted => require (input.responsibleDepartmentId.any fun id =>
      sur.isOpenDepartment request.organizationId input.editionId id) .resourceUnavailable
  | .rejected => require (input.responsibleDepartmentId = none)
      (.invalid "responsible_department_id" "A rejected offer has no custodian Department.")

/-- What `review_equipment_offer` does when it has no receipt. -/
def Store.reviewOffer (store : Store) (sur : Surroundings) (request : Request)
    (input : ReviewOfferInput) : Except LogisticsError (Store × Uuid × Nat) := do
  let offer ← getOr .resourceUnavailable ((store.catalog.offers.get? input.offerId).filter fun offer =>
    offer.organizationId = request.organizationId && offer.editionId = input.editionId)
  require (offer.aggregateVersion = input.expectedVersion) .versionConflict
  require (offer.status = .pending) .stateConflict
  reviewDepartment sur request input
  let catalog ← store.catalog.takeOver sur offer input.outcome
  let changed := { offer with status := input.outcome.status, aggregateVersion := offer.aggregateVersion + 1 }
  return ({ store with catalog := { catalog with offers := catalog.offers.save changed } },
    offer.id, changed.aggregateVersion)

/-- `review_equipment_offer` -/
def Store.reviewEquipmentOffer (store : Store) (world : World) (lib : Primitives)
    (sur : Surroundings) (request : Request)
    (input : ReviewOfferInput) : Except LogisticsError (Store × LogisticsCommandResult) := do
  require (1 ≤ input.expectedVersion) (.invalid "expected_version" "Enter a positive version.")
  editionContext world sur request input.editionId "logistics.review_offers"
  let reason ← normalizedReason lib request.reason
  let _ ← normalizedSourceChannel request.sourceChannel
  let digest := canonicalDigest lib [
    ("expected_version", .int input.expectedVersion), ("offer_id", Json.uuid input.offerId),
    ("outcome", .str input.outcome.status.value), ("reason", .str reason),
    ("responsible_department_id", Json.opt Json.uuid input.responsibleDepartmentId)]
  store.command sur request "offer.review" digest (store.reviewOffer sur request input)

/-! ## Retention -/

def maxRetentionDisposals : Nat := 500

/-- The retention of the address has ended, and nothing that is still open needs it. -/
def Catalog.isDisposable (catalog : Catalog) (now : Int) (organizationId : Uuid)
    (editionId : Option Uuid) (address : RestrictedLogisticsAddress) : Bool :=
  address.organizationId = organizationId && address.editionId = editionId &&
    address.lifecycle = .active && (address.retentionUntil.any fun until_ => until_ ≤ now) &&
    (catalog.agreements.all fun agreement =>
      ¬ (agreement.returnAddressId = some address.id ∧ now ≤ agreement.returnDueAt)) &&
    (catalog.offers.rows.all fun offer => ¬ (offer.pickupAddressId = address.id ∧
      (now ≤ offer.availableUntil ∨ ∃ returns ∈ offer.requestedReturnAt, now ≤ returns))) &&
    catalog.nodes.rows.all fun node => node.storageAddressId ≠ some address.id

/-- `dispose_expired_restricted_addresses`, over the addresses that it takes up. -/
def Store.disposeExpiredRestrictedAddresses (store : Store) (sur : Surroundings)
    (organizationId : Uuid) (editionId : Option Uuid)
    (addressIds : List Uuid) : Except LogisticsError Store := do
  require (addressIds.length ≤ maxRetentionDisposals) (.invalid "" "Dispose between 1 and 500 addresses per run.")
  let addresses := store.catalog.addresses.rows.filter fun address =>
    (address.id ∈ addressIds : Bool) && store.catalog.isDisposable sur.now organizationId editionId address
  let disposed := addresses.foldl (fun (addresses : Table RestrictedLogisticsAddress.id) address =>
    addresses.save { address with
      subjectAccountId := none, partyId := none, lifecycle := .disposed }) store.catalog.addresses
  return { store with catalog := { store.catalog with addresses := disposed } }

end Maru.Logistics
