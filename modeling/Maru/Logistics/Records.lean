import Maru.Framework.Except
import Maru.Framework.IsoFormat
import Maru.Framework.Table
import Maru.Framework.Uuid

/-!
# Logistics records

`logistics/models.py`: the catalog of places and things, manifests and offers, the event log
with the projection kept beside it, offline uploads and command receipts. A row names its
one subject by a `SubjectLocator`, where the schema has four columns of which one is filled.
-/

namespace Maru.Logistics

open Calendar (DateTime)

inductive LogisticsError
  | authorizationDenied
  | resourceUnavailable
  | versionConflict
  | retryConflict
  | stateConflict
  | containmentCycle
  /-- `ValidationError` at a field. -/
  | invalid (field message : String)
  /-- An error that the database raises. -/
  | integrity (message : String)
deriving DecidableEq

/-- An aware `datetime`. -/
structure Moment where
  value : DateTime
  aware : value.offset.isSome

def Moment.instant (m : Moment) : Int := m.value.wall - m.value.offset.get m.aware

/-- `str(value)` -/
def Moment.str (m : Moment) : String :=
  String.ofList (m.value.isoChars.map fun c => if c = 'T' then ' ' else c)

/-! ## The catalog -/

inductive SubjectKind
  | node | asset | stockLot | key
deriving DecidableEq

def SubjectKind.value : SubjectKind → String
  | .node => "node"
  | .asset => "asset"
  | .stockLot => "stock_lot"
  | .key => "key"

structure SubjectLocator where
  kind : SubjectKind
  objectId : Uuid
deriving DecidableEq

inductive PartyRole
  | owner | provider | rentalBusiness | borrower | mixed
deriving DecidableEq

inductive PartyLifecycle
  | active | retired
deriving DecidableEq

structure LogisticsParty where
  id : Uuid
  organizationId : Uuid
  code : String
  role : PartyRole
  lifecycle : PartyLifecycle := .active

inductive AddressPurpose
  | pickup | storage | return | delivery | provider
deriving DecidableEq

inductive AddressLifecycle
  | active | disposed
deriving DecidableEq

structure RestrictedLogisticsAddress where
  id : Uuid
  organizationId : Uuid
  editionId : Option Uuid
  subjectAccountId : Option Uuid := none
  partyId : Option Uuid := none
  purpose : AddressPurpose
  retentionUntil : Option Int
  lifecycle : AddressLifecycle := .active

inductive NodeKind
  | storageSite | storageArea | rack | container | box | vehicle | loadingZone | stagingArea | venueRoom
deriving DecidableEq

def NodeKind.value : NodeKind → String
  | .storageSite => "storage_site"
  | .storageArea => "storage_area"
  | .rack => "rack"
  | .container => "container"
  | .box => "box"
  | .vehicle => "vehicle"
  | .loadingZone => "loading_zone"
  | .stagingArea => "staging_area"
  | .venueRoom => "venue_room"

structure LogisticsNode where
  id : Uuid
  organizationId : Uuid
  editionId : Option Uuid
  kind : NodeKind
  code : String
  storageAddressId : Option Uuid := none

structure Asset where
  id : Uuid
  organizationId : Uuid
  editionAllocationId : Option Uuid
  catalogCode : String
  serialNumber : String
  ownerAccountId : Option Uuid := none

structure StockLot where
  id : Uuid
  organizationId : Uuid
  editionAllocationId : Option Uuid
  catalogCode : String
  ownerAccountId : Option Uuid := none
  initialQuantity : Int

structure PhysicalKey where
  id : Uuid
  organizationId : Uuid
  editionAllocationId : Option Uuid
  code : String
  aggregateVersion : Nat := 1

structure ReusableKit where
  id : Uuid
  organizationId : Uuid
  code : String

structure KeyholderResponsibility where
  keyId : Uuid
  responsibleAccountId : Uuid
  startsAt : Int
  endsAt : Option Int

structure AssetAgreement where
  id : Uuid
  subject : SubjectLocator
  startsAt : Int
  endsAt : Int
  returnDueAt : Int
  returnAddressId : Option Uuid

inductive LabelLifecycle
  | active | revoked
deriving DecidableEq

structure LogisticsLabel where
  id : Uuid
  organizationId : Uuid
  labelCode : String
  qrIdentifierDigest : String
  subject : SubjectLocator
  lifecycle : LabelLifecycle := .active

/-- `log_label_org_code_uq`; codes are in upper case. -/
def LogisticsLabel.code (label : LogisticsLabel) : Uuid × String := (label.organizationId, label.labelCode)

inductive OfferStatus
  | pending | accepted | rejected | withdrawn
deriving DecidableEq

def OfferStatus.value : OfferStatus → String
  | .pending => "pending"
  | .accepted => "accepted"
  | .rejected => "rejected"
  | .withdrawn => "withdrawn"

inductive OfferItemKind
  | serialized | bulk
deriving DecidableEq

structure EquipmentOfferItem where
  id : Uuid
  kind : OfferItemKind
  quantity : Int
  serialNumber : String

/-- An offer with its item lines. -/
structure EquipmentOffer where
  id : Uuid
  organizationId : Uuid
  editionId : Uuid
  offeredById : Uuid
  pickupAddressId : Uuid
  availableFrom : Int
  availableUntil : Int
  requestedReturnAt : Option Int
  items : List EquipmentOfferItem
  status : OfferStatus := .pending
  aggregateVersion : Nat := 1

inductive ManifestKind
  | inbound | outbound | transfer | stageReceiving | return
deriving DecidableEq

inductive ManifestStatus
  | draft | sealed | completed | cancelled
deriving DecidableEq

structure LogisticsManifest where
  id : Uuid
  organizationId : Uuid
  editionId : Uuid
  responsibleDepartmentId : Uuid
  manifestNumber : String
  kind : ManifestKind
  sourceNodeId : Option Uuid
  destinationNodeId : Option Uuid
  vehicleId : Option Uuid
  lineCount : Nat
  status : ManifestStatus := .draft
  aggregateVersion : Nat := 1

structure LogisticsManifestLine where
  id : Uuid
  manifestId : Uuid
  subject : SubjectLocator
  packedInNodeId : Option Uuid
  quantity : Int
  /-- `log_manifest_line_qty_pos` -/
  quantity_pos : 1 ≤ quantity

/-- A subject is on a manifest once: `log_manifest_asset_line_uq` and its siblings. -/
def LogisticsManifestLine.place (line : LogisticsManifestLine) : Uuid × SubjectLocator :=
  (line.manifestId, line.subject)

/-- `f"manifest-line:{line.id}"` -/
def LogisticsManifestLine.reference (line : LogisticsManifestLine) : String := "manifest-line:" ++ line.id.text

structure Catalog where
  parties : Table LogisticsParty.id
  addresses : Table RestrictedLogisticsAddress.id
  nodes : Table LogisticsNode.id
  assets : Table Asset.id
  stockLots : Table StockLot.id
  keys : Table PhysicalKey.id
  kits : Table ReusableKit.id
  responsibilities : List KeyholderResponsibility
  agreements : List AssetAgreement
  labels : Table LogisticsLabel.code
  offers : Table EquipmentOffer.id
  manifests : Table LogisticsManifest.id
  manifestLines : Table LogisticsManifestLine.place

/-- A thing that is tracked. -/
inductive TrackedSubject
  | node (row : LogisticsNode)
  | asset (row : Asset)
  | stockLot (row : StockLot)
  | key (row : PhysicalKey)

namespace TrackedSubject

def locator : TrackedSubject → SubjectLocator
  | node row => ⟨.node, row.id⟩
  | asset row => ⟨.asset, row.id⟩
  | stockLot row => ⟨.stockLot, row.id⟩
  | key row => ⟨.key, row.id⟩

def organizationId : TrackedSubject → Uuid
  | node row => row.organizationId
  | asset row => row.organizationId
  | stockLot row => row.organizationId
  | key row => row.organizationId

/-- `_subject_allocation_id` -/
def allocationId : TrackedSubject → Option Uuid
  | node row => row.editionId
  | asset row => row.editionAllocationId
  | stockLot row => row.editionAllocationId
  | key row => row.editionAllocationId

/-- `getattr(subject, "owner_account_id", None)` -/
def ownerAccountId : TrackedSubject → Option Uuid
  | node _ => none
  | asset row => row.ownerAccountId
  | stockLot row => row.ownerAccountId
  | key _ => none

def lot? : TrackedSubject → Option StockLot
  | stockLot row => some row
  | _ => none

def node? : TrackedSubject → Option LogisticsNode
  | node row => some row
  | _ => none

end TrackedSubject

namespace Catalog

def subject? (catalog : Catalog) (locator : SubjectLocator) : Option TrackedSubject :=
  match locator.kind with
  | .node => (catalog.nodes.get? locator.objectId).map .node
  | .asset => (catalog.assets.get? locator.objectId).map .asset
  | .stockLot => (catalog.stockLots.get? locator.objectId).map .stockLot
  | .key => (catalog.keys.get? locator.objectId).map .key

theorem locator_of_subject? {catalog : Catalog} {locator : SubjectLocator} {subject : TrackedSubject}
    (h : catalog.subject? locator = some subject) : subject.locator = locator := by
  obtain ⟨kind, id⟩ := locator
  cases kind <;> simp only [subject?, Option.map_eq_some_iff] at h <;> obtain ⟨row, hrow, rfl⟩ := h <;>
    rw [TrackedSubject.locator, (Table.get?_eq_some.mp hrow).2]

end Catalog

def Catalog.empty : Catalog := ⟨∅, ∅, ∅, ∅, ∅, ∅, ∅, [], [], ∅, ∅, ∅, ∅⟩

/-! ## Events and their projection -/

inductive EventType
  | receive | pack | unpack | move | load | unload | handover | count | condition | damage | return
deriving DecidableEq

def EventType.value : EventType → String
  | .receive => "receive"
  | .pack => "pack"
  | .unpack => "unpack"
  | .move => "move"
  | .load => "load"
  | .unload => "unload"
  | .handover => "handover"
  | .count => "count"
  | .condition => "condition"
  | .damage => "damage"
  | .return => "return"

structure LogisticsEvent where
  id : Uuid
  organizationId : Uuid
  editionId : Uuid
  subject : SubjectLocator
  eventType : EventType
  eventSequence : Nat
  sourceNodeId : Option Uuid
  destinationNodeId : Option Uuid
  fromCustodianAccountId : Option Uuid
  toCustodianAccountId : Option Uuid
  fromCustodianPartyId : Option Uuid
  toCustodianPartyId : Option Uuid
  quantity : Option Int
  conditionBefore : String
  conditionAfter : String
  manifestId : Option Uuid
  actorId : Uuid
  occurredAt : Int
  reason : String
  evidenceReference : String
  sourceChannel : String

inductive CustodyState
  | received | stored | inTransit | issued | returned | lost
deriving DecidableEq

structure LogisticsCurrentState where
  organizationId : Uuid
  subject : SubjectLocator
  currentNodeId : Option Uuid
  custodianAccountId : Option Uuid
  custodianPartyId : Option Uuid
  quantityOnHand : Option Int
  condition : String
  state : CustodyState
  eventSequence : Nat
  lastEventId : Uuid

inductive DiscrepancyKind
  | missing | unexpected | count | condition | damage | offlineConflict | returnOverdue
deriving DecidableEq

structure LogisticsDiscrepancy where
  id : Uuid
  organizationId : Uuid
  editionId : Uuid
  kind : DiscrepancyKind
  subject : SubjectLocator
  expectedQuantity : Option Int := none
  observedQuantity : Option Int := none
  description : String
  detectedEventId : Option Uuid := none

structure LogisticsEditionControl where
  organizationId : Uuid
  editionId : Uuid
  aggregateVersion : Nat := 0

structure Custody where
  events : Table LogisticsEvent.id
  currentStates : Table LogisticsCurrentState.subject
  discrepancies : Table LogisticsDiscrepancy.id
  controls : Table LogisticsEditionControl.editionId

def Custody.empty : Custody := ⟨∅, ∅, ∅, ∅⟩

/-- The node that a node is in. -/
def Custody.container? (custody : Custody) (nodeId : Uuid) : Option Uuid :=
  (custody.currentStates.get? ⟨.node, nodeId⟩).bind (·.currentNodeId)

/-! ## Uploads and receipts -/

inductive BatchStatus
  | pending | applied | review | rejected
deriving DecidableEq

structure OfflineScanBatch where
  id : Uuid
  organizationId : Uuid
  editionId : Uuid
  snapshotVersion : Nat
  expiresAt : Int
  operationCount : Nat
  submittedById : Uuid
  createdAt : Int
  status : BatchStatus := .pending
  aggregateVersion : Nat := 1

inductive OperationResult
  | applied | duplicate | superseded | rejected | review
deriving DecidableEq

structure OfflineScanOperation where
  batchId : Uuid
  sequence : Nat
  idempotencyKey : Uuid
  expectedSubjectSequence : Nat
  action : EventType
  labelCode : String
  sourceLabelCode : String
  destinationLabelCode : String
  quantity : Option Int
  observedCondition : String
  occurredAt : Int
  operationDigest : String
  result : OperationResult
  reasonCode : String
  appliedEventId : Option Uuid
  discrepancyId : Option Uuid

structure OfflineOperationReceipt where
  organizationId : Uuid
  editionId : Uuid
  idempotencyKey : Uuid
  operationDigest : String
  result : OperationResult
  reasonCode : String
  appliedEventId : Option Uuid
  discrepancyId : Option Uuid

structure Uploads where
  batches : Table OfflineScanBatch.id
  operations : List OfflineScanOperation
  receipts : Table OfflineOperationReceipt.idempotencyKey

def Uploads.empty : Uploads := ⟨∅, [], ∅⟩

structure LogisticsCommandReceipt where
  id : Uuid
  organizationId : Uuid
  operation : String
  actorId : Uuid
  idempotencyKey : Uuid
  requestDigest : String
  resultingVersion : Nat
  resultObjectId : Uuid

/-- `log_command_idempotency_uq` -/
def LogisticsCommandReceipt.request (receipt : LogisticsCommandReceipt) : Uuid × String × Uuid :=
  (receipt.actorId, receipt.operation, receipt.idempotencyKey)

structure Store where
  catalog : Catalog
  custody : Custody
  uploads : Uploads
  receipts : Table LogisticsCommandReceipt.request

def Store.empty : Store := ⟨.empty, .empty, .empty, ∅⟩

/-! ## Other owners -/

inductive AccountKind
  | person | platformAdministrator
deriving DecidableEq

/-- What other owners never change: the kind of an account and the organization of an edition. -/
structure World where
  accountKind : Uuid → AccountKind
  editionOrganization : Uuid → Option Uuid

/-- The scope at which a capability is asked for. -/
inductive Target
  | organization (organizationId : Uuid)
  | edition (organizationId editionId : Uuid)
  | self (accountId organizationId editionId : Uuid)
  | manifest (organizationId editionId departmentId manifestId : Uuid)

/-- What other owners answer while a command runs, and what it draws: the time and the identifiers
of new rows. -/
structure Surroundings where
  now : Int
  isActive : Uuid → Bool
  /-- `decide(...).allowed`, with the target resolved. -/
  allows : Uuid → String → Target → Bool
  /-- An active position assignment of the account in the organization, at the
  edition if one is given. -/
  isAssigned : Uuid → Uuid → Option Uuid → Bool
  /-- A department of the edition that is not retired. -/
  isOpenDepartment : Uuid → Uuid → Uuid → Bool
  /-- `edition.lifecycle in SELF_OFFER_EDITION_LIFECYCLES` -/
  takesOffers : Uuid → Bool
  /-- An active space selection of the edition. -/
  isSelectedSpace : Uuid → Uuid → Uuid → Bool
  newId : Nat → Uuid

end Maru.Logistics
