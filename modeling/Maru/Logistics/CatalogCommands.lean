import Maru.Logistics.Offline

/-!
# Catalog commands

`logistics/services.py`: parties, restricted addresses, nodes, assets, stock lots, keys,
labels, keyholder responsibilities, agreements and kits. Each command's definition follows
its function: what stands before `store.command` runs before the receipt is looked for.
-/

namespace Maru.Logistics

/-! ## Codes -/

/-- What `full_clean` asks of the code of a new row: a slug that no other row
of the organization has. -/
def requireOwnCode (codes : List (Uuid × String)) (organizationId : Uuid) (code constraint : String)
    (field : String := "code") : Except LogisticsError Unit := do
  require (isLowercaseSlug code) (.invalid field "Use lowercase letters, numbers, and single hyphens only.")
  require ((organizationId, code) ∉ codes) (.invalid "__all__" constraint)

/-! ## Parties and addresses -/

inductive PartyKind
  | business | individual
deriving DecidableEq

def PartyKind.value : PartyKind → String
  | .business => "business"
  | .individual => "individual"

def PartyRole.value : PartyRole → String
  | .owner => "owner"
  | .provider => "provider"
  | .rentalBusiness => "rental_business"
  | .borrower => "borrower"
  | .mixed => "mixed"

structure PartyInput where
  kind : PartyKind
  role : PartyRole
  code : String
  legalName : String
  publicName : String
  providerReference : String := ""
  websiteUrl : String := ""

/-- `create_logistics_party` -/
def Store.createLogisticsParty (store : Store) (world : World) (lib : Primitives)
    (sur : Surroundings) (request : Request)
    (input : PartyInput) : Except LogisticsError (Store × LogisticsCommandResult) := do
  organizationContext world sur request "logistics.manage_catalog"
  let code ← normalizedCode lib input.code
  let legalName ← normalizedText lib input.legalName "legal_name" 240 true true
  let publicName ← normalizedText lib input.publicName "public_name" 200 true true
  let providerReference ← normalizedText lib input.providerReference "provider_reference" 240 false true
  let websiteUrl ← normalizedText lib input.websiteUrl "website_url" 2000 false true
  let reason ← normalizedReason lib request.reason
  let _ ← normalizedSourceChannel request.sourceChannel
  let digest := canonicalDigest lib [
    ("code", .str code), ("kind", .str input.kind.value), ("legal_name", .str legalName),
    ("provider_reference", .str providerReference), ("public_name", .str publicName), ("reason", .str reason),
    ("role", .str input.role.value), ("website_url", .str websiteUrl)]
  store.command sur request "party.create" digest do
    require (websiteUrl = "" ∨ lib.isUrl websiteUrl) (.invalid "website_url" "Enter a valid URL.")
    requireOwnCode (store.catalog.parties.rows.map fun party => (party.organizationId, party.code))
      request.organizationId code "log_party_org_code_uq"
    let parties ← getOr (.integrity "logistics_logisticsparty_pkey") (store.catalog.parties.insert? {
      id := sur.newId 1, organizationId := request.organizationId, code, role := input.role })
    return ({ store with catalog := { store.catalog with parties } }, sur.newId 1, 1)

def AddressPurpose.value : AddressPurpose → String
  | .pickup => "pickup"
  | .storage => "storage"
  | .return => "return"
  | .delivery => "delivery"
  | .provider => "provider"

structure AddressInput where
  editionId : Option Uuid
  subjectAccountId : Option Uuid
  partyId : Option Uuid
  purpose : AddressPurpose
  label : String
  recipientName : String
  contactEmail : String := ""
  contactPhone : String := ""
  postalAddress : String
  accessInstructions : String
  retentionUntil : Option Moment

/-- The person that an address is about: eligible at an edition, with an end of retention. -/
def addressSubject (world : World) (sur : Surroundings) (catalog : Catalog) (request : Request)
    (input : AddressInput) : Except LogisticsError Unit :=
  match input.subjectAccountId with
  | none => .ok ()
  | some accountId => do
    require (input.editionId ≠ none ∧ input.retentionUntil ≠ none) .resourceUnavailable
    lockEligibleLogisticsPerson world sur catalog request.actorId request.organizationId input.editionId accountId

/-- `create_restricted_logistics_address` -/
def Store.createRestrictedLogisticsAddress (store : Store) (world : World) (lib : Primitives) (sur : Surroundings)
    (request : Request) (input : AddressInput) : Except LogisticsError (Store × LogisticsCommandResult) := do
  catalogContext world sur request input.editionId
  require (input.subjectAccountId = none ∨ input.partyId = none) (.invalid "subject" "Name at most one address subject.")
  addressSubject world sur store.catalog request input
  require (input.partyId.all fun id => store.catalog.isActivePartyOf request.organizationId id) .resourceUnavailable
  require (input.retentionUntil.all fun until_ => sur.now < until_.instant)
    (.invalid "retention_until" "Use a future retention time.")
  let label ← normalizedText lib input.label "label" 200 true true
  let recipientName ← normalizedText lib input.recipientName "recipient_name" 240 false true
  let contactEmail ← normalizedText lib input.contactEmail "contact_email" 254 false true
  let contactPhone ← normalizedText lib input.contactPhone "contact_phone" 16 false true
  let postalAddress ← normalizedText lib input.postalAddress "postal_address" 1000 true
  let accessInstructions ← normalizedText lib input.accessInstructions "access_instructions" 5000
  let reason ← normalizedReason lib request.reason
  let _ ← normalizedSourceChannel request.sourceChannel
  let digest := canonicalDigest lib [
    ("access_instructions", .str accessInstructions), ("contact_email", .str contactEmail),
    ("contact_phone", .str contactPhone), ("edition_id", Json.opt Json.uuid input.editionId), ("label", .str label),
    ("party_id", Json.opt Json.uuid input.partyId), ("postal_address", .str postalAddress),
    ("purpose", .str input.purpose.value), ("reason", .str reason), ("recipient_name", .str recipientName),
    ("retention_until", Json.opt (fun m => .str m.str) input.retentionUntil),
    ("subject_account_id", Json.opt Json.uuid input.subjectAccountId)]
  store.command sur request "restricted_address.create" digest do
    require (contactEmail = "" ∨ lib.isEmail contactEmail) (.invalid "contact_email" "Enter a valid email address.")
    require (contactPhone = "" ∨ isPhone lib contactPhone)
      (.invalid "contact_phone" "Enter one international telephone number.")
    let addresses ← getOr (.integrity "logistics_restrictedlogisticsaddress_pkey") (store.catalog.addresses.insert? {
      id := sur.newId 1, organizationId := request.organizationId, editionId := input.editionId,
      subjectAccountId := input.subjectAccountId, partyId := input.partyId, purpose := input.purpose,
      retentionUntil := input.retentionUntil.map (·.instant) })
    return ({ store with catalog := { store.catalog with addresses } }, sur.newId 1, 1)

/-! ## Nodes -/

/-- An active party of the organization in one of the roles. -/
def Catalog.isPartyInRole (catalog : Catalog) (organizationId : Uuid) (roles : List PartyRole) (id : Uuid) : Bool :=
  (catalog.parties.get? id).any fun party => party.organizationId = organizationId &&
    party.lifecycle = .active && (party.role ∈ roles : Bool)

def providerRoles : List PartyRole := [.owner, .provider, .rentalBusiness, .mixed]

structure NodeInput where
  kind : NodeKind
  code : String
  name : String
  description : String
  editionId : Option Uuid
  storageAddressId : Option Uuid
  externalOwnerId : Option Uuid
  providerId : Option Uuid
  vehicleRegistration : String
  venueSpaceSelectionId : Option Uuid
  capacityNote : String

/-- The storage address is active, kept beyond now, and of the edition or of none. -/
def storageAddress (sur : Surroundings) (catalog : Catalog) (request : Request) (input : NodeInput) : Bool :=
  input.storageAddressId.all fun id => (catalog.addresses.get? id).any fun address =>
    address.organizationId = request.organizationId && address.purpose = .storage &&
      address.lifecycle = .active && (address.retentionUntil.all fun until_ => sur.now ≤ until_) &&
      (address.editionId = none || address.editionId = input.editionId)

/-- A selected space of the edition, for a venue room only. -/
def venueSpace (sur : Surroundings) (request : Request) (input : NodeInput) : Except LogisticsError Unit :=
  match input.venueSpaceSelectionId, input.editionId with
  | none, _ => .ok ()
  | some _, none => .error .resourceUnavailable
  | some id, some editionId =>
    require (input.kind = .venueRoom ∧ sur.isSelectedSpace request.organizationId editionId id) .resourceUnavailable

/-- `log_node_venue_shape` -/
def venueShape (input : NodeInput) : Bool :=
  if input.kind = .venueRoom then input.editionId.isSome && input.venueSpaceSelectionId.isSome
  else input.venueSpaceSelectionId.isNone

/-- `create_logistics_node` -/
def Store.createLogisticsNode (store : Store) (world : World) (lib : Primitives) (sur : Surroundings) (request : Request)
    (input : NodeInput) : Except LogisticsError (Store × LogisticsCommandResult) := do
  catalogContext world sur request input.editionId
  require (storageAddress sur store.catalog request input) .resourceUnavailable
  venueSpace sur request input
  require ((input.externalOwnerId.all fun id => store.catalog.isPartyInRole request.organizationId [.owner, .mixed] id) ∧
    input.providerId.all fun id => store.catalog.isPartyInRole request.organizationId providerRoles id)
    .resourceUnavailable
  let code ← normalizedCode lib input.code
  let name ← normalizedText lib input.name "name" 200 true true
  let description ← normalizedText lib input.description "description" 2000
  let vehicleRegistration ← normalizedText lib input.vehicleRegistration "vehicle_registration" 40 false true
  let capacityNote ← normalizedText lib input.capacityNote "capacity_note" 500 false true
  let reason ← normalizedReason lib request.reason
  let _ ← normalizedSourceChannel request.sourceChannel
  let digest := canonicalDigest lib [
    ("capacity_note", .str capacityNote), ("code", .str code), ("description", .str description),
    ("edition_id", Json.opt Json.uuid input.editionId),
    ("external_owner_id", Json.opt Json.uuid input.externalOwnerId), ("kind", .str input.kind.value),
    ("name", .str name), ("provider_id", Json.opt Json.uuid input.providerId), ("reason", .str reason),
    ("storage_address_id", Json.opt Json.uuid input.storageAddressId),
    ("vehicle_registration", .str vehicleRegistration),
    ("venue_space_selection_id", Json.opt Json.uuid input.venueSpaceSelectionId)]
  store.command sur request "node.create" digest do
    requireOwnCode (store.catalog.nodes.rows.map fun node => (node.organizationId, node.code))
      request.organizationId code "log_node_org_code_uq"
    require (venueShape input) (.invalid "__all__" "log_node_venue_shape")
    require (input.kind = .vehicle ∨ vehicleRegistration = "") (.invalid "__all__" "log_node_vehicle_plate")
    let nodes ← getOr (.integrity "logistics_logisticsnode_pkey") (store.catalog.nodes.insert? {
      id := sur.newId 1, organizationId := request.organizationId, editionId := input.editionId, kind := input.kind,
      code, storageAddressId := input.storageAddressId })
    return ({ store with catalog := { store.catalog with nodes } }, sur.newId 1, 1)

/-! ## Inventory -/

inductive OwnerKind
  | organization | account | externalParty
deriving DecidableEq

def OwnerKind.value : OwnerKind → String
  | .organization => "organization"
  | .account => "account"
  | .externalParty => "external_party"

structure OwnerInput where
  ownerKind : OwnerKind
  ownerAccountId : Option Uuid
  ownerPartyId : Option Uuid

/-- `_owner_values`: the account that owns what is registered, if one does. -/
def ownerValues (world : World) (sur : Surroundings) (catalog : Catalog) (request : Request)
    (editionId : Option Uuid) (owner : OwnerInput) : Except LogisticsError (Option Uuid) :=
  match owner.ownerKind, owner.ownerAccountId, owner.ownerPartyId with
  | .organization, none, none => .ok none
  | .organization, _, _ => .error (.invalid "owner" "Organizer ownership has no person or party.")
  | .account, some accountId, none => do
    lockEligibleLogisticsPerson world sur catalog request.actorId request.organizationId editionId accountId
    return some accountId
  | .account, _, _ => .error .resourceUnavailable
  | .externalParty, none, some partyId => do
    require (catalog.isPartyInRole request.organizationId [.owner, .mixed] partyId) .resourceUnavailable
    return none
  | .externalParty, _, _ => .error .resourceUnavailable

inductive Acquisition
  | owned | loan | rental | equipmentOffer
deriving DecidableEq

def Acquisition.value : Acquisition → String
  | .owned => "owned"
  | .loan => "loan"
  | .rental => "rental"
  | .equipmentOffer => "equipment_offer"

structure AssetInput where
  editionId : Option Uuid
  catalogCode : String
  name : String
  assetType : String
  manufacturer : String
  modelName : String
  serialNumber : String
  acquisition : Acquisition
  valueClass : String
  owner : OwnerInput

/-- `Asset.objects.create` -/
def Catalog.createAsset (catalog : Catalog) (asset : Asset) : Except LogisticsError Catalog := do
  requireOwnCode (catalog.assets.rows.map fun other => (other.organizationId, other.catalogCode))
    asset.organizationId asset.catalogCode "log_asset_org_code_uq" "catalog_code"
  require (asset.serialNumber = "" ∨ (asset.organizationId, asset.serialNumber) ∉
      catalog.assets.rows.map fun other => (other.organizationId, other.serialNumber))
    (.invalid "__all__" "log_asset_serial_uq")
  let assets ← getOr (.integrity "logistics_asset_pkey") (catalog.assets.insert? asset)
  return { catalog with assets }

/-- `register_serialized_asset` -/
def Store.registerSerializedAsset (store : Store) (world : World) (lib : Primitives)
    (sur : Surroundings) (request : Request)
    (input : AssetInput) : Except LogisticsError (Store × LogisticsCommandResult) := do
  catalogContext world sur request input.editionId
  let ownerAccountId ← ownerValues world sur store.catalog request input.editionId input.owner
  let catalogCode ← normalizedCode lib input.catalogCode "catalog_code"
  let name ← normalizedText lib input.name "name" 200 true true
  let assetType ← normalizedText lib input.assetType "asset_type" 120 true true
  let manufacturer ← normalizedText lib input.manufacturer "manufacturer" 160 false true
  let modelName ← normalizedText lib input.modelName "model_name" 160 false true
  let serialNumber ← normalizedText lib input.serialNumber "serial_number" 200 false true
  let valueClass ← normalizedText lib input.valueClass "value_class" 32 false true
  let reason ← normalizedReason lib request.reason
  let _ ← normalizedSourceChannel request.sourceChannel
  let digest := canonicalDigest lib [
    ("acquisition", .str input.acquisition.value), ("asset_type", .str assetType), ("catalog_code", .str catalogCode),
    ("edition_id", Json.opt Json.uuid input.editionId), ("manufacturer", .str manufacturer),
    ("model_name", .str modelName), ("name", .str name),
    ("owner_account_id", Json.opt Json.uuid input.owner.ownerAccountId),
    ("owner_kind", .str input.owner.ownerKind.value),
    ("owner_party_id", Json.opt Json.uuid input.owner.ownerPartyId), ("reason", .str reason),
    ("serial_number", .str serialNumber), ("value_class", .str valueClass)]
  store.command sur request "asset.register" digest do
    let catalog ← store.catalog.createAsset {
      id := sur.newId 1, organizationId := request.organizationId, editionAllocationId := input.editionId,
      catalogCode, serialNumber, ownerAccountId }
    return ({ store with catalog }, sur.newId 1, 1)

structure StockLotInput where
  editionId : Option Uuid
  catalogCode : String
  name : String
  stockType : String
  unit : String
  initialQuantity : Int
  valueClass : String
  owner : OwnerInput

/-- `StockLot.objects.create` -/
def Catalog.createStockLot (catalog : Catalog) (lot : StockLot) : Except LogisticsError Catalog := do
  requireOwnCode (catalog.stockLots.rows.map fun other => (other.organizationId, other.catalogCode))
    lot.organizationId lot.catalogCode "log_lot_org_code_uq" "catalog_code"
  let stockLots ← getOr (.integrity "logistics_stocklot_pkey") (catalog.stockLots.insert? lot)
  return { catalog with stockLots }

/-- `register_stock_lot` -/
def Store.registerStockLot (store : Store) (world : World) (lib : Primitives) (sur : Surroundings) (request : Request)
    (input : StockLotInput) : Except LogisticsError (Store × LogisticsCommandResult) := do
  catalogContext world sur request input.editionId
  require (1 ≤ input.initialQuantity ∧ input.initialQuantity ≤ maxTrackedQuantity)
    (.invalid "initial_quantity" "Enter a bounded positive quantity.")
  let ownerAccountId ← ownerValues world sur store.catalog request input.editionId input.owner
  let catalogCode ← normalizedCode lib input.catalogCode "catalog_code"
  let name ← normalizedText lib input.name "name" 200 true true
  let stockType ← normalizedText lib input.stockType "stock_type" 120 true true
  let unit ← normalizedText lib input.unit "unit" 40 true true
  let valueClass ← normalizedText lib input.valueClass "value_class" 32 false true
  let reason ← normalizedReason lib request.reason
  let _ ← normalizedSourceChannel request.sourceChannel
  let digest := canonicalDigest lib [
    ("catalog_code", .str catalogCode), ("edition_id", Json.opt Json.uuid input.editionId),
    ("initial_quantity", .int input.initialQuantity), ("name", .str name),
    ("owner_account_id", Json.opt Json.uuid input.owner.ownerAccountId),
    ("owner_kind", .str input.owner.ownerKind.value),
    ("owner_party_id", Json.opt Json.uuid input.owner.ownerPartyId), ("reason", .str reason),
    ("stock_type", .str stockType), ("unit", .str unit), ("value_class", .str valueClass)]
  store.command sur request "stock_lot.register" digest do
    let catalog ← store.catalog.createStockLot {
      id := sur.newId 1, organizationId := request.organizationId, editionAllocationId := input.editionId,
      catalogCode, ownerAccountId, initialQuantity := input.initialQuantity }
    return ({ store with catalog }, sur.newId 1, 1)

structure KeyInput where
  editionId : Option Uuid
  code : String
  label : String
  opensNodeId : Uuid
  providerId : Option Uuid

/-- `register_physical_key` -/
def Store.registerPhysicalKey (store : Store) (world : World) (lib : Primitives) (sur : Surroundings) (request : Request)
    (input : KeyInput) : Except LogisticsError (Store × LogisticsCommandResult) := do
  catalogContext world sur request input.editionId
  require ((store.catalog.nodes.get? input.opensNodeId).any fun node => node.organizationId = request.organizationId &&
    (node.editionId = none || node.editionId = input.editionId)) .resourceUnavailable
  require (input.providerId.all fun id => store.catalog.isPartyInRole request.organizationId providerRoles id)
    .resourceUnavailable
  let code ← normalizedCode lib input.code
  let label ← normalizedText lib input.label "label" 200 true true
  let reason ← normalizedReason lib request.reason
  let _ ← normalizedSourceChannel request.sourceChannel
  let digest := canonicalDigest lib [
    ("code", .str code), ("edition_id", Json.opt Json.uuid input.editionId), ("label", .str label),
    ("opens_node_id", Json.uuid input.opensNodeId), ("provider_id", Json.opt Json.uuid input.providerId),
    ("reason", .str reason)]
  store.command sur request "physical_key.register" digest do
    requireOwnCode (store.catalog.keys.rows.map fun key => (key.organizationId, key.code))
      request.organizationId code "log_key_org_code_uq"
    let keys ← getOr (.integrity "logistics_physicalkey_pkey") (store.catalog.keys.insert? {
      id := sur.newId 1, organizationId := request.organizationId, editionAllocationId := input.editionId, code })
    return ({ store with catalog := { store.catalog with keys } }, sur.newId 1, 1)

/-! ## Labels -/

structure LabelInput where
  subject : SubjectLocator
  labelCode : String
  qrIdentifier : String

def minQrIdentifierLength : Nat := 24

/-- `create_logistics_label` -/
def Store.createLogisticsLabel (store : Store) (world : World) (lib : Primitives)
    (sur : Surroundings) (request : Request)
    (input : LabelInput) : Except LogisticsError (Store × LogisticsCommandResult) := do
  organizationContext world sur request "logistics.manage_catalog"
  let _ ← store.catalog.lockSubject request.organizationId input.subject
  let labelCode ← normalizedLabelCode lib input.labelCode
  let qr ← normalizedText lib input.qrIdentifier "qr_identifier" 512 true
  require (minQrIdentifierLength ≤ qr.length)
    (.invalid "qr_identifier" "Use an unguessable identifier of at least 24 characters.")
  let reason ← normalizedReason lib request.reason
  let _ ← normalizedSourceChannel request.sourceChannel
  let qrIdentifierDigest := lib.sha256 qr.toByteArray
  let digest := canonicalDigest lib [
    ("label_code", .str labelCode), ("qr_identifier_digest", .str qrIdentifierDigest), ("reason", .str reason),
    ("subject", input.subject.json)]
  store.command sur request "label.create" digest do
    require (store.catalog.labels.rows.all fun label => label.subject ≠ input.subject)
      (.invalid "__all__" "A subject has one label.")
    require ((request.organizationId, qrIdentifierDigest) ∉ store.catalog.labels.rows.map fun label =>
      (label.organizationId, label.qrIdentifierDigest)) (.invalid "__all__" "log_label_qr_digest_uq")
    let labels ← getOr (.invalid "__all__" "log_label_org_code_uq") (store.catalog.labels.insert? {
      id := sur.newId 1, organizationId := request.organizationId, labelCode, qrIdentifierDigest,
      subject := input.subject })
    return ({ store with catalog := { store.catalog with labels } }, sur.newId 1, 1)

/-! ## Responsibilities and agreements -/

structure KeyholderInput where
  keyId : Uuid
  responsibleAccountId : Uuid
  startsAt : Moment
  endsAt : Option Moment
  expectedVersion : Int

/-- The responsibility and the period overlap. -/
def KeyholderResponsibility.overlaps (responsibility : KeyholderResponsibility) (startsAt : Int)
    (endsAt : Option Int) : Bool :=
  (responsibility.endsAt.all fun ends => startsAt < ends) && endsAt.all fun ends => responsibility.startsAt < ends

/-- `assign_keyholder_responsibility` -/
def Store.assignKeyholderResponsibility (store : Store) (world : World) (lib : Primitives) (sur : Surroundings)
    (request : Request) (input : KeyholderInput) : Except LogisticsError (Store × LogisticsCommandResult) := do
  require (1 ≤ input.expectedVersion) (.invalid "expected_version" "Enter a positive version.")
  organizationContext world sur request "logistics.manage_catalog"
  let key ← getOr .resourceUnavailable ((store.catalog.keys.get? input.keyId).filter fun key =>
    key.organizationId = request.organizationId)
  require (key.aggregateVersion = input.expectedVersion) .versionConflict
  lockEligibleLogisticsPerson world sur store.catalog request.actorId request.organizationId
    key.editionAllocationId input.responsibleAccountId
  require (input.endsAt.all fun ends => input.startsAt.instant < ends.instant)
    (.invalid "ends_at" "The end must follow the start.")
  require (store.catalog.responsibilities.all fun other => ¬ (other.keyId = key.id ∧
      other.overlaps input.startsAt.instant (input.endsAt.map (·.instant)))) .stateConflict
  let reason ← normalizedReason lib request.reason
  let _ ← normalizedSourceChannel request.sourceChannel
  let digest := canonicalDigest lib [
    ("ends_at", Json.opt (fun m => .str m.str) input.endsAt), ("expected_version", .int input.expectedVersion),
    ("key_id", Json.uuid input.keyId), ("reason", .str reason),
    ("responsible_account_id", Json.uuid input.responsibleAccountId), ("starts_at", .str input.startsAt.str)]
  store.command sur request "keyholder.assign" digest do
    let responsibility : KeyholderResponsibility := {
      keyId := key.id, responsibleAccountId := input.responsibleAccountId, startsAt := input.startsAt.instant,
      endsAt := input.endsAt.map (·.instant) }
    let advanced := { key with aggregateVersion := key.aggregateVersion + 1 }
    return ({ store with catalog := { store.catalog with
        responsibilities := store.catalog.responsibilities ++ [responsibility],
        keys := store.catalog.keys.save advanced } }, key.id, advanced.aggregateVersion)

inductive AgreementKind
  | loan | rental
deriving DecidableEq

def AgreementKind.value : AgreementKind → String
  | .loan => "loan"
  | .rental => "rental"

structure AgreementInput where
  editionId : Option Uuid
  subject : SubjectLocator
  kind : AgreementKind
  providerAccountId : Option Uuid
  providerPartyId : Option Uuid
  borrowerAccountId : Option Uuid
  borrowerPartyId : Option Uuid
  startsAt : Moment
  endsAt : Moment
  returnDueAt : Moment
  returnAddressId : Option Uuid
  providerReference : String
  termsReference : String

/-- A person of an agreement, where one is named. -/
def agreementPerson (world : World) (sur : Surroundings) (catalog : Catalog) (request : Request)
    (editionId owner : Option Uuid) : Option Uuid → Except LogisticsError Unit
  | none => .ok ()
  | some accountId =>
    lockEligibleLogisticsPerson world sur catalog request.actorId request.organizationId editionId accountId owner

/-- `_agreement_party_values` -/
def agreementPartyValues (world : World) (sur : Surroundings) (catalog : Catalog) (request : Request)
    (input : AgreementInput) (owner : Option Uuid) : Except LogisticsError Unit := do
  require (input.providerAccountId.isSome ≠ input.providerPartyId.isSome)
    (.invalid "provider" "Name exactly one provider.")
  require (input.borrowerAccountId = none ∨ input.borrowerPartyId = none)
    (.invalid "borrower" "Name at most one external borrower.")
  agreementPerson world sur catalog request input.editionId owner input.providerAccountId
  agreementPerson world sur catalog request input.editionId owner input.borrowerAccountId
  require (input.providerPartyId.all fun id =>
    catalog.isPartyInRole request.organizationId providerRoles id) .resourceUnavailable
  require (input.borrowerPartyId.all fun id =>
    catalog.isPartyInRole request.organizationId [.borrower, .mixed] id) .resourceUnavailable

/-- The return address is active, kept until the return, and of the edition or of none. -/
def returnAddress (catalog : Catalog) (request : Request) (input : AgreementInput) : Bool :=
  input.returnAddressId.all fun id => (catalog.addresses.get? id).any fun address =>
    address.organizationId = request.organizationId && address.purpose = .return && address.lifecycle = .active &&
      (address.retentionUntil.any fun until_ => input.returnDueAt.instant ≤ until_) &&
      (address.editionId = none || address.editionId = input.editionId)

/-- `record_asset_agreement` -/
def Store.recordAssetAgreement (store : Store) (world : World) (lib : Primitives)
    (sur : Surroundings) (request : Request)
    (input : AgreementInput) : Except LogisticsError (Store × LogisticsCommandResult) := do
  catalogContext world sur request input.editionId
  require (input.startsAt.instant < input.endsAt.instant ∧ input.startsAt.instant ≤ input.returnDueAt.instant)
    (.invalid "interval" "Enter a valid agreement interval.")
  let subject ← store.catalog.lockSubject request.organizationId input.subject
  require (subject.allocationId = none ∨ subject.allocationId = input.editionId) .resourceUnavailable
  require (store.catalog.agreements.all fun other => ¬ (other.subject = input.subject ∧
      other.startsAt < input.endsAt.instant ∧ input.startsAt.instant < other.endsAt)) .stateConflict
  agreementPartyValues world sur store.catalog request input subject.ownerAccountId
  require (returnAddress store.catalog request input) .resourceUnavailable
  let providerReference ← normalizedText lib input.providerReference "provider_reference" 240 false true
  let termsReference ← normalizedText lib input.termsReference "terms_reference" 1000
  let reason ← normalizedReason lib request.reason
  let _ ← normalizedSourceChannel request.sourceChannel
  let digest := canonicalDigest lib [
    ("borrower_account_id", Json.opt Json.uuid input.borrowerAccountId),
    ("borrower_party_id", Json.opt Json.uuid input.borrowerPartyId),
    ("edition_id", Json.opt Json.uuid input.editionId), ("ends_at", .str input.endsAt.str),
    ("kind", .str input.kind.value), ("provider_account_id", Json.opt Json.uuid input.providerAccountId),
    ("provider_party_id", Json.opt Json.uuid input.providerPartyId),
    ("provider_reference", .str providerReference), ("reason", .str reason),
    ("return_address_id", Json.opt Json.uuid input.returnAddressId), ("return_due_at", .str input.returnDueAt.str),
    ("starts_at", .str input.startsAt.str), ("subject", input.subject.json), ("terms_reference", .str termsReference)]
  store.command sur request "agreement.record" digest do
    let agreement : AssetAgreement := {
      id := sur.newId 1, subject := input.subject, startsAt := input.startsAt.instant, endsAt := input.endsAt.instant,
      returnDueAt := input.returnDueAt.instant, returnAddressId := input.returnAddressId }
    return ({ store with catalog := { store.catalog with agreements := store.catalog.agreements ++ [agreement] } },
      agreement.id, 1)

/-! ## Kits -/

structure KitLineInput where
  subject : SubjectLocator
  quantity : Int := 1
  notes : String := ""

structure KitInput where
  code : String
  name : String
  description : String
  lines : List KitLineInput

def maxKitLines : Nat := 200

/-- The loop body over the lines of a kit: the subjects seen, and the lines for the digest. -/
def kitLine (lib : Primitives) (catalog : Catalog) (request : Request) (seen : List (SubjectLocator × Json))
    (line : KitLineInput × Nat) : Except LogisticsError (List (SubjectLocator × Json)) := do
  let (line, index) := line
  require (line.subject.kind ≠ .node) (.invalid s!"lines.{index}.subject" "Kits contain items, not locations.")
  let subject ← catalog.lockSubject request.organizationId line.subject
  require (¬ line.subject ∈ seen.map (·.1)) (.invalid s!"lines.{index}" "Duplicate kit item.")
  require (1 ≤ line.quantity ∧ line.quantity ≤ maxTrackedQuantity)
    (.invalid s!"lines.{index}.quantity" "Enter a bounded positive quantity.")
  require (subject.lot?.isSome ∨ line.quantity = 1)
    (.invalid s!"lines.{index}.quantity" "Serialized kit items have quantity one.")
  let notes ← normalizedText lib line.notes s!"lines.{index}.notes" 500
  return seen ++ [(line.subject, .obj [
    ("kind", .str line.subject.kind.value), ("notes", .str notes), ("object_id", Json.uuid line.subject.objectId),
    ("quantity", .int line.quantity)])]

/-- `create_reusable_kit`; the lines of a kit are read by no command. -/
def Store.createReusableKit (store : Store) (world : World) (lib : Primitives) (sur : Surroundings) (request : Request)
    (input : KitInput) : Except LogisticsError (Store × LogisticsCommandResult) := do
  organizationContext world sur request "logistics.manage_catalog"
  require (1 ≤ input.lines.length ∧ input.lines.length ≤ maxKitLines)
    (.invalid "lines" "Provide between 1 and 200 kit lines.")
  let lines ← input.lines.zipIdx.foldlM (kitLine lib store.catalog request) []
  let code ← normalizedCode lib input.code
  let name ← normalizedText lib input.name "name" 200 true true
  let description ← normalizedText lib input.description "description" 2000
  let reason ← normalizedReason lib request.reason
  let _ ← normalizedSourceChannel request.sourceChannel
  let digest := canonicalDigest lib [
    ("code", .str code), ("description", .str description), ("lines", .arr (lines.map (·.2))), ("name", .str name),
    ("reason", .str reason)]
  store.command sur request "kit.create" digest do
    requireOwnCode (store.catalog.kits.rows.map fun kit => (kit.organizationId, kit.code))
      request.organizationId code "log_kit_org_code_uq"
    let kits ← getOr (.integrity "logistics_reusablekit_pkey") (store.catalog.kits.insert? {
      id := sur.newId 1, organizationId := request.organizationId, code })
    return ({ store with catalog := { store.catalog with kits } }, sur.newId 1, 1)

end Maru.Logistics
