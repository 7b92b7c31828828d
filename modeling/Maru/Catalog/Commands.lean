import Maru.Catalog.Records

/-!
# Catalog commands

`catalog/services.py`: the commands that set a catalog up, adjust its stock, take orders,
and create and reconcile payments. Each looks for the receipt of its idempotency key before
it reads any state, and commits its rows together with a new version of the catalog and a
receipt, or nothing. `completeDemoPayment` is two such commands one after the other: what the
first one wrote stays when the second one fails.
-/

namespace Maru.Catalog

def maxReasonLength : Nat := 500

def maxOrderLines : Nat := 50

def maxProviderEventIdLength : Nat := 160

def currencyCodeLength : Nat := 3

/-- 30 minutes, in microseconds. -/
def paymentWindow : Int := 30 * 60 * 1000000

def maxSmallInteger : Int := 32767

def maxInteger : Int := 2147483647

def maxBigInteger : Int := 9223372036854775807

inductive Capability
  | manageCatalog | manageStock | managePayments | orderSelf
deriving DecidableEq

/-- What an authorization decision is about. -/
inductive Target
  | edition (organizationId editionId : Uuid)
  | self (organizationId editionId : Uuid)
  | owned (orderId : Uuid)

structure CharitySelection where
  organizationId : Uuid
  editionId : Uuid
  confirmed : Bool

/-- What surrounds a transaction: its time, the identifiers it draws, the decisions on authority,
and the editions and charities as it finds them. -/
structure Surroundings where
  now : Int
  newId : Nat → Uuid
  allows : Uuid → Capability → Target → Bool
  isEdition : Uuid → Uuid → Bool
  charitySelection : Uuid → Option CharitySelection

structure Request where
  actorId : Uuid
  organizationId : Uuid
  editionId : Uuid
  idempotencyKey : Uuid

structure CatalogCommandResult where
  targetId : Uuid
  resultingVersion : Nat
  replayed : Bool

def authorize (sur : Surroundings) (actorId : Uuid) (capability : Capability)
    (target : Option Target) : Except CatalogError Unit :=
  require (target.any fun target => sur.allows actorId capability target) .authorizationDenied

def Request.editionTarget (request : Request) : Target := .edition request.organizationId request.editionId

def Request.selfTarget (request : Request) : Target := .self request.organizationId request.editionId

/-- `_reason` -/
def normalizedReason (value : String) : Except CatalogError String := do
  let normalized := strip value
  require (normalized ≠ "" ∧ normalized.length ≤ maxReasonLength)
    (.invalid "reason" "Use a reason between 1 and 500 characters." "catalog_reason_invalid")
  return normalized

/-! ## Inputs -/

structure ProductInput where
  code : String
  kind : ProductKind
  name : String
  description : String := ""
  beneficiary : Beneficiary := .convention
  charitySelectionId : Option Uuid := none
  saleOpensAt : Option Int := none
  saleClosesAt : Option Int := none
  preorderAllowed : Bool := false
  fulfilmentMode : Fulfilment := .pickup
  perOrderLimit : Int := 10

def ProductKind.value : ProductKind → String
  | .merchandise => "merchandise"
  | .donation => "donation"
  | .supporter => "supporter"

def Beneficiary.value : Beneficiary → String
  | .convention => "convention"
  | .charity => "charity"

def Fulfilment.value : Fulfilment → String
  | .none => "none"
  | .pickup => "pickup"
  | .shipping => "shipping"

def ProductInput.json (lib : Primitives) (input : ProductInput) : List (String × Json) := [
  ("beneficiary", .str input.beneficiary.value),
  ("charity_selection_id", (input.charitySelectionId.map fun id => Json.str id.text).getD .null),
  ("code", .str input.code), ("description", .str input.description),
  ("fulfilment_mode", .str input.fulfilmentMode.value), ("kind", .str input.kind.value), ("name", .str input.name),
  ("operation", .str "product_added"), ("per_order_limit", .int input.perOrderLimit),
  ("preorder_allowed", .bool input.preorderAllowed),
  ("sale_closes_at", (input.saleClosesAt.map fun t => Json.str (lib.timestamp t)).getD .null),
  ("sale_opens_at", (input.saleOpensAt.map fun t => Json.str (lib.timestamp t)).getD .null)]

structure VariantInput where
  productId : Uuid
  sku : String
  name : String
  priceMinor : Int
  initialStock : Option Int := none
  stockCeiling : Option Int := none

def VariantInput.json (input : VariantInput) : List (String × Json) := [
  ("initial_stock", (input.initialStock.map Json.int).getD .null), ("name", .str input.name),
  ("operation", .str "variant_added"), ("price_minor", .int input.priceMinor),
  ("product_id", .str input.productId.text), ("sku", .str input.sku),
  ("stock_ceiling", (input.stockCeiling.map Json.int).getD .null)]

structure OrderLineRequest where
  variantId : Uuid
  quantity : Int

namespace Store

/-- `_existing_receipt` -/
def existingReceipt (store : Store) (request : Request) (catalog : EditionCatalog) (operation : CommandOperation)
    (requestDigest : String) : Except CatalogError (Option CatalogCommandReceipt) :=
  match store.receipts.get? (catalog.id, request.actorId, request.idempotencyKey) with
  | none => .ok none
  | some receipt =>
    if receipt.operation = operation ∧ receipt.requestDigest = requestDigest then .ok (some receipt)
    else .error (.invalid "__all__" "The idempotency key belongs to a different catalog command."
      "catalog_idempotency_conflict")

/-- `_advance` -/
def advance (store : Store) (catalog : EditionCatalog) (expectedVersion : Int) :
    Except CatalogError (Store × EditionCatalog) := do
  require (expectedVersion = catalog.aggregateVersion)
    (.invalid "__all__" "The catalog changed; reload before retrying." "catalog_version_conflict")
  let advanced := { catalog with aggregateVersion := catalog.aggregateVersion + 1 }
  return ({ store with catalogs := store.catalogs.save advanced }, advanced)

/-- `_receipt` -/
def createReceipt (store : Store) (request : Request) (catalog : EditionCatalog) (operation : CommandOperation)
    (requestDigest reason : String) (resultId : Uuid) : Except CatalogError Store := do
  require (store.receipts.rows.all fun other =>
      ¬ (other.catalogId = catalog.id ∧ other.resultingVersion = catalog.aggregateVersion))
    (.integrity "catalog_command_result_version_uq")
  let receipts ← getOr (.integrity "catalog_command_idempotency_uq") (store.receipts.insert? {
    catalogId := catalog.id, actorId := request.actorId, operation, idempotencyKey := request.idempotencyKey,
    requestDigest, resultingVersion := catalog.aggregateVersion, resultId, reason })
  return { store with receipts }

/-- The transaction of a command on a catalog that is there: the result that its key
has already, or its acts. -/
def transaction (store : Store) (request : Request) (operation : CommandOperation) (requestDigest : String)
    (act : EditionCatalog → Except CatalogError (Store × CatalogCommandResult)) :
    Except CatalogError (Store × CatalogCommandResult) := do
  let catalog ← getOr .doesNotExist (store.catalogOf? request.organizationId request.editionId)
  match ← store.existingReceipt request catalog operation requestDigest with
  | some receipt => return (store, ⟨receipt.resultId, receipt.resultingVersion, true⟩)
  | none => act catalog

/-! ## Definition -/

/-- `create_catalog` -/
def createCatalog (store : Store) (lib : Primitives) (sur : Surroundings) (request : Request)
    (currency reason : String) : Except CatalogError (Store × CatalogCommandResult) := do
  authorize sur request.actorId .manageCatalog (some request.editionTarget)
  let reason ← normalizedReason reason
  let currency := lib.upper (strip currency)
  require (currency.length = currencyCodeLength) (.invalid "currency" "Use a three-letter currency code.")
  let requestDigest := lib.digest [
    ("currency", .str currency), ("edition_id", .str request.editionId.text), ("operation", .str "catalog_created"),
    ("organization_id", .str request.organizationId.text)]
  require (sur.isEdition request.organizationId request.editionId) .doesNotExist
  match store.catalogs.rows.find? fun catalog => catalog.editionId = request.editionId with
  | some existing =>
    match ← store.existingReceipt request existing .catalogCreated requestDigest with
    | some receipt => return (store, ⟨receipt.resultId, receipt.resultingVersion, true⟩)
    | none => throw (.invalid "__all__" "This edition already has a catalog." "catalog_already_exists")
  | none =>
    let catalog : EditionCatalog := {
      id := sur.newId 0, organizationId := request.organizationId, editionId := request.editionId, currency
      createdById := request.actorId }
    let catalogs ← getOr (.integrity "catalog_editioncatalog_pkey") (store.catalogs.insert? catalog)
    let store ← createReceipt { store with catalogs } request catalog .catalogCreated requestDigest reason catalog.id
    return (store, ⟨catalog.id, 1, false⟩)

/-- A lower-case slug. -/
def isSlug (lib : Primitives) (code : String) : Bool :=
  code ≠ "" && lib.lower code = code &&
    code.toList.all fun c => ('a' ≤ c && c ≤ 'z') || ('A' ≤ c && c ≤ 'Z') || ('0' ≤ c && c ≤ '9') || c = '-' || c = '_'

/-- `CatalogProduct.save`: its `full_clean` and the insert. -/
def createProduct (store : Store) (lib : Primitives) (sur : Surroundings) (catalog : EditionCatalog)
    (input : ProductInput) : Except CatalogError (Store × Uuid) := do
  let product : CatalogProduct := {
    id := sur.newId 0, catalogId := catalog.id, code := input.code, kind := input.kind, name := strip input.name
    description := strip input.description, beneficiary := input.beneficiary
    charitySelectionId := input.charitySelectionId, saleOpensAt := input.saleOpensAt, saleClosesAt := input.saleClosesAt
    preorderAllowed := input.preorderAllowed, fulfilmentMode := input.fulfilmentMode
    perOrderLimit := input.perOrderLimit.toNat }
  require (isSlug lib product.code ∧ product.code.length ≤ 80) (.invalid "code" "Enter a valid “slug”.")
  require (product.name ≠ "" ∧ product.name.length ≤ 160) (.invalid "name" "This field cannot be blank.")
  require (1 ≤ input.perOrderLimit ∧ input.perOrderLimit ≤ maxSmallInteger)
    (.invalid "per_order_limit" "Ensure this value is greater than or equal to 1.")
  require (product.kind = .donation → product.fulfilmentMode = .none ∧ product.preorderAllowed = false)
    (.invalid "__all__" "Donations cannot require fulfilment or preorder.")
  require (product.kind = .supporter → product.preorderAllowed = false)
    (.invalid "__all__" "Limited supporter products cannot oversell.")
  require (product.charitySelectionId.all fun id => (sur.charitySelection id).any fun selection =>
      selection.organizationId = catalog.organizationId && selection.editionId =
        catalog.editionId && selection.confirmed)
    (.invalid "charity_selection" "Use a confirmed charity in this edition.")
  require (store.products.rows.all fun other => ¬ (other.catalogId = product.catalogId ∧ other.code = product.code))
    (.invalid "__all__" "catalog_product_code_unique")
  require (product.saleOpensAt.all fun opens => product.saleClosesAt.all fun closes => opens < closes)
    (.invalid "__all__" "catalog_product_sale_window_valid")
  require (product.beneficiary = .charity ↔ product.charitySelectionId.isSome)
    (.invalid "__all__" "catalog_product_beneficiary_shape")
  let products ← getOr (.integrity "catalog_catalogproduct_pkey") (store.products.insert? product)
  return ({ store with products }, product.id)

/-- `add_product` -/
def addProduct (store : Store) (lib : Primitives) (sur : Surroundings) (request : Request) (input : ProductInput)
    (expectedVersion : Int) (reason : String) : Except CatalogError (Store × CatalogCommandResult) := do
  authorize sur request.actorId .manageCatalog (some request.editionTarget)
  let reason ← normalizedReason reason
  let requestDigest := lib.digest (input.json lib)
  store.transaction request .productAdded requestDigest fun catalog => do
    require (catalog.status = .draft) (.invalid "__all__" "Only a draft catalog may add products.")
    let (added, productId) ← store.createProduct lib sur catalog input
    let (advanced, catalog) ← added.advance catalog expectedVersion
    let recorded ← advanced.createReceipt request catalog .productAdded requestDigest reason productId
    return (recorded, ⟨productId, catalog.aggregateVersion, false⟩)

/-- `CatalogVariant.save`: its `full_clean` and the insert. -/
def createVariant (store : Store) (sur : Surroundings) (catalog : EditionCatalog)
    (product : CatalogProduct) (input : VariantInput) : Except CatalogError (Store × Uuid) := do
  let variant : CatalogVariant := {
    id := sur.newId 0, productId := product.id, sku := strip input.sku, name := strip input.name
    priceMinor := input.priceMinor.toNat, currency := catalog.currency
    initialStock := input.initialStock.map Int.toNat, stockCeiling := input.stockCeiling.map Int.toNat }
  require (variant.sku ≠ "" ∧ variant.sku.length ≤ 80) (.invalid "sku" "This field cannot be blank.")
  require (variant.name ≠ "" ∧ variant.name.length ≤ 120) (.invalid "name" "This field cannot be blank.")
  require (0 ≤ input.priceMinor ∧ input.priceMinor ≤ maxBigInteger) (.invalid "price_minor" "Enter a bounded price.")
  require (input.initialStock.all fun stock => 0 ≤ stock ∧ stock ≤ maxInteger)
    (.invalid "initial_stock" "Enter a bounded stock.")
  require (input.stockCeiling.all fun stock => 0 ≤ stock ∧ stock ≤ maxInteger)
    (.invalid "stock_ceiling" "Enter a bounded stock.")
  require (product.kind = .donation → variant.initialStock = none ∧ variant.stockCeiling = none)
    (.invalid "__all__" "Donation price options cannot have stock.")
  require (product.kind = .supporter → variant.initialStock ≠ none ∧ variant.stockCeiling ≠ none)
    (.invalid "__all__" "Limited supporter variants require finite stock.")
  require (store.variants.rows.all fun other => ¬ (other.productId = variant.productId ∧ other.sku = variant.sku))
    (.invalid "__all__" "catalog_variant_sku_unique")
  require (variant.initialStock.isSome = variant.stockCeiling.isSome ∧
      variant.initialStock.all fun stock => variant.stockCeiling.all fun ceiling => stock ≤ ceiling)
    (.invalid "__all__" "catalog_variant_stock_shape")
  let variants ← getOr (.integrity "catalog_catalogvariant_pkey") (store.variants.insert? variant)
  return ({ store with variants }, variant.id)

/-- `add_variant` -/
def addVariant (store : Store) (lib : Primitives) (sur : Surroundings) (request : Request) (input : VariantInput)
    (expectedVersion : Int) (reason : String) : Except CatalogError (Store × CatalogCommandResult) := do
  authorize sur request.actorId .manageCatalog (some request.editionTarget)
  let reason ← normalizedReason reason
  let requestDigest := lib.digest input.json
  store.transaction request .variantAdded requestDigest fun catalog => do
    require (catalog.status = .draft) (.invalid "__all__" "Only a draft catalog may add variants.")
    let product ← getOr .doesNotExist (store.productIn? catalog.id input.productId)
    let (added, variantId) ← store.createVariant sur catalog product input
    let (advanced, catalog) ← added.advance catalog expectedVersion
    let recorded ← advanced.createReceipt request catalog .variantAdded requestDigest reason variantId
    return (recorded, ⟨variantId, catalog.aggregateVersion, false⟩)

/-- `products.update(status=ACTIVE)` -/
def activateProducts (store : Store) (catalogId : Uuid) : Store :=
  let draft := store.products.rows.filter fun product => product.catalogId = catalogId
  { store with products := store.products.saveAll (fun product => { product with status := .active }) draft }

/-- `activate_catalog` -/
def activateCatalog (store : Store) (lib : Primitives) (sur : Surroundings) (request : Request) (expectedVersion : Int)
    (reason : String) : Except CatalogError (Store × CatalogCommandResult) := do
  authorize sur request.actorId .manageCatalog (some request.editionTarget)
  let reason ← normalizedReason reason
  let requestDigest := lib.digest [("operation", .str "catalog_activated")]
  store.transaction request .catalogActivated requestDigest fun catalog => do
    require (catalog.status = .draft) (.invalid "__all__" "Only a draft catalog may be activated.")
    require ((store.products.rows.any fun product => product.catalogId = catalog.id) ∧
        store.variants.rows.any fun variant => variant.active && (store.productIn? catalog.id variant.productId).isSome)
      (.invalid "__all__" "Activate only after adding a product and variant.")
    let (advanced, catalog) ← (store.activateProducts catalog.id).advance catalog expectedVersion
    let catalog := { catalog with status := .active }
    let activated := { advanced with catalogs := advanced.catalogs.save catalog }
    let recorded ← activated.createReceipt request catalog .catalogActivated requestDigest reason catalog.id
    return (recorded, ⟨catalog.id, catalog.aggregateVersion, false⟩)

/-! ## Stock -/

/-- `adjust_stock` -/
def adjustStock (store : Store) (lib : Primitives) (sur : Surroundings) (request : Request) (variantId : Uuid)
    (newStock expectedVersion : Int) (reason : String) : Except CatalogError (Store × CatalogCommandResult) := do
  authorize sur request.actorId .manageStock (some request.editionTarget)
  let reason ← normalizedReason reason
  require (0 ≤ newStock) (.invalid "new_stock" "Use a non-negative stock value.")
  let requestDigest := lib.digest [
    ("new_stock", .int newStock), ("operation", .str "stock_adjusted"), ("variant_id", .str variantId.text)]
  store.transaction request .stockAdjusted requestDigest fun catalog => do
    require (catalog.status ≠ .closed) (.invalid "__all__" "Closed catalog stock cannot change.")
    let variant ← getOr .doesNotExist (store.variantIn? catalog.id variantId)
    let previous ← getOr (.invalid "__all__" "Unlimited variants do not accept stock changes.")
      (store.effectiveStock variant)
    let ceiling ← getOr (.invalid "__all__" "Unlimited variants do not accept stock changes.") variant.stockCeiling
    require (newStock ≤ ceiling)
      (.invalid "__all__" "Stock cannot exceed its configured hard ceiling." "catalog_stock_ceiling_exceeded")
    require (store.committedQuantity variant.id ≤ newStock)
      (.invalid "__all__" "Stock cannot drop below paid and payment-pending commitments."
        "catalog_stock_below_committed")
    let (advanced, catalog) ← store.advance catalog expectedVersion
    let adjustments ← getOr (.integrity "catalog_catalogstockadjustment_pkey") (advanced.adjustments.insert? {
      id := sur.newId 0, catalogId := catalog.id, variantId := variant.id, previousStock := previous
      newStock := newStock.toNat, reason, actorId := request.actorId, controlVersion := catalog.aggregateVersion })
    let recorded ← createReceipt { advanced with adjustments } request catalog .stockAdjusted
      requestDigest reason (sur.newId 0)
    return (recorded, ⟨sur.newId 0, catalog.aggregateVersion, false⟩)

/-! ## Orders -/

/-- `_validate_line_requests` -/
def validateLineRequests (lines : List OrderLineRequest) : Except CatalogError (List (Uuid × Nat)) := do
  require (lines ≠ [] ∧ lines.length ≤ maxOrderLines)
    (.invalid "lines" s!"Choose between 1 and {maxOrderLines} variants.")
  lines.foldlM (fun quantities line => do
    require (quantities.all fun entry => entry.1 ≠ line.variantId)
      (.invalid "lines" "Each variant may appear only once.")
    require (1 ≤ line.quantity) (.invalid "lines" "Quantities must be positive integers.")
    return quantities ++ [(line.variantId, line.quantity.toNat)]) []

def quantityOf (quantities : List (Uuid × Nat)) (variant : CatalogVariant) : Nat :=
  (quantities.lookup variant.id).getD 0

/-- The payload of an order. The texts of identifiers are ordered as the identifiers are. -/
def orderJson (quantities : List (Uuid × Nat)) : List (String × Json) := [
  ("lines", .arr ((sortBy Prod.fst quantities).map fun entry =>
    .obj [("quantity", .int entry.2), ("variant_id", .str entry.1.text)])),
  ("operation", .str "order_placed")]

/-- The variants of an order that may be sold, by their identifiers. -/
def saleableVariants (store : Store) (catalogId : Uuid) (quantities : List (Uuid × Nat)) : List CatalogVariant :=
  sortBy CatalogVariant.id (store.variants.rows.filter fun variant =>
    (quantities.any fun entry => entry.1 = variant.id) && variant.active &&
      (store.productIn? catalogId variant.productId).any fun product => product.status = .active)

/-- The loop body that checks a variant and adds its price. -/
def checkVariant (store : Store) (sur : Surroundings) (quantities : List (Uuid × Nat))
    (totalMinor : Nat) (variant : CatalogVariant) : Except CatalogError Nat := do
  let product ← getOr .doesNotExist (store.products.get? variant.productId)
  let quantity := quantityOf quantities variant
  let name := product.name
  require (product.saleOpensAt.all fun opens => opens ≤ sur.now) (.invalid "__all__" s!"{name} is not on sale yet.")
  require (product.saleClosesAt.all fun closes => sur.now < closes) (.invalid "__all__" s!"{name} is no longer on sale.")
  let limit := product.perOrderLimit
  require (quantity ≤ limit) (.invalid "__all__" s!"{name} allows at most {limit} per order.")
  require (product.charitySelectionId.all fun id => (sur.charitySelection id).any (·.confirmed))
    (.invalid "__all__" "The selected charity beneficiary is unavailable.")
  let stock := (store.availableStock variant).getD 0
  require (product.preorderAllowed ∨ (store.availableStock variant).all fun stock => quantity ≤ stock)
    (.invalid "__all__" s!"Only {stock} unit(s) of {name} are available." "catalog_stock_unavailable")
  return totalMinor + variant.priceMinor * quantity

/-- `f"SHOP-{order.id.hex[:12].upper()}"` -/
def orderReference (id : Uuid) : String :=
  "SHOP-" ++ String.ofList (((Digits.padHex 32 id.val).take 12).map Char.toUpper)

/-- `order.save()` -/
def createOrder (store : Store) (order : CatalogOrder) : Except CatalogError Store := do
  require ((order.totalMinor : Int) ≤ maxBigInteger)
    (.invalid "total_minor" "Ensure this value is less than or equal to 9223372036854775807.")
  require (store.orders.rows.all fun other => ¬ (other.editionId = order.editionId ∧ other.reference = order.reference))
    (.invalid "__all__" "catalog_order_reference_unique")
  let orders ← getOr (.integrity "catalog_catalogorder_pkey") (store.orders.insert? order)
  return { store with orders }

def orderLine (orderId : Uuid) (quantities : List (Uuid × Nat)) (variant : CatalogVariant) : CatalogOrderLine where
  orderId := orderId
  productId := variant.productId
  variantId := variant.id
  quantity := quantityOf quantities variant
  unitPriceMinor := variant.priceMinor
  lineTotalMinor := variant.priceMinor * quantityOf quantities variant

/-- `CatalogOrderLine.objects.create` -/
def createLine (store : Store) (line : CatalogOrderLine) : Except CatalogError Store := do
  require (0 < line.quantity ∧ (line.quantity : Int) ≤ maxInteger)
    (.invalid "quantity" "Ensure this value is less than or equal to 2147483647.")
  let lines ← getOr (.invalid "__all__" "catalog_order_variant_once") (store.lines.insert? line)
  return { store with lines }

/-- `place_order` -/
def placeOrder (store : Store) (lib : Primitives) (sur : Surroundings) (request : Request)
    (lines : List OrderLineRequest) (expectedVersion : Int) : Except CatalogError (Store × CatalogCommandResult) := do
  authorize sur request.actorId .orderSelf (some request.selfTarget)
  let quantities ← validateLineRequests lines
  let requestDigest := lib.digest (orderJson quantities)
  store.transaction request .orderPlaced requestDigest fun catalog => do
    require (catalog.status = .active) (.invalid "__all__" "This edition catalog is not accepting orders.")
    let variants := store.saleableVariants catalog.id quantities
    require (variants.length = quantities.length) (.invalid "__all__" "One or more selected variants are unavailable.")
    let totalMinor ← variants.foldlM (store.checkVariant sur quantities) 0
    let order : CatalogOrder := {
      id := sur.newId 0, catalogId := catalog.id, organizationId := request.organizationId
      editionId := request.editionId, accountId := request.actorId, reference := orderReference (sur.newId 0)
      status := if totalMinor = 0 then .paid else .paymentPending, currency := catalog.currency, totalMinor
      paymentDueAt := if totalMinor = 0 then none else some (sur.now + paymentWindow)
      paidAt := if totalMinor = 0 then some sur.now else none }
    let placed ← store.createOrder order
    let lined ← (variants.map (orderLine order.id quantities)).foldlM createLine placed
    let (advanced, catalog) ← lined.advance catalog expectedVersion
    let recorded ← advanced.createReceipt request catalog .orderPlaced requestDigest "" order.id
    return (recorded, ⟨order.id, catalog.aggregateVersion, false⟩)

/-! ## Payments -/

/-- `create_payment_intent` -/
def createPaymentIntent (store : Store) (lib : Primitives) (sur : Surroundings) (request : Request)
    (orderId : Uuid) (provider : Provider) (expectedCatalogVersion expectedOrderVersion : Int) :
    Except CatalogError (Store × CatalogCommandResult) := do
  let owned := (store.orders.get? orderId).filter fun order => order.organizationId =
    request.organizationId ∧ order.editionId = request.editionId ∧ order.accountId = request.actorId
  authorize sur request.actorId .orderSelf (owned.map fun order => .owned order.id)
  let requestDigest := lib.digest [
    ("operation", .str "payment_created"), ("order_id", .str orderId.text), ("provider", .str provider.value)]
  store.transaction request .paymentCreated requestDigest fun catalog => do
    let order ← getOr .doesNotExist ((store.orders.get? orderId).filter fun order =>
      order.catalogId = catalog.id ∧ order.accountId = request.actorId)
    require (order.status = .paymentPending) (.invalid "__all__" "This order does not require payment.")
    require (expectedOrderVersion = order.aggregateVersion)
      (.invalid "__all__" "The order changed; reload before retrying." "catalog_order_version_conflict")
    require ((store.intentsOf order.id).all fun intent => intent.status ≠ .pending)
      (.invalid "__all__" "This order already has a pending payment.")
    let intents ← getOr (.integrity "catalog_catalogpaymentintent_pkey") (store.intents.insert? {
      id := sur.newId 0, orderId := order.id, provider, amountMinor := order.totalMinor, currency := order.currency })
    let started := { order with aggregateVersion := order.aggregateVersion + 1 }
    let (advanced, catalog) ← advance
      { store with intents, orders := store.orders.save started } catalog expectedCatalogVersion
    let recorded ← advanced.createReceipt request catalog .paymentCreated requestDigest "" (sur.newId 0)
    return (recorded, ⟨sur.newId 0, catalog.aggregateVersion, false⟩)

/-- `_payment_authorization` -/
def mayReconcile (sur : Surroundings) (actorId : Uuid) (intent : CatalogPaymentIntent) (order : CatalogOrder) : Bool :=
  (intent.provider = .demo && sur.allows actorId .orderSelf (.owned order.id)) ||
    sur.allows actorId .managePayments (.edition order.organizationId order.editionId)

/-- The order after its intent reached a result. -/
def settledOrder (order : CatalogOrder) (result : PaymentResult) (reconciledAt : Int) : CatalogOrder :=
  match result with
  | .succeeded => { order with
      status := .paid, paidAt := some reconciledAt, aggregateVersion := order.aggregateVersion + 1 }
  | .failed => { order with aggregateVersion := order.aggregateVersion + 1 }

def settledIntent (intent : CatalogPaymentIntent) (result : PaymentResult) (reconciledAt : Int) : CatalogPaymentIntent :=
  { intent with
    status := result.status, aggregateVersion := intent.aggregateVersion + 1
    succeededAt := if result = .succeeded then some reconciledAt else none }

/-- `CatalogPaymentEvent.objects.create` -/
def createEvent (store : Store) (event : CatalogPaymentEvent) : Except CatalogError Store := do
  require (store.events.rows.all fun other => other.id ≠ event.id) (.integrity "catalog_catalogpaymentevent_pkey")
  let events ← getOr (.invalid "__all__" "catalog_payment_provider_event_uq") (store.events.insert? event)
  return { store with events }

/-- `reconcile_payment` -/
def reconcilePayment (store : Store) (lib : Primitives) (sur : Surroundings) (request : Request) (intentId : Uuid)
    (providerEventId : String) (result : PaymentResult) (expectedCatalogVersion expectedOrderVersion : Int)
    (reason : String) : Except CatalogError (Store × CatalogCommandResult) := do
  let intent ← getOr .doesNotExist (store.intents.get? intentId)
  let order ← getOr .doesNotExist ((store.orders.get? intent.orderId).filter fun order =>
    order.organizationId = request.organizationId ∧ order.editionId = request.editionId)
  require (mayReconcile sur request.actorId intent order) .authorizationDenied
  let reason ← normalizedReason reason
  let providerEventId := strip providerEventId
  require (providerEventId ≠ "" ∧ providerEventId.length ≤ maxProviderEventIdLength)
    (.invalid "provider_event_id" "Use a bounded event reference.")
  let requestDigest := lib.digest [
    ("intent_id", .str intentId.text), ("operation", .str "payment_reconciled"),
    ("provider_event_id", .str providerEventId), ("result", .str result.value)]
  store.transaction request .paymentReconciled requestDigest fun catalog => do
    require (order.catalogId = catalog.id) .doesNotExist
    require (intent.status = .pending) (.invalid "__all__" "This payment intent has already reached a result.")
    require (expectedOrderVersion = order.aggregateVersion)
      (.invalid "__all__" "The order changed; reload before reconciliation." "catalog_order_version_conflict")
    require (store.events.get? (intent.provider, providerEventId) = none)
      (.invalid "__all__" "This provider event was already consumed.")
    require (result = .succeeded → order.status = .paymentPending)
      (.invalid "__all__" "The payment no longer matches an open order.")
    let settled : Store := { store with
      intents := store.intents.save (settledIntent intent result sur.now)
      orders := store.orders.save (settledOrder order result sur.now) }
    let evidenced ← settled.createEvent {
      id := sur.newId 0, intentId := intent.id, provider := intent.provider, providerEventId, result
      occurredAt := sur.now }
    let (advanced, catalog) ← evidenced.advance catalog expectedCatalogVersion
    let recorded ← advanced.createReceipt request catalog .paymentReconciled requestDigest reason (sur.newId 0)
    return (recorded, ⟨sur.newId 0, catalog.aggregateVersion, false⟩)

/-! ## The demo payment -/

def demoCreateKey (lib : Primitives) (idempotencyKey : Uuid) : Uuid :=
  lib.uuid5 ("maru:catalog:demo:create:" ++ idempotencyKey.text)

def demoReconcileKey (lib : Primitives) (idempotencyKey : Uuid) : Uuid :=
  lib.uuid5 ("maru:catalog:demo:reconcile:" ++ idempotencyKey.text)

/-- `f"demo-{idempotency_key.hex}"` -/
def demoEventId (idempotencyKey : Uuid) : String := "demo-" ++ String.ofList (Digits.padHex 32 idempotencyKey.val)

/-- The second half of a demo payment: the result of the intent that the first half answered with.
-/
def settleDemoPayment (store : Store) (lib : Primitives) (sur : Surroundings) (request : Request)
    (created : CatalogCommandResult) : Except CatalogError (Store × CatalogCommandResult) := do
  let intent ← getOr .doesNotExist (store.intents.get? created.targetId)
  let order ← getOr .doesNotExist (store.orders.get? intent.orderId)
  if intent.status = .succeeded then
    let receipt ← getOr .doesNotExist
      (store.receipts.get? (order.catalogId, request.actorId, demoReconcileKey lib request.idempotencyKey))
    return (store, ⟨receipt.resultId, receipt.resultingVersion, true⟩)
  else
    store.reconcilePayment lib sur { request with
      idempotencyKey := demoReconcileKey lib request.idempotencyKey } intent.id
      (demoEventId request.idempotencyKey) .succeeded created.resultingVersion order.aggregateVersion
      "deterministic demo payment"

/-- `complete_demo_payment`: each transaction with what surrounds it. -/
def completeDemoPayment (store : Store) (lib : Primitives) (sur : Surroundings × Surroundings) (request : Request)
    (orderId : Uuid) (expectedCatalogVersion expectedOrderVersion : Int) : Store × Except
      CatalogError CatalogCommandResult :=
  match store.createPaymentIntent lib sur.1 { request with idempotencyKey := demoCreateKey lib request.idempotencyKey }
      orderId .demo expectedCatalogVersion expectedOrderVersion with
  | .error e => (store, .error e)
  | .ok (started, created) =>
    match started.settleDemoPayment lib sur.2 request created with
    | .error e => (started, .error e)
    | .ok (paid, result) => (paid, .ok result)

end Store

end Maru.Catalog
