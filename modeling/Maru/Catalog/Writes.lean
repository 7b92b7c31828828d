import Maru.Catalog.Commands
import Maru.Framework.Machine

/-!
# What a catalog command writes

A command that commits writes nothing, because its key has a receipt, or makes one of eight
steps (`Step`), each with the catalog's next version and the receipt that records it
(`exec_step`).
-/

namespace Maru.Catalog

/-! ## The machine -/

inductive Command
  | createCatalog (currency reason : String)
  | addProduct (input : ProductInput) (expectedVersion : Int) (reason : String)
  | addVariant (input : VariantInput) (expectedVersion : Int) (reason : String)
  | activateCatalog (expectedVersion : Int) (reason : String)
  | adjustStock (variantId : Uuid) (newStock expectedVersion : Int) (reason : String)
  | placeOrder (lines : List OrderLineRequest) (expectedVersion : Int)
  | createPaymentIntent (orderId : Uuid) (provider : Provider) (expectedCatalogVersion expectedOrderVersion : Int)
  | reconcilePayment (intentId : Uuid) (providerEventId : String) (result : PaymentResult)
      (expectedCatalogVersion expectedOrderVersion : Int) (reason : String)

/-- A command, who sends it under which key, and what surrounds it. -/
structure Call where
  surroundings : Surroundings
  request : Request
  command : Command

def Store.exec (store : Store) (lib : Primitives) (call : Call) : Except CatalogError (Store × CatalogCommandResult) :=
  match call.command with
  | .createCatalog currency reason => store.createCatalog lib call.surroundings call.request currency reason
  | .addProduct input version reason => store.addProduct lib call.surroundings call.request input version reason
  | .addVariant input version reason => store.addVariant lib call.surroundings call.request input version reason
  | .activateCatalog version reason => store.activateCatalog lib call.surroundings call.request version reason
  | .adjustStock variantId newStock version reason =>
    store.adjustStock lib call.surroundings call.request variantId newStock version reason
  | .placeOrder lines version => store.placeOrder lib call.surroundings call.request lines version
  | .createPaymentIntent orderId provider catalogVersion orderVersion =>
    store.createPaymentIntent lib call.surroundings call.request orderId provider catalogVersion orderVersion
  | .reconcilePayment intentId eventId result catalogVersion orderVersion reason =>
    store.reconcilePayment lib call.surroundings call.request intentId eventId result catalogVersion orderVersion reason

def catalogMachine (lib : Primitives) : Machine Store Call CatalogCommandResult CatalogError where
  exec store call := store.exec lib call

/-! ## Steps -/

/-- A command on `catalog` is recorded: the catalog has its next version, and the receipt names it.
-/
structure Recorded (store : Store) (catalog advanced : EditionCatalog)
    (catalogs : Table EditionCatalog.id) (receipts : Table CatalogCommandReceipt.key) : Prop where
  mem : catalog ∈ store.catalogs
  same : advanced.id = catalog.id ∧ advanced.organizationId = catalog.organizationId ∧
    advanced.editionId = catalog.editionId ∧ advanced.currency = catalog.currency
  version : advanced.aggregateVersion = catalog.aggregateVersion + 1
  saved : catalogs = store.catalogs.save advanced
  received : ∃ receipt, store.receipts.insert? receipt = some receipts ∧
    receipt.catalogId = catalog.id ∧ receipt.resultingVersion = advanced.aggregateVersion

/-- An order as it is placed: its variants, each with the quantity asked for. -/
structure Orders (store : Store) (catalog : EditionCatalog) (variants : List CatalogVariant)
    (quantities : List (Uuid × Nat)) (order : CatalogOrder) : Prop where
  mem : ∀ v ∈ variants, v ∈ store.variants
  once : (variants.map CatalogVariant.id).Nodup
  total : order.totalMinor = (variants.map fun v => v.priceMinor * Store.quantityOf quantities v).sum
  of : order.catalogId = catalog.id ∧ order.organizationId = catalog.organizationId ∧ order.editionId = catalog.editionId
  status : order.status = if order.totalMinor = 0 then .paid else .paymentPending
  /-- A variant that may not be ordered beyond its stock is not. -/
  stock : ∀ v ∈ variants, ∃ product ∈ store.products, product.id = v.productId ∧
    (product.preorderAllowed = false → ∀ stock, store.effectiveStock v = some stock →
      Store.quantityOf quantities v + store.committedQuantity v.id ≤ stock)

/-- An intent of a pending order reaches its result. -/
structure Settles (store : Store) (intent : CatalogPaymentIntent) (order : CatalogOrder)
    (result : PaymentResult) (event : CatalogPaymentEvent) : Prop where
  mem : intent ∈ store.intents
  orderMem : order ∈ store.orders
  of : intent.orderId = order.id
  pending : intent.status = .pending
  due : result = .succeeded → order.status = .paymentPending
  event : event.intentId = intent.id ∧ event.provider = intent.provider ∧ event.result = result

/-- What a command that is not a repeat writes. -/
inductive Step (store : Store) : Store → Prop
  | created {catalog : EditionCatalog} {catalogs : Table EditionCatalog.id} {receipts : Table CatalogCommandReceipt.key}
      {receipt : CatalogCommandReceipt} (only : ∀ other ∈ store.catalogs, other.editionId ≠ catalog.editionId)
      (version : catalog.aggregateVersion = 1) (inserted : store.catalogs.insert? catalog = some catalogs)
      (received : store.receipts.insert? receipt = some receipts) (of : receipt.catalogId = catalog.id)
      (result : receipt.resultingVersion = 1) : Step store { store with catalogs, receipts }
  | product {catalog advanced : EditionCatalog} {catalogs : Table EditionCatalog.id}
      {receipts : Table CatalogCommandReceipt.key} {product : CatalogProduct} {products : Table CatalogProduct.id}
      (recorded : Recorded store catalog advanced catalogs receipts)
      (inserted : store.products.insert? product = some products) (of : product.catalogId = catalog.id) :
      Step store { store with catalogs, receipts, products }
  | variant {catalog advanced : EditionCatalog} {catalogs : Table EditionCatalog.id}
      {receipts : Table CatalogCommandReceipt.key} {product : CatalogProduct} {variant : CatalogVariant}
      {variants : Table CatalogVariant.id} (recorded : Recorded store catalog advanced catalogs receipts)
      (inserted : store.variants.insert? variant = some variants) (mem : product ∈ store.products)
      (of : variant.productId = product.id) (shape : variant.initialStock.isSome = variant.stockCeiling.isSome)
      (bounded : ∀ stock ∈ variant.initialStock, ∀ ceiling ∈ variant.stockCeiling, stock ≤ ceiling) :
      Step store { store with catalogs, receipts, variants }
  | activated {catalog advanced : EditionCatalog} {catalogs : Table EditionCatalog.id}
      {receipts : Table CatalogCommandReceipt.key} (recorded : Recorded store catalog advanced catalogs receipts) :
      Step store { store.activateProducts catalog.id with catalogs, receipts }
  | adjusted {catalog advanced : EditionCatalog} {catalogs : Table EditionCatalog.id}
      {receipts : Table CatalogCommandReceipt.key} {variant : CatalogVariant} {product : CatalogProduct}
      {adjustment : CatalogStockAdjustment} {adjustments : Table CatalogStockAdjustment.id} {ceiling : Nat}
      (recorded : Recorded store catalog advanced catalogs receipts)
      (inserted : store.adjustments.insert? adjustment = some adjustments) (mem : variant ∈ store.variants)
      (sold : product ∈ store.products) (under : product.id = variant.productId)
        (inCatalog : product.catalogId = catalog.id)
      (of : adjustment.variantId = variant.id) (version : adjustment.controlVersion = advanced.aggregateVersion)
      (limit : variant.stockCeiling = some ceiling) (bounded : adjustment.newStock ≤ ceiling)
      (committed : store.committedQuantity variant.id ≤ adjustment.newStock) :
      Step store { store with catalogs, receipts, adjustments }
  | ordered {catalog advanced : EditionCatalog} {catalogs : Table EditionCatalog.id}
      {receipts : Table CatalogCommandReceipt.key} {variants : List CatalogVariant} {quantities : List (Uuid × Nat)}
      {order : CatalogOrder} {orders : Table CatalogOrder.id} {lines : Table CatalogOrderLine.key}
      (recorded : Recorded store catalog advanced catalogs receipts)
      (placed : Orders store catalog variants quantities order)
      (inserted : store.orders.insert? order = some orders)
      (lined : lines.rows = store.lines.rows ++ variants.map (Store.orderLine order.id quantities)) :
      Step store { store with catalogs, receipts, orders, lines }
  | started {catalog advanced : EditionCatalog} {catalogs : Table EditionCatalog.id}
      {receipts : Table CatalogCommandReceipt.key} {order : CatalogOrder} {intent : CatalogPaymentIntent}
      {intents : Table CatalogPaymentIntent.id} (recorded : Recorded store catalog advanced catalogs receipts)
      (mem : order ∈ store.orders) (due : order.status = .paymentPending)
      (none : ∀ other ∈ store.intents, other.orderId = order.id → other.status ≠ .pending)
      (inserted : store.intents.insert? intent = some intents) (of : intent.orderId = order.id)
      (pending : intent.status = .pending) (exact : intent.amountMinor = order.totalMinor ∧
        intent.currency = order.currency) :
      Step store { store with
        catalogs, receipts, intents, orders :=
          store.orders.save { order with aggregateVersion := order.aggregateVersion + 1 } }
  | settled {catalog advanced : EditionCatalog} {catalogs : Table EditionCatalog.id}
      {receipts : Table CatalogCommandReceipt.key} {intent : CatalogPaymentIntent} {order : CatalogOrder}
      {result : PaymentResult} {event : CatalogPaymentEvent} {events : Table CatalogPaymentEvent.key} {now : Int}
      (recorded : Recorded store catalog advanced catalogs receipts) (settles : Settles store intent order result event)
      (inserted : store.events.insert? event = some events) :
      Step store { store with
        catalogs, receipts, events
        intents := store.intents.save (Store.settledIntent intent result now)
        orders := store.orders.save (Store.settledOrder order result now) }

/-! ## Rules for the parts of a command -/

section

variable {store after : Store} {request : Request} {catalog advanced : EditionCatalog} {result : CatalogCommandResult}

theorem catalogOf?_eq_some {organizationId editionId : Uuid}
    (h : store.catalogOf? organizationId editionId = some catalog) :
    catalog ∈ store.catalogs ∧ catalog.organizationId = organizationId ∧ catalog.editionId = editionId := by
  have hp := Table.find?_eq_some_and h
  exact hp

theorem productIn?_eq_some {catalogId productId : Uuid} {product : CatalogProduct} :
    store.productIn? catalogId productId = some product ↔
      product ∈ store.products ∧ product.id = productId ∧ product.catalogId = catalogId := by
  rw [Store.productIn?, Option.filter_eq_some_iff, Table.get?_eq_some, decide_eq_true_eq, and_assoc]

theorem variantIn?_eq_some {catalogId variantId : Uuid} {variant : CatalogVariant} :
    store.variantIn? catalogId variantId = some variant ↔
      (variant ∈ store.variants ∧ variant.id = variantId) ∧
        ∃ product ∈ store.products, product.id = variant.productId ∧ product.catalogId = catalogId := by
  rw [Store.variantIn?, Option.filter_eq_some_iff, Table.get?_eq_some, Option.isSome_iff_exists]
  simp only [productIn?_eq_some]

theorem existingReceipt_eq_ok {operation : CommandOperation} {requestDigest : String}
    {found : Option CatalogCommandReceipt} :
    store.existingReceipt request catalog operation requestDigest = .ok found ↔
      store.receipts.get? (catalog.id, request.actorId, request.idempotencyKey) = found ∧
        ∀ receipt, found = some receipt → receipt.operation = operation ∧ receipt.requestDigest = requestDigest := by
  unfold Store.existingReceipt
  split
  · rename_i absent
    rw [absent]
    constructor
    · intro h
      cases h
      simp
    · rintro ⟨rfl, -⟩
      rfl
  · rename_i receipt present
    rw [present]
    split
    · rename_i same
      constructor
      · intro h
        cases h
        simp [same]
      · rintro ⟨rfl, -⟩
        rfl
    · rename_i differs
      constructor
      · intro h
        cases h
      · rintro ⟨rfl, same⟩
        exact absurd (same receipt rfl) differs

/-- A transaction repeats what the receipt of its key says, or there is none and it acts. -/
theorem transaction_eq_ok {operation : CommandOperation} {requestDigest : String}
    {act : EditionCatalog → Except CatalogError (Store × CatalogCommandResult)} :
    store.transaction request operation requestDigest act = .ok (after, result) ↔
      ∃ catalog, store.catalogOf? request.organizationId request.editionId = some catalog ∧
        ((∃ receipt, store.receipts.get? (catalog.id, request.actorId, request.idempotencyKey) = some receipt ∧
            receipt.operation = operation ∧ receipt.requestDigest = requestDigest ∧
            after = store ∧ result = ⟨receipt.resultId, receipt.resultingVersion, true⟩) ∨
          (store.receipts.get? (catalog.id, request.actorId, request.idempotencyKey) = none ∧
            act catalog = .ok (after, result))) := by
  simp only [Store.transaction, bind_eq_ok, getOr_eq_ok, existingReceipt_eq_ok]
  constructor
  · rintro ⟨catalog, found, receipt, ⟨present, matched⟩, acted⟩
    refine ⟨catalog, found, ?_⟩
    cases receipt with
    | none => exact .inr ⟨present, acted⟩
    | some receipt =>
      obtain ⟨operation, digest⟩ := matched receipt rfl
      cases acted
      exact .inl ⟨receipt, present, operation, digest, rfl, rfl⟩
  · rintro ⟨catalog, found, ⟨receipt, present, operation, digest, rfl, rfl⟩ | ⟨absent, acted⟩⟩
    · refine ⟨catalog, found, some receipt, ⟨present, ?_⟩, rfl⟩
      rintro _ ⟨⟩
      exact ⟨operation, digest⟩
    · exact ⟨catalog, found, none, ⟨absent, by simp⟩, acted⟩

theorem advance_eq_ok {expectedVersion : Int} :
    store.advance catalog expectedVersion = .ok (after, advanced) ↔
      expectedVersion = catalog.aggregateVersion ∧
        advanced = { catalog with aggregateVersion := catalog.aggregateVersion + 1 } ∧
        after = { store with catalogs := store.catalogs.save advanced } := by
  simp only [Store.advance, bind_eq_ok, require_eq_ok, pure_eq_ok, Prod.mk.injEq, exists_const]
  constructor
  · rintro ⟨version, rfl, rfl⟩
    exact ⟨version, rfl, rfl⟩
  · rintro ⟨version, rfl, rfl⟩
    exact ⟨version, rfl, rfl⟩

/-- The receipt of a command. -/
def receiptOf (request : Request) (catalog : EditionCatalog) (operation : CommandOperation)
    (requestDigest reason : String) (resultId : Uuid) : CatalogCommandReceipt where
  catalogId := catalog.id
  actorId := request.actorId
  operation := operation
  idempotencyKey := request.idempotencyKey
  requestDigest := requestDigest
  resultingVersion := catalog.aggregateVersion
  resultId := resultId
  reason := reason

theorem createReceipt_eq_ok {operation : CommandOperation} {requestDigest reason : String} {resultId : Uuid} :
    store.createReceipt request catalog operation requestDigest reason resultId = .ok after ↔
      (∀ other ∈ store.receipts, other.catalogId = catalog.id → other.resultingVersion ≠ catalog.aggregateVersion) ∧
        ∃ receipts, store.receipts.insert?
          (receiptOf request catalog operation requestDigest reason resultId) = some receipts ∧
          after = { store with receipts } := by
  simp only [Store.createReceipt, bind_eq_ok, require_eq_ok, getOr_eq_ok, pure_eq_ok, exists_const,
    List.all_eq_true, decide_eq_true_eq, not_and, Table.mem_def, receiptOf]
  constructor
  · rintro ⟨fresh, receipts, inserted, rfl⟩
    exact ⟨fresh, receipts, inserted, rfl⟩
  · rintro ⟨fresh, receipts, inserted, rfl⟩
    exact ⟨fresh, receipts, inserted, rfl⟩

/-- A command that advances its catalog and then keeps its receipt is recorded. -/
theorem recorded_of_advance {store' recorded : Store} {expectedVersion : Int} {operation : CommandOperation}
    {requestDigest reason : String} {resultId : Uuid} (mem : catalog ∈ store.catalogs)
    (h : store'.advance catalog expectedVersion = .ok (after, advanced))
    (hr : after.createReceipt request advanced operation requestDigest reason resultId = .ok recorded)
    (same : store'.catalogs = store.catalogs ∧ store'.receipts = store.receipts) :
    Recorded store catalog advanced recorded.catalogs recorded.receipts ∧
      recorded = { store' with catalogs := recorded.catalogs, receipts := recorded.receipts } := by
  obtain ⟨-, rfl, rfl⟩ := advance_eq_ok.mp h
  obtain ⟨-, receipts, inserted, rfl⟩ := createReceipt_eq_ok.mp hr
  have received : store.receipts.insert? _ = some receipts := same.2 ▸ inserted
  refine ⟨⟨mem, ⟨rfl, rfl, rfl, rfl⟩, rfl, ?_, _, received, rfl, rfl⟩, rfl⟩
  show store'.catalogs.save _ = _
  rw [same.1]

end

/-! ## What each command writes -/

section

variable {store after : Store} {lib : Primitives} {sur : Surroundings} {request : Request}
  {result : CatalogCommandResult}

theorem createCatalog_step {currency reason : String}
    (h : store.createCatalog lib sur request currency reason = .ok (after, result)) : after = store ∨
      Step store after := by
  simp only [Store.createCatalog, bind_eq_ok] at h
  obtain ⟨_, -, _, -, _, -, _, -, h⟩ := h
  split at h
  · simp only [bind_eq_ok] at h
    obtain ⟨receipt, -, h⟩ := h
    cases receipt with
    | none => exact absurd h throw_ne_ok
    | some receipt =>
      cases h
      exact .inl rfl
  · rename_i none
    simp only [bind_eq_ok, getOr_eq_ok, pure_eq_ok, Prod.mk.injEq] at h
    obtain ⟨catalogs, inserted, _, recorded, rfl, -⟩ := h
    obtain ⟨-, receipts, received, rfl⟩ := createReceipt_eq_ok.mp recorded
    refine .inr (.created (fun other mem same => ?_) rfl inserted received rfl rfl)
    have := List.find?_eq_none.mp none other mem
    simp [same] at this

theorem addProduct_step {input : ProductInput} {expectedVersion : Int} {reason : String}
    (h : store.addProduct lib sur request input expectedVersion reason = .ok (after, result)) :
    after = store ∨ Step store after := by
  simp only [Store.addProduct, bind_eq_ok, transaction_eq_ok] at h
  obtain ⟨_, -, _, -, catalog, found, ⟨_, -, -, -, rfl, -⟩ | ⟨-, acted⟩⟩ := h
  · exact .inl rfl
  simp only [pure_eq_ok, Prod.mk.injEq] at acted
  obtain ⟨_, -, ⟨added, productId⟩, created, ⟨advanced, catalog'⟩, advance, recorded, receipt, rfl, -⟩ := acted
  simp only [Store.createProduct, bind_eq_ok, getOr_eq_ok, pure_eq_ok, Prod.mk.injEq] at created
  obtain ⟨_, -, _, -, _, -, _, -, _, -, _, -, _, -, _, -, _, -, products, inserted, rfl, -⟩ := created
  obtain ⟨written, eq⟩ := recorded_of_advance (catalogOf?_eq_some found).1 advance receipt ⟨rfl, rfl⟩
  rw [eq]
  exact .inr (.product written inserted rfl)

theorem addVariant_step {input : VariantInput} {expectedVersion : Int} {reason : String}
    (h : store.addVariant lib sur request input expectedVersion reason = .ok (after, result)) :
    after = store ∨ Step store after := by
  simp only [Store.addVariant, bind_eq_ok, transaction_eq_ok] at h
  obtain ⟨_, -, _, -, catalog, found, ⟨_, -, -, -, rfl, -⟩ | ⟨-, acted⟩⟩ := h
  · exact .inl rfl
  simp only [getOr_eq_ok, pure_eq_ok, Prod.mk.injEq, productIn?_eq_some] at acted
  obtain ⟨_, -, product, ⟨mem, -, -⟩, ⟨added, variantId⟩, created, ⟨advanced, catalog'⟩,
    advance, recorded, receipt, rfl, -⟩ :=
    acted
  simp only [Store.createVariant, bind_eq_ok, require_eq_ok, getOr_eq_ok, pure_eq_ok, Prod.mk.injEq] at created
  obtain ⟨_, -, _, -, _, -, _, -, _, -, _, -, _, -, _, -, _, ⟨shape, bounded⟩, variants, inserted, rfl, -⟩ := created
  obtain ⟨written, eq⟩ := recorded_of_advance (catalogOf?_eq_some found).1 advance receipt ⟨rfl, rfl⟩
  rw [eq]
  simp only [Option.all_eq_true, decide_eq_true_eq] at bounded
  exact .inr (.variant written inserted mem rfl shape fun stock hs ceiling hc => bounded stock hs ceiling hc)

theorem activateCatalog_step {expectedVersion : Int} {reason : String}
    (h : store.activateCatalog lib sur request expectedVersion reason = .ok (after, result)) :
    after = store ∨ Step store after := by
  simp only [Store.activateCatalog, bind_eq_ok, transaction_eq_ok] at h
  obtain ⟨_, -, _, -, catalog, found, ⟨_, -, -, -, rfl, -⟩ | ⟨-, acted⟩⟩ := h
  · exact .inl rfl
  simp only [pure_eq_ok, Prod.mk.injEq] at acted
  obtain ⟨_, -, _, -, ⟨advanced, catalog'⟩, advance, recorded, receipt, rfl, -⟩ := acted
  obtain ⟨-, rfl, rfl⟩ := advance_eq_ok.mp advance
  obtain ⟨-, receipts, received, rfl⟩ := createReceipt_eq_ok.mp receipt
  have saved := Table.save_save (t := store.catalogs) (a :=
    { catalog with aggregateVersion := catalog.aggregateVersion + 1 })
    (b := { catalog with aggregateVersion := catalog.aggregateVersion + 1, status := .active }) rfl
  have written : Recorded store catalog
      { catalog with aggregateVersion := catalog.aggregateVersion + 1, status := .active } _ receipts :=
    ⟨(catalogOf?_eq_some found).1, ⟨rfl, rfl, rfl, rfl⟩, rfl, saved, _, received, rfl, rfl⟩
  exact .inr (.activated written)

theorem adjustStock_step {variantId : Uuid} {newStock expectedVersion : Int} {reason : String}
    (h : store.adjustStock lib sur request variantId newStock expectedVersion reason = .ok (after, result)) :
    after = store ∨ Step store after := by
  simp only [Store.adjustStock, bind_eq_ok, transaction_eq_ok, require_eq_ok] at h
  obtain ⟨_, -, _, -, _, nonneg, catalog, found, ⟨_, -, -, -, rfl, -⟩ | ⟨-, acted⟩⟩ := h
  · exact .inl rfl
  simp only [getOr_eq_ok, pure_eq_ok, Prod.mk.injEq, variantIn?_eq_some] at acted
  obtain ⟨_, -, variant, ⟨⟨mem, -⟩, product, sold, under, inCatalog⟩, previous, -, ceiling,
    limit, _, bounded, _, committed,
    ⟨advanced, catalog'⟩, advance, adjustments, inserted, recorded, receipt, rfl, -⟩ := acted
  obtain ⟨-, rfl, rfl⟩ := advance_eq_ok.mp advance
  obtain ⟨-, receipts, received, rfl⟩ := createReceipt_eq_ok.mp receipt
  have written : Recorded store catalog { catalog with aggregateVersion := catalog.aggregateVersion + 1 } _ receipts :=
    ⟨(catalogOf?_eq_some found).1, ⟨rfl, rfl, rfl, rfl⟩, rfl, rfl, _, received, rfl, rfl⟩
  refine .inr (.adjusted written inserted mem sold under inCatalog rfl rfl limit ?_ ?_)
  · show newStock.toNat ≤ ceiling
    omega
  · show store.committedQuantity variant.id ≤ newStock.toNat
    omega

/-! ### Orders -/

theorem checkVariants_eq_ok {quantities : List (Uuid × Nat)} {variants : List CatalogVariant} {start total : Nat}
    (h : variants.foldlM (store.checkVariant sur quantities) start = .ok total) :
    total = start + (variants.map fun v => v.priceMinor * Store.quantityOf quantities v).sum ∧
      ∀ v ∈ variants, ∃ product ∈ store.products, product.id = v.productId ∧
        (product.preorderAllowed = false → ∀ available, store.availableStock v = some available →
          Store.quantityOf quantities v ≤ available) := by
  induction variants generalizing start with
  | nil =>
    cases h
    simp
  | cons v rest ih =>
    simp only [List.foldlM_cons, Store.checkVariant, bind_eq_ok, getOr_eq_ok, require_eq_ok,
      pure_eq_ok, Table.get?_eq_some] at h
    obtain ⟨_, ⟨product, ⟨mem, key⟩, _, -, _, -, _, -, _, -, _, stock, rfl⟩, h⟩ := h
    obtain ⟨total, checked⟩ := ih h
    refine ⟨?_, ?_⟩
    · rw [total, List.map_cons, List.sum_cons]
      omega
    · intro w hw
      rcases List.mem_cons.mp hw with rfl | hw
      · refine ⟨product, mem, key, fun limited available havailable => ?_⟩
        rcases stock with preorder | stock
        · rw [limited] at preorder
          cases preorder
        · simp only [Option.all_eq_true, decide_eq_true_eq] at stock
          exact stock available havailable
      · exact checked w hw

theorem createLines_eq_ok {lines : List CatalogOrderLine} (h : lines.foldlM Store.createLine store = .ok after) :
    after = { store with lines := after.lines } ∧ after.lines.rows = store.lines.rows ++ lines ∧
      ∀ line ∈ lines, 0 < line.quantity := by
  induction lines generalizing store with
  | nil =>
    cases h
    simp
  | cons line rest ih =>
    simp only [List.foldlM_cons, Store.createLine, bind_eq_ok, getOr_eq_ok, require_eq_ok, pure_eq_ok] at h
    obtain ⟨_, ⟨_, positive, lines, inserted, rfl⟩, h⟩ := h
    obtain ⟨eq, rows, rest⟩ := ih h
    refine ⟨eq, ?_, ?_⟩
    · rw [rows, (Table.insert?_eq_some.mp inserted).2, List.append_assoc]
      rfl
    · intro l hl
      rcases List.mem_cons.mp hl with rfl | hl
      · exact positive.1
      · exact rest l hl

theorem saleableVariants_spec {catalogId : Uuid} {quantities : List (Uuid × Nat)} :
    (∀ v ∈ store.saleableVariants catalogId quantities, v ∈ store.variants) ∧
      ((store.saleableVariants catalogId quantities).map CatalogVariant.id).Nodup := by
  have perm := sortBy_perm CatalogVariant.id (store.variants.rows.filter fun variant =>
    (quantities.any fun entry => entry.1 = variant.id) && variant.active &&
      (store.productIn? catalogId variant.productId).any fun product => product.status = .active)
  constructor
  · intro v hv
    exact (List.mem_filter.mp (perm.mem_iff.mp hv)).1
  · refine (perm.map CatalogVariant.id).nodup_iff.mpr ?_
    exact store.variants.nodup.sublist (List.filter_sublist.map _)

theorem placeOrder_step {lines : List OrderLineRequest} {expectedVersion : Int}
    (h : store.placeOrder lib sur request lines expectedVersion = .ok (after, result)) : after = store ∨
      Step store after := by
  simp only [Store.placeOrder, bind_eq_ok, transaction_eq_ok] at h
  obtain ⟨_, -, quantities, -, catalog, found, ⟨_, -, -, -, rfl, -⟩ | ⟨-, acted⟩⟩ := h
  · exact .inl rfl
  simp only [pure_eq_ok, Prod.mk.injEq] at acted
  obtain ⟨_, -, _, -, total, checked, placed, created, lined, drawn, ⟨advanced, catalog'⟩,
    advance, recorded, receipt, rfl, -⟩ :=
    acted
  obtain ⟨total, stock⟩ := checkVariants_eq_ok checked
  simp only [Store.createOrder, bind_eq_ok, require_eq_ok, getOr_eq_ok, pure_eq_ok] at created
  obtain ⟨_, -, _, -, orders, inserted, rfl⟩ := created
  obtain ⟨eq, rows, positive⟩ := createLines_eq_ok drawn
  obtain ⟨written, eq'⟩ :=
    recorded_of_advance (catalogOf?_eq_some found).1 advance receipt (by rw [eq]; exact ⟨rfl, rfl⟩)
  rw [eq', eq]
  have scope := (catalogOf?_eq_some found).2
  refine .inr (.ordered written ⟨saleableVariants_spec.1, saleableVariants_spec.2, ?_,
    ⟨rfl, scope.1.symm, scope.2.symm⟩, rfl,
    fun v hv => ?_⟩ inserted rows)
  · rw [total, Nat.zero_add]
  · obtain ⟨product, mem, key, bounded⟩ := stock v hv
    refine ⟨product, mem, key, fun limited stock hstock => ?_⟩
    have enough := bounded limited (stock - store.committedQuantity v.id) (by rw [Store.availableStock, hstock]; rfl)
    have ordered : 0 < Store.quantityOf quantities v := positive _ (List.mem_map_of_mem hv)
    omega

/-! ### Payments -/

/-- An order of the actor in the edition. -/
def OwnedBy (request : Request) (order : CatalogOrder) : Prop :=
  order.organizationId = request.organizationId ∧ order.editionId = request.editionId ∧ order.accountId = request.actorId

/-- The actor may pay the order. -/
def MayPay (store : Store) (sur : Surroundings) (request : Request) (orderId : Uuid) : Prop :=
  ∃ order ∈ store.orders, order.id = orderId ∧ OwnedBy request order ∧
    sur.allows request.actorId .orderSelf (.owned order.id)

def createDigest (lib : Primitives) (orderId : Uuid) (provider : Provider) : String := lib.digest [
  ("operation", .str "payment_created"), ("order_id", .str orderId.text), ("provider", .str provider.value)]

def reconcileDigest (lib : Primitives) (intentId : Uuid) (providerEventId : String) (result : PaymentResult) : String :=
  lib.digest [
    ("intent_id", .str intentId.text), ("operation", .str "payment_reconciled"),
    ("provider_event_id", .str providerEventId), ("result", .str result.value)]

theorem createPaymentIntent_eq_ok {orderId : Uuid} {provider : Provider}
    {expectedCatalogVersion expectedOrderVersion : Int} : store.createPaymentIntent lib sur
        request orderId provider expectedCatalogVersion expectedOrderVersion = .ok (after, result) ↔
      MayPay store sur request orderId ∧
        ∃ catalog, store.catalogOf? request.organizationId request.editionId = some catalog ∧
          ((∃ receipt, store.receipts.get? (catalog.id, request.actorId, request.idempotencyKey) = some receipt ∧
              receipt.operation = .paymentCreated ∧ receipt.requestDigest = createDigest lib orderId provider ∧
              after = store ∧ result = ⟨receipt.resultId, receipt.resultingVersion, true⟩) ∨
            (store.receipts.get? (catalog.id, request.actorId, request.idempotencyKey) = none ∧
              ∃ order ∈ store.orders, order.id = orderId ∧ order.catalogId = catalog.id ∧
                order.accountId = request.actorId ∧
                order.status = .paymentPending ∧ expectedOrderVersion = order.aggregateVersion ∧
                (∀ other ∈ store.intents, other.orderId = order.id → other.status ≠ .pending) ∧
                expectedCatalogVersion = catalog.aggregateVersion ∧
                (∀ other ∈ store.receipts, other.catalogId = catalog.id →
                  other.resultingVersion ≠ catalog.aggregateVersion + 1) ∧
                ∃ intents, store.intents.insert? {
                    id := sur.newId 0, orderId := order.id, provider, amountMinor := order.totalMinor
                    currency := order.currency } = some intents ∧
                ∃ receipts, store.receipts.insert? (receiptOf request
                    { catalog with aggregateVersion := catalog.aggregateVersion + 1 } .paymentCreated
                    (createDigest lib orderId provider) "" (sur.newId 0)) = some receipts ∧
                after = { store with
                  intents, receipts
                  orders := store.orders.save { order with aggregateVersion := order.aggregateVersion + 1 }
                  catalogs := store.catalogs.save { catalog with aggregateVersion := catalog.aggregateVersion + 1 } } ∧
                result = ⟨sur.newId 0, catalog.aggregateVersion + 1, false⟩)) := by
  have owned : ((((store.orders.get? orderId).filter fun order => order.organizationId = request.organizationId ∧
      order.editionId = request.editionId ∧ order.accountId = request.actorId).map fun order =>
        Target.owned order.id).any
        fun target => sur.allows request.actorId .orderSelf target) ↔ MayPay store sur request orderId := by
    rw [Option.any_map, Option.any_eq_true]
    simp only [Option.filter_eq_some_iff, Table.get?_eq_some, decide_eq_true_eq, MayPay, OwnedBy]
    constructor
    · rintro ⟨order, ⟨⟨mem, key⟩, owned⟩, allowed⟩
      exact ⟨order, mem, key, owned, allowed⟩
    · rintro ⟨order, mem, key, owned, allowed⟩
      exact ⟨order, ⟨⟨mem, key⟩, owned⟩, allowed⟩
  have free : ∀ order : CatalogOrder, ((store.intentsOf order.id).all fun intent => intent.status ≠ .pending) ↔
      ∀ other ∈ store.intents, other.orderId = order.id → other.status ≠ .pending := by
    intro order
    simp only [Store.intentsOf, List.all_eq_true, List.mem_filter, decide_eq_true_eq, and_imp, Table.mem_def]
  simp only [Store.createPaymentIntent, authorize, bind_eq_ok, require_eq_ok, exists_const, owned, transaction_eq_ok]
  refine and_congr_right fun _ => exists_congr fun catalog => and_congr_right fun _ =>
    or_congr Iff.rfl (and_congr_right fun _ => ?_)
  simp only [getOr_eq_ok, pure_eq_ok, Option.filter_eq_some_iff, Table.get?_eq_some,
    decide_eq_true_eq, free, Prod.exists, advance_eq_ok, createReceipt_eq_ok, Prod.mk.injEq]
  constructor
  · rintro ⟨order, ⟨⟨mem, key⟩, inCatalog, account⟩, due, version, none, intents, inserted, _,
      _, ⟨current, rfl, rfl⟩, _, ⟨fresh, receipts, received, rfl⟩, rfl, rfl⟩
    exact ⟨order, mem, key, inCatalog, account, due, version, none, current, fresh, intents,
      inserted, receipts, received, rfl, rfl⟩
  · rintro ⟨order, mem, key, inCatalog, account, due, version, none, current, fresh, intents,
      inserted, receipts, received, rfl, rfl⟩
    exact ⟨order, ⟨⟨mem, key⟩, inCatalog, account⟩, due, version, none, intents, inserted, _,
      _, ⟨current, rfl, rfl⟩, _, ⟨fresh, receipts, received, rfl⟩, rfl, rfl⟩

/-- What a reconciliation that is not a repeat needs, and what it writes. -/
structure Reconciles (store after : Store) (lib : Primitives) (sur : Surroundings) (request : Request)
    (catalog : EditionCatalog) (intent : CatalogPaymentIntent) (order : CatalogOrder) (eventId : String)
    (result : PaymentResult) (catalogVersion orderVersion : Int) (reason : String) : Prop where
  inCatalog : order.catalogId = catalog.id
  pending : intent.status = .pending
  orderCurrent : orderVersion = order.aggregateVersion
  unconsumed : store.events.get? (intent.provider, eventId) = none
  due : result = .succeeded → order.status = .paymentPending
  eventFresh : ∀ other ∈ store.events, other.id ≠ sur.newId 0
  current : catalogVersion = catalog.aggregateVersion
  fresh : ∀ other ∈ store.receipts, other.catalogId = catalog.id → other.resultingVersion ≠ catalog.aggregateVersion + 1
  written : ∃ events, store.events.insert? {
      id := sur.newId 0, intentId := intent.id, provider := intent.provider, providerEventId := eventId, result
      occurredAt := sur.now } = some events ∧
    ∃ receipts, store.receipts.insert? (receiptOf request
        { catalog with aggregateVersion := catalog.aggregateVersion + 1 } .paymentReconciled
        (reconcileDigest lib intent.id eventId result) reason (sur.newId 0)) = some receipts ∧
      after = { store with
        events, receipts
        intents := store.intents.save (Store.settledIntent intent result sur.now)
        orders := store.orders.save (Store.settledOrder order result sur.now)
        catalogs := store.catalogs.save { catalog with aggregateVersion := catalog.aggregateVersion + 1 } }

theorem reconcilePayment_eq_ok {intentId : Uuid} {providerEventId : String}
    {outcome : PaymentResult} {catalogVersion orderVersion : Int} {reason : String} :
    store.reconcilePayment lib sur request intentId providerEventId outcome catalogVersion
        orderVersion reason = .ok (after, result) ↔
      ∃ intent ∈ store.intents, intent.id = intentId ∧ ∃ order ∈ store.orders, order.id = intent.orderId ∧
        order.organizationId = request.organizationId ∧ order.editionId = request.editionId ∧
        Store.mayReconcile sur request.actorId intent order ∧ normalizedReason reason = .ok (strip reason) ∧
        strip providerEventId ≠ "" ∧ (strip providerEventId).length ≤ maxProviderEventIdLength ∧
        ∃ catalog, store.catalogOf? request.organizationId request.editionId = some catalog ∧
          ((∃ receipt, store.receipts.get? (catalog.id, request.actorId, request.idempotencyKey) = some receipt ∧
              receipt.operation = .paymentReconciled ∧
              receipt.requestDigest = reconcileDigest lib intentId (strip providerEventId) outcome ∧
              after = store ∧ result = ⟨receipt.resultId, receipt.resultingVersion, true⟩) ∨
            (store.receipts.get? (catalog.id, request.actorId, request.idempotencyKey) = none ∧
              Reconciles store after lib sur request catalog intent order
                (strip providerEventId) outcome catalogVersion orderVersion (strip reason) ∧
              result = ⟨sur.newId 0, catalog.aggregateVersion + 1, false⟩)) := by
  have reasoned : ∀ text, normalizedReason reason = .ok text ↔ text = strip reason ∧
    normalizedReason reason = .ok (strip reason) := by
    intro text
    simp only [normalizedReason, bind_eq_ok, require_eq_ok, pure_eq_ok, exists_const]
    constructor
    · rintro ⟨bounded, rfl⟩
      exact ⟨rfl, bounded, trivial⟩
    · rintro ⟨rfl, bounded, -⟩
      exact ⟨bounded, rfl⟩
  simp only [Store.reconcilePayment, bind_eq_ok, require_eq_ok, getOr_eq_ok, exists_const,
    transaction_eq_ok, Option.filter_eq_some_iff, Table.get?_eq_some, decide_eq_true_eq]
  constructor
  · rintro ⟨intent, ⟨mem, rfl⟩, order, ⟨⟨orderMem, of⟩, organization, edition⟩, allowed, text,
      reason, ⟨named, bounded⟩, catalog, found, acted⟩
    obtain ⟨rfl, reason⟩ := (reasoned _).mp reason
    refine ⟨intent, mem, rfl, order, orderMem, of, organization, edition, allowed, reason,
      named, bounded, catalog, found, ?_⟩
    rcases acted with repeated | ⟨absent, acted⟩
    · exact .inl repeated
    simp only [pure_eq_ok, Prod.exists, advance_eq_ok, createReceipt_eq_ok, Store.createEvent,
      bind_eq_ok, require_eq_ok, getOr_eq_ok, exists_const, Prod.mk.injEq] at acted
    obtain ⟨inCatalog, pending, orderCurrent, unconsumed, due, _, ⟨eventFresh, events, inserted, rfl⟩, _, _,
      ⟨current, rfl, rfl⟩, _, ⟨fresh, receipts, received, rfl⟩, rfl, rfl⟩ := acted
    refine .inr ⟨absent, ⟨inCatalog, pending, orderCurrent, unconsumed, due, ?_, current,
      fresh, events, inserted, receipts,
      received, rfl⟩, rfl⟩
    simpa [Table.mem_def] using eventFresh
  · rintro ⟨intent, mem, rfl, order, orderMem, of, organization, edition, allowed, reason,
      named, bounded, catalog, found, acted⟩
    refine ⟨intent, ⟨mem, rfl⟩, order, ⟨⟨orderMem, of⟩, organization, edition⟩, allowed, _,
      reason, ⟨named, bounded⟩, catalog, found, ?_⟩
    rcases acted with repeated | ⟨absent, h, rfl⟩
    · exact .inl repeated
    refine .inr ⟨absent, ?_⟩
    obtain ⟨events, inserted, receipts, received, rfl⟩ := h.written
    simp only [pure_eq_ok, Prod.exists, advance_eq_ok, createReceipt_eq_ok, Store.createEvent,
      bind_eq_ok, require_eq_ok, getOr_eq_ok, exists_const, Prod.mk.injEq]
    refine ⟨h.inCatalog, h.pending, h.orderCurrent, h.unconsumed, h.due, _, ⟨?_, events, inserted, rfl⟩, _, _,
      ⟨h.current, rfl, rfl⟩, _, ⟨h.fresh, receipts, received, rfl⟩, rfl, rfl⟩
    simpa [Table.mem_def] using h.eventFresh

theorem createPaymentIntent_step {orderId : Uuid} {provider : Provider} {catalogVersion orderVersion : Int}
    (h : store.createPaymentIntent lib sur request orderId provider catalogVersion orderVersion = .ok (after, result)) :
    after = store ∨ Step store after := by
  obtain ⟨-, catalog, found,
    ⟨_, -, -, -, rfl, -⟩ | ⟨-, order, mem, -, -, -, due, -, none, -, -, intents, inserted, receipts,
    received, rfl, -⟩⟩ := createPaymentIntent_eq_ok.mp h
  · exact .inl rfl
  have written : Recorded store catalog { catalog with aggregateVersion := catalog.aggregateVersion + 1 } _ receipts :=
    ⟨(catalogOf?_eq_some found).1, ⟨rfl, rfl, rfl, rfl⟩, rfl, rfl, _, received, rfl, rfl⟩
  exact .inr (.started written mem due none inserted rfl rfl ⟨rfl, rfl⟩)

theorem reconcilePayment_step {intentId : Uuid} {providerEventId : String} {outcome : PaymentResult}
    {catalogVersion orderVersion : Int} {reason : String}
    (h : store.reconcilePayment lib sur request intentId providerEventId outcome catalogVersion orderVersion reason =
      .ok (after, result)) : after = store ∨ Step store after := by
  obtain ⟨intent, mem, -, order, orderMem, of, -, -, -, -, -, -, catalog, found,
    ⟨_, -, -, -, rfl, -⟩ | ⟨-, reconciles, -⟩⟩ :=
    reconcilePayment_eq_ok.mp h
  · exact .inl rfl
  obtain ⟨events, inserted, receipts, received, rfl⟩ := reconciles.written
  have written : Recorded store catalog { catalog with aggregateVersion := catalog.aggregateVersion + 1 } _ receipts :=
    ⟨(catalogOf?_eq_some found).1, ⟨rfl, rfl, rfl, rfl⟩, rfl, rfl, _, received, rfl, rfl⟩
  exact .inr (.settled written ⟨mem, orderMem, of.symm, reconciles.pending, reconciles.due, rfl, rfl, rfl⟩ inserted)

/-- A command that commits writes nothing or makes one step. -/
theorem exec_step {call : Call} (h : store.exec lib call = .ok (after, result)) : after = store ∨ Step store after := by
  unfold Store.exec at h
  split at h
  · exact createCatalog_step h
  · exact addProduct_step h
  · exact addVariant_step h
  · exact activateCatalog_step h
  · exact adjustStock_step h
  · exact placeOrder_step h
  · exact createPaymentIntent_step h
  · exact reconcilePayment_step h

end

end Maru.Catalog
