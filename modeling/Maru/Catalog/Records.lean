import Mathlib.Algebra.BigOperators.Group.List.Basic
import Maru.Framework.Json
import Maru.Framework.Lists
import Maru.Framework.Table
import Maru.Framework.Text
import Maru.Framework.Uuid

/-!
# The catalog of an edition

The rows of `catalog/models.py` with the constraints of their tables: a catalog for each
edition, its products and their variants, the orders placed in it with their lines, and
what was paid for them. A stock adjustment, an order line, a payment event and a command
receipt are written once.
-/

namespace Maru.Catalog

/-- What the commands take from the standard library: the SHA-256 of a payload's canonical JSON,
`str.upper`, `str.lower`, `str` of a date-time and `uuid5` of a URL name. -/
structure Primitives where
  digest : List (String × Json) → String
  upper : String → String
  lower : String → String
  timestamp : Int → String
  uuid5 : String → Uuid

inductive CatalogError
  | authorizationDenied
  | doesNotExist
  | invalid (field message : String) (code : String := "")
  | integrity (constraint : String)

inductive Status
  | draft | active | closed
deriving DecidableEq

structure EditionCatalog where
  id : Uuid
  organizationId : Uuid
  editionId : Uuid
  status : Status := .draft
  currency : String
  aggregateVersion : Nat := 1
  createdById : Uuid
deriving DecidableEq

inductive ProductKind
  | merchandise | donation | supporter
deriving DecidableEq

inductive ProductStatus
  | draft | active | retired
deriving DecidableEq

inductive Beneficiary
  | convention | charity
deriving DecidableEq

inductive Fulfilment
  | none | pickup | shipping
deriving DecidableEq

structure CatalogProduct where
  id : Uuid
  catalogId : Uuid
  code : String
  kind : ProductKind
  status : ProductStatus := .draft
  name : String
  description : String
  beneficiary : Beneficiary
  charitySelectionId : Option Uuid
  saleOpensAt : Option Int
  saleClosesAt : Option Int
  preorderAllowed : Bool
  fulfilmentMode : Fulfilment
  perOrderLimit : Nat

structure CatalogVariant where
  id : Uuid
  productId : Uuid
  sku : String
  name : String
  priceMinor : Nat
  currency : String
  initialStock : Option Nat
  stockCeiling : Option Nat
  active : Bool := true
deriving DecidableEq

inductive OrderStatus
  | paymentPending | paid | cancelled | expired | refunded
deriving DecidableEq

/-- `_COMMITTED_ORDER_STATES` -/
def OrderStatus.committed : OrderStatus → Bool
  | .paymentPending | .paid => true
  | .cancelled | .expired | .refunded => false

structure CatalogOrder where
  id : Uuid
  catalogId : Uuid
  organizationId : Uuid
  editionId : Uuid
  accountId : Uuid
  reference : String
  status : OrderStatus
  aggregateVersion : Nat := 1
  currency : String
  totalMinor : Nat
  paymentDueAt : Option Int
  paidAt : Option Int
deriving DecidableEq

structure CatalogOrderLine where
  orderId : Uuid
  productId : Uuid
  variantId : Uuid
  quantity : Nat
  unitPriceMinor : Nat
  lineTotalMinor : Nat

/-- A variant stands in an order once. -/
def CatalogOrderLine.key (l : CatalogOrderLine) : Uuid × Uuid := (l.orderId, l.variantId)

structure CatalogStockAdjustment where
  id : Uuid
  catalogId : Uuid
  variantId : Uuid
  previousStock : Nat
  newStock : Nat
  reason : String
  actorId : Uuid
  controlVersion : Nat

inductive Provider
  | hosted | demo
deriving DecidableEq

def Provider.value : Provider → String
  | .hosted => "hosted"
  | .demo => "demo"

inductive IntentStatus
  | pending | succeeded | failed | cancelled
deriving DecidableEq

structure CatalogPaymentIntent where
  id : Uuid
  orderId : Uuid
  provider : Provider
  status : IntentStatus := .pending
  amountMinor : Nat
  currency : String
  aggregateVersion : Nat := 1
  succeededAt : Option Int := none
deriving DecidableEq

/-- The results a provider reports. -/
inductive PaymentResult
  | succeeded | failed
deriving DecidableEq

def PaymentResult.value : PaymentResult → String
  | .succeeded => "succeeded"
  | .failed => "failed"

def PaymentResult.status : PaymentResult → IntentStatus
  | .succeeded => .succeeded
  | .failed => .failed

structure CatalogPaymentEvent where
  id : Uuid
  intentId : Uuid
  provider : Provider
  providerEventId : String
  result : PaymentResult
  occurredAt : Int

def CatalogPaymentEvent.key (e : CatalogPaymentEvent) : Provider × String := (e.provider, e.providerEventId)

inductive CommandOperation
  | catalogCreated | productAdded | variantAdded | catalogActivated | stockAdjusted | orderPlaced | paymentCreated
  | paymentReconciled
deriving DecidableEq

structure CatalogCommandReceipt where
  catalogId : Uuid
  actorId : Uuid
  operation : CommandOperation
  idempotencyKey : Uuid
  requestDigest : String
  resultingVersion : Nat
  resultId : Uuid
  reason : String
deriving DecidableEq

def CatalogCommandReceipt.key (r : CatalogCommandReceipt) : Uuid × Uuid × Uuid :=
  (r.catalogId, r.actorId, r.idempotencyKey)

/-- All rows. -/
structure Store where
  catalogs : Table EditionCatalog.id
  products : Table CatalogProduct.id
  variants : Table CatalogVariant.id
  orders : Table CatalogOrder.id
  lines : Table CatalogOrderLine.key
  adjustments : Table CatalogStockAdjustment.id
  intents : Table CatalogPaymentIntent.id
  events : Table CatalogPaymentEvent.key
  receipts : Table CatalogCommandReceipt.key

def Store.empty : Store := ⟨∅, ∅, ∅, ∅, ∅, ∅, ∅, ∅, ∅⟩

namespace Store

variable (store : Store)

def catalogOf? (organizationId editionId : Uuid) : Option EditionCatalog :=
  store.catalogs.rows.find? fun catalog => catalog.organizationId = organizationId ∧ catalog.editionId = editionId

def productIn? (catalogId productId : Uuid) : Option CatalogProduct :=
  (store.products.get? productId).filter fun product => product.catalogId = catalogId

/-- A variant whose product is in the catalog. -/
def variantIn? (catalogId variantId : Uuid) : Option CatalogVariant :=
  (store.variants.get? variantId).filter fun variant => (store.productIn? catalogId variant.productId).isSome

def linesOf (orderId : Uuid) : List CatalogOrderLine := store.lines.rows.filter fun l => l.orderId = orderId

def intentsOf (orderId : Uuid) : List CatalogPaymentIntent := store.intents.rows.filter fun i => i.orderId = orderId

def receiptsOf (catalogId : Uuid) : List CatalogCommandReceipt :=
  store.receipts.rows.filter fun r => r.catalogId = catalogId

/-! ## Stock -/

/-- What `order_by("-control_version", "-id")` puts first. -/
def latest (adjustments : List CatalogStockAdjustment) : Option CatalogStockAdjustment :=
  adjustments.foldl (fun best x => match best with
    | none => some x
    | some y => if y.controlVersion < x.controlVersion ∨ (y.controlVersion = x.controlVersion ∧ y.id < x.id) then some x
      else some y) none

/-- `effective_stock` -/
def effectiveStock (variant : CatalogVariant) : Option Nat :=
  variant.initialStock.map fun initialStock =>
    ((latest (store.adjustments.rows.filter fun x => x.variantId = variant.id)).map (·.newStock)).getD initialStock

/-- `committed_quantity` -/
def committedQuantity (variantId : Uuid) : Nat :=
  ((store.lines.rows.filter fun l => l.variantId = variantId ∧
    (store.orders.get? l.orderId).any fun order => order.status.committed).map (·.quantity)).sum

/-- `available_stock` -/
def availableStock (variant : CatalogVariant) : Option Nat :=
  (store.effectiveStock variant).map fun stock => stock - store.committedQuantity variant.id

end Store

end Maru.Catalog
