import Maru.Framework.Machine
import Maru.Registration.Finance

/-!
# Settlements

`reconcile_provider_settlement`: the figures of a provider's payout are compared with the
movements that it is said to cover, and each of them is allocated to it. The ledger here is
the whole of `FinancialLedgerEntry`, with the kinds that belong to no registration.
-/

namespace Maru.Registration

/-! ## The books -/

/-- `FinancialLedgerEntry.Kind`. -/
inductive MovementKind
  | payment | refund | providerFee | dispute | chargeback | priceAdjustment | donation | settlement
  deriving DecidableEq

/-- `FinancialLedgerEntry.Direction`. -/
inductive MovementDirection
  | inflow | outflow | noncash

structure FinancialLedgerEntry where
  id : Uuid
  organizationId : Uuid
  editionId : Uuid
  providerAccountId : Option Uuid
  kind : MovementKind
  direction : MovementDirection
  amountMinor : Nat
  currency : String
  occurredAt : Int
  providerReference : String
  settlementReference : String
  safeDescription : String

structure SettlementBatch where
  id : Uuid
  providerAccountId : Uuid
  organizationId : Uuid
  editionId : Uuid
  providerReference : String
  currency : String
  grossMinor : Int
  feeMinor : Int
  refundMinor : Int
  disputeMinor : Int
  netMinor : Int
  settledAt : Int
  reconciledAt : Int
  reconciledBy : Uuid

structure SettlementAllocation where
  settlementId : Uuid
  ledgerEntryId : Uuid
  amountMinor : Nat

structure Books where
  providers : Table PaymentProviderAccount.id
  ledger : Table FinancialLedgerEntry.id
  batches : Table SettlementBatch.id
  /-- `ledger_entry` is a `OneToOneField`. -/
  allocations : Table SettlementAllocation.ledgerEntryId

def maxBigInteger : Int := 2 ^ 63 - 1

/-- A big integer field with a least value. -/
def requireAmount (field : String) (least value : Int) : Except RegistrationError Unit := do
  require (least ≤ value) (.invalid field "min_value" s!"Ensure this value is greater than or equal to {least}.")
  require (value ≤ maxBigInteger) (.invalid field "max_value"
    s!"Ensure this value is less than or equal to {maxBigInteger}.")

def requireLength (field value : String) : Except RegistrationError Unit :=
  require (value.length ≤ 160) (.invalid field "max_length"
    s!"Ensure this value has at most 160 characters (it has {value.length}).")

/-- `finance_provider_movement_unique` holds of another entry already. -/
def Books.reported (b : Books) (e : FinancialLedgerEntry) : Bool :=
  e.providerReference ≠ "" ∧ e.providerAccountId.isSome ∧ b.ledger.rows.any fun other =>
    other.providerAccountId = e.providerAccountId ∧ other.providerReference = e.providerReference ∧ other.kind = e.kind

/-- `FinancialLedgerEntry.objects.create`, of an entry without registration. -/
def Books.createMovement (b : Books) (e : FinancialLedgerEntry) : Except RegistrationError Books := do
  requireAmount "amount_minor" 0 e.amountMinor
  requireText "currency" 3 e.currency
  requireLength "provider_reference" e.providerReference
  requireLength "settlement_reference" e.settlementReference
  requireText "safe_description" 320 e.safeDescription
  require (e.providerAccountId.all fun id => b.providers.rows.any fun p => p.id = id ∧
    p.organizationId = e.organizationId)
    (.invalid "__all__" "financial_ledger_provider_scope_mismatch" "The ledger provider scope does not match.")
  require (¬ b.reported e) (.invalid "__all__" "unique_together" "finance_provider_movement_unique")
  require ([e.currency, e.providerReference, e.settlementReference, e.safeDescription].all
    fun t => storable (.ofString t)) .data
  let ledger ← getOr (.invalid "id" "unique" "Financial ledger entry with this Id already exists.") (b.ledger.insert? e)
  return { b with ledger := ledger }

/-- `SettlementBatch.objects.create`, at an organization's own provider. -/
def Books.createBatch (b : Books) (batch : SettlementBatch) : Except RegistrationError Books := do
  requireText "provider_reference" 160 batch.providerReference
  requireText "currency" 3 batch.currency
  requireAmount "gross_minor" 0 batch.grossMinor
  requireAmount "fee_minor" 0 batch.feeMinor
  requireAmount "refund_minor" 0 batch.refundMinor
  requireAmount "dispute_minor" 0 batch.disputeMinor
  requireAmount "net_minor" (-2 ^ 63) batch.netMinor
  require (¬ b.batches.rows.any fun other =>
      other.providerAccountId = batch.providerAccountId ∧ other.providerReference = batch.providerReference)
    (.invalid "__all__" "unique_together" "settlement_provider_reference_unique")
  require ([batch.providerReference, batch.currency].all fun t => storable (.ofString t)) .data
  let batches ← getOr (.invalid "id" "unique" "Settlement batch with this Id already exists.") (b.batches.insert? batch)
  return { b with batches := batches }

/-- `SettlementAllocation.objects.bulk_create`: a row for each movement. -/
def Books.allocateEach (b : Books) (batchId : Uuid) : List FinancialLedgerEntry → Except RegistrationError Books
  | [] => return b
  | e :: entries => do
    let allocations ← getOr (.integrity "registration_settlementallocation_ledger_entry_id_key")
      (b.allocations.insert? ⟨batchId, e.id, e.amountMinor⟩)
    { b with allocations := allocations }.allocateEach batchId entries

/-! ## Reconciliation -/

structure SettlementRequest where
  actorId : Uuid
  organizationId : Uuid
  editionId : Uuid
  providerAccountId : Uuid
  providerReference : String
  currency : String
  grossMinor : Int
  feeMinor : Int
  refundMinor : Int
  disputeMinor : Int
  netMinor : Int
  settledAt : Int
  ledgerEntryIds : List Uuid
  reason : String

/-- The identifiers drawn for a settlement and the entries that it makes. -/
structure SettlementIds where
  batch : Uuid
  fee : Uuid
  settlement : Uuid

/-- What the movements of one kind amount to. -/
def totalOf (kind : MovementKind) (entries : List FinancialLedgerEntry) : Nat :=
  ((entries.filter (·.kind = kind)).map (·.amountMinor)).sum

/-- The movements that a request selects. -/
def Books.selected (b : Books) (x : SettlementRequest) (providerId : Uuid) (currency : String) :
    List FinancialLedgerEntry :=
  b.ledger.rows.filter fun e => e.id ∈ x.ledgerEntryIds ∧ e.organizationId = x.organizationId ∧
    e.editionId = x.editionId ∧ e.providerAccountId = some providerId ∧ e.currency = currency

/-- An entry that a settlement makes itself. -/
def SettlementRequest.entry (x : SettlementRequest) (id providerId : Uuid) (currency : String) (kind : MovementKind)
    (direction : MovementDirection) (amountMinor : Int) (safeDescription : String) : FinancialLedgerEntry where
  id
  organizationId := x.organizationId
  editionId := x.editionId
  providerAccountId := some providerId
  kind
  direction
  amountMinor := amountMinor.toNat
  currency
  occurredAt := x.settledAt
  providerReference := strip x.providerReference
  settlementReference := strip x.providerReference
  safeDescription

def SettlementRequest.batch (x : SettlementRequest) (id providerId : Uuid) (currency : String)
    (now : Int) : SettlementBatch where
  id
  providerAccountId := providerId
  organizationId := x.organizationId
  editionId := x.editionId
  providerReference := strip x.providerReference
  currency
  grossMinor := x.grossMinor
  feeMinor := x.feeMinor
  refundMinor := x.refundMinor
  disputeMinor := x.disputeMinor
  netMinor := x.netMinor
  settledAt := x.settledAt
  reconciledAt := now
  reconciledBy := x.actorId

/-- The entry of the fee, where there is one. -/
def Books.recordFee (b : Books) (x : SettlementRequest) (id providerId : Uuid) (currency : String) :
    Except RegistrationError Books :=
  if x.feeMinor = 0 then return b
  else b.createMovement (x.entry id providerId currency .providerFee .outflow x.feeMinor "Provider settlement fee")

/-- The entry of the settlement itself; its amount is positive, so a payout that takes
money back is refused. -/
def Books.recordSettlement (b : Books) (x : SettlementRequest) (id providerId : Uuid)
    (currency : String) : Except RegistrationError Books := do
  requireAmount "amount_minor" 0 x.netMinor
  b.createMovement
    (x.entry id providerId currency .settlement .noncash x.netMinor "Provider settlement reconciliation")

/-- `reconcile_provider_settlement`; `upper` is `str.upper`. -/
def reconcileProviderSettlement (upper : String → String) (b : Books) (w : Surroundings) (now : Int)
    (x : SettlementRequest) (ids : SettlementIds) : Except RegistrationError (Books × SettlementBatch) := do
  w.requireDecision x.actorId .manageFinance x.organizationId x.editionId
  let _ ← requireReason x.reason
  let currency := upper x.currency
  require (strip x.providerReference ≠ "" ∧ x.ledgerEntryIds.Nodup) (.invalid "__all__" "settlement_input_invalid"
    "Settlement reference and unique movement identifiers are required.")
  require (x.netMinor = x.grossMinor - x.feeMinor - x.refundMinor - x.disputeMinor) (.invalid "__all__"
    "settlement_total_mismatch" "Settlement totals do not reconcile to the provider net amount.")
  let provider ← getOr (.missing "PaymentProviderAccount") (b.providers.rows.find? fun p =>
    p.id = x.providerAccountId ∧ p.organizationId = x.organizationId)
  let entries := b.selected x provider.id currency
  require (entries.length = x.ledgerEntryIds.length) (.invalid "__all__" "settlement_movement_unavailable"
    "One or more settlement movements are unavailable.")
  require ((totalOf .payment entries : Int) = x.grossMinor ∧ (totalOf .refund entries : Int) = x.refundMinor ∧
      (totalOf .dispute entries : Int) + totalOf .chargeback entries = x.disputeMinor)
    (.invalid "__all__" "settlement_allocation_mismatch" "Selected movements do not match the settlement totals.")
  require (¬ entries.any fun e => (b.allocations.get? e.id).isSome) (.invalid "__all__"
    "settlement_movement_already_allocated" "A movement is already allocated to another settlement.")
  let batch := x.batch ids.batch provider.id currency now
  let b ← b.createBatch batch
  let b ← b.allocateEach batch.id entries
  let b ← b.recordFee x ids.fee provider.id currency
  let b ← b.recordSettlement x ids.settlement provider.id currency
  return (b, batch)

/-! ## Runs -/

/-- A reconciliation, or an entry that another command appends. -/
inductive SettlementCommand
  | append (e : FinancialLedgerEntry)
  | reconcile (w : Surroundings) (now : Int) (x : SettlementRequest) (ids : SettlementIds)

def execSettlement (upper : String → String) (b : Books) :
    SettlementCommand → Except RegistrationError (Books × Option SettlementBatch)
  | .append e => do return (← b.createMovement e, none)
  | .reconcile w now x ids => do
    let (b, batch) ← reconcileProviderSettlement upper b w now x ids
    return (b, some batch)

def settlementMachine (upper : String → String) :
    Machine Books SettlementCommand (Option SettlementBatch) RegistrationError := ⟨execSettlement upper⟩

end Maru.Registration
