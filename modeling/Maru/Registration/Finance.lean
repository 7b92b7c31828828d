import Maru.Framework.CodePoints
import Maru.Registration.Commerce

/-!
# Financial operations

The ledger of a registration, cancellations and refunds under dual control, and the
cancellations and refund reviews that an attendance restriction makes.
-/

namespace Maru.Registration

/-! ## The ledger -/

def LedgerEntry.amountOf (e : LedgerEntry) (registrationId : Uuid) (direction : Direction) : Nat :=
  if e.registrationId = registrationId ∧ e.direction = direction then e.amountMinor else 0

/-- The sum of a registration's entries in one direction. -/
def Finance.total (f : Finance) (registrationId : Uuid) (direction : Direction) : Nat :=
  (f.ledger.rows.map (·.amountOf registrationId direction)).sum

def Finance.availableRefundMinor (f : Finance) (registrationId : Uuid) : Nat :=
  f.total registrationId .inflow - f.total registrationId .outflow

/-- The database stores the text: it has no NUL character and no surrogate. -/
def storable (t : Points) : Bool := t.all fun c => c.val ≠ 0 ∧ ¬ c.isSurrogate

theorem storable_text (t : Points) : storable (.ofString t.text) = storable t := by
  rw [storable, Points.ofString, Points.text, String.toList_ofList, List.map_map, List.all_map, storable]
  congr 1
  funext c
  by_cases h : c.val.isValidChar
  · have same : (Char.ofNat c.val).toNat = c.val := by rw [Char.ofNat, dif_pos h]; rfl
    have point : CodePoint.ofChar (Char.ofNat c.val) = c := Fin.ext same
    simp only [Function.comp_apply, point]
  · -- A surrogate is read as NUL, and neither is stored.
    have surrogate : c.isSurrogate = true := by
      unfold Nat.isValidChar at h
      simp only [CodePoint.isSurrogate, decide_eq_true_eq]
      omega
    have nul : Char.ofNat c.val = Char.ofNat 0 := by rw [Char.ofNat, dif_neg h]; rfl
    simp only [Function.comp_apply, nul, surrogate, not_true, and_false]
    decide

/-- A required character field of at most `maximum` characters. -/
def requireText (field : String) (maximum : Nat) (value : String) : Except RegistrationError Unit := do
  require (value ≠ "") (.invalid field "blank" "This field cannot be blank.")
  require (value.length ≤ maximum) (.invalid field "max_length"
    s!"Ensure this value has at most {maximum} characters (it has {value.length}).")

def Finance.createEntry (f : Finance) (provider : PaymentProviderAccount) (e : LedgerEntry) :
    Except RegistrationError Finance := do
  require (e.providerReference.length ≤ 160) (.invalid "provider_reference" "max_length"
    s!"Ensure this value has at most 160 characters (it has {e.providerReference.length}).")
  require (provider.organizationId = e.organizationId) (.invalid "__all__"
    "financial_ledger_provider_scope_mismatch" "The ledger provider scope does not match.")
  let ledger ← getOr (.invalid "__all__" "unique_together" "finance_provider_movement_unique")
    (f.ledger.insert? e)
  return { f with ledger := ledger }

def recordProviderPayment (f : Finance) (r : Registration) (provider : PaymentProviderAccount)
    (providerReference : String) (amountMinor : Nat) (currency : String) (occurredAt : Int) :
    Except RegistrationError Finance :=
  match f.ledger.get? (provider.id, providerReference, .payment) with
  | some _ => return f
  | none => f.createEntry provider
      { registrationId := r.id, operationId := none, organizationId := r.organizationId,
        providerAccountId := provider.id, kind := .payment, direction := .inflow, amountMinor, currency, occurredAt,
        providerReference }

/-! ## Operations -/

def supportedFinancialOperationKinds : List OperationKind := [.cancel, .refund]

structure OperationRequest where
  organizationId : Uuid
  editionId : Uuid
  registrationId : Uuid
  actorId : Uuid
  kind : OperationKind
  amountMinor : Int
  reason : String
  targetAccountId : Option Uuid
  targetProductId : Option Uuid

def Finance.createOperation (f : Finance) (o : FinancialOperation) : Except RegistrationError Finance := do
  let operations ← getOr (.integrity "registration_financialoperation_pkey") (f.operations.insert? o)
  return { f with operations := operations }

def newOperation (operationId : Uuid) (r : Registration) (kind : OperationKind) (amountMinor : Nat)
    (requestedBy : Uuid) (requestedAt : Int) (requestReason safeResultCode : String) : FinancialOperation :=
  { id := operationId, registrationId := r.id, organizationId := r.organizationId, editionId := r.editionId, kind,
    status := .proposed, amountMinor, currency := r.currencySnapshot, requestedBy, requestedAt, requestReason,
    approvedBy := none, approvedAt := none, approvalReason := "", completedAt := none, safeResultCode }

def proposeFinancialOperation (s : Store) (w : Surroundings) (now : Int) (x : OperationRequest)
    (operationId : Uuid) : Except RegistrationError (Store × FinancialOperation) := do
  w.requireDecision x.actorId .manageFinance x.organizationId x.editionId
  let reason ← requireReason x.reason
  require (x.kind ∈ supportedFinancialOperationKinds) (.invalid "__all__" "financial_operation_workflow_unavailable"
    "This operation needs a recipient-acceptance or repricing workflow and is not available yet.")
  require (x.targetAccountId = none ∧ x.targetProductId = none) (.invalid "__all__"
    "financial_operation_target_not_applicable" "Cancellation and refund do not accept a transfer or product target.")
  let r ← s.admissions.lockRegistration x.organizationId x.editionId x.registrationId
  if x.kind = .refund then
    require (1 ≤ x.amountMinor ∧ x.amountMinor ≤ s.finance.availableRefundMinor r.id) (.invalid "__all__"
      "refund_amount_invalid" "The refund exceeds the reconciled refundable balance.")
  else require (x.amountMinor = 0) (.invalid "__all__" "financial_operation_amount_not_applicable"
      "Only a refund proposal accepts an amount.")
  let o := newOperation operationId r x.kind x.amountMinor.toNat x.actorId now reason ""
  let finance ← s.finance.createOperation o
  return ({ s with finance := finance }, o)

/-- The cancellation of a registration by approval: its places, entitlements and timeline. -/
def Admissions.cancelRegistration (a : Admissions) (w : Surroundings) (r : Registration) (cancelledAt : Int)
    (timelineKind : String) (actorId correlationId : Uuid) : Except RegistrationError Admissions := do
  let r := { r with
    state := .cancelled, cancelledAt := some cancelledAt, aggregateVersion := r.aggregateVersion + 1 }
  let a ← a.saveRegistration w cancelledAt r
  let a := a.revokeEntitlements r.id
  return a.appendTimeline r.id timelineKind cancelledAt "account" (some actorId) correlationId

/-- `FinancialOperation.save` with the evidence of its approval. -/
def Finance.saveOperation (f : Finance) (o : FinancialOperation) : Finance :=
  { f with operations := f.operations.save o }

def FinancialOperation.approvedAs (o : FinancialOperation) (actorId : Uuid) (approvedAt : Int) (reason : String)
    (status : OperationStatus) (completedAt : Option Int) (safeResultCode : String) : FinancialOperation :=
  { o with approvedBy := some actorId, approvedAt := some approvedAt, approvalReason := reason,
           status, completedAt, safeResultCode }

def approveFinancialOperation (s : Store) (w : Surroundings) (approvedAt : Int)
    (organizationId editionId operationId actorId : Uuid) (reason : String) (correlationId : Uuid) :
    Except RegistrationError (Store × FinancialOperation) := do
  w.requireDecision actorId .manageFinance organizationId editionId
  let reason ← requireReason reason
  let o ← getOr (.missing "FinancialOperation") (s.finance.operations.rows.find? fun o =>
    o.id = operationId ∧ o.organizationId = organizationId ∧ o.editionId = editionId)
  require (o.status = .proposed) (.invalid "__all__" "financial_operation_not_proposed"
    "Only a proposed operation can be approved.")
  require (o.kind ∈ supportedFinancialOperationKinds) (.invalid "__all__" "financial_operation_workflow_unavailable"
    "This operation cannot be approved without its complete workflow.")
  require (o.requestedBy ≠ actorId) (.invalid "__all__" "financial_operation_dual_control"
    "A different authorized person must approve this operation.")
  let r ← getOr (.missing "Registration") (s.admissions.registrations.get? o.registrationId)
  if o.kind = .cancel then do
    require (r.state ∉ [.cancelled, .expired, .checkedIn]) (.invalid "__all__"
      "registration_cancellation_unavailable" "This registration cannot be cancelled in its current state.")
    let p ← s.admissions.productOf r
    let a ← s.admissions.cancelRegistration w r approvedAt "registration_cancelled" actorId correlationId
    let (a, _) ← a.promoteWaitlistForProduct w p approvedAt correlationId
    let o := o.approvedAs actorId approvedAt reason .completed (some approvedAt) "registration_cancelled"
    return ({ s with admissions := a, finance := s.finance.saveOperation o }, o)
  else do
    require (o.amountMinor ≤ s.finance.availableRefundMinor r.id) (.invalid "__all__" "refund_balance_changed"
      "The refundable balance changed; review the proposal again.")
    let o := o.approvedAs actorId approvedAt reason .providerPending none "refund_provider_pending"
    return ({ s with finance := s.finance.saveOperation o }, o)

def recordProviderRefund (s : Store) (operationId : Uuid) (provider : PaymentProviderAccount)
    (providerReference : String) (occurredAt : Int) : Except RegistrationError Store := do
  let o ← getOr (.missing "FinancialOperation") (s.finance.operations.get? operationId)
  if o.status = .completed then do
    require (s.finance.ledger.rows.any fun e => e.operationId = some o.id ∧ e.kind = .refund)
      (.invalid "__all__" "refund_ledger_missing" "The completed refund has no ledger evidence.")
    return s
  else do
    require (o.status = .providerPending) (.invalid "__all__" "refund_not_provider_pending"
      "The refund is not waiting for provider confirmation.")
    let f ← s.finance.createEntry provider
      { registrationId := o.registrationId, operationId := some o.id, organizationId := o.organizationId,
        providerAccountId := provider.id, kind := .refund, direction := .outflow, amountMinor := o.amountMinor,
        currency := o.currency, occurredAt, providerReference }
    return { s with finance := f.saveOperation { o with
      status := .completed, completedAt := some occurredAt, safeResultCode := "refund_reconciled" } }

/-! ## Attendance restrictions -/

/-- The proposal to refund what is left of a registration's payments. -/
def Finance.reviewRefund (f : Finance) (r : Registration) (actorId : Uuid) (changedAt : Int)
    (operationId : Uuid) : Except RegistrationError Finance :=
  let refundable := f.availableRefundMinor r.id
  if refundable = 0 then return f
  else f.createOperation (newOperation operationId r .refund refundable actorId changedAt
    "Refund review created by an attendance restriction." "restriction_refund_review")

/-- What an attendance restriction does to one registration. -/
def restrictRegistration (s : Store) (w : Surroundings) (changedAt : Int) (actorId : Uuid)
    (r : Registration) (operationId correlationId : Uuid) : Except RegistrationError Store :=
  if r.state ∉ [.waitlisted, .paymentPending, .confirmed] then
    if r.state = .checkedIn then return { s with admissions := s.admissions.revokeEntitlements r.id } else return s
  else do
    let p ← s.admissions.productOf r
    let a ← s.admissions.cancelRegistration w r changedAt "registration_restricted" actorId correlationId
    let f ← s.finance.reviewRefund r actorId changedAt operationId
    let (a, _) ← a.promoteWaitlistForProduct w p changedAt correlationId
    return { s with admissions := a, finance := f }

/-- `apply_restriction_consequences` of an attendance restriction, over the registrations it
selects: one of each edition, so that none is changed before its turn. -/
def restrictEach (w : Surroundings) (changedAt : Int) (actorId : Uuid) (operationId : Uuid → Uuid)
    (correlationId : Uuid) : List Uuid → Store → Except RegistrationError Store
  | [], s => return s
  | id :: ids, s => do
    let r ← getOr (.missing "Registration") (s.admissions.registrations.get? id)
    let s ← restrictRegistration s w changedAt actorId r (operationId id) correlationId
    restrictEach w changedAt actorId operationId correlationId ids s

def applyRestrictionConsequences (s : Store) (w : Surroundings) (changedAt : Int)
    (organizationId accountId : Uuid) (editionId : Option Uuid) (actorId : Uuid) (operationId : Uuid → Uuid)
    (correlationId : Uuid) : Except RegistrationError Store :=
  let selected := s.admissions.registrations.rows.filter fun r => r.organizationId = organizationId ∧
    r.accountId = accountId ∧ editionId.all (r.editionId = ·) ∧ w.adoptsRegistration r.editionId
  restrictEach w changedAt actorId operationId correlationId (selected.map Registration.id) s

end Maru.Registration
