import Maru.Registration.Finance

/-!
# Hosted payments

Payment intents, the simulated payment, and the reconciliation of verified provider events:
each event is answered by its receipt, or matched to an intent and applied or put into the
exception queue, in one transaction with its receipt.
-/

set_option linter.dupNamespace false

namespace Maru.Registration

/-- `29d5e26f-a49b-48b6-8db9-b5a077dfe1fc`. -/
def paymentEventNamespace : Uuid := 0x29d5e26fa49b48b68db9b5a077dfe1fc

def Payments.createException (s : Payments) (x : PaymentException) : Except RegistrationError Payments := do
  let exceptions ← getOr (.integrity "registration_paymentexception_pkey") (s.exceptions.insert? x)
  return { s with exceptions := exceptions }

def Payments.createAttempt (s : Payments) (x : PaymentAttempt) : Except RegistrationError Payments := do
  requireText "provider_reference" 120 x.providerReference
  require (¬ s.attempts.rows.any fun y => y.provider = x.provider ∧ y.idempotencyKey = x.idempotencyKey)
    (.invalid "__all__" "unique_together" "registration_payment_idempotency_unique")
  let attempts ← getOr (.invalid "__all__" "unique_together" "registration_payment_provider_reference_unique")
    (s.attempts.insert? x)
  return { s with attempts := attempts }

def Payments.saveIntent (s : Payments) (i : PaymentIntent) : Payments := { s with intents := s.intents.save i }

/-! ## Intents -/

/-- The replacement a registration can pay for, and the amount, currency and deadline. -/
structure PaymentTerms where
  replacementId : Option Uuid
  amountMinor : Nat
  currency : String
  deadline : Option Int

/-- The terms of a payment of a registration, given its replacement awaiting payment. -/
def paymentTerms (r : Registration) (replacement : Option AdmissionTierReplacement) :
    Except RegistrationError PaymentTerms :=
  match replacement.filter fun x => (r.state = .confirmed ∨ r.state = .checkedIn) ∧ r.productId = x.sourceProductId with
  | some x => return ⟨some x.id, x.amountDueMinor, x.currency, some x.paymentDueAt⟩
  | none => do
    require (r.state = .paymentPending) (.invalid "__all__" "registration_not_payment_pending"
      "This registration is not waiting for payment.")
    return ⟨none, r.priceMinorSnapshot, r.currencySnapshot, r.paymentDueAt⟩

/-- The first transaction of `create_payment_intent`. -/
def createPaymentIntent (s : Store) (w : Surroundings) (createdAt : Int)
    (registrationId providerAccountId idempotencyKey intentId : Uuid) :
    Except RegistrationError (Store × PaymentIntent) := do
  let r ← getOr (.invalid "__all__" "payment_intent_scope_unavailable" "Hosted checkout is unavailable.")
    (s.admissions.registrations.rows.find? fun r => r.id = registrationId ∧ w.adoptsRegistration r.editionId)
  let provider ← getOr (.missing "PaymentProviderAccount") (s.payments.providers.rows.find? fun p =>
    p.id = providerAccountId ∧ p.organizationId = r.organizationId ∧ p.enabled)
  match s.payments.intents.rows.find? fun i =>
      i.providerAccountId = provider.id ∧ i.idempotencyKey = idempotencyKey with
  | some existing => do
    require (existing.registrationId = r.id) (.invalid "__all__" "payment_idempotency_conflict"
      "The payment idempotency key belongs to another operation.")
    return (s, existing)
  | none => do
    let terms ← paymentTerms r (s.admissions.replacements.rows.find? fun x =>
      x.registrationId = r.id ∧ x.status = .paymentPending ∧ createdAt < x.paymentDueAt)
    let expired : RegistrationError := .invalid "__all__" "registration_payment_deadline_passed"
      "The payment reservation has expired."
    let deadline ← getOr expired terms.deadline
    require (createdAt < deadline) expired
    let intent : PaymentIntent :=
      { id := intentId, registrationId := r.id, tierReplacementId := terms.replacementId,
        organizationId := r.organizationId, editionId := r.editionId, providerAccountId := provider.id,
        idempotencyKey, amountMinor := terms.amountMinor, currency := terms.currency, status := .creating,
        providerReference := "", expiresAt := deadline, lastProviderEventAt := none, safeResultCode := "" }
    let intents ← getOr (.integrity "registration_paymentintent_pkey") (s.payments.intents.insert? intent)
    return ({ s with payments := { s.payments with intents := intents } }, intent)

/-- An aware `datetime`, as a provider's message has it. -/
structure ProviderTime extends Calendar.DateTime where
  aware : offset.isSome
  deriving DecidableEq

namespace ProviderTime

def utc (t : Nat) (h : t < Calendar.maxMicros) : ProviderTime := { Calendar.DateTime.utc t h with aware := rfl }

def instant (t : ProviderTime) : Int := t.wall - t.offset.get t.aware

/-- The database reads the offset: it is under 16 hours, in whole seconds. -/
def storable (t : ProviderTime) : Bool :=
  let offset := t.offset.get t.aware
  offset.natAbs < 16 * 60 * 60 * Calendar.microsPerSecond ∧ offset % Calendar.microsPerSecond = 0

end ProviderTime

/-- The second transaction of `create_payment_intent`, after the provider answered. -/
def recordCheckout (s : Payments) (intentId : Uuid) (providerReference : Points)
    (expiresAt : ProviderTime) : Except RegistrationError Payments := do
  let i ← getOr (.missing "PaymentIntent") (s.intents.get? intentId)
  require (storable providerReference ∧ providerReference.length ≤ 120 ∧
    (i.expiresAt ≤ expiresAt.instant ∨ expiresAt.storable)) .data
  let providerReference := providerReference.text
  require (providerReference = "" ∨ ¬ s.intents.rows.any fun j => j.id ≠ i.id ∧
    j.providerAccountId = i.providerAccountId ∧ j.providerReference = providerReference)
    (.integrity "payment_intent_provider_reference_unique")
  return s.saveIntent { i with
    providerReference, expiresAt := min i.expiresAt expiresAt.instant, status := .checkoutReady
    safeResultCode := "checkout_created" }

/-- The second transaction of `create_payment_intent`, after the provider failed to answer. -/
def recordCheckoutFailure (s : Payments) (now : Int) (intentId exceptionId : Uuid) (code : String) :
    Except RegistrationError Payments := do
  let i ← getOr (.missing "PaymentIntent") (s.intents.get? intentId)
  let s := s.saveIntent { i with status := .uncertain, safeResultCode := orElse code "provider_unavailable" }
  s.createException
    { id := exceptionId, organizationId := i.organizationId, editionId := some i.editionId,
      providerAccountId := i.providerAccountId, paymentIntentId := some i.id, kind := .providerUnavailable,
      open_ := true, safeSummary := "Hosted checkout creation needs reconciliation.", openedAt := now,
      resolvedAt := none, resolvedBy := none, resolutionReason := "" }

/-! ## Confirmation -/

/-- The registration confirmed by a provider's payment. -/
def Registration.paid (r : Registration) (paidAt : Int) : Registration :=
  { r with state := .confirmed, aggregateVersion := r.aggregateVersion + 1,
           confirmedAt := some paidAt, confirmationBasis := some .provider }

/-- Confirm a registration that its provider reports as paid. -/
def Admissions.confirmPaid (a : Admissions) (w : Surroundings) (now : Int) (r : Registration)
    (paidAt : Int) (correlationId : Uuid) : Except RegistrationError Admissions := do
  let r := r.paid paidAt
  let a ← a.saveRegistration w now r
  let a ← a.grantProductEntitlement r paidAt
  return a.appendTimeline r.id "payment_confirmed" paidAt "provider" none correlationId

/-- What a payment completes: the replacement it is for, or the registration. -/
def Admissions.completePayment (a : Admissions) (w : Surroundings) (now : Int) (replacementId : Option Uuid)
    (r : Registration) (paidAt : Int) (correlationId : Uuid) : Except RegistrationError Admissions :=
  match replacementId with
  | some id => completeAdmissionTierReplacement a w now id correlationId paidAt
  | none => a.confirmPaid w now r paidAt correlationId

structure DemoPayment where
  organizationId : Uuid
  editionId : Uuid
  actorId : Uuid
  registrationId : Uuid
  idempotencyKey : Uuid

def confirmDemoPayment (s : Store) (w : Surroundings) (paidAt : Int) (x : DemoPayment)
    (correlationId : Uuid) : Except RegistrationError Store := do
  require (w.accountIsActive x.actorId : Prop) (.invalid "__all__" "registration_account_inactive"
    "This account cannot complete a registration payment.")
  require (w.demoPaymentAdapterEnabled : Prop) (.invalid "__all__" "demo_payment_disabled"
    "The simulated payment adapter is disabled.")
  let r ← getOr (.denied "The registration operation is unavailable.") (s.admissions.registrations.rows.find? fun r =>
    r.id = x.registrationId ∧ r.organizationId = x.organizationId ∧ r.editionId = x.editionId ∧
      r.accountId = x.actorId)
  w.requireDecision x.actorId .registerSelf x.organizationId x.editionId
  match s.payments.attempts.rows.find? fun y => y.provider = "demo" ∧ y.idempotencyKey = x.idempotencyKey with
  | some existing => do
    require (existing.registrationId = r.id) (.invalid "__all__" "payment_idempotency_conflict"
      "The payment idempotency key belongs to another operation.")
    return s
  | none => do
    let terms ← paymentTerms r (s.admissions.replacements.rows.find? fun y =>
      y.registrationId = r.id ∧ y.status = .paymentPending)
    require (¬ terms.deadline.any (· ≤ paidAt)) (.invalid "__all__" "registration_payment_deadline_passed"
      ("The payment reservation has expired. Check your registration for a new offer or contact " ++
        "Registration."))
    let payments ← s.payments.createAttempt
      { registrationId := r.id, provider := "demo", providerReference := "demo-" ++ x.idempotencyKey.text,
        idempotencyKey := x.idempotencyKey, amountMinor := terms.amountMinor, currency := terms.currency,
        status := .succeeded, occurredAt := paidAt,
        safeResultCode := if terms.replacementId.isSome then "demo_tier_replacement_succeeded"
          else "demo_payment_succeeded" }
    let a ← s.admissions.completePayment w paidAt terms.replacementId r paidAt correlationId
    return { s with admissions := a, payments := payments }

/-! ## Reconciliation -/

/-- The event of a verified message. Its type and its currency are only compared with texts
that have no surrogates. -/
structure VerifiedPaymentEvent where
  remoteEventId : Points
  providerReference : Points
  eventType : String
  amountMinor : Nat
  currency : String
  occurredAt : ProviderTime

/-- A delivery of a verified event: by which provider account, signed when, with what content. -/
structure Delivery where
  providerAccountId : Uuid
  event : VerifiedPaymentEvent
  signedAt : Int
  payloadDigest : String
  correlationId : Uuid
  exceptionId : Uuid

namespace Delivery

/-- The event's identifier, as a text that is `storable` is stored. -/
def remoteEventId (d : Delivery) : String := d.event.remoteEventId.text

def providerReference (d : Delivery) : String := d.event.providerReference.text

def occurredAt (d : Delivery) : Int := d.event.occurredAt.instant

/-- The database stores the event's time. -/
def timed (d : Delivery) : Bool := d.event.occurredAt.storable

end Delivery

/-- What an event was reconciled to: the store, the outcome and the result code. -/
structure Reconciled where
  store : Store
  outcome : Outcome
  code : String

def openPaymentException (s : Store) (provider : PaymentProviderAccount) (intent : Option PaymentIntent)
    (kind : ExceptionKind) (safeSummary : String) (now : Int) (exceptionId : Uuid) :
    Except RegistrationError Store := do
  let payments ← s.payments.createException
    { id := exceptionId, organizationId := provider.organizationId, editionId := intent.map PaymentIntent.editionId,
      providerAccountId := provider.id, paymentIntentId := intent.map PaymentIntent.id, kind, open_ := true,
      safeSummary, openedAt := now, resolvedAt := none, resolvedBy := none, resolutionReason := "" }
  return { s with payments := payments }

/-- `event_type.replace(".", "_")`. -/
def eventCode (eventType : String) : String :=
  String.ofList (eventType.toList.map fun c => if c = '.' then '_' else c)

section

variable (P : Primitives) (s : Store) (w : Surroundings) (now : Int)
  (provider : PaymentProviderAccount) (d : Delivery) (intent : PaymentIntent) (r : Registration)

/-- Open an exception about the event's intent. -/
def toException (kind : ExceptionKind) (safeSummary code : String) : Except RegistrationError Reconciled := do
  let s ← openPaymentException s provider (some intent) kind safeSummary now d.exceptionId
  return ⟨s, .exception, code⟩

/-- Approvals are ordered by their time and their identifier. -/
abbrev approvalOrder : LinearOrder (Int ×ₗ Uuid) :=
  @Prod.Lex.instLinearOrder Int Uuid Int.instLinearOrder Fin.instLinearOrder

/-- The refund operation an event reports: the oldest approval of its amount and currency. -/
def Finance.pendingRefund (f : Finance) (registrationId : Uuid) (event : VerifiedPaymentEvent) :
    Option FinancialOperation :=
  @List.argmin _ _ approvalOrder.toPreorder approvalOrder.toDecidableLT (fun o => toLex (o.approvedAt.getD 0, o.id))
    (f.operations.rows.filter fun o => o.registrationId = registrationId ∧ o.kind = .refund ∧
      o.status = .providerPending ∧ o.amountMinor = event.amountMinor ∧ o.currency = event.currency)

def reconcileRefund : Except RegistrationError Reconciled :=
  if d.event.currency ≠ intent.currency then
    toException s now provider d intent .currencyMismatch
      "Provider refund currency differs from the local intent." "refund_currency_mismatch"
  else match s.finance.pendingRefund r.id d.event with
    | none => toException s now provider d intent .outOfOrder
        "Provider reported a refund without a matching approved refund operation." "refund_operation_missing"
    | some o => do
      let s ← recordProviderRefund s o.id provider d.remoteEventId d.occurredAt
      require (d.timed : Prop) .data
      return ⟨s, .applied, "refund_reconciled"⟩

def reconcileDispute : Except RegistrationError Reconciled :=
  if d.event.currency ≠ intent.currency ∨ intent.amountMinor < d.event.amountMinor then
    toException s now provider d intent .amountMismatch
      "Provider dispute does not match the local payment." "dispute_mismatch"
  else do
    let finance ← s.finance.createEntry provider
      { registrationId := r.id, operationId := none, organizationId := r.organizationId,
        providerAccountId := provider.id,
        kind := if d.event.eventType = "payment.chargeback" then .chargeback else .dispute, direction := .outflow,
        amountMinor := d.event.amountMinor, currency := d.event.currency, occurredAt := d.occurredAt,
        providerReference := d.remoteEventId }
    require (d.timed : Prop) .data
    toException { s with finance := finance } now provider d intent .disputeReview
      "Provider reported a dispute or chargeback. Finance must review admission and evidence."
      (eventCode d.event.eventType)

/-- An amount or a currency that differs from the intent's. -/
def reconcileMismatch (kind : ExceptionKind) (safeSummary code : String) : Except RegistrationError Reconciled :=
  let payments := s.payments.saveIntent { intent with status := .mismatch, safeResultCode := code }
  toException { s with payments := payments } now provider d intent kind safeSummary code

def reconcileAmountMismatch : Except RegistrationError Reconciled :=
  reconcileMismatch s now provider d intent .amountMismatch
    "Provider amount differs from the locally recorded intent." "amount_mismatch"

def reconcileCurrencyMismatch : Except RegistrationError Reconciled :=
  reconcileMismatch s now provider d intent .currencyMismatch
    "Provider currency differs from the locally recorded intent." "currency_mismatch"

/-- The reservation the payment is for still holds its place. -/
def paymentIsCurrent (r : Registration) (replacement : Option AdmissionTierReplacement) (occurredAt : Int) : Bool :=
  match replacement with
  | none => r.state = .paymentPending ∧ r.paymentDueAt.any (occurredAt < ·)
  | some x => x.status = .paymentPending ∧ r.productId = x.sourceProductId ∧ occurredAt < x.paymentDueAt

def eventAttempt (status : AttemptStatus) (safeResultCode : String) : PaymentAttempt :=
  { registrationId := r.id, provider := provider.code, providerReference := d.remoteEventId,
    idempotencyKey := P.uuid5 paymentEventNamespace (provider.id.text ++ ":" ++ d.remoteEventId),
    amountMinor := d.event.amountMinor, currency := d.event.currency, status, occurredAt := d.occurredAt,
    safeResultCode }

/-- Apply a current payment: its attempt, its ledger entry, and the admission it pays for. -/
def applyPayment (replacement : Option AdmissionTierReplacement) : Except RegistrationError Reconciled := do
  let payments ← s.payments.createAttempt (eventAttempt P provider d r .succeeded "provider_payment_succeeded")
  require (d.timed : Prop) .data
  let finance ← recordProviderPayment s.finance r provider d.remoteEventId d.event.amountMinor
    d.event.currency d.occurredAt
  let a ← s.admissions.completePayment w now
    (replacement.map AdmissionTierReplacement.id) r d.occurredAt d.correlationId
  let code := if replacement.isSome then "tier_replacement_payment_reconciled" else "payment_reconciled"
  let payments := payments.saveIntent { intent with
    status := .succeeded, safeResultCode := code, lastProviderEventAt := some d.occurredAt }
  return ⟨⟨a, finance, payments⟩, .applied, code⟩

def reconcileSuccess (replacement : Option AdmissionTierReplacement) : Except RegistrationError Reconciled :=
  if ¬ paymentIsCurrent r replacement d.occurredAt then do
    require (d.timed : Prop) .data
    let payments := s.payments.saveIntent { intent with
      status := .late, safeResultCode := "late_success", lastProviderEventAt := some d.occurredAt }
    toException { s with payments := payments } now provider d intent .lateSuccess
      "Provider reports success after the reservation stopped holding capacity." "late_success"
  else applyPayment P s w now provider d intent r replacement

def reconcileFailure : Except RegistrationError Reconciled := do
  require (d.timed : Prop) .data
  let code := eventCode d.event.eventType
  let payments := s.payments.saveIntent { intent with
    status := if d.event.eventType = "payment.failed" then .failed else .abandoned, safeResultCode := code
    lastProviderEventAt := some d.occurredAt }
  let payments ← payments.createAttempt (eventAttempt P provider d r .failed code)
  return ⟨{ s with payments := payments }, .applied, code⟩

/-- The branches of the reconciliation of an event with its intent, in their order. -/
def reconcileMatched (replacement : Option AdmissionTierReplacement) : Except RegistrationError Reconciled :=
  if d.event.eventType = "payment.refunded" then reconcileRefund s now provider d intent r
  else if d.event.eventType = "payment.disputed" ∨ d.event.eventType = "payment.chargeback" then
    reconcileDispute s now provider d intent r
  else if d.event.amountMinor ≠ intent.amountMinor then reconcileAmountMismatch s now provider d intent
  else if d.event.currency ≠ intent.currency then reconcileCurrencyMismatch s now provider d intent
  else if d.event.eventType = "payment.succeeded" then reconcileSuccess P s w now provider d intent r replacement
  else if d.event.eventType = "payment.failed" ∨ d.event.eventType = "payment.abandoned" then
    reconcileFailure P s provider d intent r
  else toException s now provider d intent .outOfOrder "Provider sent an unsupported payment state."
    "unsupported_payment_event"

end

def Payments.createReceipt (s : Payments) (x : PaymentWebhookReceipt) : Except RegistrationError Payments := do
  requireText "remote_event_id" 160 x.remoteEventId
  let receipts ← getOr (.invalid "__all__" "unique_together" "payment_webhook_remote_event_unique")
    (s.receipts.insert? x)
  return { s with receipts := receipts }

/-- The receipt that closes the reconciliation of a delivery. -/
def Delivery.receipt (d : Delivery) (now : Int) (outcome : Outcome) (safeResultCode : String)
    (intentId : Option Uuid) : PaymentWebhookReceipt :=
  { providerAccountId := d.providerAccountId, remoteEventId := d.remoteEventId, payloadDigest := d.payloadDigest,
    signatureTimestamp := d.signedAt, receivedAt := now, outcome, safeResultCode, paymentIntentId := intentId }

/-- The intents an event names, the newest last. -/
def Payments.intentScope (s : Payments) (d : Delivery) : List PaymentIntent :=
  s.intents.rows.filter fun i =>
    i.providerAccountId = d.providerAccountId ∧ i.providerReference = d.providerReference

/-- The intent an event is matched with, in an edition that has adopted the module. -/
def Store.matchedIntent (s : Store) (w : Surroundings) (d : Delivery) : Option PaymentIntent :=
  ((s.payments.intentScope d).filter fun i =>
    (s.admissions.registrations.get? i.registrationId).any fun r => w.adoptsRegistration r.editionId).getLast?

def reconcileVerifiedPaymentEvent (P : Primitives) (s : Store) (w : Surroundings) (now : Int)
    (d : Delivery) : Except RegistrationError (Store × PaymentWebhookReceipt) := do
  let provider ← getOr (.missing "PaymentProviderAccount") (s.payments.providers.get? d.providerAccountId)
  require (storable d.event.remoteEventId : Prop) .data
  match s.payments.receipts.get? (provider.id, d.remoteEventId) with
  | some existing => do
    require (existing.payloadDigest = d.payloadDigest) (.invalid "__all__" "payment_webhook_event_conflict"
      "A provider event identifier was reused with different content.")
    return (s, existing)
  | none => do
    require (storable d.event.providerReference : Prop) .data
    match s.matchedIntent w d with
    | none => do
      require (s.payments.intentScope d = []) (.invalid "__all__" "payment_webhook_scope_unavailable"
        "The payment message scope is unavailable.")
      let s ← openPaymentException s provider none .unknownIntent
        "Provider reported a payment intent Maru cannot identify." now d.exceptionId
      let receipt := d.receipt now .exception "unknown_payment_intent" none
      let payments ← s.payments.createReceipt receipt
      return ({ s with payments := payments }, receipt)
    | some intent => do
      let r ← getOr (.missing "Registration") (s.admissions.registrations.get? intent.registrationId)
      let replacement := intent.tierReplacementId.bind s.admissions.replacements.get?
      require (intent.readable ∧ r.readable ∧ replacement.all AdmissionTierReplacement.readable) .data
      let done ← reconcileMatched P s w now provider d intent r replacement
      let receipt := d.receipt now done.outcome done.code (some intent.id)
      let payments ← done.store.payments.createReceipt receipt
      return ({ done.store with payments := payments }, receipt)

/-! ## The exception queue -/

def resolvePaymentException (s : Payments) (w : Surroundings) (now : Int)
    (actorId organizationId editionId exceptionId : Uuid) (reason : String) :
    Except RegistrationError Payments := do
  w.requireDecision actorId .manageFinance organizationId editionId
  let normalized := strip reason
  require (normalized ≠ "") (.invalid "__all__" "payment_exception_reason_required"
    "Resolving a payment exception requires a reason.")
  let x ← getOr (.missing "PaymentException") (s.exceptions.rows.find? fun x =>
    x.id = exceptionId ∧ x.organizationId = organizationId ∧ x.editionId = some editionId)
  if ¬ x.open_ then return s
  else return { s with exceptions := s.exceptions.save { x with
    open_ := false, resolvedAt := some now, resolvedBy := some actorId, resolutionReason := normalized } }

end Maru.Registration
