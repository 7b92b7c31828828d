import Maru.Registration.Payments

/-!
# What a reconciliation writes

A delivery that commits is a replay, an event no intent is known for, or an event matched
with an intent (`Delivered`). A matched event opens an exception, records a refund, applies
a payment or records a failure (`Effect`); which of them write the status of the intent is a
matter of the event and the intent (`OverwritesIntent`).
-/

namespace Maru.Registration

variable {P : Primitives} {s s' : Store} {w : Surroundings} {now : Int} {provider : PaymentProviderAccount}
  {d : Delivery} {intent : PaymentIntent} {r : Registration} {replacement : Option AdmissionTierReplacement}
  {done : Reconciled}

/-- The exception an event opens. -/
def Delivery.exception (d : Delivery) (provider : PaymentProviderAccount) (intent : Option PaymentIntent)
    (kind : ExceptionKind) (safeSummary : String) (now : Int) : PaymentException :=
  { id := d.exceptionId, organizationId := provider.organizationId, editionId := intent.map PaymentIntent.editionId,
    providerAccountId := provider.id, paymentIntentId := intent.map PaymentIntent.id, kind, open_ := true,
    safeSummary, openedAt := now, resolvedAt := none, resolvedBy := none, resolutionReason := "" }

theorem openPaymentException_eq_ok {i : Option PaymentIntent} {kind : ExceptionKind} {safeSummary : String} :
    openPaymentException s provider i kind safeSummary now d.exceptionId = .ok s' ↔
      ∃ t, s.payments.exceptions.insert? (d.exception provider i kind safeSummary now) = some t ∧
        { s with payments := { s.payments with exceptions := t } } = s' := by
  simp only [openPaymentException, Payments.createException, bind_eq_ok, pure_eq_ok, getOr_eq_ok,
    Delivery.exception]
  constructor
  · rintro ⟨_, ⟨t, ht, rfl⟩, rfl⟩
    exact ⟨t, ht, rfl⟩
  · rintro ⟨t, ht, rfl⟩
    exact ⟨_, ⟨t, ht, rfl⟩, rfl⟩

theorem toException_eq_ok {kind : ExceptionKind} {safeSummary code : String} :
    toException s now provider d intent kind safeSummary code = .ok done ↔
      ∃ t, s.payments.exceptions.insert? (d.exception provider (some intent) kind safeSummary now) = some t ∧
        ⟨{ s with payments := { s.payments with exceptions := t } }, .exception, code⟩ = done := by
  simp only [toException, bind_eq_ok, pure_eq_ok, openPaymentException_eq_ok]
  constructor
  · rintro ⟨_, ⟨t, ht, rfl⟩, rfl⟩
    exact ⟨t, ht, rfl⟩
  · rintro ⟨t, ht, rfl⟩
    exact ⟨_, ⟨t, ht, rfl⟩, rfl⟩

theorem createEntry_eq_ok {f f' : Finance} {e : LedgerEntry} :
    f.createEntry provider e = .ok f' ↔ e.providerReference.length ≤ 160 ∧
      provider.organizationId = e.organizationId ∧ ∃ t, f.ledger.insert? e = some t ∧
        { f with ledger := t } = f' := by
  simp only [Finance.createEntry, bind_eq_ok, pure_eq_ok, require_eq_ok, getOr_eq_ok, exists_const]

theorem createAttempt_eq_ok {p p' : Payments} {x : PaymentAttempt} :
    p.createAttempt x = .ok p' ↔ x.providerReference ≠ "" ∧ x.providerReference.length ≤ 120 ∧
      (p.attempts.rows.any fun y => y.provider = x.provider ∧ y.idempotencyKey = x.idempotencyKey) =
        false ∧ ∃ t, p.attempts.insert? x = some t ∧ { p with attempts := t } = p' := by
  simp only [Payments.createAttempt, requireText, bind_eq_ok, pure_eq_ok, require_eq_ok,
    getOr_eq_ok, exists_const, Bool.not_eq_true, and_assoc]

/-- The entry of a completed refund operation. -/
def FinancialOperation.refundEntry (o : FinancialOperation) (provider : PaymentProviderAccount)
    (providerReference : String) (occurredAt : Int) : LedgerEntry :=
  { registrationId := o.registrationId, operationId := some o.id, organizationId := o.organizationId,
    providerAccountId := provider.id, kind := .refund, direction := .outflow, amountMinor := o.amountMinor,
    currency := o.currency, occurredAt, providerReference }

def FinancialOperation.refunded (o : FinancialOperation) (completedAt : Int) : FinancialOperation :=
  { o with status := .completed, completedAt := some completedAt, safeResultCode := "refund_reconciled" }

/-- A refund awaiting its provider is completed with its ledger entry. -/
theorem recordProviderRefund_eq_ok {o : FinancialOperation} {providerReference : String}
    {occurredAt : Int} (ho : o ∈ s.finance.operations) (pending : o.status = .providerPending) :
    recordProviderRefund s o.id provider providerReference occurredAt = .ok s' ↔
      ∃ f, s.finance.createEntry provider (o.refundEntry provider providerReference occurredAt) =
        .ok f ∧ { s with finance := f.saveOperation (o.refunded occurredAt) } = s' := by
  have found : s.finance.operations.get? o.id = some o := Table.get?_eq_some.mpr ⟨ho, rfl⟩
  simp only [recordProviderRefund, bind_eq_ok, getOr_eq_ok, found, Option.some.injEq]
  constructor
  · rintro ⟨_, rfl, h⟩
    rw [if_neg (by rw [pending]; exact OperationStatus.noConfusion)] at h
    simp only [bind_eq_ok, require_eq_ok, pure_eq_ok] at h
    obtain ⟨_, -, f, hf, rfl⟩ := h
    exact ⟨f, hf, rfl⟩
  · rintro ⟨f, hf, rfl⟩
    refine ⟨o, rfl, ?_⟩
    rw [if_neg (by rw [pending]; exact OperationStatus.noConfusion)]
    simp only [bind_eq_ok, require_eq_ok, pure_eq_ok]
    exact ⟨⟨⟩, pending, f, hf, rfl⟩

theorem pendingRefund_eq_some {f : Finance} {registrationId : Uuid} {event : VerifiedPaymentEvent}
    {o : FinancialOperation} (h : f.pendingRefund registrationId event = some o) :
    o ∈ f.operations ∧ o.registrationId = registrationId ∧ o.kind = .refund ∧ o.status =
      .providerPending ∧ o.amountMinor = event.amountMinor ∧ o.currency = event.currency := by
  obtain ⟨ho, hp⟩ := List.mem_filter.mp (List.argmin_mem h)
  simp only [decide_eq_true_eq] at hp
  exact ⟨ho, hp⟩

/-! ## A matched event -/

/-- The intent written by the application of its payment. -/
def PaymentIntent.paid (i : PaymentIntent) (code : String) (occurredAt : Int) : PaymentIntent :=
  { i with status := .succeeded, safeResultCode := code, lastProviderEventAt := some occurredAt }

/-- The event is not about the payment itself: its branches do not write the intent. -/
def notAboutPayment (eventType : String) : Bool :=
  eventType = "payment.refunded" ∨ eventType = "payment.disputed" ∨ eventType = "payment.chargeback"

/-- The event's branch writes a status other than success to the intent: it differs from the
intent, reports a failure, or reports a success too late. -/
def OverwritesIntent (d : Delivery) (intent : PaymentIntent) (r : Registration)
    (replacement : Option AdmissionTierReplacement) : Prop :=
  notAboutPayment d.event.eventType = false ∧
    (d.event.amountMinor ≠ intent.amountMinor ∨ d.event.currency ≠ intent.currency ∨
      d.event.eventType = "payment.failed" ∨ d.event.eventType = "payment.abandoned" ∨
      d.event.eventType = "payment.succeeded" ∧ paymentIsCurrent r replacement d.occurredAt = false)

/-- What an event matched with `intent` did. -/
inductive Effect (P : Primitives) (s : Store) (w : Surroundings) (now : Int) (provider : PaymentProviderAccount)
    (d : Delivery) (intent : PaymentIntent) (r : Registration) (replacement : Option AdmissionTierReplacement) :
    Reconciled → Prop
  /-- An exception, perhaps with the entry of a dispute. -/
  | excepted {f : Finance} {kind : ExceptionKind} {safeSummary code : String}
      {t : Table PaymentException.id} (left : ¬ OverwritesIntent d intent r replacement)
      (finance : f = s.finance ∨ ∃ e : LedgerEntry, e.kind ≠ .refund ∧ e.direction = .outflow ∧
        e.providerAccountId = provider.id ∧ e.providerReference = d.remoteEventId ∧
        s.finance.createEntry provider e = .ok f)
      (opened : s.payments.exceptions.insert? (d.exception provider (some intent) kind safeSummary now) = some t) :
      Effect P s w now provider d intent r replacement
        ⟨{ s with finance := f, payments := { s.payments with exceptions := t } }, .exception, code⟩
  /-- An exception, with a status of the intent. -/
  | overwritten {status : IntentStatus} {safeResultCode : String} {lastProviderEventAt : Option Int}
      {kind : ExceptionKind} {safeSummary code : String} {t : Table PaymentException.id}
      (overwrites : OverwritesIntent d intent r replacement) (unpaid : status ≠ .succeeded)
      (opened : s.payments.exceptions.insert? (d.exception provider (some intent) kind safeSummary now) = some t) :
      Effect P s w now provider d intent r replacement
        ⟨{ s with payments := { s.payments.saveIntent { intent with
          status, safeResultCode, lastProviderEventAt } with exceptions := t } }, .exception, code⟩
  | refunded {o : FinancialOperation} {f : Finance} (left : ¬ OverwritesIntent d intent r replacement)
      (reported : d.event.eventType = "payment.refunded") (pending : s.finance.pendingRefund r.id d.event = some o)
      (entered : s.finance.createEntry provider
        (o.refundEntry provider d.remoteEventId d.occurredAt) = .ok f) :
      Effect P s w now provider d intent r replacement
        ⟨{ s with finance := f.saveOperation (o.refunded d.occurredAt) }, .applied, "refund_reconciled"⟩
  | applied {p : Payments} {f : Finance} {a : Admissions} {code : String}
      (left : ¬ OverwritesIntent d intent r replacement) (reported : d.event.eventType = "payment.succeeded")
      (current : paymentIsCurrent r replacement d.occurredAt)
      (attempted : s.payments.createAttempt
        (eventAttempt P provider d r .succeeded "provider_payment_succeeded") = .ok p)
      (entered : recordProviderPayment s.finance r provider d.remoteEventId d.event.amountMinor d.event.currency
        d.occurredAt = .ok f)
      (completed : s.admissions.completePayment w now (replacement.map AdmissionTierReplacement.id) r
        d.occurredAt d.correlationId = .ok a) :
      Effect P s w now provider d intent r replacement
        ⟨⟨a, f, p.saveIntent (intent.paid code d.occurredAt)⟩, .applied, code⟩
  | failed {p : Payments} {status : IntentStatus} {code : String} {lastProviderEventAt : Option Int}
      (overwrites : OverwritesIntent d intent r replacement) (unpaid : status ≠ .succeeded)
      (reported : d.event.eventType = "payment.failed" ∨ d.event.eventType = "payment.abandoned")
      (attempted : (s.payments.saveIntent { intent with
        status, safeResultCode := code, lastProviderEventAt }).createAttempt
          (eventAttempt P provider d r .failed code) = .ok p) :
      Effect P s w now provider d intent r replacement ⟨{ s with payments := p }, .applied, code⟩

theorem toException_effect {kind : ExceptionKind} {safeSummary code : String}
    (left : ¬ OverwritesIntent d intent r replacement)
    (h : toException s now provider d intent kind safeSummary code = .ok done) :
    Effect P s w now provider d intent r replacement done := by
  obtain ⟨t, ht, rfl⟩ := toException_eq_ok.mp h
  exact .excepted left (.inl rfl) ht

theorem reconcileRefund_effect (reported : d.event.eventType = "payment.refunded")
    (h : reconcileRefund s now provider d intent r = .ok done) :
    Effect P s w now provider d intent r replacement done := by
  have left : ¬ OverwritesIntent d intent r replacement := by simp [OverwritesIntent, notAboutPayment, reported]
  unfold reconcileRefund at h
  split at h
  · exact toException_effect left h
  split at h
  · exact toException_effect left h
  · rename_i o ho
    obtain ⟨mem, -, -, pending, -⟩ := pendingRefund_eq_some ho
    simp only [bind_eq_ok, pure_eq_ok] at h
    obtain ⟨s₁, h₁, _, -, rfl⟩ := h
    obtain ⟨f, hf, rfl⟩ := (recordProviderRefund_eq_ok mem pending).mp h₁
    exact .refunded left reported ho hf

theorem reconcileDispute_effect (left : ¬ OverwritesIntent d intent r replacement)
    (h : reconcileDispute s now provider d intent r = .ok done) :
    Effect P s w now provider d intent r replacement done := by
  unfold reconcileDispute at h
  split at h
  · exact toException_effect left h
  · simp only [bind_eq_ok] at h
    obtain ⟨f, hf, _, -, h⟩ := h
    obtain ⟨t, ht, rfl⟩ := toException_eq_ok.mp h
    refine .excepted left (.inr ⟨_, ?_, ?_, ?_, ?_, hf⟩) ht
    · show ite _ _ _ ≠ LedgerKind.refund
      split <;> exact LedgerKind.noConfusion
    · rfl
    · rfl
    · rfl

theorem reconcileMismatch_effect {kind : ExceptionKind} {safeSummary code : String}
    (overwrites : OverwritesIntent d intent r replacement)
    (h : reconcileMismatch s now provider d intent kind safeSummary code = .ok done) :
    Effect P s w now provider d intent r replacement done := by
  obtain ⟨t, ht, rfl⟩ := toException_eq_ok.mp h
  exact .overwritten overwrites IntentStatus.noConfusion ht

theorem reconcileSuccess_effect (amount : d.event.amountMinor = intent.amountMinor)
    (currency : d.event.currency = intent.currency) (succeeded : d.event.eventType = "payment.succeeded")
    (h : reconcileSuccess P s w now provider d intent r replacement = .ok done) :
    Effect P s w now provider d intent r replacement done := by
  unfold reconcileSuccess at h
  split at h
  · rename_i late
    simp only [bind_eq_ok] at h
    obtain ⟨_, -, h⟩ := h
    obtain ⟨t, ht, rfl⟩ := toException_eq_ok.mp h
    refine .overwritten ?_ IntentStatus.noConfusion ht
    simpa [OverwritesIntent, notAboutPayment, succeeded, amount, currency] using late
  · rename_i current
    simp only [Bool.not_eq_true, Bool.not_eq_false] at current
    simp only [applyPayment, bind_eq_ok, pure_eq_ok] at h
    obtain ⟨p, hp, _, -, f, hf, a, ha, rfl⟩ := h
    refine .applied ?_ succeeded current hp hf ha
    simp [OverwritesIntent, succeeded, amount, currency, current]

theorem reconcileFailure_effect (overwrites : OverwritesIntent d intent r replacement)
    (reported : d.event.eventType = "payment.failed" ∨ d.event.eventType = "payment.abandoned")
    (h : reconcileFailure P s provider d intent r = .ok done) :
    Effect P s w now provider d intent r replacement done := by
  simp only [reconcileFailure, bind_eq_ok, pure_eq_ok] at h
  obtain ⟨_, -, p, hp, rfl⟩ := h
  refine .failed overwrites ?_ reported hp
  split <;> exact IntentStatus.noConfusion

/-- Every branch of the reconciliation has one of the effects. -/
theorem reconcileMatched_effect (h : reconcileMatched P s w now provider d intent r replacement = .ok done) :
    Effect P s w now provider d intent r replacement done := by
  unfold reconcileMatched at h
  split at h
  · rename_i refunded
    exact reconcileRefund_effect refunded h
  rename_i refunded
  split at h
  · rename_i disputed
    refine reconcileDispute_effect (fun overwrites => ?_) h
    rcases disputed with e | e <;> simp [OverwritesIntent, notAboutPayment, e] at overwrites
  rename_i disputed
  have about : notAboutPayment d.event.eventType = false := by simpa [notAboutPayment, refunded] using disputed
  split at h
  · rename_i amount
    exact reconcileMismatch_effect ⟨about, .inl amount⟩ h
  rename_i amount
  split at h
  · rename_i currency
    exact reconcileMismatch_effect ⟨about, .inr (.inl currency)⟩ h
  rename_i currency
  rw [not_not] at amount currency
  split at h
  · rename_i succeeded
    exact reconcileSuccess_effect amount currency succeeded h
  rename_i succeeded
  split at h
  · rename_i failed
    exact reconcileFailure_effect ⟨about, .inr (.inr (failed.imp_right .inl))⟩ failed h
  · rename_i failed
    rw [not_or] at failed
    exact toException_effect (by simp [OverwritesIntent, amount, currency, succeeded, failed]) h

/-- The receipts are written behind the effect. -/
theorem Effect.receipts (h : Effect P s w now provider d intent r replacement done) :
    done.store.payments.receipts = s.payments.receipts := by
  cases h with
  | applied _ _ _ attempted =>
    obtain ⟨-, -, -, t, -, rfl⟩ := createAttempt_eq_ok.mp attempted
    rfl
  | failed _ _ _ attempted =>
    obtain ⟨-, -, -, t, -, rfl⟩ := createAttempt_eq_ok.mp attempted
    rfl
  | _ => rfl

/-! ## A delivery -/

theorem matchedIntent_eq_some (h : s.matchedIntent w d = some intent) :
    intent ∈ s.payments.intents ∧ intent.providerAccountId = d.providerAccountId ∧
      intent.providerReference = d.providerReference := by
  obtain ⟨hi, -⟩ := List.mem_filter.mp (List.mem_of_getLast? h)
  obtain ⟨hi, hm⟩ := List.mem_filter.mp hi
  simp only [decide_eq_true_eq] at hm
  exact ⟨hi, hm⟩

theorem createReceipt_eq_ok {p p' : Payments} {x : PaymentWebhookReceipt} :
    p.createReceipt x = .ok p' ↔ x.remoteEventId ≠ "" ∧ x.remoteEventId.length ≤ 160 ∧
      ∃ t, p.receipts.insert? x = some t ∧ { p with receipts := t } = p' := by
  simp only [Payments.createReceipt, requireText, bind_eq_ok, pure_eq_ok, require_eq_ok,
    getOr_eq_ok, exists_const, and_assoc]

/-- How a delivery committed. -/
inductive Delivered (P : Primitives) (s : Store) (w : Surroundings) (now : Int) (d : Delivery) :
    Store → PaymentWebhookReceipt → Prop
  | replayed {receipt : PaymentWebhookReceipt} (known : receipt ∈ s.payments.receipts)
      (key : receipt.key = (d.providerAccountId, d.remoteEventId))
      (digest : receipt.payloadDigest = d.payloadDigest) : Delivered P s w now d s receipt
  | unknown {provider : PaymentProviderAccount} {t : Table PaymentException.id} {p : Payments} {safeSummary : String}
      (fresh : s.payments.receipts.get? (d.providerAccountId, d.remoteEventId) = none)
      (unmatched : s.payments.intentScope d = [])
      (opened : s.payments.exceptions.insert? (d.exception provider none .unknownIntent safeSummary now) = some t)
      (received : { s.payments with exceptions := t }.createReceipt
        (d.receipt now .exception "unknown_payment_intent" none) = .ok p) :
      Delivered P s w now d { s with payments := p } (d.receipt now .exception "unknown_payment_intent" none)
  | matched {provider : PaymentProviderAccount} {intent : PaymentIntent} {r : Registration} {done : Reconciled}
      {p : Payments} (hprovider : s.payments.providers.get? d.providerAccountId = some provider)
      (fresh : s.payments.receipts.get? (d.providerAccountId, d.remoteEventId) = none)
      (hintent : s.matchedIntent w d = some intent)
      (hr : s.admissions.registrations.get? intent.registrationId = some r)
      (reconciled : reconcileMatched P s w now provider d intent r
        (intent.tierReplacementId.bind s.admissions.replacements.get?) = .ok done)
      (received : done.store.payments.createReceipt (d.receipt now done.outcome done.code (some intent.id)) = .ok p) :
      Delivered P s w now d { done.store with payments := p } (d.receipt now done.outcome done.code (some intent.id))

theorem reconcile_delivered {receipt : PaymentWebhookReceipt}
    (h : reconcileVerifiedPaymentEvent P s w now d = .ok (s', receipt)) : Delivered P s w now d s' receipt := by
  simp only [reconcileVerifiedPaymentEvent, bind_eq_ok, getOr_eq_ok] at h
  obtain ⟨provider, hprovider, _, -, h⟩ := h
  obtain ⟨-, hid⟩ := Table.get?_eq_some.mp hprovider
  rw [hid] at h
  split at h
  · rename_i existing hexisting
    simp only [bind_eq_ok, pure_eq_ok, require_eq_ok, Prod.mk.injEq] at h
    obtain ⟨_, digest, rfl, rfl⟩ := h
    obtain ⟨mem, key⟩ := Table.get?_eq_some.mp hexisting
    exact .replayed mem key digest
  rename_i fresh
  simp only [bind_eq_ok] at h
  obtain ⟨_, -, h⟩ := h
  split at h
  · simp only [bind_eq_ok, pure_eq_ok, require_eq_ok, Prod.mk.injEq, openPaymentException_eq_ok] at h
    obtain ⟨_, unmatched, _, ⟨t, ht, rfl⟩, p, hp, rfl, rfl⟩ := h
    exact .unknown fresh unmatched ht hp
  · rename_i intent hintent
    simp only [bind_eq_ok, pure_eq_ok, getOr_eq_ok, Prod.mk.injEq] at h
    obtain ⟨r, hr, _, -, done, hd, p, hp, rfl, rfl⟩ := h
    exact .matched hprovider fresh hintent hr hd hp

end Maru.Registration
