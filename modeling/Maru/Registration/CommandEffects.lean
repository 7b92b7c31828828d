import Maru.Registration.Reconciliation
import Maru.Registration.RegistrationMachine

/-!
# What commands leave alone

A committed command on one group of tables leaves the others as they were
(`withAdmissions_eq_ok`, `withPayments_eq_ok`), and so do the halves of the commands on
several groups: an operation proposed or approved, a restriction, an intent created and a
simulated payment.
-/

set_option linter.dupNamespace false

namespace Maru.Registration

variable {s s' : Store} {w : Surroundings} {now : Int}

theorem withAdmissions_eq_ok {α : Type} {result : Except RegistrationError (Admissions × α)}
    {f : α → Answer} {answer : Answer} (h : s.withAdmissions result f = .ok (s', answer)) :
    ∃ x, result = .ok (s'.admissions, x) ∧ s' = { s with admissions := s'.admissions } := by
  simp only [Store.withAdmissions, bind_eq_ok, pure_eq_ok, Prod.mk.injEq] at h
  obtain ⟨⟨a, x⟩, hr, rfl, -⟩ := h
  exact ⟨x, hr, rfl⟩

theorem withPayments_eq_ok {result : Except RegistrationError Payments} {answer : Answer}
    (h : s.withPayments result = .ok (s', answer)) :
    result = .ok s'.payments ∧ s' = { s with payments := s'.payments } := by
  simp only [Store.withPayments, bind_eq_ok, pure_eq_ok, Prod.mk.injEq] at h
  obtain ⟨p, hr, rfl, -⟩ := h
  exact ⟨hr, rfl⟩

theorem answered_eq_ok {α : Type} {result : Except RegistrationError (Store × α)} {f : α → Answer}
    {answer : Answer} (h : answered result f = .ok (s', answer)) : ∃ x, result = .ok (s', x) := by
  simp only [answered, bind_eq_ok, pure_eq_ok, Prod.mk.injEq] at h
  obtain ⟨⟨s, x⟩, hr, rfl, -⟩ := h
  exact ⟨x, hr⟩

/-! ## Operations -/

theorem createOperation_eq_ok {f f' : Finance} {o : FinancialOperation} (h : f.createOperation o = .ok f') :
    ∃ t, f.operations.insert? o = some t ∧ f' = { f with operations := t } := by
  simp only [Finance.createOperation, bind_eq_ok, pure_eq_ok, getOr_eq_ok] at h
  obtain ⟨t, ht, rfl⟩ := h
  exact ⟨t, ht, rfl⟩

/-- A proposal writes an operation on a registration. -/
theorem proposeFinancialOperation_eq_ok {x : OperationRequest} {operationId : Uuid}
    {o : FinancialOperation} (h : proposeFinancialOperation s w now x operationId = .ok (s', o)) :
    ∃ r ∈ s.admissions.registrations, o.registrationId = r.id ∧ o.organizationId = r.organizationId ∧
      o.status = .proposed ∧ ∃ f, s.finance.createOperation o = .ok f ∧ s' = { s with finance := f } := by
  simp only [proposeFinancialOperation, bind_eq_ok] at h
  obtain ⟨_, -, _, -, _, -, _, -, r, hr, h⟩ := h
  have hr := (Table.find?_eq_some_and (getOr_eq_ok.mp hr)).1
  split at h <;> simp only [bind_eq_ok, pure_eq_ok, Prod.mk.injEq] at h <;>
    obtain ⟨_, -, f, hf, rfl, rfl⟩ := h <;> exact ⟨r, hr, rfl, rfl, rfl, f, hf, rfl⟩

/-- An approval cancels a registration and offers its place, or sends a refund to its provider. -/
theorem approveFinancialOperation_eq_ok {organizationId editionId operationId actorId : Uuid}
    {reason : String} {correlationId : Uuid} {o' : FinancialOperation}
    (h : approveFinancialOperation s w now organizationId editionId operationId actorId reason correlationId =
      .ok (s', o')) :
    ∃ o ∈ s.finance.operations, o.id = operationId ∧ o.status = .proposed ∧
      o'.id = o.id ∧ o'.registrationId = o.registrationId ∧ o'.organizationId = o.organizationId ∧
      o'.kind = o.kind ∧ o'.amountMinor = o.amountMinor ∧ s'.finance = s.finance.saveOperation o' ∧
      s'.payments = s.payments ∧
      ((o.kind = .cancel ∧ o'.status = .completed ∧ ∃ r ∈ s.admissions.registrations, ∃ p a promoted,
          s.admissions.productOf r = .ok p ∧
          s.admissions.cancelRegistration w r now "registration_cancelled" actorId correlationId = .ok a ∧
          a.promoteWaitlistForProduct w p now correlationId = .ok (s'.admissions, promoted)) ∨
        (o.kind = .refund ∧ o'.status = .providerPending ∧ s'.admissions = s.admissions)) := by
  simp only [approveFinancialOperation, bind_eq_ok, getOr_eq_ok, require_eq_ok] at h
  obtain ⟨_, -, _, -, o, ho, _, proposed, _, supported, _, -, r, hr, h⟩ := h
  obtain ⟨ho, hop⟩ := Table.find?_eq_some_and ho
  split at h
  · rename_i cancel
    simp only [bind_eq_ok, pure_eq_ok, Prod.mk.injEq] at h
    obtain ⟨_, -, p, hp, a, ha, ⟨a', promoted⟩, ha', rfl, rfl⟩ := h
    exact ⟨o, ho, hop.1, proposed, rfl, rfl, rfl, rfl, rfl, rfl, rfl,
      .inl ⟨cancel, rfl, r, (Table.get?_eq_some.mp hr).1, p, a, promoted, hp, ha, ha'⟩⟩
  · rename_i cancel
    have refund : o.kind = .refund := by simpa [supportedFinancialOperationKinds, cancel] using supported
    simp only [bind_eq_ok, pure_eq_ok, Prod.mk.injEq] at h
    obtain ⟨_, -, rfl, rfl⟩ := h
    exact ⟨o, ho, hop.1, proposed, rfl, rfl, rfl, rfl, rfl, rfl, rfl, .inr ⟨refund, rfl, rfl⟩⟩

/-! ## Restrictions -/

/-- What a restriction does to one registration. -/
theorem restrictRegistration_eq_ok {actorId : Uuid} {r : Registration} {operationId correlationId : Uuid}
    (h : restrictRegistration s w now actorId r operationId correlationId = .ok s') :
    (s' = s ∨ s' = { s with admissions := s.admissions.revokeEntitlements r.id }) ∨
      ∃ p a f promoted, s.admissions.productOf r = .ok p ∧
        s.admissions.cancelRegistration w r now "registration_restricted" actorId correlationId = .ok a ∧
        s.finance.reviewRefund r actorId now operationId = .ok f ∧
        a.promoteWaitlistForProduct w p now correlationId = .ok (s'.admissions, promoted) ∧
        s' = { s with admissions := s'.admissions, finance := f } := by
  unfold restrictRegistration at h
  split at h
  · split at h <;> cases h
    · exact .inl (.inr rfl)
    · exact .inl (.inl rfl)
  · simp only [bind_eq_ok, pure_eq_ok] at h
    obtain ⟨p, hp, a, ha, f, hf, ⟨a', promoted⟩, ha', rfl⟩ := h
    exact .inr ⟨p, a, f, promoted, hp, ha, hf, ha', rfl⟩

/-- What every restricted registration keeps, the restriction keeps. -/
theorem restrictEach_induct {I : Store → Prop} {actorId : Uuid} {operationId : Uuid → Uuid} {correlationId : Uuid}
    (keep : ∀ (s s' : Store) (id : Uuid) (r : Registration), r ∈ s.admissions.registrations → I s →
      restrictRegistration s w now actorId r (operationId id) correlationId = .ok s' → I s')
    (ids : List Uuid) {s : Store} (hs : I s)
    (h : restrictEach w now actorId operationId correlationId ids s = .ok s') : I s' := by
  induction ids generalizing s with
  | nil =>
    cases h
    exact hs
  | cons id ids ih =>
    simp only [restrictEach, bind_eq_ok, getOr_eq_ok] at h
    obtain ⟨r, hr, s₁, h₁, h⟩ := h
    exact ih (keep s s₁ id r (Table.get?_eq_some.mp hr).1 hs h₁) h

/-! ## Payments -/

/-- The reservation whose registration or replacement is paid for. -/
theorem paymentTerms_eq_ok {r : Registration} {replacement : Option AdmissionTierReplacement}
    {terms : PaymentTerms} (h : paymentTerms r replacement = .ok terms) :
    (terms.replacementId = none ∧ r.state = .paymentPending) ∨
      ∃ x, replacement = some x ∧ terms.replacementId = some x.id ∧
        (r.state = .confirmed ∨ r.state = .checkedIn) ∧ r.productId = x.sourceProductId := by
  unfold paymentTerms at h
  split at h
  · rename_i x hx
    cases h
    rw [Option.filter_eq_some_iff] at hx
    simp only [decide_eq_true_eq] at hx
    exact .inr ⟨x, hx.1, rfl, hx.2.1, hx.2.2⟩
  · simp only [bind_eq_ok, require_eq_ok, pure_eq_ok] at h
    obtain ⟨_, pending, rfl⟩ := h
    exact .inl ⟨rfl, pending⟩

/-- A new intent names the registration, the provider account and the replacement it is for. -/
theorem createPaymentIntent_eq_ok {registrationId providerAccountId idempotencyKey intentId : Uuid}
    {i : PaymentIntent}
    (h : createPaymentIntent s w now registrationId providerAccountId idempotencyKey intentId = .ok (s', i)) :
    s' = s ∨ ∃ r ∈ s.admissions.registrations, ∃ provider ∈ s.payments.providers, ∃ terms t,
      provider.organizationId = r.organizationId ∧
      paymentTerms r (s.admissions.replacements.rows.find? fun x =>
        x.registrationId = r.id ∧ x.status = .paymentPending ∧ now < x.paymentDueAt) = .ok terms ∧
      i.registrationId = r.id ∧ i.providerAccountId = provider.id ∧ i.tierReplacementId = terms.replacementId ∧
      i.status = .creating ∧ i.providerReference = "" ∧ s.payments.intents.insert? i = some t ∧
      s' = { s with payments := { s.payments with intents := t } } := by
  simp only [createPaymentIntent, bind_eq_ok, getOr_eq_ok] at h
  obtain ⟨r, hr, provider, hprovider, h⟩ := h
  obtain ⟨hr, -⟩ := Table.find?_eq_some_and hr
  obtain ⟨hprovider, org⟩ := Table.find?_eq_some_and hprovider
  split at h
  · obtain rfl := store_of_answer h
    exact .inl rfl
  · simp only [bind_eq_ok, pure_eq_ok, getOr_eq_ok, Prod.mk.injEq] at h
    obtain ⟨terms, hterms, _, -, _, -, t, ht, rfl, rfl⟩ := h
    exact .inr ⟨r, hr, provider, hprovider, terms, t, org.2.1, hterms, rfl, rfl, rfl, rfl, rfl, ht, rfl⟩

/-- A simulated payment is a repeat, or completes what it pays for with its attempt. -/
theorem confirmDemoPayment_eq_ok {x : DemoPayment} {correlationId : Uuid}
    (h : confirmDemoPayment s w now x correlationId = .ok s') :
    s' = s ∨ ∃ r ∈ s.admissions.registrations, ∃ terms attempt p,
      paymentTerms r (s.admissions.replacements.rows.find? fun y =>
        y.registrationId = r.id ∧ y.status = .paymentPending) = .ok terms ∧
      s.payments.createAttempt attempt = .ok p ∧
      s.admissions.completePayment w now terms.replacementId r now correlationId = .ok s'.admissions ∧
      s' = { s with admissions := s'.admissions, payments := p } := by
  simp only [confirmDemoPayment, bind_eq_ok, getOr_eq_ok] at h
  obtain ⟨_, -, _, -, r, hr, _, -, h⟩ := h
  split at h
  · simp only [bind_eq_ok, pure_eq_ok] at h
    obtain ⟨_, -, rfl⟩ := h
    exact .inl rfl
  · simp only [bind_eq_ok, pure_eq_ok] at h
    obtain ⟨terms, hterms, _, -, p, hp, a, ha, rfl⟩ := h
    exact .inr ⟨r, (Table.find?_eq_some_and hr).1, terms, _, p, hterms, hp, ha, rfl⟩

/-- The second half of a checkout writes the intent, with an exception where the provider failed. -/
theorem recordCheckout_eq_ok {p p' : Payments} {intentId : Uuid} {providerReference : Points}
    {expiresAt : ProviderTime} (h : recordCheckout p intentId providerReference expiresAt = .ok p') :
    ∃ i ∈ p.intents, i.id = intentId ∧ storable providerReference ∧
      p' = p.saveIntent { i with
        providerReference := providerReference.text, expiresAt := min i.expiresAt expiresAt.instant
        status := .checkoutReady, safeResultCode := "checkout_created" } := by
  simp only [recordCheckout, bind_eq_ok, pure_eq_ok, getOr_eq_ok, require_eq_ok] at h
  obtain ⟨i, hi, _, ⟨stored, -⟩, _, -, rfl⟩ := h
  obtain ⟨hi, hid⟩ := Table.get?_eq_some.mp hi
  exact ⟨i, hi, hid, stored, rfl⟩

theorem recordCheckoutFailure_eq_ok {p p' : Payments} {intentId exceptionId : Uuid} {code : String}
    (h : recordCheckoutFailure p now intentId exceptionId code = .ok p') :
    ∃ i ∈ p.intents, i.id = intentId ∧ ∃ x t, p.exceptions.insert? x = some t ∧
      p' = { p.saveIntent { i with
        status := .uncertain, safeResultCode := orElse code "provider_unavailable" } with exceptions := t } := by
  simp only [recordCheckoutFailure, Payments.createException, bind_eq_ok, pure_eq_ok, getOr_eq_ok] at h
  obtain ⟨i, hi, t, ht, rfl⟩ := h
  obtain ⟨hi, hid⟩ := Table.get?_eq_some.mp hi
  exact ⟨i, hi, hid, _, t, ht, rfl⟩

/-- A resolution writes the exception alone. -/
theorem resolvePaymentException_eq_ok {p p' : Payments}
    {actorId organizationId editionId exceptionId : Uuid} {reason : String}
    (h : resolvePaymentException p w now actorId organizationId editionId exceptionId reason = .ok p') :
    ∃ t, p' = { p with exceptions := t } := by
  simp only [resolvePaymentException, bind_eq_ok, getOr_eq_ok] at h
  obtain ⟨_, -, _, -, x, -, h⟩ := h
  split at h <;> cases h
  · exact ⟨p.exceptions, rfl⟩
  · exact ⟨_, rfl⟩

end Maru.Registration
