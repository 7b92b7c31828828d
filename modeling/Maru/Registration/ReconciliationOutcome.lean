import Maru.Registration.Consistency
import Maru.Registration.PaymentSuccess

/-!
# When a delivery commits

In a reachable store the reconciliation of an event that matches an intent commits exactly when its
text and its time can be stored, the rows it is about can be read, its identifier is not of other
content, and what its branch writes can be written (`Reconcilable`): an upgrade whose registration
has changed since its intent was created is not, and is not put into the exception queue either.
-/

namespace Maru.Registration

variable {P : Primitives} {s s' : Store} {a a' : Admissions} {w : Surroundings} {now : Int}
  {provider : PaymentProviderAccount} {d : Delivery} {intent : PaymentIntent} {r : Registration}
  {replacement : Option AdmissionTierReplacement} {done : Reconciled}

/-! ## Conditions -/

/-- The identifier drawn for an exception is new. -/
def ExceptionIsNew (p : Payments) (d : Delivery) : Prop := p.exceptions.get? d.exceptionId = none

/-- An attempt of the provider is not written under the event's identifier yet. -/
structure AttemptIsNew (P : Primitives) (p : Payments) (provider : PaymentProviderAccount) (d : Delivery) : Prop where
  length : d.remoteEventId.length ≤ 120
  reference : ∀ x ∈ p.attempts, x.provider = provider.code → x.providerReference ≠ d.remoteEventId
  key : ∀ x ∈ p.attempts, x.provider = provider.code →
    x.idempotencyKey ≠ P.uuid5 paymentEventNamespace (provider.id.text ++ ":" ++ d.remoteEventId)

/-- The registration's edition is open and its account takes part in conventions. -/
structure Writable (w : Surroundings) (r : Registration) : Prop where
  subject : w.conventionSubject r.accountId
  edition : w.editionOpen r.editionId

/-- The registration still has what its replacement replaces, and does not have the rest. -/
structure Replaceable (a : Admissions) (now : Int) (r : Registration) (x : AdmissionTierReplacement) : Prop where
  held : r.state = .confirmed ∨ r.state = .checkedIn
  readable : ∀ e ∈ a.entitlements, e.registrationId = r.id → e.active → instantReadable e.grantedAt
  source : ∃ e ∈ a.entitlements, e.registrationId = r.id ∧ e.active ∧ e.code = x.sourceEntitlementCode
  target : x.targetEntitlementCode = x.sourceEntitlementCode ∨
    ∀ e ∈ a.entitlements, e.registrationId = r.id → e.code ≠ x.targetEntitlementCode
  due : now < x.paymentDueAt

/-- A refund of the event's amount and currency was approved and waits for its provider. -/
def RefundAwaits (f : Finance) (registrationId : Uuid) (event : VerifiedPaymentEvent) : Prop :=
  ∃ o ∈ f.operations, o.registrationId = registrationId ∧ o.kind = .refund ∧
    o.status = .providerPending ∧ o.amountMinor = event.amountMinor ∧ o.currency = event.currency

instance (f : Finance) (registrationId : Uuid) (event : VerifiedPaymentEvent) :
    Decidable (RefundAwaits f registrationId event) :=
  inferInstanceAs (Decidable (∃ o ∈ f.operations.rows, o.registrationId = registrationId ∧ o.kind = .refund ∧
    o.status = .providerPending ∧ o.amountMinor = event.amountMinor ∧ o.currency = event.currency))

/-- The times of the rows that the reconciliation reads can be read. -/
def RowsReadable (s : Store) (intent : PaymentIntent) (r : Registration) : Prop :=
  intent.readable ∧ r.readable ∧
    (intent.tierReplacementId.bind s.admissions.replacements.get?).all AdmissionTierReplacement.readable

/-- The event disputes the payment, or a part of it. -/
def Disputes (d : Delivery) (intent : PaymentIntent) : Prop :=
  (d.event.eventType = "payment.disputed" ∨ d.event.eventType = "payment.chargeback") ∧
    d.event.currency = intent.currency ∧ d.event.amountMinor ≤ intent.amountMinor

instance (d : Delivery) (intent : PaymentIntent) : Decidable (Disputes d intent) :=
  inferInstanceAs (Decidable (_ ∧ _))

/-- What the branch of a new event writes can be written. -/
def BranchCommits (P : Primitives) (s : Store) (w : Surroundings) (now : Int)
    (provider : PaymentProviderAccount) (d : Delivery) (intent : PaymentIntent) (r : Registration)
    (replacement : Option AdmissionTierReplacement) : Prop :=
  if d.event.eventType = "payment.refunded" ∧ d.event.currency = intent.currency ∧
      RefundAwaits s.finance r.id d.event then (d.timed : Prop)
  else if Disputes d intent then d.timed ∧ ExceptionIsNew s.payments d
  else if notAboutPayment d.event.eventType ∨ d.event.amountMinor ≠ intent.amountMinor ∨
      d.event.currency ≠ intent.currency then ExceptionIsNew s.payments d
  else if d.event.eventType = "payment.succeeded" then d.timed ∧
    if paymentIsCurrent r replacement d.occurredAt then AttemptIsNew P s.payments provider d ∧
      Writable w r ∧ ∀ x, replacement = some x → Replaceable s.admissions now r x
    else ExceptionIsNew s.payments d
  else if d.event.eventType = "payment.failed" ∨ d.event.eventType = "payment.abandoned" then
    d.timed ∧ AttemptIsNew P s.payments provider d
  else ExceptionIsNew s.payments d

/-- The delivery is a repeat, or new and its branch can be written. -/
def Reconcilable (P : Primitives) (s : Store) (w : Surroundings) (now : Int) (d : Delivery)
    (intent : PaymentIntent) : Prop :=
  storable d.event.remoteEventId ∧
    match s.payments.receipts.get? (d.providerAccountId, d.remoteEventId) with
    | some receipt => receipt.payloadDigest = d.payloadDigest
    | none => d.remoteEventId ≠ "" ∧ d.remoteEventId.length ≤ 160 ∧
      ∀ provider r, s.payments.providers.get? d.providerAccountId = some provider →
        s.admissions.registrations.get? intent.registrationId = some r →
        RowsReadable s intent r ∧
          BranchCommits P s w now provider d intent r (intent.tierReplacementId.bind s.admissions.replacements.get?)

/-! ## Single writes -/

theorem toException_succeeds_iff {kind : ExceptionKind} {safeSummary code : String} :
    (∃ done, toException s now provider d intent kind safeSummary code = .ok done) ↔ ExceptionIsNew s.payments d := by
  simp only [toException_eq_ok]
  constructor
  · rintro ⟨_, t, ht, -⟩
    exact Table.exists_insert?_eq_some.mp ⟨t, ht⟩
  · intro fresh
    obtain ⟨t, ht⟩ := Table.exists_insert?_eq_some
      (r := d.exception provider (some intent) kind safeSummary now).mpr fresh
    exact ⟨_, t, ht, rfl⟩

theorem createEntry_succeeds {f : Finance} {e : LedgerEntry} (length : e.providerReference.length ≤ 160)
    (org : provider.organizationId = e.organizationId) (fresh : f.ledger.get? e.key = none) :
    ∃ f', f.createEntry provider e = .ok f' := by
  obtain ⟨t, ht⟩ := Table.exists_insert?_eq_some.mpr fresh
  exact ⟨_, createEntry_eq_ok.mpr ⟨length, org, t, ht, rfl⟩⟩

theorem createAttempt_succeeds_iff {p : Payments} (status : AttemptStatus) (code : String)
    (written : d.remoteEventId ≠ "") :
    (∃ p', p.createAttempt (eventAttempt P provider d r status code) = .ok p') ↔ AttemptIsNew P p provider d := by
  simp only [createAttempt_eq_ok]
  constructor
  · rintro ⟨_, -, length, key, t, ht, -⟩
    have fresh := Table.get?_eq_none.mp (Table.exists_insert?_eq_some.mp ⟨t, ht⟩)
    refine ⟨length, fun x hx e e' => fresh x hx (Prod.ext e e'), fun x hx e e' => ?_⟩
    exact (List.any_eq_false.mp key) x hx (by simpa using ⟨e, e'⟩)
  · intro new
    obtain ⟨t, ht⟩ := Table.exists_insert?_eq_some (r := eventAttempt P provider d r status code).mpr
      (Table.get?_eq_none.mpr fun x hx (e : x.key = _) => new.reference x hx (Prod.ext_iff.mp e).1 (Prod.ext_iff.mp e).2)
    refine ⟨_, written, new.length, ?_, t, ht, rfl⟩
    exact List.any_eq_false.mpr fun x hx h => by
      simp only [decide_eq_true_eq] at h
      exact new.key x hx h.1 h.2

theorem saveRegistration_writable (h : a.saveRegistration w now r = .ok a') : Writable w r := by
  simp only [Admissions.saveRegistration, Admissions.cleanRegistration,
    Admissions.guardRegistration, bind_eq_ok, require_eq_ok] at h
  obtain ⟨_, ⟨_, subject, -⟩, _, -, _, ⟨_, edition, -⟩, -⟩ := h
  exact ⟨subject, edition⟩

/-- A change that the trigger lets through is saved. -/
theorem saveRegistration_succeeds {old : Registration} (hr : old ∈ a.registrations)
    (hid : old.id = r.id) (writable : Writable w r) (inScope : Scoped a r)
    (guarded : a.upgrades now old r ∨ (old.state.mayBecome r.state ∧ r.aggregateVersion = old.aggregateVersion + 1 ∧
      requireEvidence r = .ok ())) :
    a.saveRegistration w now r = .ok { a with registrations := a.registrations.save r } := by
  simp only [Admissions.saveRegistration, Admissions.cleanRegistration,
    Admissions.guardRegistration, bind_eq_ok, require_eq_ok, getOr_eq_ok, pure_eq_ok]
  refine ⟨(), ⟨(), writable.subject, ?_⟩, old, Table.get?_eq_some.mpr ⟨hr, hid⟩, (), ⟨(), writable.edition, ?_⟩, trivial⟩
  · obtain ⟨p, hp, hpid, hc⟩ := inScope
    exact List.any_eq_true.mpr ⟨p, hp, by simpa using ⟨hpid, hc⟩⟩
  · split
    · rfl
    · rename_i h
      rw [Bool.not_eq_true, Bool.or_eq_false_iff] at h
      rcases guarded with upgrades | ⟨becomes, version, evidence⟩
      · rw [upgrades] at h
        exact Bool.noConfusion h.2
      · simp only [bind_eq_ok, require_eq_ok]
        exact ⟨(), ⟨becomes, version⟩, evidence⟩

/-! ## Confirmation -/

/-- A pending registration is confirmed by its payment exactly when it can be written. -/
theorem confirmPaid_succeeds_iff (ha : Consistent a) (hr : r ∈ a.registrations)
    (pending : r.state = .paymentPending) {paidAt : Int} {correlationId : Uuid} :
    (∃ a', a.confirmPaid w now r paidAt correlationId = .ok a') ↔ Writable w r := by
  simp only [Admissions.confirmPaid, bind_eq_ok, pure_eq_ok]
  constructor
  · rintro ⟨_, a₁, h₁, -⟩
    have writable := saveRegistration_writable h₁
    exact ⟨writable.subject, writable.edition⟩
  · intro writable
    have saved := @saveRegistration_succeeds a w now (r.paid paidAt) r hr rfl ⟨writable.subject,
      writable.edition⟩ (ha.inScope r hr) (.inr ⟨by rw [pending]; rfl, rfl, rfl⟩)
    obtain ⟨p, hp, hpid, -⟩ := ha.inScope r hr
    -- A registration that awaits payment has no entitlement of its product.
    have fresh : a.entitlements.get? (r.id, p.entitlementCode) = none := by
      refine Table.get?_eq_none.mpr fun e he key => ?_
      obtain ⟨r', hr', hid, early⟩ := ha.entitled e he
      obtain rfl := Table.eq_of_key hr' hr (hid.trans (Prod.ext_iff.mp key).1)
      rw [pending] at early
      cases early
    obtain ⟨t, ht⟩ := Table.exists_insert?_eq_some
      (r := (⟨r.id, p.entitlementCode, p.entitlementName, true, paidAt⟩ : Entitlement)).mpr fresh
    refine ⟨_, _, saved, { a with
      registrations := a.registrations.save (r.paid paidAt), entitlements := t }, ?_, rfl⟩
    simp only [Admissions.grantProductEntitlement, Admissions.productOf,
      Admissions.createEntitlement, bind_eq_ok, getOr_eq_ok, pure_eq_ok]
    exact ⟨p, Table.get?_eq_some.mpr ⟨hp, hpid⟩, t, ht, rfl⟩

theorem exchangeEntitlement_succeeds_iff {x : AdmissionTierReplacement} {source : Entitlement}
    {grantedAt : Int} (hsource : source.code = x.sourceEntitlementCode) :
    (∃ a', a.exchangeEntitlement r x source grantedAt = .ok a') ↔
      x.targetEntitlementCode = x.sourceEntitlementCode ∨
        ∀ e ∈ a.entitlements, e.registrationId = r.id → e.code ≠ x.targetEntitlementCode := by
  have keys : ∀ k, (a.entitlements.save { source with active := false }).get? k = none ↔
      a.entitlements.get? k = none := fun k => by rw [Table.get?_save, Option.map_eq_none_iff]
  unfold Admissions.exchangeEntitlement
  split
  · rename_i differs
    rw [hsource] at differs
    simp only [Admissions.createEntitlement, bind_eq_ok, getOr_eq_ok, pure_eq_ok]
    constructor
    · rintro ⟨_, t, ht, -⟩
      have fresh := Table.get?_eq_none.mp ((keys _).mp (Table.exists_insert?_eq_some.mp ⟨t, ht⟩))
      exact .inr fun e he hid hcode => fresh e he (Prod.ext hid hcode)
    · intro free
      obtain ⟨t, ht⟩ := Table.exists_insert?_eq_some
        (t := a.entitlements.save { source with active := false })
        (r := (⟨r.id, x.targetEntitlementCode, x.targetEntitlementNameSnapshot, true, grantedAt⟩ : Entitlement)).mpr
        ((keys _).mpr (Table.get?_eq_none.mpr fun e he key =>
          (free.resolve_left differs) e he (Prod.ext_iff.mp key).1 (Prod.ext_iff.mp key).2))
      exact ⟨_, t, ht, rfl⟩
  · rename_i same
    rw [hsource, not_not] at same
    exact ⟨fun _ => .inl same, fun _ => ⟨a, rfl⟩⟩

/-- A current replacement is completed exactly when its registration is as it was reserved. -/
theorem complete_succeeds_iff (ha : Consistent a) {x : AdmissionTierReplacement} (hx : x ∈ a.replacements)
    (pending : x.status = .paymentPending) (hr : r ∈ a.registrations) (about : x.registrationId = r.id)
    (source : r.productId = x.sourceProductId) {completedAt : Int} (current : completedAt < x.paymentDueAt)
    {correlationId : Uuid} :
    (∃ a', completeAdmissionTierReplacement a w now x.id correlationId completedAt = .ok a') ↔
      Writable w r ∧ Replaceable a now r x := by
  have found : a.replacements.get? x.id = some x := Table.get?_eq_some.mpr ⟨hx, rfl⟩
  have registered : a.registrations.get? x.registrationId = some r := Table.get?_eq_some.mpr ⟨hr, about.symm⟩
  simp only [completeAdmissionTierReplacement, bind_eq_ok, require_eq_ok, getOr_eq_ok, pure_eq_ok,
    found, Option.some.injEq]
  constructor
  · rintro ⟨_, _, rfl, _, -, _, -, r', hr', _, ⟨-, held⟩, _, readable, e, he, a₁, h₁, a₂, h₂, -⟩
    obtain rfl := Option.some.inj (registered.symm.trans hr')
    obtain ⟨hem, entitled⟩ := Table.find?_eq_some_and he
    have writable := saveRegistration_writable h₁
    obtain ⟨-, ⟨old, hold, hid, guarded⟩, rfl⟩ := saveRegistration_eq_ok h₁
    obtain rfl := Table.eq_of_key hold hr hid
    refine ⟨⟨writable.subject, writable.edition⟩, held, readable, ⟨e, hem, entitled⟩, ?_, ?_⟩
    · have target := (exchangeEntitlement_succeeds_iff entitled.2.2).mp ⟨a₂, h₂⟩
      exact target
    · -- The trigger asks for a pending replacement that is not due, and this one is the only one.
      have upgrades : a.upgrades now old (old.moved x) := by
        rcases guarded with h | h | ⟨h, -⟩
        · simp only [extends_, decide_eq_true_eq] at h
          rcases held with e | e <;> rw [e] at h <;> cases h.1
        · exact h
        · rcases held with e | e <;> simp [Registration.moved, e, State.mayBecome] at h
      simp only [Admissions.upgrades, decide_eq_true_eq, List.any_eq_true] at upgrades
      obtain ⟨-, -, -, -, y, hy, hyr, hyp, -, -, -, -, due⟩ := upgrades
      obtain rfl := ha.single x hx y hy pending hyp (about.trans hyr.symm)
      exact due
  · rintro ⟨writable, replaceable⟩
    obtain ⟨e, he, about', active, code⟩ := replaceable.source
    obtain ⟨other, r', hr', hid, p, hp, hpid, hc⟩ := ha.held x hx
    obtain rfl := Table.eq_of_key hr' hr (hid.trans about)
    cases hsource : a.entitlements.rows.find? fun e =>
        e.registrationId = r'.id ∧ e.active ∧ e.code = x.sourceEntitlementCode with
    | none => exact absurd (List.find?_eq_none.mp hsource e he) (by simpa using ⟨about', active, code⟩)
    | some e' =>
      obtain ⟨-, found'⟩ := Table.find?_eq_some_and hsource
      have upgrades : a.upgrades now r' (r'.moved x) := by
        simp only [Admissions.upgrades, decide_eq_true_eq, List.any_eq_true]
        exact ⟨replaceable.held, rfl, rfl, fun e => other (e.trans source), x, hx, about, pending, source.symm, rfl, rfl,
          rfl, replaceable.due⟩
      have saved := @saveRegistration_succeeds a w now (r'.moved x) r' hr'
        rfl ⟨writable.subject, writable.edition⟩ ⟨p, hp, hpid, hc⟩ (.inl upgrades)
      obtain ⟨a₂, exchanged⟩ := (exchangeEntitlement_succeeds_iff (a := { a with
        registrations := a.registrations.save (r'.moved x) }) (r := r'.moved x)
        found'.2.2).mpr replaceable.target
      exact ⟨_, x, rfl, (), pending, (), current, r', registered, (), ⟨source, replaceable.held⟩,
        (), replaceable.readable, e', hsource, _, saved, a₂, exchanged, rfl⟩

/-! ## Branches -/

/-- A new event of an intent: its provider is of the registration's organization, its
identifier can be stored, and the ledger has no entry of it. -/
structure NewEvent (s : Store) (provider : PaymentProviderAccount) (d : Delivery) (r : Registration) : Prop where
  organization : provider.organizationId = r.organizationId
  written : d.remoteEventId ≠ ""
  length : d.remoteEventId.length ≤ 160
  unposted : ∀ kind, s.finance.ledger.get? (provider.id, d.remoteEventId, kind) = none

theorem Linked.newEvent (hs : Linked s) (hprovider : provider ∈ s.payments.providers)
    (hi : intent ∈ s.payments.intents) (account : intent.providerAccountId = provider.id)
    (hr : r ∈ s.admissions.registrations) (about : r.id = intent.registrationId)
    (fresh : s.payments.receipts.get? (provider.id, d.remoteEventId) = none)
    (written : d.remoteEventId ≠ "") (length : d.remoteEventId.length ≤ 160) :
    NewEvent s provider d r := by
  obtain ⟨r', hr', hid, p, hp, hpid, org⟩ := (hs.intents intent hi).registration
  obtain rfl := Table.eq_of_key hr' hr (hid.trans about.symm)
  obtain rfl := Table.eq_of_key hp hprovider (hpid.trans account)
  refine ⟨org, written, length, fun kind => Table.get?_eq_none.mpr fun e he key => ?_⟩
  obtain ⟨x, hx, xkey⟩ := hs.received e he
  obtain ⟨eaccount, ereference⟩ := Prod.ext_iff.mp key
  refine Table.get?_eq_none.mp fresh x hx (xkey.trans (Prod.ext eaccount ?_))
  exact (Prod.ext_iff.mp ereference).1

theorem pendingRefund_eq_none_iff {f : Finance} {registrationId : Uuid} {event : VerifiedPaymentEvent} :
    f.pendingRefund registrationId event = none ↔ ¬ RefundAwaits f registrationId event := by
  simp only [Finance.pendingRefund, List.argmin_eq_none, List.filter_eq_nil_iff, decide_eq_true_eq,
    RefundAwaits, not_exists, not_and, Table.mem_def]

theorem reconcileRefund_succeeds_iff (hs : Linked s) (hr : r ∈ s.admissions.registrations)
    (new : NewEvent s provider d r) :
    (∃ done, reconcileRefund s now provider d intent r = .ok done) ↔
      if d.event.currency = intent.currency ∧ RefundAwaits s.finance r.id d.event then (d.timed : Prop)
      else ExceptionIsNew s.payments d := by
  unfold reconcileRefund
  split
  · rename_i differs
    rw [toException_succeeds_iff, if_neg fun h => differs h.1]
  rename_i same
  rw [not_not] at same
  split
  · rename_i none
    rw [toException_succeeds_iff, if_neg fun h => pendingRefund_eq_none_iff.mp none h.2]
  · rename_i o ho
    obtain ⟨mem, about, kind, pending, amount, currency⟩ := pendingRefund_eq_some ho
    obtain ⟨r', hr', hid, org⟩ := hs.operations o mem
    obtain rfl := Table.eq_of_key hr' hr (hid.trans about)
    obtain ⟨f, hf⟩ := createEntry_succeeds
      (e := o.refundEntry provider d.remoteEventId d.occurredAt) new.length (new.organization.trans org)
      (new.unposted .refund)
    have refunded := (recordProviderRefund_eq_ok mem pending).mpr ⟨f, hf, rfl⟩
    rw [if_pos ⟨same, o, mem, about, kind, pending, amount, currency⟩]
    simp only [bind_eq_ok, require_eq_ok, pure_eq_ok]
    constructor
    · rintro ⟨_, _, _, _, timed, _⟩
      exact timed
    · intro timed
      exact ⟨_, _, refunded, (), timed, rfl⟩

theorem reconcileDispute_succeeds_iff (new : NewEvent s provider d r) :
    (∃ done, reconcileDispute s now provider d intent r = .ok done) ↔
      (d.event.currency = intent.currency ∧ d.event.amountMinor ≤ intent.amountMinor → d.timed) ∧
        ExceptionIsNew s.payments d := by
  unfold reconcileDispute
  split
  · rename_i differs
    rw [toException_succeeds_iff]
    exact ⟨fun fresh => ⟨fun h => absurd differs (by simpa using h), fresh⟩, And.right⟩
  · rename_i same
    simp only [not_or, not_not, Nat.not_lt] at same
    simp only [bind_eq_ok, require_eq_ok]
    constructor
    · rintro ⟨done, f, -, _, timed, h⟩
      have fresh := toException_succeeds_iff.mp ⟨done, h⟩
      exact ⟨fun _ => timed, fresh⟩
    · rintro ⟨timed, fresh⟩
      obtain ⟨f, hf⟩ := createEntry_succeeds (f := s.finance) (e :=
        { registrationId := r.id, operationId := none, organizationId := r.organizationId
          providerAccountId := provider.id
          kind := if d.event.eventType = "payment.chargeback" then .chargeback else .dispute
          direction := .outflow, amountMinor := d.event.amountMinor, currency := d.event.currency
          occurredAt := d.occurredAt, providerReference := d.remoteEventId })
        new.length new.organization (new.unposted _)
      obtain ⟨done, h⟩ := toException_succeeds_iff (s := { s with finance := f }).mpr fresh
      exact ⟨done, f, hf, (), timed same, h⟩

theorem recordProviderPayment_succeeds (new : NewEvent s provider d r) :
    ∃ f, recordProviderPayment s.finance r provider d.remoteEventId d.event.amountMinor
      d.event.currency d.occurredAt = .ok f := by
  unfold recordProviderPayment
  rw [new.unposted .payment]
  exact createEntry_succeeds new.length new.organization (new.unposted .payment)

/-- The replacement of an intent is its registration's. -/
theorem Linked.replacementOf (hs : Linked s) (hi : intent ∈ s.payments.intents) {x : AdmissionTierReplacement}
    (hx : intent.tierReplacementId.bind s.admissions.replacements.get? = some x) :
    x ∈ s.admissions.replacements ∧ intent.tierReplacementId = some x.id ∧ x.registrationId = intent.registrationId := by
  obtain ⟨id, hid, hget⟩ := Option.bind_eq_some_iff.mp hx
  obtain ⟨hx, rfl⟩ := Table.get?_eq_some.mp hget
  obtain ⟨y, hy, hyid, about⟩ := (hs.intents intent hi).replacement x.id hid
  obtain rfl := Table.eq_of_key hy hx hyid
  exact ⟨hx, hid, about⟩

theorem applyPayment_succeeds_iff (hs : Linked s) (hi : intent ∈ s.payments.intents)
    (hr : r ∈ s.admissions.registrations) (about : r.id = intent.registrationId) (new : NewEvent s provider d r)
    (hreplacement : intent.tierReplacementId.bind s.admissions.replacements.get? = replacement)
    (current : paymentIsCurrent r replacement d.occurredAt) :
    (∃ done, applyPayment P s w now provider d intent r replacement = .ok done) ↔
      d.timed ∧ AttemptIsNew P s.payments provider d ∧ Writable w r ∧
        ∀ x, replacement = some x → Replaceable s.admissions now r x := by
  have completes : (∃ a, s.admissions.completePayment w now (replacement.map AdmissionTierReplacement.id) r
      d.occurredAt d.correlationId = .ok a) ↔
        Writable w r ∧ ∀ x, replacement = some x → Replaceable s.admissions now r x := by
    cases replacement with
    | none =>
      simp only [paymentIsCurrent, decide_eq_true_eq] at current
      refine (confirmPaid_succeeds_iff hs.admissions hr current.1).trans ?_
      simp
    | some x =>
      simp only [paymentIsCurrent, decide_eq_true_eq] at current
      obtain ⟨hx, -, xabout⟩ := hs.replacementOf hi hreplacement
      refine (complete_succeeds_iff hs.admissions hx current.1 hr (xabout.trans about.symm) current.2.1
        current.2.2).trans ?_
      simp
  rw [← completes, ← createAttempt_succeeds_iff (r := r) .succeeded "provider_payment_succeeded" new.written]
  obtain ⟨f, hf⟩ := recordProviderPayment_succeeds new
  simp only [applyPayment, bind_eq_ok, require_eq_ok, pure_eq_ok]
  constructor
  · rintro ⟨_, p, hp, _, timed, _, -, a, ha, -⟩
    exact ⟨timed, ⟨p, hp⟩, a, ha⟩
  · rintro ⟨timed, ⟨p, hp⟩, a, ha⟩
    exact ⟨_, p, hp, (), timed, f, hf, a, ha, rfl⟩

theorem reconcileFailure_succeeds_iff (new : NewEvent s provider d r) :
    (∃ done, reconcileFailure P s provider d intent r = .ok done) ↔
      d.timed ∧ AttemptIsNew P s.payments provider d := by
  have same : ∀ i, AttemptIsNew P (s.payments.saveIntent i) provider d ↔ AttemptIsNew P s.payments provider d :=
    fun i => ⟨fun h => ⟨h.length, h.reference, h.key⟩, fun h => ⟨h.length, h.reference, h.key⟩⟩
  simp only [reconcileFailure, bind_eq_ok, require_eq_ok, pure_eq_ok]
  rw [← same { intent with
    status := if d.event.eventType = "payment.failed" then .failed else .abandoned
    safeResultCode := eventCode d.event.eventType, lastProviderEventAt := some d.occurredAt },
    ← createAttempt_succeeds_iff (r := r) .failed (eventCode d.event.eventType) new.written]
  constructor
  · rintro ⟨_, _, timed, p, hp, _⟩
    exact ⟨timed, p, hp⟩
  · rintro ⟨timed, p, hp⟩
    exact ⟨_, (), timed, p, hp, rfl⟩

/-- The branch of a new event goes through exactly when what it writes can be written. -/
theorem reconcileMatched_succeeds_iff (hs : Linked s) (hi : intent ∈ s.payments.intents)
    (hr : r ∈ s.admissions.registrations) (about : r.id = intent.registrationId) (new : NewEvent s provider d r)
    (hreplacement : intent.tierReplacementId.bind s.admissions.replacements.get? = replacement) :
    (∃ done, reconcileMatched P s w now provider d intent r replacement = .ok done) ↔
      BranchCommits P s w now provider d intent r replacement := by
  unfold reconcileMatched BranchCommits
  by_cases refunded : d.event.eventType = "payment.refunded"
  · have undisputed : ¬ Disputes d intent := by simp [Disputes, refunded]
    have about : notAboutPayment d.event.eventType ∨ d.event.amountMinor ≠ intent.amountMinor ∨
        d.event.currency ≠ intent.currency := .inl (by simp [notAboutPayment, refunded])
    rw [if_pos refunded, reconcileRefund_succeeds_iff hs hr new, if_neg undisputed, if_pos about]
    simp only [refunded, true_and]
  have unrefunded : ¬ (d.event.eventType = "payment.refunded" ∧ d.event.currency = intent.currency ∧
      RefundAwaits s.finance r.id d.event) := fun h => refunded h.1
  rw [if_neg refunded, if_neg unrefunded]
  by_cases disputed : d.event.eventType = "payment.disputed" ∨ d.event.eventType = "payment.chargeback"
  · rw [if_pos disputed, reconcileDispute_succeeds_iff new]
    by_cases within : d.event.currency = intent.currency ∧ d.event.amountMinor ≤ intent.amountMinor
    · rw [if_pos ⟨disputed, within⟩]
      simp only [within, and_self, true_implies]
    · rw [if_neg fun h => within h.2, if_pos (.inl (by simpa [notAboutPayment, refunded]))]
      simp only [within, false_implies, true_and]
  have other : notAboutPayment d.event.eventType = false := by simpa [notAboutPayment, refunded] using disputed
  rw [if_neg disputed, if_neg fun h : Disputes d intent => disputed h.1]
  by_cases amount : d.event.amountMinor = intent.amountMinor
  swap
  · rw [if_pos amount, if_pos (.inr (.inl amount))]
    exact toException_succeeds_iff
  rw [if_neg (not_not.mpr amount)]
  by_cases currency : d.event.currency = intent.currency
  swap
  · rw [if_pos currency, if_pos (.inr (.inr currency))]
    exact toException_succeeds_iff
  have same : ¬ (notAboutPayment d.event.eventType = true ∨ d.event.amountMinor ≠ intent.amountMinor ∨
      d.event.currency ≠ intent.currency) := by simp [other, amount, currency]
  rw [if_neg (not_not.mpr currency), if_neg same]
  by_cases succeeded : d.event.eventType = "payment.succeeded"
  · rw [if_pos succeeded, if_pos succeeded]
    unfold reconcileSuccess
    by_cases current : paymentIsCurrent r replacement d.occurredAt
    · rw [if_neg (not_not.mpr current), if_pos current]
      exact applyPayment_succeeds_iff hs hi hr about new hreplacement current
    · rw [if_pos current, if_neg current]
      simp only [bind_eq_ok, require_eq_ok]
      constructor
      · rintro ⟨done, _, timed, h⟩
        have fresh := toException_succeeds_iff.mp ⟨done, h⟩
        exact ⟨timed, fresh⟩
      · rintro ⟨timed, fresh⟩
        obtain ⟨done, h⟩ := toException_succeeds_iff (s := { s with payments := s.payments.saveIntent { intent with
          status := .late, safeResultCode := "late_success", lastProviderEventAt := some d.occurredAt } }).mpr fresh
        exact ⟨done, (), timed, h⟩
  rw [if_neg succeeded, if_neg succeeded]
  by_cases failed : d.event.eventType = "payment.failed" ∨ d.event.eventType = "payment.abandoned"
  · rw [if_pos failed, if_pos failed]
    exact reconcileFailure_succeeds_iff new
  · rw [if_neg failed, if_neg failed]
    exact toException_succeeds_iff

end Maru.Registration
