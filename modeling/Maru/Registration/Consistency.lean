import Maru.Registration.AdmissionWrites

/-!
# What hangs together

In every reachable store products are in their configurations, a replacement and an
entitlement belong to a registration, and a registration is confirmed by a provider once
(`Consistent`); intents and operations name registrations of their organization, and every
entry of the ledger has the receipt of its event (`Linked`).
-/

namespace Maru.Registration

/-- The registration has not been confirmed and may still be. -/
def State.early : State → Bool
  | guardianPending | waitlisted | paymentPending => true
  | confirmed | checkedIn | expired | cancelled => false

/-- The registration is confirmed, or was before it was cancelled. -/
def State.settled : State → Bool
  | confirmed | checkedIn | cancelled => true
  | guardianPending | waitlisted | paymentPending | expired => false

theorem State.not_early_of_mayBecome {s s' : State} (h : s.mayBecome s') (hs : s.early = false) :
    s'.early = false := by
  cases s <;> cases s' <;> revert h hs <;> decide

theorem State.settled_of_mayBecome {s s' : State} (h : s.mayBecome s') (hs : s.settled) : s'.settled := by
  cases s <;> cases s' <;> revert h hs <;> decide

/-- How often a provider's payment confirmed the registration. -/
def Admissions.confirmations (a : Admissions) (registrationId : Uuid) : Nat :=
  a.timeline.countP fun e => e.registrationId = registrationId ∧ e.kind = "payment_confirmed"

/-- The replacement is of a registration, and moves it to another product of its configuration. -/
def Held (a : Admissions) (x : AdmissionTierReplacement) : Prop :=
  x.targetProductId ≠ x.sourceProductId ∧ ∃ r ∈ a.registrations, r.id = x.registrationId ∧
    ∃ p ∈ a.products, p.id = x.targetProductId ∧ p.configurationId = r.configurationId

structure Consistent (a : Admissions) : Prop where
  inScope : ∀ r ∈ a.registrations, Scoped a r
  held : ∀ x ∈ a.replacements, Held a x
  entitled : ∀ e ∈ a.entitlements, ∃ r ∈ a.registrations, r.id = e.registrationId ∧ r.state.early = false
  single : ∀ x ∈ a.replacements, ∀ y ∈ a.replacements, x.status = .paymentPending →
    y.status = .paymentPending → x.registrationId = y.registrationId → x = y
  once : ∀ id, a.confirmations id ≤ 1
  settled : ∀ id, a.confirmations id ≠ 0 → ∃ r ∈ a.registrations, r.id = id ∧ r.state.settled

variable {a a' : Admissions}

/-! ## Registrations and replacements stay -/

theorem Write.registration (h : Write a a') {φ : Registration → Prop} (stable : ∀ r r',
    Updates r r' → φ r → φ r') : (∃ r ∈ a.registrations, φ r) → ∃ r ∈ a'.registrations, φ r := by
  cases h with
  | create _ inserted => exact Table.exists_insert? inserted
  | update mem updates => exact Table.exists_save mem updates.id.symm (stable _ _ updates)
  | pay mem updates => exact Table.exists_save mem updates.id.symm (stable _ _ updates)
  | _ => exact id

theorem Write.replacement (h : Write a a') {id registrationId : Uuid} :
    (∃ x ∈ a.replacements, x.id = id ∧ x.registrationId = registrationId) →
      ∃ x ∈ a'.replacements, x.id = id ∧ x.registrationId = registrationId := by
  cases h with
  | hold _ _ _ _ _ _ _ inserted => exact Table.exists_insert? inserted
  | release mem hid about => exact Table.exists_save mem hid.symm fun h => ⟨hid.trans h.1, about.trans h.2⟩
  | _ => exact fun h => h

theorem Write.products (h : Write a a') : a'.products = a.products := by
  cases h <;> rfl

/-- Nothing else that a write does takes a replacement from its registration. -/
theorem Write.heldBy (h : Write a a') {x : AdmissionTierReplacement} (hx : Held a x) : Held a' x := by
  obtain ⟨other, hr⟩ := hx
  refine ⟨other, h.registration (fun r r' updates => ?_) ?_⟩
  · rintro ⟨hid, p, hp, hpid, hc⟩
    exact ⟨updates.id.trans hid, p, hp, hpid, hc.trans updates.configuration.symm⟩
  · rw [h.products]
    exact hr

/-! ## Every write keeps what hangs together -/

theorem confirmations_append (a : Admissions) (e : TimelineEntry) (id : Uuid) :
    Admissions.confirmations { a with timeline := a.timeline ++ [e] } id =
      a.confirmations id + if e.registrationId = id ∧ e.kind = "payment_confirmed" then 1 else 0 := by
  simp only [Admissions.confirmations, List.countP_append, List.countP_singleton, decide_eq_true_eq]

theorem confirmations_note (a : Admissions) {e : TimelineEntry} (kind : e.kind ≠ "payment_confirmed") (id : Uuid) :
    Admissions.confirmations { a with timeline := a.timeline ++ [e] } id = a.confirmations id := by
  rw [confirmations_append, if_neg fun h => kind h.2, Nat.add_zero]

/-- A registration that a payment confirms has not been confirmed before. -/
theorem Consistent.confirmations_of_early (ha : Consistent a) {r : Registration}
    (hr : r ∈ a.registrations) (early : r.state = .paymentPending) : a.confirmations r.id = 0 := by
  by_contra h
  obtain ⟨r', hr', hid, settled⟩ := ha.settled r.id h
  obtain rfl := Table.eq_of_key hr' hr hid
  rw [early] at settled
  cases settled

theorem Consistent.write_inScope (ha : Consistent a) (h : Write a a') : ∀ r ∈ a'.registrations, Scoped a' r := by
  intro r hr
  cases h with
  | create inScope inserted =>
    rcases (Table.mem_insert? inserted).mp hr with hr | rfl
    · exact ha.inScope r hr
    · exact inScope
  | update _ _ inScope =>
    rcases Table.mem_save.mp hr with ⟨hr, -⟩ | ⟨rfl, -⟩
    · exact ha.inScope r hr
    · exact inScope
  | pay _ _ inScope =>
    rcases Table.mem_save.mp hr with ⟨hr, -⟩ | ⟨rfl, -⟩
    · exact ha.inScope r hr
    · exact inScope
  | _ => exact ha.inScope r hr

theorem Consistent.write_held (ha : Consistent a) (h : Write a a') : ∀ x ∈ a'.replacements, Held a' x := by
  intro x hx
  have old : ∀ y ∈ a.replacements, Held a' y := fun y hy => h.heldBy (ha.held y hy)
  cases h with
  | hold mem about target hp inScope other _ inserted =>
    rcases (Table.mem_insert? inserted).mp hx with hx | rfl
    · exact old x hx
    · exact ⟨other, _, mem, about.symm, _, target, hp.symm, inScope⟩
  | release mem hid about source target =>
    rcases Table.mem_save.mp hx with ⟨hx, -⟩ | ⟨rfl, -⟩
    · exact old x hx
    · obtain ⟨other, r, hr, hrid, p, hp, hpid, hc⟩ := ha.held _ mem
      exact ⟨by rw [source, target]; exact other, r, hr, hrid.trans about.symm, p, hp, hpid.trans target.symm, hc⟩
  | _ => exact old x hx

theorem Consistent.write_entitled (ha : Consistent a) (h : Write a a') :
    ∀ e ∈ a'.entitlements, ∃ r ∈ a'.registrations, r.id = e.registrationId ∧ r.state.early = false := by
  intro e he
  cases h with
  | create _ inserted => exact Table.exists_insert? inserted (ha.entitled e he)
  | update mem updates _ moves =>
    refine Table.exists_save mem updates.id.symm (fun h => ⟨updates.id.trans h.1, ?_⟩) (ha.entitled e he)
    rcases moves with same | moves
    · rw [same]
      exact h.2
    · exact State.not_early_of_mayBecome moves h.2
  | pay mem updates _ _ confirmed holder inserted =>
    rcases (Table.mem_insert? inserted).mp he with he | rfl
    · exact Table.exists_save mem updates.id.symm (fun h => ⟨updates.id.trans h.1, by rw [confirmed]; rfl⟩)
        (ha.entitled e he)
    · exact ⟨_, Table.mem_save.mpr (.inr ⟨rfl, _, mem, updates.id.symm⟩), holder.symm, by rw [confirmed]; rfl⟩
  | grant mem held about inserted =>
    rcases (Table.mem_insert? inserted).mp he with he | rfl
    · exact ha.entitled e he
    · exact ⟨_, mem, about.symm, by rcases held with h | h <;> rw [h] <;> rfl⟩
  | revoke kept =>
    obtain ⟨e', he', key⟩ := kept e he
    obtain ⟨r, hr, hid, early⟩ := ha.entitled e' he'
    exact ⟨r, hr, hid.trans (Prod.ext_iff.mp key).1, early⟩
  | _ => exact ha.entitled e he

theorem Consistent.write_single (ha : Consistent a) (h : Write a a') : ∀ x ∈ a'.replacements, ∀ y ∈ a'.replacements,
    x.status = .paymentPending → y.status = .paymentPending → x.registrationId = y.registrationId → x = y := by
  intro x hx y hy hxp hyp e
  cases h with
  | hold _ _ _ _ _ _ alone inserted =>
    rcases (Table.mem_insert? inserted).mp hx with hx | rfl <;>
      rcases (Table.mem_insert? inserted).mp hy with hy | rfl
    · exact ha.single x hx y hy hxp hyp e
    · exact absurd hxp (alone x hx e)
    · exact absurd hyp (alone y hy e.symm)
    · rfl
  | release _ _ _ _ _ ended =>
    rcases Table.mem_save.mp hx with ⟨hx, -⟩ | ⟨rfl, -⟩
    · rcases Table.mem_save.mp hy with ⟨hy, -⟩ | ⟨rfl, -⟩
      · exact ha.single x hx y hy hxp hyp e
      · exact absurd hyp ended
    · exact absurd hxp ended
  | _ => exact ha.single x hx y hy hxp hyp e

theorem Consistent.write_once (ha : Consistent a) (h : Write a a') (id : Uuid) : a'.confirmations id ≤ 1 := by
  cases h with
  | note kind =>
    rw [confirmations_note _ kind]
    exact ha.once id
  | @pay old r e t entry mem updates _ pending _ _ _ about =>
    refine (confirmations_append _ entry id).trans_le ?_
    show a.confirmations id + _ ≤ 1
    split
    · rename_i h
      rw [← h.1, about, updates.id, ha.confirmations_of_early mem pending]
    · exact ha.once id
  | _ => exact ha.once id

theorem Consistent.write_settled (ha : Consistent a) (h : Write a a') (id : Uuid) (confirmed : a'.confirmations id ≠ 0) :
    ∃ r ∈ a'.registrations, r.id = id ∧ r.state.settled := by
  cases h with
  | create _ inserted => exact Table.exists_insert? inserted (ha.settled id confirmed)
  | update mem updates _ moves =>
    refine Table.exists_save mem updates.id.symm (fun h => ⟨updates.id.trans h.1, ?_⟩) (ha.settled id confirmed)
    rcases moves with same | moves
    · rw [same]
      exact h.2
    · exact State.settled_of_mayBecome moves h.2
  | @pay old r e t entry mem updates _ _ settled _ _ about =>
    by_cases hid : r.id = id
    · exact ⟨r, Table.mem_save.mpr (.inr ⟨rfl, old, mem, updates.id.symm⟩), hid, by rw [settled]; rfl⟩
    · have count := confirmations_append { a with
        registrations := a.registrations.save r, entitlements := t } entry id
      rw [if_neg fun h => hid (about.symm.trans h.1)] at count
      refine Table.exists_save mem updates.id.symm (fun h => ⟨updates.id.trans h.1, by rw [settled]; rfl⟩)
        (ha.settled id fun h => confirmed (count.trans h))
  | note kind =>
    rw [confirmations_note _ kind] at confirmed
    exact ha.settled id confirmed
  | _ => exact ha.settled id confirmed

theorem Consistent.write (ha : Consistent a) (h : Write a a') : Consistent a' :=
  ⟨ha.write_inScope h, ha.write_held h, ha.write_entitled h, ha.write_single h, ha.write_once h, ha.write_settled h⟩

theorem Consistent.writes (ha : Consistent a) (h : Writes a a') : Consistent a' :=
  Writes.keeps (fun _ _ ha h => ha.write h) ha h

/-! ## The store -/

/-- The intent's registration, of its provider's organization, and its replacement exist. -/
structure IntentLinked (a : Admissions) (providers : Table PaymentProviderAccount.id) (i : PaymentIntent) : Prop where
  reference : storable (.ofString i.providerReference)
  registration : ∃ r ∈ a.registrations, r.id = i.registrationId ∧
    ∃ p ∈ providers, p.id = i.providerAccountId ∧ p.organizationId = r.organizationId
  replacement : ∀ id, i.tierReplacementId = some id →
    ∃ x ∈ a.replacements, x.id = id ∧ x.registrationId = i.registrationId

def OperationLinked (a : Admissions) (o : FinancialOperation) : Prop :=
  ∃ r ∈ a.registrations, r.id = o.registrationId ∧ r.organizationId = o.organizationId

/-- The event behind a ledger entry has its receipt. -/
def Received (p : Payments) (e : LedgerEntry) : Prop :=
  ∃ x ∈ p.receipts, x.key = (e.providerAccountId, e.providerReference)

structure Linked (s : Store) : Prop where
  admissions : Consistent s.admissions
  intents : ∀ i ∈ s.payments.intents, IntentLinked s.admissions s.payments.providers i
  operations : ∀ o ∈ s.finance.operations, OperationLinked s.admissions o
  received : ∀ e ∈ s.finance.ledger, Received s.payments e

theorem Writes.registration (h : Writes a a') {φ : Registration → Prop}
    (stable : ∀ r r', Updates r r' → φ r → φ r') (hr : ∃ r ∈ a.registrations, φ r) : ∃ r ∈ a'.registrations, φ r := by
  induction h with
  | refl => exact hr
  | tail _ write ih => exact write.registration stable ih

theorem Writes.replacement (h : Writes a a') {id registrationId : Uuid}
    (hx : ∃ x ∈ a.replacements, x.id = id ∧ x.registrationId = registrationId) :
    ∃ x ∈ a'.replacements, x.id = id ∧ x.registrationId = registrationId := by
  induction h with
  | refl => exact hx
  | tail _ write ih => exact write.replacement ih

theorem IntentLinked.writes {providers : Table PaymentProviderAccount.id} {i : PaymentIntent}
    (hi : IntentLinked a providers i) (h : Writes a a') : IntentLinked a' providers i where
  reference := hi.reference
  registration := by
    refine h.registration (fun r r' updates => ?_) hi.registration
    rintro ⟨hid, p, hp, hpid, org⟩
    exact ⟨updates.id.trans hid, p, hp, hpid, org.trans updates.organization.symm⟩
  replacement id e := h.replacement (hi.replacement id e)

theorem OperationLinked.writes {o : FinancialOperation} (ho : OperationLinked a o)
    (h : Writes a a') : OperationLinked a' o :=
  h.registration (fun _ _ updates h => ⟨updates.id.trans h.1, updates.organization.trans h.2⟩) ho

theorem OperationLinked.congr {o o' : FinancialOperation} (ho : OperationLinked a o)
    (registration : o'.registrationId = o.registrationId) (organization : o'.organizationId = o.organizationId) :
    OperationLinked a o' := by
  unfold OperationLinked
  rw [registration, organization]
  exact ho

section

variable {P : Primitives} {s s' : Store} {w : Surroundings} {now : Int}

theorem Linked.withAdmissions (hs : Linked s) (h : Writes s.admissions a') : Linked { s with admissions := a' } :=
  ⟨hs.admissions.writes h, fun i hi => (hs.intents i hi).writes h,
    fun o ho => (hs.operations o ho).writes h, hs.received⟩

theorem Linked.createOperation (hs : Linked s) {o : FinancialOperation} {f : Finance}
    (linked : OperationLinked s.admissions o) (h : s.finance.createOperation o = .ok f) :
    Linked { s with finance := f } := by
  obtain ⟨t, ht, rfl⟩ := createOperation_eq_ok h
  refine ⟨hs.admissions, hs.intents, fun o' ho' => ?_, hs.received⟩
  rcases (Table.mem_insert? ht).mp ho' with ho' | rfl
  · exact hs.operations o' ho'
  · exact linked

theorem operationLinked_save {t : Table FinancialOperation.id} (ht : ∀ o ∈ t, OperationLinked a o)
    {o o' : FinancialOperation} (ho : o ∈ t) (registration : o'.registrationId = o.registrationId)
    (organization : o'.organizationId = o.organizationId) : ∀ x ∈ t.save o', OperationLinked a x := by
  intro x hx
  rcases Table.mem_save.mp hx with ⟨hx, -⟩ | ⟨rfl, -⟩
  · exact ht x hx
  · exact (ht o ho).congr registration organization

/-- Payments that hold the same intents, providers and receipts. -/
theorem Linked.withPayments (hs : Linked s) {p : Payments} (providers : p.providers = s.payments.providers)
    (intents : p.intents = s.payments.intents) (receipts : p.receipts = s.payments.receipts) :
    Linked { s with payments := p } where
  admissions := hs.admissions
  intents i hi := by
    show IntentLinked s.admissions p.providers i
    rw [providers]
    exact hs.intents i (intents ▸ hi)
  operations := hs.operations
  received e he := by
    obtain ⟨x, hx, key⟩ := hs.received e he
    exact ⟨x, receipts ▸ hx, key⟩

theorem intentLinked_save {providers : Table PaymentProviderAccount.id} {t : Table PaymentIntent.id}
    (ht : ∀ i ∈ t, IntentLinked a providers i) {i i' : PaymentIntent} (hi : i ∈ t)
    (registration : i'.registrationId = i.registrationId) (provider : i'.providerAccountId = i.providerAccountId)
    (replacement : i'.tierReplacementId = i.tierReplacementId) (reference : storable (.ofString i'.providerReference)) :
    ∀ j ∈ t.save i', IntentLinked a providers j := by
  intro j hj
  rcases Table.mem_save.mp hj with ⟨hj, -⟩ | ⟨rfl, -⟩
  · exact ht j hj
  · have old := ht i hi
    refine ⟨reference, ?_, ?_⟩
    · rw [registration, provider]
      exact old.registration
    · rw [registration, replacement]
      exact old.replacement

/-! ## Commands on several tables -/

theorem Linked.restrictRegistration (hs : Linked s) {actorId : Uuid} {r : Registration}
    (hr : r ∈ s.admissions.registrations) {operationId correlationId : Uuid}
    (h : restrictRegistration s w now actorId r operationId correlationId = .ok s') : Linked s' := by
  rcases restrictRegistration_eq_ok h with (rfl | rfl) | ⟨p, a₁, f, promoted, -, h₁, hf, h₂, hs'⟩
  · exact hs
  · exact hs.withAdmissions (write_revokeEntitlements ..).writes
  · have reviewed : Linked { s with finance := f } := by
      simp only [Finance.reviewRefund] at hf
      split at hf
      · cases hf
        exact hs
      · refine hs.createOperation ⟨r, hr, ?_, ?_⟩ hf
        · rfl
        · rfl
    rw [hs']
    exact reviewed.withAdmissions ((writes_cancel hr (by decide) h₁).trans (writes_promote h₂))

theorem Linked.approve (hs : Linked s) {organizationId editionId operationId actorId : Uuid}
    {reason : String} {correlationId : Uuid} {o' : FinancialOperation}
    (h : approveFinancialOperation s w now organizationId editionId operationId actorId reason correlationId =
      .ok (s', o')) : Linked s' := by
  obtain ⟨o, ho, -, -, -, registration, organization, -, -, finance, payments, outcome⟩ :=
    approveFinancialOperation_eq_ok h
  have writes : Writes s.admissions s'.admissions := by
    rcases outcome with ⟨-, -, r, hr, p, a₁, promoted, -, h₁, h₂⟩ | ⟨-, -, same⟩
    · exact (writes_cancel hr (by decide) h₁).trans (writes_promote h₂)
    · rw [same]
  have saved : Linked { s with finance := s.finance.saveOperation o' } :=
    ⟨hs.admissions, hs.intents, operationLinked_save hs.operations ho registration organization, hs.received⟩
  obtain ⟨a', f', p'⟩ := s'
  cases finance
  cases payments
  exact saved.withAdmissions writes

theorem Linked.createIntent (hs : Linked s)
    {registrationId providerAccountId idempotencyKey intentId : Uuid} {i : PaymentIntent}
    (h : createPaymentIntent s w now registrationId providerAccountId idempotencyKey intentId = .ok (s', i)) :
    Linked s' := by
  rcases createPaymentIntent_eq_ok h with
    rfl | ⟨r, hr, provider, hprovider, terms, t, org, hterms, registration, account, replacement, -, reference, ht, rfl⟩
  · exact hs
  · refine ⟨hs.admissions, fun j hj => ?_, hs.operations, hs.received⟩
    rcases (Table.mem_insert? ht).mp hj with hj | rfl
    · exact hs.intents j hj
    · refine ⟨by rw [reference]; rfl, ⟨r, hr, registration.symm, provider, hprovider, account.symm, org⟩, fun id e => ?_⟩
      rw [replacement] at e
      rcases paymentTerms_eq_ok hterms with ⟨none, -⟩ | ⟨x, hx, some, -⟩
      · rw [none] at e
        cases e
      · obtain ⟨hx, about⟩ := Table.find?_eq_some_and hx
        rw [some, Option.some.injEq] at e
        exact ⟨x, hx, e, about.1.trans registration.symm⟩

theorem Linked.demo (hs : Linked s) {x : DemoPayment} {correlationId : Uuid}
    (h : confirmDemoPayment s w now x correlationId = .ok s') : Linked s' := by
  rcases confirmDemoPayment_eq_ok h with rfl | ⟨r, hr, terms, attempt, p, hterms, hp, h₁, hs'⟩
  · exact hs
  · obtain ⟨-, -, -, t, -, rfl⟩ := createAttempt_eq_ok.mp hp
    have writes := writes_completePayment hr (fun none => by
      rcases paymentTerms_eq_ok hterms with ⟨-, pending⟩ | ⟨x, -, some, -⟩
      · exact pending
      · rw [none] at some
        cases some) h₁
    rw [hs']
    exact (hs.withAdmissions writes).withPayments rfl rfl rfl

/-! ## Reconciliation -/

/-- A matched event keeps the links, but for the receipt of the entry that it wrote. -/
theorem Linked.effect (hs : Linked s) {provider : PaymentProviderAccount} {d : Delivery} {intent : PaymentIntent}
    {r : Registration} {replacement : Option AdmissionTierReplacement} {done : Reconciled}
    (hi : intent ∈ s.payments.intents) (hr : r ∈ s.admissions.registrations)
    (h : Effect P s w now provider d intent r replacement done) {x : PaymentWebhookReceipt}
    {t : Table PaymentWebhookReceipt.key} (ht : s.payments.receipts.insert? x = some t)
    (key : x.key = (provider.id, d.remoteEventId)) :
    Linked { done.store with payments := { done.store.payments with receipts := t } } := by
  -- The receipt is there, so an entry of the event is received.
  have received : ∀ e : LedgerEntry, Received s.payments e ∨ (e.providerAccountId = provider.id ∧
      e.providerReference = d.remoteEventId) → ∃ y ∈ t, y.key = (e.providerAccountId, e.providerReference) := by
    rintro e (⟨y, hy, hkey⟩ | ⟨account, reference⟩)
    · exact ⟨y, (Table.mem_insert? ht).mpr (.inl hy), hkey⟩
    · exact ⟨x, (Table.mem_insert? ht).mpr (.inr rfl), by rw [key, account, reference]⟩
  have entered : ∀ (f : Finance) (e : LedgerEntry), s.finance.createEntry provider e = .ok f →
      e.providerAccountId = provider.id → e.providerReference = d.remoteEventId →
      f.operations = s.finance.operations ∧ ∀ y ∈ f.ledger, ∃ z ∈ t,
        z.key = (y.providerAccountId, y.providerReference) := by
    intro f e hf account reference
    obtain ⟨-, -, ledger, hl, rfl⟩ := createEntry_eq_ok.mp hf
    refine ⟨rfl, fun y hy => received y ?_⟩
    rcases (Table.mem_insert? hl).mp hy with hy | rfl
    · exact .inl (hs.received y hy)
    · exact .inr ⟨account, reference⟩
  have old : ∀ y ∈ s.finance.ledger, ∃ z ∈ t, z.key = (y.providerAccountId, y.providerReference) :=
    fun y hy => received y (.inl (hs.received y hy))
  have reference := (hs.intents intent hi).reference
  cases h with
  | excepted _ finance =>
    rcases finance with rfl | ⟨e, -, -, account, about, hf⟩
    · exact ⟨hs.admissions, hs.intents, hs.operations, old⟩
    · obtain ⟨operations, ledger⟩ := entered _ e hf account about
      exact ⟨hs.admissions, hs.intents, operations ▸ hs.operations, ledger⟩
  | overwritten =>
    refine ⟨hs.admissions, ?_, hs.operations, old⟩
    refine intentLinked_save hs.intents hi ?_ ?_ ?_ reference <;> rfl
  | refunded _ _ pending hf =>
    obtain ⟨ho, -⟩ := pendingRefund_eq_some pending
    obtain ⟨operations, ledger⟩ := entered _ _ hf rfl rfl
    refine ⟨hs.admissions, hs.intents, ?_, ledger⟩
    refine operationLinked_save (t := _) (operations ▸ hs.operations) (operations ▸ ho) ?_ ?_ <;> rfl
  | @applied _ f a' code _ _ current attempted hf completed =>
    obtain ⟨-, -, -, attempts, -, rfl⟩ := createAttempt_eq_ok.mp attempted
    have writes := writes_completePayment hr (fun none => by
      rw [Option.map_eq_none_iff] at none
      rw [none] at current
      simp only [paymentIsCurrent, decide_eq_true_eq] at current
      exact current.1) completed
    have ledger : f.operations = s.finance.operations ∧
        ∀ y ∈ f.ledger, ∃ z ∈ t, z.key = (y.providerAccountId, y.providerReference) := by
      unfold recordProviderPayment at hf
      split at hf
      · cases hf
        exact ⟨rfl, old⟩
      · exact entered f _ hf rfl rfl
    have moved := hs.withAdmissions writes
    refine ⟨moved.admissions, ?_, ?_, ledger.2⟩
    · refine intentLinked_save moved.intents hi ?_ ?_ ?_ reference <;> rfl
    · show ∀ o ∈ f.operations, _
      rw [ledger.1]
      exact moved.operations
  | failed _ _ _ attempted =>
    obtain ⟨-, -, -, attempts, -, rfl⟩ := createAttempt_eq_ok.mp attempted
    refine ⟨hs.admissions, ?_, hs.operations, old⟩
    refine intentLinked_save hs.intents hi ?_ ?_ ?_ reference <;> rfl

theorem Linked.reconcile (hs : Linked s) {d : Delivery} {receipt : PaymentWebhookReceipt}
    (h : reconcileVerifiedPaymentEvent P s w now d = .ok (s', receipt)) : Linked s' := by
  cases reconcile_delivered h with
  | replayed => exact hs
  | @unknown _ exceptions _ _ _ _ _ received =>
    obtain ⟨-, -, t, ht, rfl⟩ := createReceipt_eq_ok.mp received
    refine ⟨hs.admissions, hs.intents, hs.operations, fun e he => ?_⟩
    exact Table.exists_insert? ht (hs.received e he)
  | @matched provider intent r done p hprovider _ hintent hr reconciled received =>
    obtain ⟨-, -, t, ht, rfl⟩ := createReceipt_eq_ok.mp received
    have effect := reconcileMatched_effect reconciled
    have key : (d.receipt now done.outcome done.code (some intent.id)).key = (provider.id, d.remoteEventId) := by
      rw [(Table.get?_eq_some.mp hprovider).2]
      rfl
    rw [effect.receipts] at ht
    exact hs.effect (matchedIntent_eq_some hintent).1 (Table.get?_eq_some.mp hr).1 effect ht key

/-! ## Runs -/

theorem Linked.exec {s s' : System} {call : Call} {answer : Answer} (hs : Linked s.store)
    (h : exec P s call = .ok (s', answer)) : Linked s'.store := by
  replace h := exec_eq_ok h
  obtain ⟨store, rfl, h⟩ := h
  have admissions : ∀ {a' : Admissions} {store : Store}, store = { s.store with admissions := a' } →
      Writes s.store.admissions a' → Linked store := by
    rintro a' store rfl writes
    exact hs.withAdmissions writes
  simp only [execCommand] at h
  split at h
  case h_1 =>
    obtain ⟨_, hx, e⟩ := withAdmissions_eq_ok h
    exact admissions e (writes_submit hx)
  case h_2 =>
    obtain ⟨_, hx, e⟩ := withAdmissions_eq_ok h
    exact admissions e (writes_accept hx)
  case h_3 =>
    obtain ⟨_, hx, e⟩ := withAdmissions_eq_ok h
    exact admissions e (writes_extend hx)
  case h_4 =>
    obtain ⟨_, hx, e⟩ := withAdmissions_eq_ok h
    exact admissions e (writes_waive hx)
  case h_5 =>
    obtain ⟨_, hx, e⟩ := withAdmissions_eq_ok h
    exact admissions e (writes_checkIn hx)
  case h_6 =>
    obtain ⟨_, hx, e⟩ := withAdmissions_eq_ok h
    exact admissions e (writes_processLifecycle hx)
  case h_7 =>
    obtain ⟨_, hx, e⟩ := withAdmissions_eq_ok h
    exact admissions e (writes_reserve hx)
  case h_8 =>
    obtain ⟨_, hx, e⟩ := withAdmissions_eq_ok h
    have writes := @writes_expire (s.clock + call.elapsed) call.surroundings s.store.admissions ‹Uuid›
    rw [Except.ok.inj hx] at writes
    exact admissions e writes
  case h_9 =>
    obtain ⟨_, hx, e⟩ := withAdmissions_eq_ok h
    exact admissions e (writes_adjustCapacity hx)
  case h_10 =>
    obtain ⟨_, hx, e⟩ := withAdmissions_eq_ok h
    exact admissions e (writes_offerBatch hx)
  case h_11 =>
    obtain ⟨_, h⟩ := answered_eq_ok h
    obtain ⟨r, hr, registration, organization, -, f, hf, rfl⟩ := proposeFinancialOperation_eq_ok h
    exact hs.createOperation ⟨r, hr, registration.symm, organization.symm⟩ hf
  case h_12 => exact hs.approve (answered_eq_ok h).choose_spec
  case h_13 =>
    simp only [bind_eq_ok, pure_eq_ok, Prod.mk.injEq] at h
    obtain ⟨_, h, rfl, -⟩ := h
    exact restrictEach_induct (fun _ _ _ _ hr hs h => Linked.restrictRegistration hs hr h) _ hs h
  case h_14 => exact hs.createIntent (answered_eq_ok h).choose_spec
  case h_15 =>
    obtain ⟨hp, e⟩ := withPayments_eq_ok h
    obtain ⟨i, hi, -, stored, hs'⟩ := recordCheckout_eq_ok hp
    rw [e, hs']
    refine ⟨hs.admissions, ?_, hs.operations, hs.received⟩
    refine intentLinked_save hs.intents hi ?_ ?_ ?_ ((storable_text _).trans stored) <;> rfl
  case h_16 =>
    obtain ⟨hp, e⟩ := withPayments_eq_ok h
    obtain ⟨i, hi, -, _, t, -, hs'⟩ := recordCheckoutFailure_eq_ok hp
    rw [e, hs']
    refine ⟨hs.admissions, ?_, hs.operations, hs.received⟩
    refine intentLinked_save hs.intents hi ?_ ?_ ?_ (hs.intents i hi).reference <;> rfl
  case h_17 =>
    simp only [bind_eq_ok, pure_eq_ok, Prod.mk.injEq] at h
    obtain ⟨_, h, rfl, -⟩ := h
    exact hs.demo h
  case h_18 => exact hs.reconcile (answered_eq_ok h).choose_spec
  case h_19 =>
    obtain ⟨hp, e⟩ := withPayments_eq_ok h
    obtain ⟨t, hs'⟩ := resolvePaymentException_eq_ok hp
    rw [e, hs']
    exact hs.withPayments rfl rfl rfl

end

end Maru.Registration
