import Maru.Catalog.Accounts

/-!
# Demo payments

A demo payment creates an intent and then reconciles it, each in a transaction of its own and
under a key derived from the caller's. Its second half is repeated with the version of the
catalog that the first half left behind, so once another command on the catalog has come
between the two neither the same key nor another one completes the payment
(`half_paid_order_is_stuck`). `demo_payment_pays_iff` says exactly when a demo payment of a
pending order ends with the order paid.
-/

namespace Maru.Catalog

section

variable {store after : Store} {lib : Primitives} {sur : Surroundings} {request : Request}
  {catalog : EditionCatalog} {order : CatalogOrder} {created : CatalogCommandResult}

/-! ## The event of a demo payment -/

theorem strip_demoEventId (key : Uuid) : strip (Store.demoEventId key) = Store.demoEventId key := by
  have opening : ("demo-".toList.all fun c => !isSpace c) = true := by decide
  have digits : ∀ d < 16, isSpace (Digits.hexDigit d) = false := by decide
  refine strip_eq_self fun c hc => ?_
  rw [Store.demoEventId, String.toList_append, List.mem_append] at hc
  rcases hc with hc | hc
  · simpa using List.all_eq_true.mp opening c hc
  · rw [String.toList_ofList] at hc
    obtain ⟨d, hd, rfl⟩ := Digits.mem_padBase 16 Digits.hexDigit (by omega) hc
    exact digits d hd

theorem length_demoEventId (key : Uuid) : (Store.demoEventId key).length = 37 := by
  have five : "demo-".toList.length = 5 := by decide
  rw [Store.demoEventId, ← String.length_toList, String.toList_append, List.length_append, five,
    String.toList_ofList, Digits.length_padBase]

theorem demoEventId_ne_empty (key : Uuid) : Store.demoEventId key ≠ "" := by
  intro empty
  have := length_demoEventId key
  rw [empty] at this
  cases this

/-! ## The second half -/

/-- What the second half of a demo payment needs to pay the order: the intent it is about is
pending, nothing was committed to the catalog since, and neither its key nor its event was used. -/
def Settleable (store : Store) (lib : Primitives) (sur : Surroundings) (request : Request)
    (catalog : EditionCatalog) (order : CatalogOrder) (intentId : Uuid) (version : Nat) : Prop :=
  ∃ intent ∈ store.intents, intent.id = intentId ∧ intent.orderId = order.id ∧ intent.status = .pending ∧
    version = catalog.aggregateVersion ∧ Store.mayReconcile sur request.actorId intent order ∧
    store.receipts.get? (catalog.id, request.actorId, Store.demoReconcileKey lib request.idempotencyKey) = none ∧
    store.events.get? (intent.provider, Store.demoEventId request.idempotencyKey) = none

/-- The catalog that a pending order's caller finds is the order's. -/
theorem catalog_of_order (valid : Valid store)
    (found : store.catalogOf? request.organizationId request.editionId = some catalog)
    (mem : order ∈ store.orders) (edition : order.editionId = request.editionId) : order.catalogId = catalog.id := by
  obtain ⟨hc, -, inEdition⟩ := catalogOf?_eq_some found
  obtain ⟨c, hc', of, -, inEdition'⟩ := valid.referenced.orders order mem
  have same := valid.versioned.editions c hc' catalog hc (inEdition'.trans (edition.trans inEdition.symm))
  rw [← of, same]

theorem receipt_fresh (valid : Valid store) (mem : catalog ∈ store.catalogs) :
    ∀ other ∈ store.receipts, other.catalogId = catalog.id → other.resultingVersion ≠ catalog.aggregateVersion + 1 := by
  intro other ho of
  obtain ⟨c, hc, id, bounded⟩ := valid.versioned.known other ho
  obtain rfl := Table.eq_of_key hc mem (id.trans of)
  omega

/-- A reconciliation whose checks all pass is written. -/
theorem exists_reconciles {intent : CatalogPaymentIntent} {eventId : String} {result : PaymentResult}
    {catalogVersion orderVersion : Int} {reason : String} (inCatalog : order.catalogId = catalog.id)
    (pending : intent.status = .pending) (orderCurrent : orderVersion = order.aggregateVersion)
    (unconsumed : store.events.get? (intent.provider, eventId) = none)
    (due : result = .succeeded → order.status = .paymentPending)
      (eventFresh : ∀ other ∈ store.events, other.id ≠ sur.newId 0)
    (current : catalogVersion = catalog.aggregateVersion)
    (fresh : ∀ other ∈ store.receipts, other.catalogId = catalog.id →
      other.resultingVersion ≠ catalog.aggregateVersion + 1)
    (unused : store.receipts.get? (catalog.id, request.actorId, request.idempotencyKey) = none) :
    ∃ after, Reconciles store after lib sur request catalog intent order eventId result
      catalogVersion orderVersion reason := by
  obtain ⟨events, inserted⟩ := (Table.exists_insert?_eq_some (t := store.events) (r := {
    id := sur.newId 0, intentId := intent.id, provider := intent.provider, providerEventId := eventId, result
    occurredAt := sur.now })).mpr unconsumed
  obtain ⟨receipts, received⟩ := (Table.exists_insert?_eq_some (t := store.receipts) (r := receiptOf request
    { catalog with aggregateVersion := catalog.aggregateVersion + 1 } .paymentReconciled
    (reconcileDigest lib intent.id eventId result) reason (sur.newId 0))).mpr unused
  exact ⟨_, inCatalog, pending, orderCurrent, unconsumed, due, eventFresh, current, fresh,
    events, inserted, receipts, received, rfl⟩

theorem normalizedReason_demo :
    normalizedReason "deterministic demo payment" = .ok (strip "deterministic demo payment") := by
  rw [normalizedReason, bind_eq_ok]
  exact ⟨(), require_eq_ok.mpr (by decide), rfl⟩

/-- The second half answers with what is settled already, or reconciles the intent. -/
theorem settleDemoPayment_eq_ok {answer : CatalogCommandResult} :
    store.settleDemoPayment lib sur request created = .ok (after, answer) ↔
      ∃ intent ∈ store.intents, intent.id = created.targetId ∧ ∃ order ∈ store.orders,
        order.id = intent.orderId ∧ ((intent.status = .succeeded ∧ after = store ∧
            ∃ receipt, store.receipts.get? (order.catalogId, request.actorId,
              Store.demoReconcileKey lib request.idempotencyKey) =
              some receipt ∧ answer = ⟨receipt.resultId, receipt.resultingVersion, true⟩) ∨
          (intent.status ≠ .succeeded ∧ store.reconcilePayment lib sur
            { request with idempotencyKey := Store.demoReconcileKey lib request.idempotencyKey } intent.id
            (Store.demoEventId request.idempotencyKey) .succeeded created.resultingVersion order.aggregateVersion
            "deterministic demo payment" = .ok (after, answer))) := by
  simp only [Store.settleDemoPayment, bind_eq_ok, getOr_eq_ok, Table.get?_eq_some]
  constructor
  · rintro ⟨intent, ⟨hi, id⟩, order, ⟨ho, of⟩, h⟩
    refine ⟨intent, hi, id, order, ho, of, ?_⟩
    split at h
    · rename_i succeeded
      simp only [bind_eq_ok, getOr_eq_ok, Table.get?_eq_some, pure_eq_ok, Prod.mk.injEq] at h
      obtain ⟨receipt, received, rfl, rfl⟩ := h
      exact .inl ⟨succeeded, rfl, receipt, received, rfl⟩
    · rename_i open_
      exact .inr ⟨open_, h⟩
  · rintro ⟨intent, hi, id, order, ho, of, ⟨succeeded, rfl, receipt, received, rfl⟩ | ⟨open_, h⟩⟩
    · refine ⟨intent, ⟨hi, id⟩, order, ⟨ho, of⟩, ?_⟩
      simp only [if_pos succeeded, bind_eq_ok, getOr_eq_ok, Table.get?_eq_some, pure_eq_ok]
      exact ⟨receipt, received, rfl⟩
    · refine ⟨intent, ⟨hi, id⟩, order, ⟨ho, of⟩, ?_⟩
      rw [if_neg open_]
      exact h

/-- The second half pays the order exactly when it can. -/
theorem settleDemoPayment_pays_iff (lib : Primitives) (sur : Surroundings) (created : CatalogCommandResult)
    (valid : Valid store) (mem : order ∈ store.orders) (due : order.status = .paymentPending)
    (owned : OwnedBy request order) (found : store.catalogOf? request.organizationId request.editionId = some catalog)
    (fresh : ∀ e ∈ store.events, e.id ≠ sur.newId 0) :
    (∃ after answer, store.settleDemoPayment lib sur request created = .ok (after, answer) ∧
        ∃ o ∈ after.orders, o.id = order.id ∧ o.status = .paid) ↔
      Settleable store lib sur request catalog order created.targetId created.resultingVersion := by
  have inCatalog := catalog_of_order valid found mem owned.2.1
  have unpaid : ¬ ∃ o ∈ store.orders, o.id = order.id ∧ o.status = .paid := by
    rintro ⟨o, ho, key, paid⟩
    obtain rfl := Table.eq_of_key ho mem key
    cases due.symm.trans paid
  constructor
  · rintro ⟨after, answer, h, paid⟩
    obtain ⟨intent, hi, id, o, ho, of, ⟨-, rfl, -⟩ | ⟨-, committed⟩⟩ := settleDemoPayment_eq_ok.mp h
    · exact absurd paid unpaid
    obtain ⟨i, hi', key, o', ho', of', -, -, allowed, -, -, -, c, found',
      ⟨_, -, -, -, rfl, -⟩ | ⟨unused, reconciles, -⟩⟩ :=
      reconcilePayment_eq_ok.mp committed
    · exact absurd paid unpaid
    obtain rfl := Table.eq_of_key hi' hi key
    obtain rfl := Option.some.inj (found.symm.trans found')
    rw [strip_demoEventId] at reconciles
    obtain ⟨events, -, receipts, -, rfl⟩ := reconciles.written
    -- Only the order of the intent changes its status.
    have same : order.id = o'.id := by
      by_contra other
      obtain ⟨q, hq, keyq, paidq⟩ := paid
      rcases Table.mem_save.mp hq with ⟨hq, -⟩ | ⟨rfl, -⟩
      · exact unpaid ⟨q, hq, keyq, paidq⟩
      · exact other keyq.symm
    obtain rfl := Table.eq_of_key mem ho' same
    exact ⟨i, hi, id, of'.symm, reconciles.pending, Nat.cast_injective reconciles.current,
      allowed, unused, reconciles.unconsumed⟩
  · rintro ⟨intent, hi, id, of, pending, version, allowed, unused, unconsumed⟩
    obtain ⟨after, reconciles⟩ : ∃ after, Reconciles store after lib sur
        { request with idempotencyKey := Store.demoReconcileKey lib request.idempotencyKey } catalog intent order
        (Store.demoEventId request.idempotencyKey) .succeeded created.resultingVersion order.aggregateVersion
        (strip "deterministic demo payment") :=
      exists_reconciles inCatalog pending rfl unconsumed (fun _ => due) fresh
        (congrArg Nat.cast version) (receipt_fresh valid (catalogOf?_eq_some found).1) unused
    have committed : store.reconcilePayment lib sur
        { request with idempotencyKey := Store.demoReconcileKey lib request.idempotencyKey } intent.id
        (Store.demoEventId request.idempotencyKey) .succeeded created.resultingVersion order.aggregateVersion
        "deterministic demo payment" = .ok (after, ⟨sur.newId 0, catalog.aggregateVersion + 1, false⟩) := by
      rw [reconcilePayment_eq_ok, strip_demoEventId]
      have bounded : (Store.demoEventId request.idempotencyKey).length ≤ maxProviderEventIdLength := by
        rw [length_demoEventId]
        decide
      exact ⟨intent, hi, rfl, order, mem, of.symm, owned.1, owned.2.1, allowed, normalizedReason_demo,
        demoEventId_ne_empty _, bounded, catalog, found, .inr ⟨unused, reconciles, rfl⟩⟩
    have open_ : intent.status ≠ .succeeded := by simp [pending]
    refine ⟨after, _, settleDemoPayment_eq_ok.mpr ⟨intent, hi, id, order, mem, of.symm, .inr ⟨open_, committed⟩⟩, ?_⟩
    obtain ⟨events, -, receipts, -, rfl⟩ := reconciles.written
    exact ⟨_, Table.mem_save.mpr (.inr ⟨rfl, order, mem, rfl⟩), rfl, rfl⟩

/-! ## The whole payment -/

/-- A demo payment ends with the order paid by one intent. -/
def PaidBy (outcome : Store × Except CatalogError CatalogCommandResult) (orderId : Uuid) : Prop :=
  (∃ answer, outcome.2 = .ok answer) ∧ (∃ o ∈ outcome.1.orders, o.id = orderId ∧ o.status = .paid) ∧
    outcome.1.intentCount orderId .succeeded = 1

/-- What a demo payment of a pending order needs of the state it finds. Its first half has not been
committed, and the order has no pending intent; or it has, the intent is still pending, and no
other command was committed to the catalog since. In both cases its second half has used neither
its key nor its event. -/
def DemoPayable (store : Store) (lib : Primitives) (sur : Surroundings × Surroundings)
    (request : Request) (catalog : EditionCatalog) (order : CatalogOrder) : Prop :=
  sur.1.allows request.actorId .orderSelf (.owned order.id) ∧
    match store.receipts.get? (catalog.id, request.actorId, Store.demoCreateKey lib request.idempotencyKey) with
    | none =>
      (∀ i ∈ store.intents, i.orderId = order.id → i.status ≠ .pending) ∧
        (sur.2.allows request.actorId .orderSelf (.owned order.id) ∨
          sur.2.allows request.actorId .managePayments (.edition order.organizationId order.editionId)) ∧
        Store.demoReconcileKey lib request.idempotencyKey ≠ Store.demoCreateKey lib request.idempotencyKey ∧
        store.receipts.get? (catalog.id, request.actorId, Store.demoReconcileKey lib request.idempotencyKey) = none ∧
        store.events.get? (.demo, Store.demoEventId request.idempotencyKey) = none
    | some receipt =>
      receipt.operation = .paymentCreated ∧ receipt.requestDigest = createDigest lib order.id .demo ∧
        Settleable store lib sur.2 request catalog order receipt.resultId receipt.resultingVersion

/-- What the first half leaves of a demo payment's second half. -/
theorem settleable_started {intents : Table CatalogPaymentIntent.id} {receipts : Table CatalogCommandReceipt.key}
    {orders : Table CatalogOrder.id} {catalogs : Table EditionCatalog.id}
      {advanced : EditionCatalog} {saved : CatalogOrder}
    {intent : CatalogPaymentIntent} {receipt : CatalogCommandReceipt}
      (inserted : store.intents.insert? intent = some intents)
    (received : store.receipts.insert? receipt = some receipts) (pending : intent.status = .pending)
    (of : intent.orderId = saved.id) (same : advanced.id = catalog.id) (demo : intent.provider = .demo)
    (key : receipt.key = (catalog.id, request.actorId, Store.demoCreateKey lib request.idempotencyKey)) :
    Settleable { store with intents, receipts, orders, catalogs } lib sur request advanced saved
        intent.id advanced.aggregateVersion ↔
      (sur.allows request.actorId .orderSelf (.owned saved.id) ∨
          sur.allows request.actorId .managePayments (.edition saved.organizationId saved.editionId)) ∧
        Store.demoReconcileKey lib request.idempotencyKey ≠ Store.demoCreateKey lib request.idempotencyKey ∧
        store.receipts.get? (catalog.id, request.actorId, Store.demoReconcileKey lib request.idempotencyKey) = none ∧
        store.events.get? (.demo, Store.demoEventId request.idempotencyKey) = none := by
  have unused : receipts.get? (catalog.id, request.actorId, Store.demoReconcileKey lib request.idempotencyKey) = none ↔
      Store.demoReconcileKey lib request.idempotencyKey ≠ Store.demoCreateKey lib request.idempotencyKey ∧
        store.receipts.get? (catalog.id, request.actorId, Store.demoReconcileKey lib request.idempotencyKey) = none := by
    rw [Table.get?_insert? received, key]
    by_cases clash : Store.demoReconcileKey lib request.idempotencyKey = Store.demoCreateKey lib request.idempotencyKey
    · simp [clash]
    · simp [clash]
  have mem : intent ∈ intents := (Table.mem_insert? inserted).mpr (.inr rfl)
  constructor
  · rintro ⟨i, hi, id, -, -, -, allowed, fresh, unconsumed⟩
    obtain rfl := Table.eq_of_key hi mem id
    simp only [Store.mayReconcile, demo, decide_true, Bool.true_and, Bool.or_eq_true] at allowed
    rw [same] at fresh
    rw [demo] at unconsumed
    exact ⟨allowed, (unused.mp fresh).1, (unused.mp fresh).2, unconsumed⟩
  · rintro ⟨allowed, distinct, fresh, unconsumed⟩
    refine ⟨intent, mem, rfl, of, pending, rfl, ?_, ?_, ?_⟩
    · simp only [Store.mayReconcile, demo, decide_true, Bool.true_and, Bool.or_eq_true]
      exact allowed
    · rw [same]
      exact unused.mpr ⟨distinct, fresh⟩
    · rw [demo]
      exact unconsumed

/-- The second half is a command, or writes nothing. -/
theorem settleDemoPayment_step {answer : CatalogCommandResult}
    (h : store.settleDemoPayment lib sur request created = .ok (after, answer)) : after = store ∨ Step store after := by
  obtain ⟨_, -, -, _, -, -, ⟨-, rfl, -⟩ | ⟨-, committed⟩⟩ := settleDemoPayment_eq_ok.mp h
  · exact .inl rfl
  · exact reconcilePayment_step committed

theorem Grows.of_step (h : after = store ∨ Step store after) : Grows store after := by
  rcases h with rfl | step
  · exact .refl _
  · exact step.grows

theorem Valid.of_step (valid : Valid store) (h : after = store ∨ Step store after) : Valid after := by
  rcases h with rfl | step
  · exact valid
  · exact step.valid valid

/-- Once its first half has an answer, a demo payment pays the order when its second half does. -/
theorem paidBy_iff_of_created {surs : Surroundings × Surroundings} {catalogVersion orderVersion : Int} {started : Store}
    (valid : Valid store) (mem : order ∈ store.orders) (due : order.status = .paymentPending)
    (h : store.createPaymentIntent lib surs.1
      { request with idempotencyKey := Store.demoCreateKey lib request.idempotencyKey } order.id .demo catalogVersion
      orderVersion = .ok (started, created)) :
    PaidBy (store.completeDemoPayment lib surs request order.id catalogVersion orderVersion)
      order.id ↔ ∃ after answer, started.settleDemoPayment lib surs.2 request created =
        .ok (after, answer) ∧ ∃ o ∈ after.orders, o.id = order.id ∧ o.status = .paid := by
  have first := createPaymentIntent_step h
  simp only [PaidBy, Store.completeDemoPayment, h]
  cases settled : started.settleDemoPayment lib surs.2 request created with
  | error e =>
    constructor
    · rintro ⟨⟨_, answered⟩, -⟩
      cases answered
    · rintro ⟨_, _, answered, -⟩
      cases answered
  | ok outcome =>
    obtain ⟨paid, result⟩ := outcome
    have second := settleDemoPayment_step settled
    constructor
    · rintro ⟨-, ends, -⟩
      exact ⟨paid, result, rfl, ends⟩
    · rintro ⟨_, _, answered, o, ho, key, status⟩
      cases answered
      refine ⟨⟨result, rfl⟩, ⟨o, ho, key, status⟩, ?_⟩
      have valid := (valid.of_step first).of_step second
      obtain ⟨o', ho', kept⟩ := (Grows.of_step first).orders order mem
      obtain ⟨o'', ho'', kept'⟩ := (Grows.of_step second).orders o' ho'
      obtain rfl := Table.eq_of_key ho ho'' (key.trans (kept'.id.trans kept.id).symm)
      have owed : 0 < o.totalMinor := by
        rw [kept'.totalMinor, kept.totalMinor]
        rcases Nat.eq_zero_or_pos order.totalMinor with free | owed
        · have paid := (‹Valid store›.accounts order mem).free free
          cases due.symm.trans paid
        · exact owed
      have account := (valid.accounts o ho).succeeded
      rwa [if_pos ⟨status, owed⟩, key] at account

theorem not_paidBy_of_error {surs : Surroundings × Surroundings} {catalogVersion orderVersion : Int}
    {orderId : Uuid} (h : ∀ started created, store.createPaymentIntent lib surs.1
      { request with idempotencyKey := Store.demoCreateKey lib request.idempotencyKey } orderId .demo catalogVersion
      orderVersion ≠ .ok (started, created)) :
    ¬ PaidBy (store.completeDemoPayment lib surs request orderId catalogVersion orderVersion) orderId := by
  rintro ⟨⟨answer, answered⟩, -⟩
  cases failed : store.createPaymentIntent lib surs.1
      { request with idempotencyKey := Store.demoCreateKey lib request.idempotencyKey } orderId .demo catalogVersion
      orderVersion with
  | error e =>
    rw [Store.completeDemoPayment, failed] at answered
    cases answered
  | ok outcome => exact h outcome.1 outcome.2 failed

theorem catalogOf?_of_mem (versioned : Versioned store) (mem : catalog ∈ store.catalogs)
    (organization : catalog.organizationId = request.organizationId) (edition : catalog.editionId = request.editionId) :
    store.catalogOf? request.organizationId request.editionId = some catalog := by
  cases found : store.catalogOf? request.organizationId request.editionId with
  | none =>
    have := List.find?_eq_none.mp found catalog mem
    simp [organization, edition] at this
  | some c =>
    obtain ⟨hc, -, inEdition⟩ := catalogOf?_eq_some found
    rw [versioned.editions c hc catalog mem (inEdition.trans edition.symm)]

/-- The first half of a demo payment whose key is new: it creates an intent if the
order has no pending one. -/
theorem createPaymentIntent_new (lib : Primitives) (sur : Surroundings) (request : Request)
    {catalogs : Table EditionCatalog.id} {advanced : EditionCatalog} {saved : CatalogOrder}
    {orders : Table CatalogOrder.id} (valid : Valid store) (mem : order ∈ store.orders)
      (due : order.status = .paymentPending)
    (owned : OwnedBy request order) (found : store.catalogOf? request.organizationId request.editionId = some catalog)
    (absent : store.receipts.get? (catalog.id, request.actorId, request.idempotencyKey) = none)
    (allowed : sur.allows request.actorId .orderSelf (.owned order.id))
    (none : ∀ i ∈ store.intents, i.orderId = order.id → i.status ≠ .pending)
    (fresh : ∀ i ∈ store.intents, i.id ≠ sur.newId 0)
    (hadvanced : advanced = { catalog with aggregateVersion := catalog.aggregateVersion + 1 })
    (hsaved : saved = { order with aggregateVersion := order.aggregateVersion + 1 })
    (hcatalogs : catalogs = store.catalogs.save advanced) (horders : orders = store.orders.save saved) :
    ∃ intents receipts intent receipt, store.intents.insert? intent = some intents ∧
      store.receipts.insert? receipt = some receipts ∧ intent.status = .pending ∧ intent.orderId = order.id ∧
      intent.provider = .demo ∧ intent.id = sur.newId 0 ∧
      receipt.key = (catalog.id, request.actorId, request.idempotencyKey) ∧
      store.createPaymentIntent lib sur request order.id .demo catalog.aggregateVersion order.aggregateVersion =
        .ok ({ store with intents, receipts, orders, catalogs },
          ⟨sur.newId 0, catalog.aggregateVersion + 1, false⟩) := by
  obtain ⟨intents, inserted⟩ := (Table.exists_insert?_eq_some (t := store.intents) (r := {
    id := sur.newId 0, orderId := order.id, provider := .demo, amountMinor := order.totalMinor
    currency := order.currency })).mpr (Table.get?_eq_none.mpr fresh)
  obtain ⟨receipts, received⟩ := (Table.exists_insert?_eq_some (t := store.receipts) (r := receiptOf request
    { catalog with aggregateVersion :=
      catalog.aggregateVersion + 1 } .paymentCreated (createDigest lib order.id .demo) ""
    (sur.newId 0))).mpr absent
  refine ⟨intents, receipts, _, _, inserted, received, rfl, rfl, rfl, rfl, rfl, createPaymentIntent_eq_ok.mpr ?_⟩
  subst hcatalogs horders hadvanced hsaved
  exact ⟨⟨order, mem, rfl, owned, allowed⟩, catalog, found, .inr ⟨absent, order, mem, rfl,
    catalog_of_order valid found mem owned.2.1, owned.2.2, due, rfl, none, rfl,
    receipt_fresh valid (catalogOf?_eq_some found).1, intents, inserted, receipts, received, rfl, rfl⟩⟩

theorem demoPayable_iff {surs : Surroundings × Surroundings} (valid : Valid store) (mem : order ∈ store.orders)
    (due : order.status = .paymentPending) (owned : OwnedBy request order)
    (found : store.catalogOf? request.organizationId request.editionId = some catalog)
    (freshIntent : ∀ i ∈ store.intents, i.id ≠ surs.1.newId 0) (freshEvent : ∀ e ∈ store.events, e.id ≠ surs.2.newId 0) :
    PaidBy (store.completeDemoPayment lib surs request order.id catalog.aggregateVersion
      order.aggregateVersion) order.id ↔
      DemoPayable store lib surs request catalog order := by
  have inCatalog := catalog_of_order valid found mem owned.2.1
  have mayPay : MayPay store surs.1 { request with
      idempotencyKey := Store.demoCreateKey lib request.idempotencyKey } order.id ↔
      surs.1.allows request.actorId .orderSelf (.owned order.id) := by
    constructor
    · rintro ⟨o, -, key, -, allowed⟩
      rwa [key] at allowed
    · exact fun allowed => ⟨order, mem, rfl, owned, allowed⟩
  rw [DemoPayable]
  split
  · rename_i absent
    by_cases ready : surs.1.allows request.actorId .orderSelf (.owned order.id) ∧
        ∀ i ∈ store.intents, i.orderId = order.id → i.status ≠ .pending
    · obtain ⟨allowed, none⟩ := ready
      obtain ⟨advanced, hadvanced⟩ : ∃ c, c = { catalog with aggregateVersion :=
        catalog.aggregateVersion + 1 } := ⟨_, rfl⟩
      obtain ⟨saved, hsaved⟩ : ∃ o, o = { order with aggregateVersion := order.aggregateVersion + 1 } := ⟨_, rfl⟩
      obtain ⟨catalogs, hcatalogs⟩ : ∃ t, t = store.catalogs.save advanced := ⟨_, rfl⟩
      obtain ⟨orders, horders⟩ : ∃ t, t = store.orders.save saved := ⟨_, rfl⟩
      obtain ⟨intents, receipts, intent, receipt, inserted, received, pending, of, demo, id, key, committed⟩ :=
        createPaymentIntent_new lib surs.1 { request with
          idempotencyKey := Store.demoCreateKey lib request.idempotencyKey }
          valid mem due owned found absent allowed none freshIntent hadvanced hsaved hcatalogs horders
      have started := valid.of_step (createPaymentIntent_step committed)
      have scope := catalogOf?_eq_some found
      have sameSaved : saved.id = order.id := by rw [hsaved]
      have sameAdvanced : advanced.id = catalog.id := by rw [hadvanced]
      have savedMem : saved ∈ orders := by
        rw [horders]
        exact Table.mem_save.mpr (.inr ⟨rfl, order, mem, sameSaved.symm⟩)
      have advancedMem : advanced ∈ catalogs := by
        rw [hcatalogs]
        exact Table.mem_save.mpr (.inr ⟨rfl, catalog, scope.1, sameAdvanced.symm⟩)
      have organization : advanced.organizationId = request.organizationId := by rw [hadvanced, scope.2.1]
      have edition : advanced.editionId = request.editionId := by rw [hadvanced, scope.2.2]
      have version : catalog.aggregateVersion + 1 = advanced.aggregateVersion := by rw [hadvanced]
      have second := settleDemoPayment_pays_iff lib surs.2 ⟨surs.1.newId 0, catalog.aggregateVersion + 1, false⟩ started
        savedMem (by rw [hsaved, due]) (by rw [hsaved]; exact owned)
        (catalogOf?_of_mem started.versioned advancedMem organization edition) freshEvent
      rw [sameSaved, ← id, version,
        settleable_started inserted received pending (of.trans sameSaved.symm) sameAdvanced demo key]
        at second
      rw [paidBy_iff_of_created valid mem due committed, ← id, version, second, sameSaved, hsaved]
      exact ⟨fun h => ⟨allowed, none, h⟩, fun h => h.2.2⟩
    · refine iff_of_false (not_paidBy_of_error fun started created committed => ?_) fun h =>
        ready ⟨h.1, h.2.1⟩
      obtain ⟨payable, c, found', ⟨r, present, -⟩ | ⟨-, o, ho, key, -, -, -, -, none, -⟩⟩ :=
        createPaymentIntent_eq_ok.mp committed
      · obtain rfl := Option.some.inj (found.symm.trans found')
        cases present.symm.trans absent
      · obtain rfl := Table.eq_of_key ho mem key
        exact ready ⟨mayPay.mp payable, none⟩
  · rename_i receipt present
    by_cases ready : surs.1.allows request.actorId .orderSelf (.owned order.id) ∧ receipt.operation = .paymentCreated ∧
        receipt.requestDigest = createDigest lib order.id .demo
    · obtain ⟨allowed, operation, digest⟩ := ready
      have committed : store.createPaymentIntent lib surs.1
          { request with idempotencyKey := Store.demoCreateKey lib request.idempotencyKey } order.id .demo
          catalog.aggregateVersion order.aggregateVersion =
            .ok (store, ⟨receipt.resultId, receipt.resultingVersion, true⟩) :=
        createPaymentIntent_eq_ok.mpr ⟨mayPay.mpr allowed, catalog, found,
          .inl ⟨receipt, present, operation, digest, rfl, rfl⟩⟩
      rw [paidBy_iff_of_created valid mem due committed,
        settleDemoPayment_pays_iff lib surs.2 _ valid mem due owned found freshEvent]
      simp only [allowed, operation, digest, true_and]
    · refine iff_of_false (not_paidBy_of_error fun started created committed => ?_) fun h =>
        ready ⟨h.1, h.2.1, h.2.2.1⟩
      obtain ⟨payable, c, found', ⟨r, present', operation, digest, -⟩ | ⟨absent, -⟩⟩ :=
        createPaymentIntent_eq_ok.mp committed
      · obtain rfl := Option.some.inj (found.symm.trans found')
        obtain rfl := Option.some.inj (present.symm.trans present')
        exact ready ⟨mayPay.mp payable, operation, digest⟩
      · obtain rfl := Option.some.inj (found.symm.trans found')
        cases present.symm.trans absent

/-- Whatever commands were committed before, a demo payment of the caller's pending order,
with any key and the versions it finds, ends with the order paid by one intent exactly when
it finds what it needs. -/
theorem demo_payment_pays_iff {surs : Surroundings × Surroundings} (calls : List Call)
    (mem : order ∈ ((catalogMachine lib).run .empty calls).orders) (due : order.status = .paymentPending)
    (owned : OwnedBy request order)
    (found : ((catalogMachine lib).run .empty calls).catalogOf? request.organizationId request.editionId = some catalog)
    (freshIntent : ∀ i ∈ ((catalogMachine lib).run .empty calls).intents, i.id ≠ surs.1.newId 0)
    (freshEvent : ∀ e ∈ ((catalogMachine lib).run .empty calls).events, e.id ≠ surs.2.newId 0) :
    PaidBy (((catalogMachine lib).run .empty calls).completeDemoPayment lib surs request
      order.id catalog.aggregateVersion
        order.aggregateVersion) order.id ↔
      DemoPayable ((catalogMachine lib).run .empty calls) lib surs request catalog order :=
  demoPayable_iff (run_valid lib calls) mem due owned found freshIntent freshEvent

end

/-! ## An order that stays unpaid -/

namespace Shop

/-- The names whose identifiers the shop below draws, with what `uuid5` makes of them. -/
def uuid5 (name : String) : Uuid :=
  if name = "maru:catalog:demo:create:00000000-0000-0000-0000-000000000001" then 0x8e3bf75a07db5fadae6864b7343907a9
  else if name =
    "maru:catalog:demo:reconcile:00000000-0000-0000-0000-000000000001" then 0xcdc059529ab2578e8db9a70eea51cd87
  else if name = "maru:catalog:demo:create:00000000-0000-0000-0000-000000000002" then 0xef86025734735630bd4012bb5f335f48
  else 0xe540999572b2523fa6b62e3da5fb0689

def lib : Primitives where
  -- the canonical text stands in for its SHA-256: a retry only compares digests
  digest payload := (Json.obj payload).dumps
  upper text := String.ofList (text.toList.map Char.toUpper)
  lower text := String.ofList (text.toList.map Char.toLower)
  timestamp t := String.ofList (Json.intChars t)
  uuid5 := uuid5

/-- Everyone may do what they ask for; each transaction draws an identifier of its own. -/
def surroundings (id : Nat) : Surroundings where
  now := id
  newId n := ⟨(100 * id + n) % 2 ^ 128, Nat.mod_lt _ (by decide)⟩
  allows _ _ _ := true
  isEdition _ _ := true
  charitySelection _ := none

def organizer : Uuid := 11

def buyer : Uuid := 12

def call (actorId : Uuid) (key : Nat) (idempotencyKey : Uuid) (command : Command) : Call where
  surroundings := surroundings key
  request := ⟨actorId, 1, 2, idempotencyKey⟩
  command := command

/-- One badge for sale, with an order that a buyer has begun to pay. -/
def begun : List Call := [
  call organizer 1 21 (.createCatalog "EUR" "shop"),
  call organizer 2 22 (.addProduct { code := "badge", kind := .merchandise, name := "Badge" } 1 "shop"),
  call organizer 3 23 (.addVariant ⟨200, "b", "Badge", 500, some 3, some 5⟩ 2 "shop"),
  call organizer 4 24 (.activateCatalog 3 "shop"),
  call buyer 5 25 (.placeOrder [⟨300, 1⟩] 4),
  call buyer 6 (Store.demoCreateKey lib 1) (.createPaymentIntent 500 .demo 5 1)]

/-- The organizer adds stock before the payment goes on. -/
def interrupted : List Call := begun ++ [call organizer 7 26 (.adjustStock 300 4 6 "more badges")]

def store (calls : List Call) : Store := (catalogMachine lib).run .empty calls

def request (key : Uuid) : Request := ⟨buyer, 1, 2, key⟩

def payment (calls : List Call) (key : Uuid) (catalogVersion : Int) : Store × Except CatalogError CatalogCommandResult :=
  (store calls).completeDemoPayment lib (surroundings 8, surroundings 9) (request key) 500 catalogVersion 2

def catalog : EditionCatalog := ⟨100, 1, 2, .active, "EUR", 6, organizer⟩

def order : CatalogOrder :=
  ⟨500, 100, 1, 2, buyer, "SHOP-000000000000", .paymentPending, 2, "EUR", 500, some 1800000005, none⟩

def intent : CatalogPaymentIntent :=
    { id := 600, orderId := 500, provider := .demo, amountMinor := 500, currency := "EUR" }

def receipt : CatalogCommandReceipt :=
  receiptOf (request (Store.demoCreateKey lib 1)) catalog .paymentCreated (createDigest lib 500 .demo) "" 600

end Shop

/-- A payment that is begun and not overtaken is completed under its own key. -/
theorem begun_payment_pays : PaidBy (Shop.payment Shop.begun 1 6) 500 := by
  have evaluated : Shop.order ∈ (Shop.store Shop.begun).orders.rows ∧
    Shop.intent ∈ (Shop.store Shop.begun).intents.rows ∧
      (Shop.store Shop.begun).catalogOf? 1 2 = some Shop.catalog ∧
      (Shop.store Shop.begun).receipts.get? (100, Shop.buyer, Store.demoCreateKey Shop.lib 1) = some Shop.receipt ∧
      (Shop.store Shop.begun).receipts.get? (100, Shop.buyer, Store.demoReconcileKey Shop.lib 1) = none ∧
      (Shop.store Shop.begun).events.get? (.demo, Store.demoEventId 1) = none ∧
      (∀ i ∈ (Shop.store Shop.begun).intents.rows, i.id ≠ (Shop.surroundings 8).newId 0) ∧
      ∀ e ∈ (Shop.store Shop.begun).events.rows, e.id ≠ (Shop.surroundings 9).newId 0 := by
    decide +kernel
  obtain ⟨order, intent, catalog, begun, unused, unconsumed, freshIntent, freshEvent⟩ := evaluated
  have payable : ∀ store : Store, Shop.intent ∈ store.intents →
      store.receipts.get? (100, Shop.buyer, Store.demoCreateKey Shop.lib 1) = some Shop.receipt →
      store.receipts.get? (100, Shop.buyer, Store.demoReconcileKey Shop.lib 1) = none →
      store.events.get? (.demo, Store.demoEventId 1) = none →
      DemoPayable store Shop.lib (Shop.surroundings 8, Shop.surroundings 9) (Shop.request 1)
        Shop.catalog Shop.order := by
    intro store intent begun unused unconsumed
    have begun : store.receipts.get? (Shop.catalog.id, (Shop.request 1).actorId,
        Store.demoCreateKey Shop.lib (Shop.request 1).idempotencyKey) = some Shop.receipt := begun
    rw [DemoPayable, begun]
    exact ⟨rfl, rfl, rfl, Shop.intent, intent, rfl, rfl, rfl, rfl, rfl, unused, unconsumed⟩
  have mem : Shop.order ∈ ((catalogMachine Shop.lib).run .empty Shop.begun).orders := order
  have due : Shop.order.status = .paymentPending := rfl
  have owned : OwnedBy (Shop.request 1) Shop.order := ⟨rfl, rfl, rfl⟩
  have found : ((catalogMachine Shop.lib).run .empty Shop.begun).catalogOf?
      (Shop.request 1).organizationId (Shop.request 1).editionId = some Shop.catalog := catalog
  have freshIntent : ∀ i ∈ ((catalogMachine Shop.lib).run .empty Shop.begun).intents,
      i.id ≠ (Shop.surroundings 8, Shop.surroundings 9).1.newId 0 := freshIntent
  have freshEvent : ∀ e ∈ ((catalogMachine Shop.lib).run .empty Shop.begun).events,
      e.id ≠ (Shop.surroundings 8, Shop.surroundings 9).2.newId 0 := freshEvent
  exact (demo_payment_pays_iff Shop.begun mem due owned found freshIntent freshEvent).mpr
    (payable _ intent begun unused unconsumed)

/-- A demo payment that was cut short after its first half, and then overtaken by another command,
is never completed: not with its own key, and not with another one. -/
theorem half_paid_order_is_stuck :
    (Shop.store Shop.interrupted).orders.rows.map (fun o => (o.id, o.accountId, o.status, o.aggregateVersion)) =
        [(500, Shop.buyer, .paymentPending, 2)] ∧
      (Shop.store Shop.interrupted).catalogs.rows.map (·.aggregateVersion) = [7] ∧
      ¬ PaidBy (Shop.payment Shop.interrupted 1 7) 500 ∧ ¬ PaidBy (Shop.payment Shop.interrupted 2 7) 500 := by
  have evaluated : (Shop.store Shop.interrupted).orders.rows.map (fun o => (o.id, o.accountId,
        o.status, o.aggregateVersion)) = [(500, Shop.buyer, .paymentPending, 2)] ∧
      (Shop.store Shop.interrupted).catalogs.rows.map (·.aggregateVersion) = [7] ∧
      (Shop.payment Shop.interrupted 1 7).2.isOk = false ∧ (Shop.payment Shop.interrupted 2 7).2.isOk = false := by
    decide +kernel
  have unanswered : ∀ outcome : Store × Except CatalogError CatalogCommandResult,
      outcome.2.isOk = false → ¬ PaidBy outcome 500 := by
    rintro outcome failed ⟨⟨answer, answered⟩, -⟩
    rw [answered] at failed
    cases failed
  obtain ⟨orders, versions, sameKey, otherKey⟩ := evaluated
  exact ⟨orders, versions, unanswered _ sameKey, unanswered _ otherKey⟩

end Maru.Catalog
