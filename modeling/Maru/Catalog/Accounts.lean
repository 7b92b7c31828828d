import Maru.Catalog.Stock

/-!
# What is owed and what was paid

An order owes what its lines add up to. The intents of an order are counted by their status
(`intentCount`): at most one is pending, none once the order is paid, and one has succeeded
exactly when an order that owes something is paid (`Step.accounted`). Every intent that
reached its result has one event as evidence (`Step.evidenced`). Together with the limits of
the stock and the versions these hold after every run (`run_lawful`).
-/

namespace Maru.Catalog

/-- The intents of an order that have a status. -/
def Store.intentCount (store : Store) (orderId : Uuid) (status : IntentStatus) : Nat :=
  store.intents.rows.countP fun i => i.orderId = orderId ∧ i.status = status

/-- An order agrees with its lines and its intents. -/
structure Account (store : Store) (o : CatalogOrder) : Prop where
  status : o.status = .paymentPending ∨ o.status = .paid
  total : o.totalMinor = ((store.linesOf o.id).map (·.lineTotalMinor)).sum
  free : o.totalMinor = 0 → o.status = .paid
  exact : ∀ i ∈ store.intents, i.orderId = o.id → i.amountMinor = o.totalMinor ∧ i.currency = o.currency
  pending : store.intentCount o.id .pending ≤ if o.status = .paid then 0 else 1
  succeeded : store.intentCount o.id .succeeded = if o.status = .paid ∧ 0 < o.totalMinor then 1 else 0

/-- Every intent that reached its result has one event, and every event is about such an intent. -/
structure Evidenced (store : Store) : Prop where
  reached : ∀ i ∈ store.intents, i.status ≠ .pending → ∃ e ∈ store.events, e.intentId = i.id
  settled : ∀ e ∈ store.events, ∃ i ∈ store.intents, i.id = e.intentId ∧ i.provider = e.provider ∧
    i.status = e.result.status
  once : ∀ e ∈ store.events, ∀ e' ∈ store.events, e.intentId = e'.intentId → e = e'

section

variable {store after : Store}

/-! ## Counting intents -/

theorem intentCount_congr (intents : after.intents = store.intents) (id : Uuid)
    (status : IntentStatus) : after.intentCount id status = store.intentCount id status := by
  rw [Store.intentCount, Store.intentCount, intents]

theorem intentCount_insert {intent : CatalogPaymentIntent} {intents : Table CatalogPaymentIntent.id}
    (inserted : store.intents.insert? intent = some intents) (same : after.intents = intents)
      (id : Uuid) (status : IntentStatus) :
    after.intentCount id status =
      store.intentCount id status + if intent.orderId = id ∧ intent.status = status then 1 else 0 := by
  have counted := Table.countP_insert? inserted fun i => i.orderId = id ∧ i.status = status
  simp only [decide_eq_true_eq] at counted
  rw [Store.intentCount, same, counted, Store.intentCount]

theorem intentCount_save {intent saved : CatalogPaymentIntent} (same : after.intents = store.intents.save saved)
    (mem : intent ∈ store.intents) (key : intent.id = saved.id) (id : Uuid) (status : IntentStatus) :
    after.intentCount id status + (if intent.orderId = id ∧ intent.status = status then 1 else 0) =
      store.intentCount id status + if saved.orderId = id ∧ saved.status = status then 1 else 0 := by
  have counted := Table.countP_save mem key fun i => i.orderId = id ∧ i.status = status
  simp only [decide_eq_true_eq] at counted
  rw [Store.intentCount, same, counted, Store.intentCount]

/-- No intent with the status: none is counted. -/
theorem intentCount_eq_zero {id : Uuid} {status : IntentStatus}
    (none : ∀ i ∈ store.intents, i.orderId = id → i.status ≠ status) : store.intentCount id status = 0 := by
  rw [Store.intentCount, List.countP_eq_zero]
  intro i hi counted
  obtain ⟨of, same⟩ := of_decide_eq_true counted
  exact none i hi of same

theorem intentCount_pos {i : CatalogPaymentIntent} (mem : i ∈ store.intents) :
    0 < store.intentCount i.orderId i.status := by
  rw [Store.intentCount, List.countP_pos_iff]
  exact ⟨i, mem, by simp⟩

/-! ## Lines -/

/-- The lines of an order stay as they are placed. -/
theorem Step.linesOf (step : Step store after) {o : CatalogOrder} (ho : o ∈ store.orders) :
    after.linesOf o.id = store.linesOf o.id := by
  cases step with
  | @ordered _ _ _ _ variants quantities order _ _ _ _ inserted lined =>
    have other : o.id ≠ order.id := (Table.insert?_eq_some.mp inserted).1 o ho
    have none : (variants.map (Store.orderLine order.id quantities)).filter
      (fun l => decide (l.orderId = o.id)) = [] := by
      rw [List.filter_eq_nil_iff]
      intro l hl same
      obtain ⟨v, -, rfl⟩ := List.mem_map.mp hl
      exact other (of_decide_eq_true same).symm
    rw [Store.linesOf, lined, List.filter_append, none, List.append_nil, Store.linesOf]
  | created => rfl
  | product => rfl
  | variant => rfl
  | activated => rfl
  | adjusted => rfl
  | started => rfl
  | settled => rfl

/-- A new order has the lines of its variants. -/
theorem linesOf_ordered {order : CatalogOrder} {orders : Table CatalogOrder.id} {lines : Table CatalogOrderLine.key}
    {quantities : List (Uuid × Nat)} {variants : List CatalogVariant} (referenced : Referenced store)
    (inserted : store.orders.insert? order = some orders)
    (lined : lines.rows = store.lines.rows ++ variants.map (Store.orderLine order.id quantities)) :
    lines.rows.filter (fun l => l.orderId = order.id) = variants.map (Store.orderLine order.id quantities) := by
  have old : store.lines.rows.filter (fun l => decide (l.orderId = order.id)) = [] := by
    rw [List.filter_eq_nil_iff]
    intro l hl same
    obtain ⟨⟨o, ho, key⟩, -⟩ := referenced.lines l hl
    exact (Table.insert?_eq_some.mp inserted).1 o ho (key.trans (of_decide_eq_true same))
  have new : (variants.map (Store.orderLine order.id quantities)).filter (fun l =>
      decide (l.orderId = order.id)) = variants.map (Store.orderLine order.id quantities) := by
    rw [List.filter_eq_self]
    intro l hl
    obtain ⟨v, -, rfl⟩ := List.mem_map.mp hl
    exact decide_eq_true rfl
  rw [lined, List.filter_append, old, new, List.nil_append]

/-! ## Orders -/

/-- An account stays as it is while its order, its lines and its intents do. -/
theorem Account.of_same {o : CatalogOrder} (h : Account store o) (lines : after.linesOf o.id = store.linesOf o.id)
    (exact : ∀ i ∈ after.intents, i.orderId = o.id → i.amountMinor = o.totalMinor ∧ i.currency = o.currency)
    (counts : ∀ status, after.intentCount o.id status = store.intentCount o.id status) : Account after o where
  status := h.status
  total := by rw [lines, h.total]
  free := h.free
  exact := exact
  pending := (counts .pending).trans_le h.pending
  succeeded := by rw [counts, h.succeeded]

/-- A row in the place of `order`, or a row that was there under another key. -/
theorem mem_orders_saved {order saved o : CatalogOrder} (mem : order ∈ store.orders) (key : saved.id = order.id) :
    o ∈ store.orders.save saved ↔ (o ∈ store.orders ∧ o.id ≠ order.id) ∨ o = saved := by
  rw [Table.mem_save_of_mem mem key.symm, key]

/-- A new order owes what its lines add up to; no intent is about it. -/
theorem accounted_ordered {catalog : EditionCatalog} {variants : List CatalogVariant} {quantities : List (Uuid × Nat)}
    {order : CatalogOrder} {orders : Table CatalogOrder.id} (referenced : Referenced store)
    (placed : Orders store catalog variants quantities order) (inserted : store.orders.insert? order = some orders)
    (intents : after.intents = store.intents)
    (lined : after.lines.rows = store.lines.rows ++
      variants.map (Store.orderLine order.id quantities)) : Account after order := by
  have none : ∀ i ∈ after.intents, i.orderId ≠ order.id := by
    rw [intents]
    intro i hi of
    obtain ⟨o, ho, key⟩ := referenced.intents i hi
    exact (Table.insert?_eq_some.mp inserted).1 o ho (key.trans of)
  have zero : ∀ status, after.intentCount order.id status = 0 := fun status =>
    intentCount_eq_zero fun i hi of => absurd of (none i hi)
  have status := placed.status
  refine ⟨?_, ?_, ?_, fun i hi of => absurd of (none i hi), ?_, ?_⟩
  · rw [status]
    split
    · exact .inr rfl
    · exact .inl rfl
  · rw [Store.linesOf, linesOf_ordered referenced inserted lined, placed.total, List.map_map]
    rfl
  · intro free
    rw [status, if_pos free]
  · rw [zero]
    exact Nat.zero_le _
  · rw [zero, if_neg]
    rintro ⟨paid, owed⟩
    rw [status, if_neg owed.ne'] at paid
    cases paid

/-- An intent is started for a pending order that has no pending one. -/
theorem accounted_started {order saved : CatalogOrder} {intent : CatalogPaymentIntent}
    {intents : Table CatalogPaymentIntent.id}
    (h : ∀ o ∈ store.orders, Account store o) (mem : order ∈ store.orders) (due : order.status = .paymentPending)
    (none : ∀ other ∈ store.intents, other.orderId = order.id → other.status ≠ .pending)
    (inserted : store.intents.insert? intent = some intents) (of : intent.orderId = order.id)
      (pending : intent.status = .pending)
    (exact : intent.amountMinor = order.totalMinor ∧ intent.currency = order.currency)
    (same : saved = { order with aggregateVersion := order.aggregateVersion + 1 })
    (written : after.intents = intents) (orders : after.orders = store.orders.save saved)
    (lines : ∀ o ∈ store.orders, after.linesOf o.id = store.linesOf o.id) : ∀ o ∈ after.orders, Account after o := by
  have counts := intentCount_insert inserted written
  have exacts : ∀ o ∈ store.orders, ∀ i ∈ after.intents, i.orderId = o.id →
      i.amountMinor = o.totalMinor ∧ i.currency = o.currency := by
    rw [written]
    intro o ho i hi forIt
    rcases (Table.mem_insert? inserted).mp hi with hi | rfl
    · exact (h o ho).exact i hi forIt
    · obtain rfl := Table.eq_of_key ho mem (forIt.symm.trans of)
      exact exact
  have key : saved.id = order.id := by rw [same]
  rw [orders]
  intro o ho
  rcases (mem_orders_saved mem key).mp ho with ⟨ho, other⟩ | rfl
  · refine (h o ho).of_same (lines o ho) (exacts o ho) fun status => ?_
    rw [counts, if_neg fun hit => other (hit.1.symm.trans of), Nat.add_zero]
  · subst same
    have account := h order mem
    have zero : store.intentCount order.id .pending = 0 := intentCount_eq_zero fun i hi forIt => none i hi forIt
    refine ⟨account.status, (lines order mem).symm ▸ account.total, account.free, exacts order mem, ?_, ?_⟩
    · rw [counts, zero, if_pos ⟨of, pending⟩, due]
      exact Nat.le_refl 1
    · rw [counts, if_neg (by rw [pending]; simp), Nat.add_zero]
      exact account.succeeded

/-- The pending intent of an order reaches its result: the order was not paid yet, and is
if the intent succeeded. -/
theorem accounted_settled {order : CatalogOrder} {intent : CatalogPaymentIntent} {result : PaymentResult}
    {event : CatalogPaymentEvent} {now : Int} (h : ∀ o ∈ store.orders, Account store o)
    (settles : Settles store intent order result event)
    (written : after.intents = store.intents.save (Store.settledIntent intent result now))
    (orders : after.orders = store.orders.save (Store.settledOrder order result now))
    (lines : ∀ o ∈ store.orders, after.linesOf o.id = store.linesOf o.id) : ∀ o ∈ after.orders, Account after o := by
  have counts := intentCount_save written settles.mem rfl
  have exacts : ∀ o ∈ store.orders, ∀ i ∈ after.intents, i.orderId = o.id →
      i.amountMinor = o.totalMinor ∧ i.currency = o.currency := by
    rw [written]
    intro o ho i hi forIt
    rcases Table.mem_save.mp hi with ⟨hi, -⟩ | ⟨rfl, -⟩
    · exact (h o ho).exact i hi forIt
    · exact (h o ho).exact intent settles.mem forIt
  rw [orders]
  intro o ho
  rcases (mem_orders_saved settles.orderMem settledOrder_kept.id).mp ho with ⟨ho, other⟩ | rfl
  · refine (h o ho).of_same (lines o ho) (exacts o ho) fun status => ?_
    have count := counts o.id status
    have elsewhere : intent.orderId ≠ o.id := fun same => other (same.symm.trans settles.of)
    rwa [if_neg fun hit => elsewhere hit.1, if_neg fun hit => elsewhere hit.1] at count
  · have account := h order settles.orderMem
    have atMost := account.pending
    have succeeded := account.succeeded
    have one : 0 < store.intentCount order.id .pending := by
      rw [← settles.of, ← settles.pending]
      exact intentCount_pos settles.mem
    have due : order.status = .paymentPending := by
      rcases account.status with due | paid
      · exact due
      · rw [if_pos paid] at atMost
        omega
    have owed : 0 < order.totalMinor := by
      rcases Nat.eq_zero_or_pos order.totalMinor with free | owed
      · have paid := account.free free
        rw [due] at paid
        cases paid
      · exact owed
    have pendingCount := counts order.id .pending
    have succeededCount := counts order.id .succeeded
    rw [if_pos ⟨settles.of, settles.pending⟩] at pendingCount
    rw [if_neg (by rw [settles.pending]; simp)] at succeededCount
    rw [due, if_neg (by simp)] at atMost
    rw [due, if_neg (by simp)] at succeeded
    have total := account.total
    rw [← lines order settles.orderMem] at total
    cases result with
    | succeeded =>
      rw [if_neg (by simp [Store.settledIntent, PaymentResult.status])] at pendingCount
      rw [if_pos ⟨settles.of, rfl⟩] at succeededCount
      refine ⟨.inr rfl, total, fun _ => rfl, exacts order settles.orderMem, ?_, ?_⟩
      · show after.intentCount order.id .pending ≤ 0
        omega
      · rw [if_pos ⟨rfl, owed⟩]
        show after.intentCount order.id .succeeded = 1
        omega
    | failed =>
      rw [if_neg (by simp [Store.settledIntent, PaymentResult.status])] at pendingCount
      rw [if_neg (by simp [Store.settledIntent, PaymentResult.status])] at succeededCount
      refine ⟨.inl due, total, account.free, exacts order settles.orderMem, ?_, ?_⟩
      · show after.intentCount order.id .pending ≤ if order.status = .paid then 0 else 1
        rw [due, if_neg (by simp)]
        omega
      · rw [if_neg]
        · show after.intentCount order.id .succeeded = 0
          omega
        · rintro ⟨paid, -⟩
          cases due.symm.trans paid

theorem Step.accounted (referenced : Referenced store) (h : ∀ o ∈ store.orders, Account store o)
    (step : Step store after) : ∀ o ∈ after.orders, Account after o := by
  have lines : ∀ o ∈ store.orders, after.linesOf o.id = store.linesOf o.id := fun o ho => step.linesOf ho
  have kept : ∀ o ∈ store.orders, after.intents = store.intents → Account after o := fun o ho same =>
    (h o ho).of_same (lines o ho) (by rw [same]; exact (h o ho).exact) (intentCount_congr same o.id)
  cases step with
  | created => exact fun o ho => kept o ho rfl
  | product => exact fun o ho => kept o ho rfl
  | variant => exact fun o ho => kept o ho rfl
  | activated => exact fun o ho => kept o ho rfl
  | adjusted => exact fun o ho => kept o ho rfl
  | ordered recorded placed inserted lined =>
    intro o ho
    rcases (Table.mem_insert? inserted).mp ho with ho | rfl
    · exact kept o ho rfl
    · exact accounted_ordered referenced placed inserted rfl lined
  | started recorded mem due none inserted of pending exact =>
    exact accounted_started h mem due none inserted of pending exact rfl rfl rfl lines
  | settled recorded settles => exact accounted_settled h settles rfl rfl lines

/-! ## Evidence -/

theorem Step.evidenced (h : Evidenced store) (step : Step store after) : Evidenced after := by
  cases step with
  | created => exact ⟨h.reached, h.settled, h.once⟩
  | product => exact ⟨h.reached, h.settled, h.once⟩
  | variant => exact ⟨h.reached, h.settled, h.once⟩
  | activated => exact ⟨h.reached, h.settled, h.once⟩
  | adjusted => exact ⟨h.reached, h.settled, h.once⟩
  | ordered => exact ⟨h.reached, h.settled, h.once⟩
  | started recorded mem due none inserted of pending =>
    refine ⟨fun i hi reached => ?_, fun e he => ?_, h.once⟩
    · rcases (Table.mem_insert? inserted).mp hi with hi | rfl
      · exact h.reached i hi reached
      · exact absurd pending reached
    · obtain ⟨i, hi, evidence⟩ := h.settled e he
      exact ⟨i, (Table.mem_insert? inserted).mpr (.inl hi), evidence⟩
  | @settled _ _ _ _ intent order result event events now recorded settles inserted =>
    -- A pending intent has no event yet.
    have none : ∀ e ∈ store.events, e.intentId ≠ intent.id := by
      intro e he about
      obtain ⟨i, hi, key, -, status⟩ := h.settled e he
      obtain rfl := Table.eq_of_key hi settles.mem (key.trans about)
      rw [settles.pending] at status
      cases result : e.result <;> rw [result] at status <;> cases status
    have saved : Store.settledIntent intent result now ∈ store.intents.save (Store.settledIntent intent result now) :=
      Table.mem_save.mpr (.inr ⟨rfl, intent, settles.mem, rfl⟩)
    refine ⟨fun i hi reached => ?_, fun e he => ?_, fun e he e' he' same => ?_⟩
    · rcases Table.mem_save.mp hi with ⟨hi, -⟩ | ⟨rfl, -⟩
      · obtain ⟨e, he, about⟩ := h.reached i hi reached
        exact ⟨e, (Table.mem_insert? inserted).mpr (.inl he), about⟩
      · exact ⟨event, (Table.mem_insert? inserted).mpr (.inr rfl), settles.event.1⟩
    · rcases (Table.mem_insert? inserted).mp he with he | rfl
      · obtain ⟨i, hi, key, evidence⟩ := h.settled e he
        exact ⟨i, Table.mem_save.mpr (.inl ⟨hi, fun same => none e he (key.symm.trans same)⟩), key, evidence⟩
      · refine ⟨_, saved, settles.event.1.symm, settles.event.2.1.symm, ?_⟩
        rw [settles.event.2.2]
        rfl
    · rcases (Table.mem_insert? inserted).mp he with he | rfl <;>
        rcases (Table.mem_insert? inserted).mp he' with he' | rfl
      · exact h.once e he e' he' same
      · exact absurd (same.trans settles.event.1) (none e he)
      · exact absurd (same.symm.trans settles.event.1) (none e' he')
      · rfl

theorem Step.events (step : Step store after) : ∀ e ∈ store.events, e ∈ after.events := by
  intro e he
  cases step with
  | settled _ _ inserted => exact (Table.mem_insert? inserted).mpr (.inl he)
  | created => exact he
  | product => exact he
  | variant => exact he
  | activated => exact he
  | adjusted => exact he
  | ordered => exact he
  | started => exact he

end

/-! ## Runs -/

/-- What every step keeps. -/
structure Valid (store : Store) : Prop where
  versioned : Versioned store
  referenced : Referenced store
  stocked : Stocked store
  accounts : ∀ o ∈ store.orders, Account store o
  evidenced : Evidenced store

theorem valid_empty : Valid .empty := by
  refine ⟨⟨?_, ?_, ?_⟩, ⟨?_, ?_, ?_, ?_, ?_, ?_⟩, ⟨?_, ?_, ?_⟩, ?_, ⟨?_, ?_, ?_⟩⟩ <;>
    exact fun _ h => absurd h List.not_mem_nil

theorem Step.valid {store after : Store} (h : Valid store) (step : Step store after) : Valid after where
  versioned := step.versioned h.versioned
  referenced := step.referenced h.referenced
  stocked := step.stocked h.referenced h.stocked
  accounts := step.accounted h.referenced h.accounts
  evidenced := step.evidenced h.evidenced

section

variable (lib : Primitives)

theorem run_valid (calls : List Call) : Valid ((catalogMachine lib).run .empty calls) := by
  refine Machine.run_invariant (fun store call after result h committed => ?_) valid_empty calls
  rcases exec_step committed with rfl | step
  · exact h
  · exact step.valid h

/-- What a later state keeps of an order and of the events. -/
structure Remembers (store after : Store) : Prop where
  orders : ∀ o ∈ store.orders, (∃ o' ∈ after.orders, OrderKept o o') ∧ after.linesOf o.id = store.linesOf o.id
  events : ∀ e ∈ store.events, e ∈ after.events

theorem Remembers.refl (store : Store) : Remembers store store :=
  ⟨fun o ho => ⟨⟨o, ho, .refl o⟩, rfl⟩, fun _ he => he⟩

theorem Step.remembers {first store after : Store} (h : Remembers first store)
    (step : Step store after) : Remembers first after := by
  refine ⟨fun o ho => ?_, fun e he => step.events e (h.events e he)⟩
  obtain ⟨⟨o', ho', kept⟩, lines⟩ := h.orders o ho
  obtain ⟨o'', ho'', kept'⟩ := step.grows.orders o' ho'
  have same := step.linesOf ho'
  rw [kept.id] at same
  exact ⟨⟨o'', ho'', kept.trans kept'⟩, same.trans lines⟩

theorem run_remembers (store : Store) (calls : List Call) : Remembers store ((catalogMachine lib).run store calls) := by
  refine Machine.run_invariant (I := Remembers store) (fun s call after result h committed => ?_) (.refl store) calls
  rcases exec_step committed with rfl | step
  · exact h
  · exact step.remembers h

/-- The law of a catalog's stock, orders and payments. -/
structure Lawful (store : Store) : Prop where
  /-- A limited stock stays under its ceiling, and covers what is committed unless the
  product may be preordered. -/
  stock : ∀ v ∈ store.variants, ∀ stock, store.effectiveStock v = some stock →
    (∃ ceiling, v.stockCeiling = some ceiling ∧ stock ≤ ceiling) ∧
      ∀ p ∈ store.products, p.id = v.productId → p.preorderAllowed = false → store.committedQuantity v.id ≤ stock
  total : ∀ o ∈ store.orders, o.totalMinor = ((store.linesOf o.id).map (·.lineTotalMinor)).sum
  pending : ∀ o ∈ store.orders, store.intentCount o.id .pending ≤ 1 ∧
    (o.status = .paid → store.intentCount o.id .pending = 0)
  exact : ∀ i ∈ store.intents, ∃ o ∈ store.orders, o.id = i.orderId ∧ i.amountMinor = o.totalMinor ∧
    i.currency = o.currency
  /-- An order that owes something is paid by one intent. -/
  paid : ∀ o ∈ store.orders, 0 < o.totalMinor →
    store.intentCount o.id .succeeded ≤ 1 ∧ (o.status = .paid ↔ store.intentCount o.id .succeeded = 1)
  /-- An event of a provider brings one intent to its result, and every result comes from one event.
  -/
  events : (∀ e ∈ store.events, ∀ e' ∈ store.events, e.provider = e'.provider →
      e.providerEventId = e'.providerEventId → e = e') ∧
    (∀ e ∈ store.events, ∃ i ∈ store.intents, i.id = e.intentId ∧ i.provider = e.provider ∧ i.status = e.result.status) ∧
    ∀ i ∈ store.intents, i.status ≠ .pending → ∃ e ∈ store.events, e.intentId = i.id ∧
      ∀ e' ∈ store.events, e'.intentId = i.id → e' = e
  version : ∀ c ∈ store.catalogs, c.aggregateVersion = (store.receiptsOf c.id).length

theorem Valid.lawful {store : Store} (h : Valid store) : Lawful store where
  stock v hv stock hs := by
    refine ⟨?_, fun p hp under limited => h.stocked.covered v hv p hp under limited stock hs⟩
    have limited := h.stocked.shape v hv
    obtain ⟨initial, started, -⟩ := Option.map_eq_some_iff.mp hs
    rw [started, Option.isSome_some, eq_comm, Option.isSome_iff_exists] at limited
    obtain ⟨ceiling, hc⟩ := limited
    exact ⟨ceiling, hc, h.stocked.limits v hv stock hs ceiling hc⟩
  total o ho := (h.accounts o ho).total
  pending o ho := by
    have bound := (h.accounts o ho).pending
    split at bound
    · omega
    · rename_i unpaid
      exact ⟨bound, fun paid => absurd paid unpaid⟩
  exact i hi := by
    obtain ⟨o, ho, of⟩ := h.referenced.intents i hi
    exact ⟨o, ho, of, (h.accounts o ho).exact i hi of.symm⟩
  paid o ho owed := by
    have count := (h.accounts o ho).succeeded
    split at count
    · rename_i paid
      exact ⟨count.le, fun _ => count, fun _ => paid.1⟩
    · rename_i unpaid
      refine ⟨by omega, fun paid => absurd ⟨paid, owed⟩ unpaid, fun one => ?_⟩
      omega
  events := by
    refine ⟨fun e he e' he' provider id => Table.eq_of_key he he' (Prod.ext provider id),
      h.evidenced.settled, fun i hi reached => ?_⟩
    obtain ⟨e, he, about⟩ := h.evidenced.reached i hi reached
    exact ⟨e, he, about, fun e' he' same => h.evidenced.once e' he' e he (same.trans about.symm)⟩
  version c hc := (h.versioned.count c hc).symm

/-- After every run of commands the law holds, and a later run changes no order's
lines, total or currency. -/
theorem run_lawful (calls later : List Call) :
    Lawful ((catalogMachine lib).run .empty calls) ∧
      Remembers ((catalogMachine lib).run .empty calls) ((catalogMachine lib).run .empty (calls ++ later)) := by
  rw [Machine.run_append]
  exact ⟨(run_valid lib calls).lawful, run_remembers lib _ later⟩

end

end Maru.Catalog
