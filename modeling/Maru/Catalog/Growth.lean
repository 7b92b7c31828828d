import Maru.Catalog.Writes

/-!
# What a catalog keeps

No step removes a row. A catalog's version rises, a product changes its status only, a variant and
an order line never change, and an order keeps its account, its total and its currency, and stays
paid once it is (`Step.grows`). So every reference stays good (`Referenced`), and the version of
a catalog is the number of its receipts (`Versioned`).
-/

namespace Maru.Catalog

structure CatalogKept (c c' : EditionCatalog) : Prop where
  id : c'.id = c.id
  organizationId : c'.organizationId = c.organizationId
  editionId : c'.editionId = c.editionId
  version : c.aggregateVersion ≤ c'.aggregateVersion

structure ProductKept (p p' : CatalogProduct) : Prop where
  id : p'.id = p.id
  catalogId : p'.catalogId = p.catalogId
  preorderAllowed : p'.preorderAllowed = p.preorderAllowed

structure OrderKept (o o' : CatalogOrder) : Prop where
  id : o'.id = o.id
  catalogId : o'.catalogId = o.catalogId
  organizationId : o'.organizationId = o.organizationId
  editionId : o'.editionId = o.editionId
  accountId : o'.accountId = o.accountId
  totalMinor : o'.totalMinor = o.totalMinor
  currency : o'.currency = o.currency
  paid : o.status = .paid → o'.status = .paid

theorem CatalogKept.refl (c : EditionCatalog) : CatalogKept c c := ⟨rfl, rfl, rfl, Nat.le_refl _⟩

theorem ProductKept.refl (p : CatalogProduct) : ProductKept p p := ⟨rfl, rfl, rfl⟩

theorem OrderKept.refl (o : CatalogOrder) : OrderKept o o := ⟨rfl, rfl, rfl, rfl, rfl, rfl, rfl, fun paid => paid⟩

theorem OrderKept.trans {o o' o'' : CatalogOrder} (h : OrderKept o o') (h' : OrderKept o' o'') : OrderKept o o'' where
  id := h'.id.trans h.id
  catalogId := h'.catalogId.trans h.catalogId
  organizationId := h'.organizationId.trans h.organizationId
  editionId := h'.editionId.trans h.editionId
  accountId := h'.accountId.trans h.accountId
  totalMinor := h'.totalMinor.trans h.totalMinor
  currency := h'.currency.trans h.currency
  paid := fun paid => h'.paid (h.paid paid)

/-- The rows after some steps: what they keep of the rows before. -/
structure Grows (store after : Store) : Prop where
  catalogs : ∀ c ∈ store.catalogs, ∃ c' ∈ after.catalogs, CatalogKept c c'
  products : ∀ p ∈ store.products, ∃ p' ∈ after.products, ProductKept p p'
  variants : ∀ v ∈ store.variants, v ∈ after.variants
  orders : ∀ o ∈ store.orders, ∃ o' ∈ after.orders, OrderKept o o'
  lines : ∃ placed, after.lines.rows = store.lines.rows ++ placed

section

variable {store after : Store} {catalog advanced : EditionCatalog}
  {catalogs : Table EditionCatalog.id} {receipts : Table CatalogCommandReceipt.key}

theorem Recorded.mem_iff (h : Recorded store catalog advanced catalogs receipts) {c : EditionCatalog} :
    c ∈ catalogs ↔ (c ∈ store.catalogs ∧ c.id ≠ catalog.id) ∨ c = advanced := by
  rw [h.saved, Table.mem_save_of_mem h.mem h.same.1.symm, h.same.1]

theorem Recorded.kept (h : Recorded store catalog advanced catalogs receipts) :
    ∀ c ∈ store.catalogs, ∃ c' ∈ catalogs, CatalogKept c c' := by
  intro c hc
  by_cases same : c.id = catalog.id
  · obtain rfl := Table.eq_of_key hc h.mem same
    exact ⟨advanced, h.mem_iff.mpr (.inr rfl), h.same.1, h.same.2.1, h.same.2.2.1, by rw [h.version]; omega⟩
  · exact ⟨c, h.mem_iff.mpr (.inl ⟨hc, same⟩), .refl c⟩

theorem mem_activateProducts {catalogId : Uuid} {p : CatalogProduct} :
    p ∈ (store.activateProducts catalogId).products ↔
      (p ∈ store.products ∧ p.catalogId ≠ catalogId) ∨
        ∃ q ∈ store.products, q.catalogId = catalogId ∧ p = { q with status := .active } := by
  have mem : ∀ q ∈ store.products.rows.filter fun product => product.catalogId = catalogId, q ∈ store.products :=
    fun q hq => (List.mem_filter.mp hq).1
  have nodup : ((store.products.rows.filter fun product => product.catalogId = catalogId).map CatalogProduct.id).Nodup :=
    store.products.nodup.sublist (List.filter_sublist.map _)
  have saved := Table.mem_saveAll (f := fun product : CatalogProduct =>
    { product with status := .active }) (fun _ => rfl) mem nodup (a := p)
  rw [Store.activateProducts, saved]
  simp only [List.mem_filter, decide_eq_true_eq]
  constructor
  · rintro (⟨hp, other⟩ | ⟨q, ⟨hq, of⟩, rfl⟩)
    · exact .inl ⟨hp, fun of => other p ⟨hp, of⟩ rfl⟩
    · exact .inr ⟨q, hq, of, rfl⟩
  · rintro (⟨hp, other⟩ | ⟨q, hq, of, rfl⟩)
    · exact .inl ⟨hp, fun q hq same => other (by rw [Table.eq_of_key hp hq.1 same]; exact hq.2)⟩
    · exact .inr ⟨q, ⟨hq, of⟩, rfl⟩

/-- Saving over an order keeps the orders. -/
theorem orders_saved {order saved : CatalogOrder} (mem : order ∈ store.orders) (kept : OrderKept order saved) :
    ∀ o ∈ store.orders, ∃ o' ∈ store.orders.save saved, OrderKept o o' := by
  intro o ho
  by_cases same : o.id = order.id
  · obtain rfl := Table.eq_of_key ho mem same
    exact ⟨saved, (Table.mem_save_of_mem mem kept.id.symm).mpr (.inr rfl), kept⟩
  · exact ⟨o, (Table.mem_save_of_mem mem kept.id.symm).mpr (.inl ⟨ho, fun e => same (e.trans kept.id)⟩), .refl o⟩

theorem settledOrder_kept {order : CatalogOrder} {result : PaymentResult} {now : Int} :
    OrderKept order (Store.settledOrder order result now) := by
  cases result with
  | succeeded => exact ⟨rfl, rfl, rfl, rfl, rfl, rfl, rfl, fun _ => rfl⟩
  | failed => exact ⟨rfl, rfl, rfl, rfl, rfl, rfl, rfl, id⟩

theorem Grows.refl (store : Store) : Grows store store where
  catalogs := fun c h => ⟨c, h, .refl c⟩
  products := fun p h => ⟨p, h, .refl p⟩
  variants := fun _ h => h
  orders := fun o h => ⟨o, h, .refl o⟩
  lines := ⟨[], by simp⟩

theorem Step.grows (h : Step store after) : Grows store after := by
  have self := Grows.refl store
  cases h with
  | created _ _ inserted =>
    exact { self with catalogs := fun c hc => ⟨c, (Table.mem_insert? inserted).mpr (.inl hc), .refl c⟩ }
  | product recorded inserted =>
    exact { self with
      catalogs := recorded.kept
      products := fun p hp => ⟨p, (Table.mem_insert? inserted).mpr (.inl hp), .refl p⟩ }
  | variant recorded inserted =>
    exact { self with catalogs := recorded.kept, variants := fun v hv => (Table.mem_insert? inserted).mpr (.inl hv) }
  | @activated catalog _ _ _ recorded =>
    refine { self with catalogs := recorded.kept, products := fun p hp => ?_ }
    by_cases of : p.catalogId = catalog.id
    · exact ⟨_, mem_activateProducts.mpr (.inr ⟨p, hp, of, rfl⟩), rfl, rfl, rfl⟩
    · exact ⟨p, mem_activateProducts.mpr (.inl ⟨hp, of⟩), .refl p⟩
  | adjusted recorded => exact { self with catalogs := recorded.kept }
  | ordered recorded _ inserted lined =>
    exact { self with
      catalogs := recorded.kept
      orders := fun o ho => ⟨o, (Table.mem_insert? inserted).mpr (.inl ho), .refl o⟩
      lines := ⟨_, lined⟩ }
  | started recorded mem =>
    exact { self with
      catalogs := recorded.kept
      orders := orders_saved mem ⟨rfl, rfl, rfl, rfl, rfl, rfl, rfl, id⟩ }
  | settled recorded settles =>
    exact { self with catalogs := recorded.kept, orders := orders_saved settles.orderMem settledOrder_kept }

end

/-! ## Versions -/

/-- The version of a catalog is the number of its receipts, and no receipt is later. -/
structure Versioned (store : Store) : Prop where
  count : ∀ c ∈ store.catalogs, (store.receiptsOf c.id).length = c.aggregateVersion
  known : ∀ r ∈ store.receipts, ∃ c ∈ store.catalogs, c.id = r.catalogId ∧ r.resultingVersion ≤ c.aggregateVersion
  editions : ∀ c ∈ store.catalogs, ∀ c' ∈ store.catalogs, c.editionId = c'.editionId → c = c'

section

variable {store after : Store} {catalog advanced : EditionCatalog}
  {catalogs : Table EditionCatalog.id} {receipts : Table CatalogCommandReceipt.key}

theorem length_receiptsOf {receipt : CatalogCommandReceipt} (inserted : store.receipts.insert? receipt = some receipts)
    (id : Uuid) : (receipts.rows.filter fun r => r.catalogId = id).length =
      (store.receiptsOf id).length + if receipt.catalogId = id then 1 else 0 := by
  rw [(Table.insert?_eq_some.mp inserted).2, List.filter_append, List.length_append, Store.receiptsOf]
  by_cases of : receipt.catalogId = id <;> simp [of]

/-- A recorded command leaves its catalog with one more version and one more receipt. -/
theorem Recorded.versioned (h : Recorded store catalog advanced catalogs receipts) (versioned : Versioned store)
    (sameCatalogs : after.catalogs = catalogs) (sameReceipts : after.receipts = receipts) : Versioned after := by
  obtain ⟨receipt, inserted, of, result⟩ := h.received
  subst sameCatalogs sameReceipts
  refine ⟨fun c hc => ?_, fun r hr => ?_, fun c hc c' hc' same => ?_⟩
  · rw [Store.receiptsOf, length_receiptsOf inserted]
    rcases h.mem_iff.mp hc with ⟨hc, other⟩ | rfl
    · rw [versioned.count c hc, of, if_neg (Ne.symm other), Nat.add_zero]
    · rw [h.same.1, versioned.count catalog h.mem, of, if_pos rfl, h.version]
  · rcases (Table.mem_insert? inserted).mp hr with hr | rfl
    · obtain ⟨c, hc, id, bounded⟩ := versioned.known r hr
      obtain ⟨c', hc', kept⟩ := h.kept c hc
      exact ⟨c', hc', kept.id.trans id, bounded.trans kept.version⟩
    · exact ⟨advanced, h.mem_iff.mpr (.inr rfl), h.same.1.trans of.symm, result.le⟩
  · have once := versioned.editions
    rcases h.mem_iff.mp hc with ⟨hc, other⟩ | rfl <;> rcases h.mem_iff.mp hc' with ⟨hc', other'⟩ | rfl
    · exact once c hc c' hc' same
    · exact absurd (congrArg EditionCatalog.id (once c hc catalog h.mem (same.trans h.same.2.2.1))) other
    · exact absurd (congrArg EditionCatalog.id (once c' hc' catalog h.mem (same.symm.trans h.same.2.2.1))) other'
    · rfl

theorem Step.versioned (versioned : Versioned store) (h : Step store after) : Versioned after := by
  cases h with
  | created only version inserted received of result =>
    have absent := (Table.insert?_eq_some.mp inserted).1
    refine ⟨fun c hc => ?_, fun r hr => ?_, fun c hc c' hc' same => ?_⟩
    · rw [Store.receiptsOf, length_receiptsOf received]
      rcases (Table.mem_insert? inserted).mp hc with hc | rfl
      · rw [versioned.count c hc, of, if_neg (absent c hc).symm, Nat.add_zero]
      · have none : store.receiptsOf c.id = [] := by
          rw [Store.receiptsOf, List.filter_eq_nil_iff]
          intro r hr same
          obtain ⟨c', hc', id, -⟩ := versioned.known r hr
          exact absent c' hc' (id.trans (of_decide_eq_true same))
        rw [none, of, if_pos rfl, version]
        rfl
    · rcases (Table.mem_insert? received).mp hr with hr | rfl
      · obtain ⟨c, hc, id, bounded⟩ := versioned.known r hr
        exact ⟨c, (Table.mem_insert? inserted).mpr (.inl hc), id, bounded⟩
      · exact ⟨_, (Table.mem_insert? inserted).mpr (.inr rfl), of.symm, by rw [result, version]⟩
    · rcases (Table.mem_insert? inserted).mp hc with hc | rfl <;>
        rcases (Table.mem_insert? inserted).mp hc' with hc' | rfl
      · exact versioned.editions c hc c' hc' same
      · exact absurd same (only c hc)
      · exact absurd same.symm (only c' hc')
      · rfl
  | product recorded => exact recorded.versioned versioned rfl rfl
  | variant recorded => exact recorded.versioned versioned rfl rfl
  | activated recorded => exact recorded.versioned versioned rfl rfl
  | adjusted recorded => exact recorded.versioned versioned rfl rfl
  | ordered recorded => exact recorded.versioned versioned rfl rfl
  | started recorded => exact recorded.versioned versioned rfl rfl
  | settled recorded => exact recorded.versioned versioned rfl rfl

end

end Maru.Catalog
