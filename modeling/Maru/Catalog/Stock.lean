import Maru.Catalog.Growth

/-!
# Stock

The latest adjustment of a variant is the last one made, since each has the version of its
catalog (`latest_append`). Every order line counts against its variant from the moment it is
placed (`committedQuantity_ordered`), so what is committed stays within the stock of every
variant that may not be ordered beyond it (`Step.stocked`).
-/

namespace Maru.Catalog

/-! ## References -/

/-- Every row refers to rows that are there. An adjustment is not later than its catalog. -/
structure Referenced (store : Store) : Prop where
  products : ∀ p ∈ store.products, ∃ c ∈ store.catalogs, c.id = p.catalogId
  variants : ∀ v ∈ store.variants, ∃ p ∈ store.products, p.id = v.productId
  adjustments : ∀ x ∈ store.adjustments, ∃ v ∈ store.variants, v.id = x.variantId ∧ ∃ p ∈ store.products,
    p.id = v.productId ∧ ∃ c ∈ store.catalogs, c.id = p.catalogId ∧ x.controlVersion ≤ c.aggregateVersion
  lines : ∀ l ∈ store.lines, (∃ o ∈ store.orders, o.id = l.orderId) ∧ ∃ v ∈ store.variants, v.id = l.variantId
  orders : ∀ o ∈ store.orders, ∃ c ∈ store.catalogs, c.id = o.catalogId ∧
    c.organizationId = o.organizationId ∧ c.editionId = o.editionId
  intents : ∀ i ∈ store.intents, ∃ o ∈ store.orders, o.id = i.orderId

section

variable {store after : Store}

/-- References stay good as the rows grow, once the new rows refer to rows that are there. -/
theorem Grows.referenced (grows : Grows store after) (h : Referenced store)
    (products : ∀ p ∈ after.products, (∃ q ∈ store.products, q.catalogId = p.catalogId) ∨
      ∃ c ∈ after.catalogs, c.id = p.catalogId)
    (variants : ∀ v ∈ after.variants, v ∈ store.variants ∨ ∃ p ∈ after.products, p.id = v.productId)
    (adjustments : ∀ x ∈ after.adjustments, x ∈ store.adjustments ∨ ∃ v ∈ after.variants, v.id = x.variantId ∧
      ∃ p ∈ after.products, p.id = v.productId ∧ ∃ c ∈ after.catalogs, c.id = p.catalogId ∧
        x.controlVersion ≤ c.aggregateVersion)
    (lines : ∀ l ∈ after.lines, l ∈ store.lines ∨
      (∃ o ∈ after.orders, o.id = l.orderId) ∧ ∃ v ∈ after.variants, v.id = l.variantId)
    (orders : ∀ o ∈ after.orders, (∃ o' ∈ store.orders, OrderKept o' o) ∨ ∃ c ∈ after.catalogs,
      c.id = o.catalogId ∧ c.organizationId = o.organizationId ∧ c.editionId = o.editionId)
    (intents : ∀ i ∈ after.intents, (∃ j ∈ store.intents, j.orderId = i.orderId) ∨
      ∃ o ∈ after.orders, o.id = i.orderId) :
    Referenced after where
  products p hp := by
    rcases products p hp with ⟨q, hq, of⟩ | new
    · obtain ⟨c, hc, id⟩ := h.products q hq
      obtain ⟨c', hc', kept⟩ := grows.catalogs c hc
      exact ⟨c', hc', kept.id.trans (id.trans of)⟩
    · exact new
  variants v hv := by
    rcases variants v hv with old | new
    · obtain ⟨p, hp, id⟩ := h.variants v old
      obtain ⟨p', hp', kept⟩ := grows.products p hp
      exact ⟨p', hp', kept.id.trans id⟩
    · exact new
  adjustments x hx := by
    rcases adjustments x hx with old | new
    · obtain ⟨v, hv, of, p, hp, under, c, hc, inCatalog, bounded⟩ := h.adjustments x old
      obtain ⟨p', hp', kept⟩ := grows.products p hp
      obtain ⟨c', hc', kept'⟩ := grows.catalogs c hc
      exact ⟨v, grows.variants v hv, of, p', hp', kept.id.trans under, c', hc',
        kept'.id.trans (inCatalog.trans kept.catalogId.symm), bounded.trans kept'.version⟩
    · exact new
  lines l hl := by
    rcases lines l hl with old | new
    · obtain ⟨⟨o, ho, id⟩, v, hv, of⟩ := h.lines l old
      obtain ⟨o', ho', kept⟩ := grows.orders o ho
      exact ⟨⟨o', ho', kept.id.trans id⟩, v, grows.variants v hv, of⟩
    · exact new
  orders o ho := by
    rcases orders o ho with ⟨o', ho', kept⟩ | new
    · obtain ⟨c, hc, of, organization, edition⟩ := h.orders o' ho'
      obtain ⟨c', hc', kept'⟩ := grows.catalogs c hc
      exact ⟨c', hc', kept'.id.trans (of.trans kept.catalogId.symm),
        kept'.organizationId.trans (organization.trans kept.organizationId.symm),
        kept'.editionId.trans (edition.trans kept.editionId.symm)⟩
    · exact new
  intents i hi := by
    rcases intents i hi with ⟨j, hj, of⟩ | new
    · obtain ⟨o, ho, id⟩ := h.intents j hj
      obtain ⟨o', ho', kept⟩ := grows.orders o ho
      exact ⟨o', ho', kept.id.trans (id.trans of)⟩
    · exact new

theorem mem_lines_ordered {lines : Table CatalogOrderLine.key} {orderId : Uuid} {quantities : List (Uuid × Nat)}
    {variants : List CatalogVariant} (lined : lines.rows = store.lines.rows ++
      variants.map (Store.orderLine orderId quantities))
    {l : CatalogOrderLine} : l ∈ lines ↔ l ∈ store.lines ∨ ∃ v ∈ variants, l = Store.orderLine orderId quantities v := by
  rw [Table.mem_def, lined, List.mem_append, List.mem_map, Table.mem_def]
  simp only [eq_comm]

theorem Step.referenced (h : Referenced store) (step : Step store after) : Referenced after := by
  have grows := step.grows
  have same : ∀ o ∈ store.orders, (∃ o' ∈ store.orders, OrderKept o' o) ∨ ∃ c ∈ after.catalogs, c.id = o.catalogId ∧
      c.organizationId = o.organizationId ∧ c.editionId = o.editionId := fun o ho => .inl ⟨o, ho, .refl o⟩
  cases step with
  | created =>
    exact grows.referenced h (fun p hp => .inl ⟨p, hp, rfl⟩) (fun _ => .inl) (fun _ => .inl)
      (fun _ => .inl) same fun i hi => .inl ⟨i, hi, rfl⟩
  | @product catalog advanced _ _ _ _ recorded inserted of =>
    refine grows.referenced h (fun p hp => ?_) (fun _ => .inl) (fun _ => .inl) (fun _ => .inl)
      same fun i hi => .inl ⟨i, hi, rfl⟩
    rcases (Table.mem_insert? inserted).mp hp with hp | rfl
    · exact .inl ⟨p, hp, rfl⟩
    · exact .inr ⟨advanced, recorded.mem_iff.mpr (.inr rfl), recorded.same.1.trans of.symm⟩
  | variant recorded inserted mem of =>
    refine grows.referenced h (fun p hp => .inl ⟨p, hp, rfl⟩) (fun v hv => ?_) (fun _ => .inl)
      (fun _ => .inl) same fun i hi => .inl ⟨i, hi, rfl⟩
    rcases (Table.mem_insert? inserted).mp hv with hv | rfl
    · exact .inl hv
    · exact .inr ⟨_, mem, of.symm⟩
  | activated recorded =>
    refine grows.referenced h (fun p hp => ?_) (fun _ => .inl) (fun _ => .inl) (fun _ => .inl)
      same fun i hi => .inl ⟨i, hi, rfl⟩
    rcases mem_activateProducts.mp hp with ⟨hp, -⟩ | ⟨q, hq, -, rfl⟩
    · exact .inl ⟨p, hp, rfl⟩
    · exact .inl ⟨q, hq, rfl⟩
  | @adjusted catalog advanced _ _ variant product _ _ _ recorded inserted mem sold under inCatalog of version =>
    refine grows.referenced h (fun p hp => .inl ⟨p, hp, rfl⟩) (fun _ => .inl) (fun x hx => ?_)
      (fun _ => .inl) same fun i hi => .inl ⟨i, hi, rfl⟩
    rcases (Table.mem_insert? inserted).mp hx with hx | rfl
    · exact .inl hx
    · exact .inr ⟨variant, mem, of.symm, product, sold, under, advanced,
        recorded.mem_iff.mpr (.inr rfl), recorded.same.1.trans inCatalog.symm, version.le⟩
  | @ordered catalog advanced _ _ _ _ order _ _ recorded placed inserted lined =>
    refine grows.referenced h (fun p hp => .inl ⟨p, hp, rfl⟩) (fun _ => .inl) (fun _ => .inl)
      (fun l hl => ?_) (fun o ho => ?_) fun i hi => .inl ⟨i, hi, rfl⟩
    · rcases (mem_lines_ordered lined).mp hl with hl | ⟨v, hv, rfl⟩
      · exact .inl hl
      · exact .inr ⟨⟨order, (Table.mem_insert? inserted).mpr (.inr rfl), rfl⟩, v, placed.mem v hv, rfl⟩
    · rcases (Table.mem_insert? inserted).mp ho with ho | rfl
      · exact .inl ⟨o, ho, .refl o⟩
      · obtain ⟨id, organization, edition, -⟩ := recorded.same
        obtain ⟨of, inOrganization, inEdition⟩ := placed.of
        exact .inr ⟨advanced, recorded.mem_iff.mpr (.inr rfl), id.trans of.symm,
          organization.trans inOrganization.symm, edition.trans inEdition.symm⟩
  | @started _ _ _ _ order intent _ recorded mem due none inserted of =>
    refine grows.referenced h (fun p hp => .inl ⟨p, hp, rfl⟩) (fun _ => .inl) (fun _ => .inl)
      (fun _ => .inl) (fun o ho => ?_) fun i hi => ?_
    · rcases Table.mem_save.mp ho with ⟨ho, -⟩ | ⟨rfl, -⟩
      · exact .inl ⟨o, ho, .refl o⟩
      · exact .inl ⟨order, mem, rfl, rfl, rfl, rfl, rfl, rfl, rfl, fun paid => paid⟩
    rcases (Table.mem_insert? inserted).mp hi with hi | rfl
    · exact .inl ⟨i, hi, rfl⟩
    · obtain ⟨o', ho', kept⟩ := grows.orders order mem
      exact .inr ⟨o', ho', kept.id.trans of.symm⟩
  | settled recorded settles =>
    refine grows.referenced h (fun p hp => .inl ⟨p, hp, rfl⟩) (fun _ => .inl) (fun _ => .inl)
      (fun _ => .inl) (fun o ho => ?_) fun i hi => ?_
    · rcases Table.mem_save.mp ho with ⟨ho, -⟩ | ⟨rfl, -⟩
      · exact .inl ⟨o, ho, .refl o⟩
      · exact .inl ⟨_, settles.orderMem, settledOrder_kept⟩
    rcases Table.mem_save.mp hi with ⟨hi, -⟩ | ⟨rfl, -⟩
    · exact .inl ⟨i, hi, rfl⟩
    · exact .inl ⟨_, settles.mem, rfl⟩

end

/-! ## The latest adjustment -/

section

open Store

variable {adjustments : List CatalogStockAdjustment} {x y : CatalogStockAdjustment}

theorem latest_concat : latest (adjustments ++ [x]) = match latest adjustments with
    | none => some x
    | some y => if y.controlVersion < x.controlVersion ∨ (y.controlVersion = x.controlVersion ∧ y.id < x.id) then some x
      else some y := by
  rw [latest, List.foldl_append]
  rfl

theorem mem_of_latest (h : latest adjustments = some x) : x ∈ adjustments := by
  induction adjustments using List.reverseRecOn generalizing x with
  | nil => cases h
  | append_singleton rest y ih =>
    rw [latest_concat] at h
    split at h
    · cases h
      simp
    · rename_i z hz
      split at h
      · cases h
        simp
      · cases h
        exact List.mem_append_left _ (ih hz)

/-- An adjustment that is later than all others is the latest. -/
theorem latest_append (later : ∀ y ∈ adjustments, y.controlVersion < x.controlVersion) :
    latest (adjustments ++ [x]) = some x := by
  rw [latest_concat]
  split
  · rfl
  · rename_i y hy
    rw [if_pos (.inl (later y (mem_of_latest hy)))]

end

/-! ## What is committed -/

section

variable {store after : Store}

/-- A sum over the rows with a key that one row has. -/
theorem sum_filter_of_mem {α : Type} {key : α → Uuid} {f : α → Nat} {l : List α}
    (once : (l.map key).Nodup) {a : α} (ha : a ∈ l) :
    ((l.filter fun b => key b = key a).map f).sum = f a := by
  induction l with
  | nil => cases ha
  | cons b rest ih =>
    rw [List.map_cons, List.nodup_cons] at once
    rcases List.mem_cons.mp ha with rfl | ha
    · have none : (rest.filter fun b => key b = key a) = [] := by
        rw [List.filter_eq_nil_iff]
        intro b hb same
        exact once.1 (of_decide_eq_true same ▸ List.mem_map_of_mem hb)
      simp [none]
    · have differs : key b ≠ key a := fun same => once.1 (same ▸ List.mem_map_of_mem ha)
      rw [List.filter_cons_of_neg (by simpa using differs)]
      exact ih once.2 ha

/-- Orders that count as before commit what they did. -/
theorem committedQuantity_congr (lines : after.lines = store.lines)
    (orders : ∀ l ∈ store.lines, (after.orders.get? l.orderId).any (·.status.committed) =
      (store.orders.get? l.orderId).any (·.status.committed)) (id : Uuid) :
    after.committedQuantity id = store.committedQuantity id := by
  rw [Store.committedQuantity, Store.committedQuantity, lines]
  congr 2
  exact List.filter_congr fun l hl => by rw [orders l hl]

theorem committedQuantity_saved {order saved : CatalogOrder} (orders : after.orders = store.orders.save saved)
    (lines : after.lines = store.lines) (mem : order ∈ store.orders) (same : saved.id = order.id)
    (committed : saved.status.committed = order.status.committed) (id : Uuid) :
    after.committedQuantity id = store.committedQuantity id := by
  refine committedQuantity_congr lines (fun l _ => ?_) id
  rw [orders, Table.get?_save]
  cases found : store.orders.get? l.orderId with
  | none => rfl
  | some o =>
    rw [Option.map_some, Option.any_some, Option.any_some]
    split
    · rename_i key
      obtain rfl := Table.eq_of_key (Table.get?_eq_some.mp found).1 mem (key.trans same)
      exact committed
    · rfl

/-- Placing an order commits the quantities of its variants. -/
theorem committedQuantity_ordered {order : CatalogOrder} {orders : Table CatalogOrder.id}
    {lines : Table CatalogOrderLine.key}
    {quantities : List (Uuid × Nat)} {variants : List CatalogVariant} (referenced : Referenced store)
    (inserted : store.orders.insert? order = some orders) (active : order.status.committed = true)
    (lined : lines.rows = store.lines.rows ++ variants.map (Store.orderLine order.id quantities)) (id : Uuid) :
    Store.committedQuantity { store with orders, lines } id = store.committedQuantity id +
      ((variants.filter fun v => v.id = id).map (Store.quantityOf quantities)).sum := by
  rw [Store.committedQuantity, lined, List.filter_append, List.map_append, List.sum_append]
  congr 1
  · rw [Store.committedQuantity]
    congr 2
    refine List.filter_congr fun l hl => ?_
    obtain ⟨⟨o, ho, key⟩, -⟩ := referenced.lines l hl
    have old : l.orderId ≠ order.id := fun same => (Table.insert?_eq_some.mp inserted).1 o ho (key.trans same)
    rw [Table.get?_insert? inserted, if_neg old]
  · rw [List.filter_map, List.map_map]
    congr 1
    have new : (variants.filter ((fun l : CatalogOrderLine => decide (l.variantId = id ∧
        (orders.get? l.orderId).any (fun order => order.status.committed) = true)) ∘ Store.orderLine
          order.id quantities)) = variants.filter fun v => v.id = id := by
      refine List.filter_congr fun v _ => ?_
      have present : orders.get? order.id = some order := by rw [Table.get?_insert? inserted, if_pos rfl]
      rw [Function.comp_apply, Store.orderLine, present, Option.any_some, active]
      exact decide_eq_decide.mpr (and_iff_left rfl)
    rw [new]
    rfl

/-! ## Limits -/

/-- What is committed stays within the stock of a variant that may not be ordered beyond it, and the
stock within its ceiling. -/
structure Stocked (store : Store) : Prop where
  shape : ∀ v ∈ store.variants, v.initialStock.isSome = v.stockCeiling.isSome
  limits : ∀ v ∈ store.variants, ∀ stock, store.effectiveStock v = some stock → ∀ ceiling,
    v.stockCeiling = some ceiling → stock ≤ ceiling
  covered : ∀ v ∈ store.variants, ∀ p ∈ store.products, p.id = v.productId → p.preorderAllowed =
    false → ∀ stock, store.effectiveStock v = some stock → store.committedQuantity v.id ≤ stock

theorem effectiveStock_congr (same : after.adjustments = store.adjustments) (v : CatalogVariant) :
    after.effectiveStock v = store.effectiveStock v := by
  rw [Store.effectiveStock, Store.effectiveStock, same]

/-- A step that moves no stock keeps the limits, if the products of the
variants stay as they are. -/
theorem Stocked.of_same (h : Stocked store) (variants : after.variants = store.variants)
    (adjustments : after.adjustments = store.adjustments)
    (committed : ∀ id, after.committedQuantity id = store.committedQuantity id)
    (products : ∀ p ∈ after.products, ∀ v ∈ store.variants, p.id = v.productId →
      ∃ q ∈ store.products, q.id = p.id ∧ q.preorderAllowed = p.preorderAllowed) : Stocked after where
  shape := by
    rw [variants]
    exact h.shape
  limits := by
    rw [variants]
    intro v hv
    rw [effectiveStock_congr adjustments]
    exact h.limits v hv
  covered := by
    rw [variants]
    intro v hv p hp under limited stock
    rw [effectiveStock_congr adjustments, committed]
    obtain ⟨q, hq, id, preorder⟩ := products p hp v hv under
    exact h.covered v hv q hq (id.trans under) (preorder.trans limited) stock

/-- The stock of a variant without adjustments is the one it started with. -/
theorem effectiveStock_of_new {v : CatalogVariant} (none : ∀ x ∈ store.adjustments, x.variantId ≠ v.id) :
    store.effectiveStock v = v.initialStock := by
  have empty : (store.adjustments.rows.filter fun x => x.variantId = v.id) = [] := by
    rw [List.filter_eq_nil_iff]
    exact fun x hx => by simpa using none x hx
  rw [Store.effectiveStock, empty]
  cases v.initialStock <;> rfl

/-- Nothing is committed of a variant that stands in no line. -/
theorem committedQuantity_of_new {id : Uuid}
    (none : ∀ l ∈ store.lines, l.variantId ≠ id) : store.committedQuantity id = 0 := by
  have empty : (store.lines.rows.filter fun l => l.variantId = id ∧
      (store.orders.get? l.orderId).any fun order => order.status.committed) = [] := by
    rw [List.filter_eq_nil_iff]
    intro l hl counted
    exact none l hl (of_decide_eq_true counted).1
  rw [Store.committedQuantity, empty]
  rfl

/-- The stock of a variant after an adjustment that is later than its others is the new stock. -/
theorem effectiveStock_adjusted {adjustment : CatalogStockAdjustment} {adjustments : Table CatalogStockAdjustment.id}
    (inserted : store.adjustments.insert? adjustment = some adjustments) {v : CatalogVariant}
    (later : adjustment.variantId = v.id → ∀ x ∈ store.adjustments, x.variantId = v.id →
      x.controlVersion < adjustment.controlVersion) :
    Store.effectiveStock { store with adjustments } v =
      if adjustment.variantId = v.id then v.initialStock.map fun _ =>
        adjustment.newStock else store.effectiveStock v := by
  rw [Store.effectiveStock, (Table.insert?_eq_some.mp inserted).2, List.filter_append]
  split
  · rename_i same
    have only : [adjustment].filter (fun x => decide (x.variantId = v.id)) = [adjustment] := by simp [same]
    rw [only, latest_append]
    · rfl
    · intro y hy
      exact later same y (List.mem_filter.mp hy).1 (of_decide_eq_true (List.mem_filter.mp hy).2)
  · rename_i other
    have none : [adjustment].filter (fun x => decide (x.variantId = v.id)) = [] := by simp [other]
    rw [none, List.append_nil, Store.effectiveStock]

theorem Step.stocked (referenced : Referenced store) (h : Stocked store) (step : Step store after) : Stocked after := by
  have kept : ∀ p ∈ store.products, ∀ v ∈ store.variants, p.id = v.productId →
      ∃ q ∈ store.products, q.id = p.id ∧ q.preorderAllowed = p.preorderAllowed := fun p hp _ _ _ => ⟨p, hp, rfl, rfl⟩
  cases step with
  | created => exact h.of_same rfl rfl (fun _ => rfl) kept
  | product recorded inserted of =>
    refine h.of_same rfl rfl (fun _ => rfl) fun p hp v hv under => ?_
    rcases (Table.mem_insert? inserted).mp hp with hp | rfl
    · exact ⟨p, hp, rfl, rfl⟩
    · obtain ⟨q, hq, id⟩ := referenced.variants v hv
      exact absurd (id.trans under.symm) ((Table.insert?_eq_some.mp inserted).1 q hq)
  | @variant _ _ _ _ product variant _ recorded inserted mem of shape bounded =>
    have absent := (Table.insert?_eq_some.mp inserted).1
    have stock : store.effectiveStock variant = variant.initialStock := by
      refine effectiveStock_of_new fun x hx same => ?_
      obtain ⟨v, hv, id, -⟩ := referenced.adjustments x hx
      exact absent v hv (id.trans same)
    have nothing : store.committedQuantity variant.id = 0 := by
      refine committedQuantity_of_new fun l hl same => ?_
      obtain ⟨-, v, hv, id⟩ := referenced.lines l hl
      exact absent v hv (id.trans same)
    refine ⟨fun v hv => ?_, fun v hv => ?_, fun v hv => ?_⟩ <;> rcases (Table.mem_insert? inserted).mp hv with hv | rfl
    · exact h.shape v hv
    · exact shape
    · exact h.limits v hv
    · intro s hs ceiling hc
      exact bounded s (stock ▸ hs) ceiling hc
    · exact h.covered v hv
    · intro p hp under limited s hs
      show store.committedQuantity v.id ≤ s
      rw [nothing]
      exact Nat.zero_le s
  | activated recorded =>
    refine h.of_same rfl rfl (fun _ => rfl) fun p hp v hv under => ?_
    rcases mem_activateProducts.mp hp with ⟨hp, -⟩ | ⟨q, hq, -, rfl⟩
    · exact ⟨p, hp, rfl, rfl⟩
    · exact ⟨q, hq, rfl, rfl⟩
  | @adjusted catalog advanced _ _ variant product adjustment _ ceiling recorded inserted mem
      sold under inCatalog of version limit bounded committed =>
    have later : ∀ v ∈ store.variants, adjustment.variantId = v.id → ∀ x ∈ store.adjustments,
        x.variantId = v.id → x.controlVersion < adjustment.controlVersion := by
      intro v hv same x hx forIt
      obtain rfl := Table.eq_of_key hv mem (same.symm.trans of)
      obtain ⟨w, hw, id, p, hp, key, c, hc, holds, known⟩ := referenced.adjustments x hx
      obtain rfl := Table.eq_of_key hw hv (id.trans forIt)
      obtain rfl := Table.eq_of_key hp sold (key.trans under.symm)
      obtain rfl := Table.eq_of_key hc recorded.mem (holds.trans inCatalog)
      have next := recorded.version
      omega
    have stock : ∀ v ∈ store.variants, _ := fun v hv => effectiveStock_adjusted inserted (later v hv)
    refine ⟨h.shape, fun v hv s hs => ?_, fun v hv p hp key limited s hs => ?_⟩
    · have hs : Store.effectiveStock { store with adjustments := _ } v = some s := hs
      rw [stock v hv] at hs
      split at hs
      · rename_i same
        obtain rfl := Table.eq_of_key hv mem (same.symm.trans of)
        obtain ⟨_, -, rfl⟩ := Option.map_eq_some_iff.mp hs
        intro c hc
        rw [limit, Option.some.injEq] at hc
        omega
      · exact h.limits v hv s hs
    · have hs : Store.effectiveStock { store with adjustments := _ } v = some s := hs
      rw [stock v hv] at hs
      split at hs
      · rename_i same
        obtain rfl := Table.eq_of_key hv mem (same.symm.trans of)
        obtain ⟨_, -, rfl⟩ := Option.map_eq_some_iff.mp hs
        exact committed
      · exact h.covered v hv p hp key limited s hs
  | @ordered _ _ _ _ variants quantities order _ _ recorded placed inserted lined =>
    have active : order.status.committed = true := by
      rw [placed.status]
      split <;> rfl
    refine ⟨h.shape, h.limits, fun v hv p hp key limited s hs => ?_⟩
    have total := committedQuantity_ordered referenced inserted active lined v.id
    have old := h.covered v hv p hp key limited s hs
    show Store.committedQuantity { store with orders := _, lines := _ } v.id ≤ s
    rw [total]
    by_cases chosen : v ∈ variants
    · obtain ⟨q, hq, id, enough⟩ := placed.stock v chosen
      obtain rfl := Table.eq_of_key hq hp (id.trans key.symm)
      rw [sum_filter_of_mem placed.once chosen]
      have := enough limited s hs
      omega
    · have none : variants.filter (fun w => decide (w.id = v.id)) = [] := by
        rw [List.filter_eq_nil_iff]
        intro w hw same
        exact chosen (Table.eq_of_key (placed.mem w hw) hv (of_decide_eq_true same) ▸ hw)
      rw [none, List.map_nil, List.sum_nil]
      exact old
  | started recorded mem =>
    exact h.of_same rfl rfl (committedQuantity_saved rfl rfl mem rfl rfl) kept
  | @settled _ _ _ _ intent order result _ _ _ recorded settles =>
    refine h.of_same rfl rfl (committedQuantity_saved rfl rfl settles.orderMem settledOrder_kept.id ?_) kept
    cases result with
    | succeeded =>
      rw [settles.due rfl]
      rfl
    | failed => rfl

end

end Maru.Catalog
