import Maru.Framework.Lists
import Maru.Registration.AdmissionWrites

/-!
# The waitlist is a queue

Two paths offer places from the waitlist of a product: a staff batch and the promotion
behind a freed place. Both take the registrations in their order (`Registration.queueKey`)
and no more of them than there are free places (`offerBatch_fifo`, `promote_fifo`). A
promotion does not wait for a registration that another transaction holds locked; it passes
over it, so it only respects the order of the others (`locked_passed_over`).
-/

namespace Maru.Registration

variable {P : Primitives} {now : Int} {w : Surroundings} {a a' : Admissions}

/-! ## The order of the queue -/

theorem queueKey_injective {r r' : Registration} (h : r.queueKey = r'.queueKey) : r.id = r'.id := by
  simp only [Registration.queueKey, EmbeddingLike.apply_eq_iff_eq, Prod.mk.injEq] at h
  exact h.2.2.2

theorem sorted_waitlist (a : Admissions) (w : Surroundings) (productId : Uuid) :
    (a.waitlist w productId).Pairwise (·.queueKey < ·.queueKey) := by
  have sorted := sortBy_sorted Registration.queueKey (a.registrations.rows.filter fun r =>
    r.productId = productId ∧ r.state = .waitlisted ∧ w.accountIsActive r.accountId)
  have distinct : (a.waitlist w productId).Pairwise fun r r' => r.id ≠ r'.id :=
    List.pairwise_map.mp (nodup_waitlist a w productId)
  exact (sorted.and distinct).imp fun {r r'} h => lt_of_le_of_ne h.1 fun same => h.2 (queueKey_injective same)

theorem mem_waitlist_iff {productId : Uuid} {r : Registration} :
    r ∈ a.waitlist w productId ↔ r ∈ a.registrations ∧ r.productId = productId ∧
      r.state = .waitlisted ∧ w.accountIsActive r.accountId = true := by
  rw [Admissions.waitlist, List.mem_insertionSort, List.mem_filter, decide_eq_true_eq, Table.mem_def]

/-- The first of a sorted list come before all behind them. -/
theorem lt_of_take {α : Type} {l : List α} {r : α → α → Prop} (sorted : l.Pairwise r) {n : Nat}
    {x y : α} (hx : x ∈ l.take n) (hy : y ∈ l) (later : y ∉ l.take n) : r x y := by
  rw [← List.take_append_drop n l] at sorted hy
  exact (List.pairwise_append.mp sorted).2.2 x hx y ((List.mem_append.mp hy).resolve_left later)

theorem offered_not_waitlisted (r : Registration) (c : Configuration) (p : AdmissionProduct)
    (offeredAt : Int) : (r.offered c p offeredAt).state ≠ .waitlisted := by
  unfold Registration.offered
  split <;> exact State.noConfusion

/-- Who still waits behind an offer waited before it, and is not the one it was made to. -/
theorem waits_of_offerPlace {r : Registration} {c : Configuration} {p : AdmissionProduct}
    {actorKind : String} {actorId : Option Uuid} {correlationId : Uuid}
    (h : a.offerPlace w now (r.offered c p now) actorKind actorId correlationId = .ok a') {left : Registration}
    (hl : left ∈ a'.registrations) (waits : left.state = .waitlisted) : left ∈ a.registrations ∧ left.id ≠ r.id := by
  rw [(offerPlace_eq_ok h).2.registrations] at hl
  rcases Table.mem_save.mp hl with ⟨hl, other⟩ | ⟨rfl, _⟩
  · rw [(updates_offered r c p now).id] at other
    exact ⟨hl, other⟩
  · exact absurd waits (offered_not_waitlisted r c p now)

theorem waits_of_offerEach {actorId correlationId : Uuid} (rs : List Registration) {a : Admissions}
    (h : offerEach a w actorId now correlationId rs = .ok a') {left : Registration} (hl : left ∈ a'.registrations)
    (waits : left.state = .waitlisted) : left ∈ a.registrations ∧ left.id ∉ rs.map Registration.id := by
  induction rs generalizing a with
  | nil =>
    cases h
    exact ⟨hl, List.not_mem_nil⟩
  | cons r rs ih =>
    simp only [offerEach, bind_eq_ok, offerWaitlistedRegistration] at h
    obtain ⟨a₁, ⟨c, -, p, -, h₁⟩, h⟩ := h
    obtain ⟨before, others⟩ := ih h
    obtain ⟨first, other⟩ := waits_of_offerPlace h₁ before waits
    rw [List.map_cons, List.mem_cons, not_or]
    exact ⟨first, other, others⟩

/-! ## Batches -/

/-- The free places of a product: those left by its own capacity, its holds and its configuration's.
-/
def Admissions.freePlaces (a : Admissions) (c : Configuration) (p : AdmissionProduct) (at_ : Int) : Nat :=
  min (a.effectiveConfigurationCapacity c - a.configurationOccupied c.id)
    (a.effectiveProductCapacity p - a.occupiedIn c.id p.id - a.pendingTargetCapacityHolds p.id at_)

theorem lockControl_controls {c : Configuration} {k : CommerceControl}
    (h : a.lockControl c = .ok (a', k)) : ∃ controls, a' = { a with controls := controls } := by
  unfold Admissions.lockControl at h
  split at h
  · obtain ⟨rfl, -⟩ := Prod.mk.inj (Except.ok.inj h)
    exact ⟨a.controls, rfl⟩
  · simp only [bind_eq_ok, pure_eq_ok, Prod.mk.injEq] at h
    obtain ⟨t, -, rfl, -⟩ := h
    exact ⟨t, rfl⟩

/-- A batch that is not a retry offers the first of the queue, at most as many as are free. -/
theorem offerBatch_fifo {x : BatchRequest} {batchId : Uuid} {result : WaitlistBatchResult}
    (h : offerNextWaitlistBatch P a w now x batchId = .ok (a', result)) (fresh : result.replayed = false) :
    ∃ c ∈ a.configurations, ∃ p ∈ a.products, p.id = x.productId ∧ p.configurationId = c.id ∧
      ∃ offered : List Registration, result.offeredRegistrationIds = offered.map Registration.id ∧
        (∀ r ∈ offered, r ∈ a.waitlist w x.productId) ∧
        (∀ r ∈ offered, ∀ left ∈ a'.waitlist w x.productId, r.queueKey < left.queueKey) ∧
        offered.length ≤ x.batchSize.toNat ∧ offered.length ≤ a.freePlaces c p now := by
  simp only [offerNextWaitlistBatch, bind_eq_ok, getOr_eq_ok] at h
  obtain ⟨_, -, reason, -, _, -, c, hc, p, hp, ⟨a₁, k⟩, hk, receipt, -, h⟩ := h
  obtain ⟨hc, -⟩ := Table.find?_eq_some_and (getOr_eq_ok.mp hc)
  obtain ⟨hp, hpx⟩ := Table.find?_eq_some_and hp
  obtain ⟨controls, rfl⟩ := lockControl_controls hk
  split at h
  · simp only [bind_eq_ok, pure_eq_ok, Prod.mk.injEq] at h
    obtain ⟨_, -, -, rfl⟩ := h
    cases fresh
  simp only [bind_eq_ok, require_eq_ok, getOr_eq_ok, pure_eq_ok, Prod.mk.injEq] at h
  obtain ⟨_, -, _, -, a₂, h₂, t, -, a₃, h₃, rfl, rfl⟩ := h
  refine ⟨c, hc, p, hp, hpx.1, hpx.2, _, rfl, fun r hr => ?_, fun r hr left hl => ?_, ?_, ?_⟩
  · rw [← hpx.1]
    exact List.mem_of_mem_take hr
  · obtain ⟨hl, product, waits, active⟩ := mem_waitlist_iff.mp hl
    rw [(same_createCommerceReceipt h₃).registrations] at hl
    obtain ⟨before, other⟩ := waits_of_offerEach _ h₂ hl waits
    have queued : left ∈ a.waitlist w p.id := mem_waitlist_iff.mpr ⟨before, product.trans hpx.1.symm, waits, active⟩
    exact lt_of_take (sorted_waitlist a w p.id) hr queued fun hm => other (List.mem_map_of_mem hm)
  · refine (List.length_take_le _ _).trans ?_
    unfold Admissions.offerCount
    omega
  · refine (List.length_take_le _ _).trans ?_
    exact min_le_right _ _

/-! ## Promotions -/

/-- `_promote_waitlist_for_product`, where other transactions hold some registrations locked:
`select_for_update(skip_locked=True)` passes over them. -/
def Admissions.promoteWaitlistSkippingLocked (a : Admissions) (w : Surroundings)
    (locked : Uuid → Bool) (p : AdmissionProduct) (offeredAt : Int) (correlationId : Uuid) :
    Except RegistrationError (Admissions × Option Registration) := do
  let c ← a.configurationOf p
  if ¬ c.automaticWaitlistPromotion ∨ offersClosed c p offeredAt then return (a, none)
  else if a.effectiveConfigurationCapacity c ≤ a.configurationOccupied c.id ∨
      a.effectiveProductCapacity p ≤ a.occupiedIn c.id p.id + a.pendingTargetCapacityHolds p.id offeredAt then
    return (a, none)
  else match ((a.waitlist w p.id).filter fun r => ¬ locked r.id).head? with
    | none => return (a, none)
    | some r => do
      let r := r.offered c p offeredAt
      let a ← a.offerPlace w offeredAt r "workload" none correlationId
      return (a, some r)

/-- A promotion takes the first of those that no other transaction holds, if a place is free. -/
theorem promote_fifo {locked : Uuid → Bool} {p : AdmissionProduct} {correlationId : Uuid} {promoted : Registration}
    (h : a.promoteWaitlistSkippingLocked w locked p now correlationId = .ok (a', some promoted)) :
    ∃ c, a.configurationOf p = .ok c ∧ 1 ≤ a.freePlaces c p now ∧ ∃ r ∈ a.waitlist w p.id, promoted.id = r.id ∧
      ∀ left ∈ a'.waitlist w p.id, locked left.id = false → r.queueKey < left.queueKey := by
  simp only [Admissions.promoteWaitlistSkippingLocked, bind_eq_ok] at h
  obtain ⟨c, hc, h⟩ := h
  split at h
  · simp only [pure_eq_ok, Prod.mk.injEq, reduceCtorEq, and_false] at h
  split at h
  · simp only [pure_eq_ok, Prod.mk.injEq, reduceCtorEq, and_false] at h
  rename_i room
  split at h
  · simp only [pure_eq_ok, Prod.mk.injEq, reduceCtorEq, and_false] at h
  rename_i r hr
  simp only [bind_eq_ok, pure_eq_ok, Prod.mk.injEq, Option.some.injEq] at h
  obtain ⟨a₁, h₁, rfl, rfl⟩ := h
  have hm := List.mem_filter.mp (List.mem_of_mem_head? hr)
  refine ⟨c, hc, ?_, r, hm.1, (updates_offered r c p now).id, fun left hl open' => ?_⟩
  · unfold Admissions.freePlaces
    omega
  · obtain ⟨hl, product, waits, active⟩ := mem_waitlist_iff.mp hl
    obtain ⟨before, other⟩ := waits_of_offerPlace h₁ hl waits
    have queued : left ∈ (a.waitlist w p.id).filter fun r => ¬ locked r.id := by
      rw [List.mem_filter, mem_waitlist_iff]
      exact ⟨⟨before, product, waits, active⟩, by simp [open']⟩
    have sorted := (sorted_waitlist a w p.id).filter fun r => ¬ locked r.id
    obtain ⟨rest, hrest⟩ := List.head?_eq_some_iff.mp hr
    rw [hrest] at queued sorted
    rcases List.mem_cons.mp queued with rfl | queued
    · exact absurd rfl other
    · exact (List.pairwise_cons.mp sorted).1 left queued

end Maru.Registration
