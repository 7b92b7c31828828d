import Maru.Registration.CommandEffects
import Maru.Registration.Reconciliation
import Maru.Registration.WaitlistQueue

/-!
# Commands that offer nothing in the name of an account

The timeline only grows, registrations stay where they belong, and what the commerce
commands recorded stays (`Appends`). The entries that a command appends are no offers of an
account, unless the command is a batch (`quiet_execCommand`).
-/

set_option linter.dupNamespace false

namespace Maru.Registration

variable {P : Primitives} {now : Int} {w : Surroundings} {a a' a'' : Admissions}

/-- An offer that an account made. -/
def TimelineEntry.StaffOffer (t : TimelineEntry) : Prop := t.kind = "waitlist_place_offered" ∧ t.actorKind = "account"

/-- Where a registration belongs. -/
def Registration.place (r : Registration) : Uuid × Uuid × Uuid × Uuid :=
  (r.id, r.organizationId, r.editionId, r.configurationId)

def SamePlace (r r' : Registration) : Prop := r.place = r'.place

/-- A registration of a product of its configuration, at the configuration's edition. -/
def Sited (a : Admissions) (r : Registration) : Prop :=
  Scoped a r ∧ ∀ c ∈ a.configurations, c.id = r.configurationId →
    c.organizationId = r.organizationId ∧ c.editionId = r.editionId

/-- What every command does: it appends entries to the timeline, and keeps what is recorded. -/
structure Appends (entries : List TimelineEntry) (a a' : Admissions) : Prop where
  products : a'.products = a.products
  sited : (∀ r ∈ a.registrations, Sited a r) → ∀ r ∈ a'.registrations, Sited a' r
  registrations : a.registrations.Keeps SamePlace a'.registrations
  receipts : a.commerceReceipts.Keeps Eq a'.commerceReceipts
  batches : a.batches.Keeps Eq a'.batches
  timeline : a'.timeline = a.timeline ++ entries

/-- The entries are no offers of an account. -/
def Quiet (a a' : Admissions) : Prop := ∃ entries, Appends entries a a' ∧ ∀ t ∈ entries, ¬ t.StaffOffer

theorem SamePlace.refl (r : Registration) : SamePlace r r := rfl

theorem SamePlace.trans {r₁ r₂ r₃ : Registration} (h : SamePlace r₁ r₂) (h' : SamePlace r₂ r₃) : SamePlace r₁ r₃ :=
  Eq.trans h h'

theorem keeps_self {ρ κ : Type} [DecidableEq κ] {key : ρ → κ} (t : Table key) : t.Keeps Eq t := .refl (fun _ => rfl) t

theorem keeps_trans {ρ κ : Type} [DecidableEq κ] {key : ρ → κ} {t₁ t₂ t₃ : Table key} (h : t₁.Keeps Eq t₂)
    (h' : t₂.Keeps Eq t₃) : t₁.Keeps Eq t₃ := h.trans (fun _ _ _ e e' => e.trans e') h'

theorem Appends.trans {entries entries' : List TimelineEntry} (h : Appends entries a a')
    (h' : Appends entries' a' a'') : Appends (entries ++ entries') a a'' where
  products := h'.products.trans h.products
  sited sited := h'.sited (h.sited sited)
  registrations := h.registrations.trans @SamePlace.trans h'.registrations
  receipts := keeps_trans h.receipts h'.receipts
  batches := keeps_trans h.batches h'.batches
  timeline := by rw [h'.timeline, h.timeline, List.append_assoc]

theorem Appends.quiet (h : Appends [] a a') : Quiet a a' := ⟨[], h, List.forall_mem_nil _⟩

theorem Quiet.trans (h : Quiet a a') (h' : Quiet a' a'') : Quiet a a'' := by
  obtain ⟨entries, appends, silent⟩ := h
  obtain ⟨entries', appends', silent'⟩ := h'
  refine ⟨_, appends.trans appends', fun t ht => ?_⟩
  rcases List.mem_append.mp ht with ht | ht
  · exact silent t ht
  · exact silent' t ht

/-! ## Writes -/

/-- A change that writes no registrations. -/
theorem appends_of_registrations {entries : List TimelineEntry} (products : a'.products = a.products)
    (configurations : a'.configurations = a.configurations) (registrations : a'.registrations = a.registrations)
    (receipts : a.commerceReceipts.Keeps Eq a'.commerceReceipts) (batches : a.batches.Keeps Eq a'.batches)
    (timeline : a'.timeline = a.timeline ++ entries) : Appends entries a a' where
  products := products
  sited sited r hr := by
    obtain ⟨product, configuration⟩ := sited r (registrations ▸ hr)
    exact ⟨product.congr products, configurations ▸ configuration⟩
  registrations := by
    rw [registrations]
    exact .refl SamePlace.refl _
  receipts := receipts
  batches := batches
  timeline := timeline

/-- A change of what hangs on the registrations. -/
theorem stays_rest (a : Admissions) (consents : Table GuardianConsent.id) (entitlements : Table Entitlement.key)
    (replacements : Table AdmissionTierReplacement.id) (controls : Table CommerceControl.configurationId)
    (adjustments : Table CapacityAdjustment.id) :
    Appends [] a { a with
      consents := consents, entitlements := entitlements, replacements := replacements, controls := controls
      adjustments := adjustments } :=
  appends_of_registrations rfl rfl rfl (keeps_self _) (keeps_self _) (List.append_nil _).symm

theorem Appends.refl (a : Admissions) : Appends [] a a :=
  stays_rest a a.consents a.entitlements a.replacements a.controls a.adjustments

theorem Quiet.refl (a : Admissions) : Quiet a a := (Appends.refl a).quiet

theorem quiet_note (a : Admissions) (registrationId : Uuid) {kind : String} (occurredAt : Int) {actorKind : String}
    (actorId : Option Uuid) (correlationId : Uuid) (h : kind ≠ "waitlist_place_offered" ∨ actorKind ≠ "account") :
    Quiet a (a.appendTimeline registrationId kind occurredAt actorKind actorId correlationId) := by
  refine ⟨_, appends_of_registrations rfl rfl rfl (keeps_self _) (keeps_self _) rfl, fun t ht offer => ?_⟩
  obtain rfl := List.mem_singleton.mp ht
  rcases h with h | h
  · exact h offer.1
  · exact h offer.2

theorem stays_save {old r : Registration} (hr : old ∈ a.registrations) (same : r.place = old.place)
    (h : a.saveRegistration w now r = .ok a') : Appends [] a a' := by
  obtain ⟨inScope, -, rfl⟩ := saveRegistration_eq_ok h
  simp only [Registration.place, Prod.mk.injEq] at same
  obtain ⟨id, organization, edition, configuration⟩ := same
  refine ⟨rfl, fun sited r' hr' => ?_, Table.keeps_save SamePlace.refl fun b hb => ?_, keeps_self _,
    keeps_self _, (List.append_nil _).symm⟩
  · rcases Table.mem_save.mp hr' with ⟨hr', -⟩ | ⟨rfl, -⟩
    · exact sited r' hr'
    · refine ⟨inScope, fun c hc e => ?_⟩
      rw [organization, edition]
      exact (sited old hr).2 c hc (e.trans configuration)
  · obtain ⟨hb, e⟩ := Table.get?_eq_some.mp hb
    obtain rfl := Table.eq_of_key hb hr (e.trans id)
    simp only [SamePlace, Registration.place, id, organization, edition, configuration]

theorem stays_create {r : Registration} {c : Configuration} (hc : c ∈ a.configurations) (id : r.configurationId = c.id)
    (organization : c.organizationId = r.organizationId) (edition : c.editionId = r.editionId)
    (h : a.createRegistration w r = .ok a') : Appends [] a a' := by
  obtain ⟨inScope, t, inserted, rfl⟩ := createRegistration_eq_ok h
  refine ⟨rfl, fun sited r' hr' => ?_, Table.keeps_insert? SamePlace.refl inserted, keeps_self _,
    keeps_self _, (List.append_nil _).symm⟩
  rcases (Table.mem_insert? inserted).mp hr' with hr' | rfl
  · exact sited r' hr'
  · refine ⟨inScope, fun d hd e => ?_⟩
    obtain rfl := Table.eq_of_key hd hc (e.trans id)
    exact ⟨organization, edition⟩

theorem stays_receipt {receipt : CommerceReceipt} (h : a.createCommerceReceipt receipt = .ok a') : Appends [] a a' := by
  simp only [Admissions.createCommerceReceipt, bind_eq_ok, pure_eq_ok, getOr_eq_ok] at h
  obtain ⟨t, inserted, rfl⟩ := h
  exact appends_of_registrations rfl rfl rfl (Table.keeps_insert? (fun _ => rfl) inserted)
    (keeps_self _) (List.append_nil _).symm

theorem stays_entitlements {e : Entitlement} (h : a.createEntitlement e = .ok a') : Appends [] a a' := by
  obtain ⟨t, -, rfl⟩ := createEntitlement_eq_ok h
  exact stays_rest a a.consents t a.replacements a.controls a.adjustments

theorem stays_grant {r : Registration} {grantedAt : Int}
    (h : a.grantProductEntitlement r grantedAt = .ok a') : Appends [] a a' := by
  simp only [Admissions.grantProductEntitlement, bind_eq_ok] at h
  obtain ⟨p, -, h⟩ := h
  exact stays_entitlements h

theorem stays_grantIfConfirmed {r : Registration} {grantedAt : Int}
    (h : a.grantIfConfirmed r grantedAt = .ok a') : Appends [] a a' := by
  unfold Admissions.grantIfConfirmed at h
  split at h
  · exact stays_grant h
  · cases h
    exact .refl a

theorem stays_revoke (a : Admissions) (registrationId : Uuid) : Appends [] a (a.revokeEntitlements registrationId) :=
  stays_rest a a.consents _ a.replacements a.controls a.adjustments

theorem stays_lockControl {c : Configuration} {k : CommerceControl}
    (h : a.lockControl c = .ok (a', k)) : Appends [] a a' := by
  obtain ⟨controls, rfl⟩ := lockControl_controls h
  exact stays_rest a a.consents a.entitlements a.replacements controls a.adjustments

theorem stays_advanceControl (a : Admissions) (k : CommerceControl) : Appends [] a (a.advanceControl k).1 :=
  stays_rest a a.consents a.entitlements a.replacements _ a.adjustments

/-- What stays, and an entry that is no offer of an account. -/
theorem Appends.noted (h : Appends [] a a') (registrationId : Uuid) {kind : String}
    (occurredAt : Int) {actorKind : String} (actorId : Option Uuid) (correlationId : Uuid)
    (other : kind ≠ "waitlist_place_offered" ∨ actorKind ≠ "account") :
    Quiet a (a'.appendTimeline registrationId kind occurredAt actorKind actorId correlationId) :=
  h.quiet.trans (quiet_note a' registrationId occurredAt actorId correlationId other)

/-! ## Registrations -/

theorem place_offered (r : Registration) (c : Configuration) (p : AdmissionProduct)
    (offeredAt : Int) : (r.offered c p offeredAt).place = r.place := by
  unfold Registration.offered
  split <;> rfl

theorem place_accepted (r : Registration) (c : Configuration) (p : AdmissionProduct)
    (reached : Bool) (acceptedAt : Int) : (r.accepted c p reached acceptedAt).place = r.place := by
  unfold Registration.accepted
  split
  · rfl
  · split <;> rfl

theorem place_ended (r : Registration) (t : LifecycleTransition) (processedAt : Int) :
    (r.ended t processedAt).place = r.place := by
  unfold Registration.ended
  split <;> rfl

/-- A promotion offers in the name of no account. -/
theorem quiet_promote {p : AdmissionProduct} {correlationId : Uuid} {promoted : Option Registration}
    (h : a.promoteWaitlistForProduct w p now correlationId = .ok (a', promoted)) : Quiet a a' := by
  rcases promoteWaitlistForProduct_eq_ok h with rfl | ⟨c, r, -, -, waits, h⟩
  · exact .refl a'
  simp only [Admissions.offerPlace, bind_eq_ok, pure_eq_ok] at h
  obtain ⟨a₁, h₁, a₂, h₂, rfl⟩ := h
  exact ((stays_save (mem_waitlist waits).1 (place_offered r c p now) h₁).trans
    (stays_grantIfConfirmed h₂)).noted _ _ _ _
    (.inr (by decide))

theorem quiet_recordOutcome {r : Registration} {submittedAt : Int} {correlationId : Uuid}
    (h : a.recordOutcome r submittedAt correlationId = .ok a') : Quiet a a' := by
  unfold Admissions.recordOutcome at h
  split at h
  · simp only [bind_eq_ok, pure_eq_ok] at h
    obtain ⟨a₁, h₁, rfl⟩ := h
    exact (stays_grant h₁).noted _ _ _ _ (.inl (by decide))
  split at h
  · cases h
    exact quiet_note a _ _ _ _ (.inl (by decide))
  · cases h
    exact .refl a

theorem quiet_submit {x : Submission} {registrationId correlationId : Uuid} {r : Registration}
    (h : submitRegistration a w now x registrationId correlationId = .ok (a', r)) : Quiet a a' := by
  simp only [submitRegistration, bind_eq_ok, pure_eq_ok, Prod.mk.injEq] at h
  obtain ⟨_, -, _, -, c, hc, _, -, _, -, p, -, _, -, _, -, a₁, h₁, a₂, h₂, rfl, -⟩ := h
  obtain ⟨hc, at_⟩ := Table.find?_eq_some_and (getOr_eq_ok.mp hc)
  simp only [Admissions.recordSubmission, bind_eq_ok] at h₂
  obtain ⟨a₃, h₃, h₄⟩ := h₂
  have created := stays_create hc rfl at_.1 at_.2.1 h₁
  refine created.quiet.trans ?_
  have requested : Quiet a₃ a₂ := by
    unfold Admissions.requestConsent at h₄
    split at h₄
    · cases h₄
      exact .refl _
    · simp only [Admissions.createGuardianConsent, bind_eq_ok, pure_eq_ok] at h₄
      obtain ⟨_, -, t, -, rfl⟩ := h₄
      exact (stays_rest a₃ t a₃.entitlements a₃.replacements a₃.controls a₃.adjustments).quiet
  refine Quiet.trans ?_ ((quiet_recordOutcome h₃).trans requested)
  split
  · exact (quiet_note a₁ _ _ _ _ (.inl (by decide))).trans (quiet_note _ _ _ _ _ (.inl (by decide)))
  · exact quiet_note a₁ _ _ _ _ (.inl (by decide))

theorem quiet_accept {tokenDigest guardianName : String} {r : Registration}
    (h : acceptGuardianConsent a w now tokenDigest guardianName = .ok (a', r)) : Quiet a a' := by
  simp only [acceptGuardianConsent, bind_eq_ok, pure_eq_ok, getOr_eq_ok, Prod.mk.injEq] at h
  obtain ⟨consent, -, _, -, _, -, r, hr, _, -, c, -, p, -, a₁, h₁, a₂, h₂, rfl, -⟩ := h
  have saved := stays_save (Table.get?_eq_some.mp hr).1 (place_accepted r c p _ now) h₁
  have decided := stays_rest a₁ (a₁.consents.save { consent with
    status := .accepted, decidedAt := some now, guardianNameAtDecision := strip guardianName }) a₁.entitlements
    a₁.replacements a₁.controls a₁.adjustments
  exact ((saved.trans decided).trans (stays_grantIfConfirmed h₂)).noted _ _ _ _ (.inl (by decide))

theorem quiet_extend {organizationId editionId registrationId actorId : Uuid} {newDeadline : Int}
    {reason : String} {correlationId : Uuid} {r : Registration}
    (h : extendPaymentDeadline a w now organizationId editionId registrationId actorId newDeadline reason
      correlationId = .ok (a', r)) : Quiet a a' := by
  simp only [extendPaymentDeadline, bind_eq_ok, pure_eq_ok, Prod.mk.injEq] at h
  obtain ⟨_, -, _, -, _, -, r₀, hr₀, _, -, a₁, h₁, rfl, -⟩ := h
  refine (stays_save (lockRegistration_eq_ok hr₀).1 ?_ h₁).noted _ _ _ _ (.inl (by decide))
  rfl

theorem quiet_waive {organizationId editionId registrationId actorId : Uuid} {reason : String}
    {correlationId : Uuid} {r : Registration}
    (h : waiveRegistrationPayment a w now organizationId editionId registrationId actorId reason correlationId =
      .ok (a', r)) : Quiet a a' := by
  simp only [waiveRegistrationPayment, bind_eq_ok, pure_eq_ok, Prod.mk.injEq] at h
  obtain ⟨_, -, _, -, r₀, hr₀, _, -, a₁, h₁, a₂, h₂, rfl, -⟩ := h
  refine ((stays_save (lockRegistration_eq_ok hr₀).1 ?_ h₁).trans (stays_grant h₂)).noted _ _ _ _ (.inl (by decide))
  rfl

theorem quiet_checkIn {organizationId editionId registrationId actorId : Uuid} {reason : String}
    {correlationId : Uuid} {r : Registration}
    (h : checkInRegistration a w now organizationId editionId registrationId actorId reason correlationId =
      .ok (a', r)) : Quiet a a' := by
  simp only [checkInRegistration, bind_eq_ok] at h
  obtain ⟨_, -, _, -, r₀, hr₀, h⟩ := h
  split at h
  · cases h
    exact .refl a
  simp only [bind_eq_ok, pure_eq_ok, Prod.mk.injEq] at h
  obtain ⟨_, -, a₁, h₁, rfl, -⟩ := h
  refine (stays_save (lockRegistration_eq_ok hr₀).1 ?_ h₁).noted _ _ _ _ (.inl (by decide))
  rfl

theorem quiet_processLifecycle {registrationId correlationId : Uuid} {t : Option LifecycleTransition}
    (h : processRegistrationLifecycle a w now registrationId correlationId = .ok (a', t)) : Quiet a a' := by
  rcases processRegistrationLifecycle_eq_ok h with rfl | ⟨r, c, p, t, a₁, promoted, hr, -, -, -, h₁, h₂⟩
  · exact .refl a'
  exact ((stays_save hr (place_ended r t now) h₁).noted _ _ _ _
    (.inr (by decide))).trans (quiet_promote h₂)

theorem quiet_cancel {r : Registration} (hr : r ∈ a.registrations) {timelineKind : String}
    {actorId correlationId : Uuid} (kind : timelineKind ≠ "waitlist_place_offered")
    (h : a.cancelRegistration w r now timelineKind actorId correlationId = .ok a') : Quiet a a' := by
  simp only [Admissions.cancelRegistration, bind_eq_ok, pure_eq_ok] at h
  obtain ⟨a₁, h₁, rfl⟩ := h
  refine ((stays_save hr ?_ h₁).trans (stays_revoke a₁ _)).noted _ _ _ _ (.inl kind)
  rfl

/-! ## Commerce -/

theorem quiet_reserve {x : TierRequest} {replacementId correlationId : Uuid} {result : TierReplacementResult}
    (h : reserveAdmissionTierReplacement P a w now x replacementId correlationId = .ok (a', result)) : Quiet a a' := by
  simp only [reserveAdmissionTierReplacement, bind_eq_ok] at h
  obtain ⟨_, -, _, -, _, -, c, -, ⟨a₁, k⟩, hk, receipt, -, h⟩ := h
  split at h
  · obtain rfl := store_of_answer h
    exact (stays_lockControl hk).quiet
  simp only [bind_eq_ok, pure_eq_ok, Prod.mk.injEq] at h
  obtain ⟨⟨r, source, target⟩, -, a₂, h₂, a₃, h₃, rfl, -⟩ := h
  simp only [Admissions.createReplacement, bind_eq_ok, pure_eq_ok, getOr_eq_ok] at h₂
  obtain ⟨_, -, t, -, rfl⟩ := h₂
  have held := stays_rest a₁ a₁.consents a₁.entitlements t a₁.controls a₁.adjustments
  exact (((stays_lockControl hk).trans held).noted _ _ _ _ (.inl (by decide))).trans
    ((stays_advanceControl _ k).trans (stays_receipt h₃)).quiet

theorem quiet_complete {replacementId correlationId : Uuid} {completedAt : Int}
    (h : completeAdmissionTierReplacement a w now replacementId correlationId completedAt = .ok a') : Quiet a a' := by
  simp only [completeAdmissionTierReplacement, bind_eq_ok, require_eq_ok, getOr_eq_ok, pure_eq_ok] at h
  obtain ⟨x, -, _, -, _, -, r, hr, _, -, _, -, source, -, a₁, h₁, a₂, h₂, rfl⟩ := h
  have moved : Appends [] a a₁ := by
    refine stays_save (Table.get?_eq_some.mp hr).1 ?_ h₁
    rfl
  have exchanged : Appends [] a₁ a₂ := by
    unfold Admissions.exchangeEntitlement at h₂
    split at h₂
    · exact (stays_rest a₁ a₁.consents _ a₁.replacements a₁.controls a₁.adjustments).trans (stays_entitlements h₂)
    · cases h₂
      exact .refl _
  exact ((moved.trans exchanged).trans (stays_rest a₂ a₂.consents a₂.entitlements _ a₂.controls a₂.adjustments)).noted
    _ _ _ _ (.inl (by decide))

theorem quiet_expire (a : Admissions) (replacementId : Uuid) :
    Quiet a (expireAdmissionTierReplacement a w now replacementId).1 := by
  unfold expireAdmissionTierReplacement
  split
  · exact .refl a
  · exact (stays_rest a a.consents a.entitlements _ a.controls a.adjustments).noted _ _ _ _ (.inl (by decide))

theorem quiet_adjustCapacity {x : CapacityRequest} {adjustmentId : Uuid} {result : CapacityAdjustmentResult}
    (h : adjustRegistrationCapacity P a w now x adjustmentId = .ok (a', result)) : Quiet a a' := by
  simp only [adjustRegistrationCapacity, bind_eq_ok] at h
  obtain ⟨_, -, reason, -, _, -, c, -, ⟨a₁, k⟩, hk, receipt, -, h⟩ := h
  split at h
  · obtain rfl := store_of_answer h
    exact (stays_lockControl hk).quiet
  simp only [bind_eq_ok, pure_eq_ok, Prod.mk.injEq] at h
  obtain ⟨_, -, _, -, _, -, _, -, _, -, t, -, a₂, h₂, rfl, -⟩ := h
  exact ((((stays_lockControl hk).trans (stays_advanceControl a₁ k)).trans
    (stays_rest _ a₁.consents a₁.entitlements a₁.replacements _ t)).trans (stays_receipt h₂)).quiet

/-! ## Payments -/

theorem quiet_completePayment {replacementId : Option Uuid} {r : Registration} (hr : r ∈ a.registrations)
    {paidAt : Int} {correlationId : Uuid} (h : a.completePayment w now replacementId r paidAt correlationId = .ok a') :
    Quiet a a' := by
  unfold Admissions.completePayment at h
  split at h
  · exact quiet_complete h
  · simp only [Admissions.confirmPaid, bind_eq_ok, pure_eq_ok] at h
    obtain ⟨a₁, h₁, a₂, h₂, rfl⟩ := h
    refine ((stays_save hr ?_ h₁).trans (stays_grant h₂)).noted _ _ _ _ (.inl (by decide))
    rfl

/-! ## Every command but a batch -/

theorem quiet_restrictRegistration {s s' : Store} {actorId : Uuid} {r : Registration}
    {operationId correlationId : Uuid} (hr : r ∈ s.admissions.registrations)
    (h : restrictRegistration s w now actorId r operationId correlationId = .ok s') :
    Quiet s.admissions s'.admissions := by
  rcases restrictRegistration_eq_ok h with (rfl | rfl) | ⟨p, a₁, f, promoted, -, h₁, -, h₂, -⟩
  · exact .refl _
  · exact (stays_revoke _ _).quiet
  · exact (quiet_cancel hr (by decide) h₁).trans (quiet_promote h₂)

theorem quiet_approve {s s' : Store} {organizationId editionId operationId actorId : Uuid}
    {reason : String} {correlationId : Uuid} {o : FinancialOperation}
    (h : approveFinancialOperation s w now organizationId editionId operationId actorId reason correlationId =
      .ok (s', o)) : Quiet s.admissions s'.admissions := by
  obtain ⟨_, -, -, -, -, -, -, -, -, -, -, outcome⟩ := approveFinancialOperation_eq_ok h
  rcases outcome with ⟨-, -, r, hr, p, a₁, promoted, -, h₁, h₂⟩ | ⟨-, -, same⟩
  · exact (quiet_cancel hr (by decide) h₁).trans (quiet_promote h₂)
  · rw [same]
    exact .refl _

theorem quiet_demo {s s' : Store} {x : DemoPayment} {correlationId : Uuid}
    (h : confirmDemoPayment s w now x correlationId = .ok s') : Quiet s.admissions s'.admissions := by
  rcases confirmDemoPayment_eq_ok h with rfl | ⟨r, hr, _, _, _, -, -, completed, -⟩
  · exact .refl _
  · exact quiet_completePayment hr completed

theorem quiet_reconcile {s s' : Store} {d : Delivery} {receipt : PaymentWebhookReceipt}
    (h : reconcileVerifiedPaymentEvent P s w now d = .ok (s', receipt)) : Quiet s.admissions s'.admissions := by
  cases reconcile_delivered h with
  | replayed => exact .refl _
  | unknown => exact .refl _
  | @matched provider intent r done p _ _ _ hr reconciled _ =>
    show Quiet s.admissions done.store.admissions
    cases reconcileMatched_effect reconciled with
    | applied _ _ _ _ _ completed => exact quiet_completePayment (Table.get?_eq_some.mp hr).1 completed
    | _ => exact .refl _

theorem quiet_execCommand {s s' : Store} {call : Call} {answer : Answer}
    (other : ∀ x, call.command ≠ .offerWaitlistBatch x) (h : execCommand P s now call = .ok (s', answer)) :
    Quiet s.admissions s'.admissions := by
  simp only [execCommand] at h
  split at h <;> rename_i command
  case h_1 => exact quiet_submit (withAdmissions_eq_ok h).choose_spec.1
  case h_2 => exact quiet_accept (withAdmissions_eq_ok h).choose_spec.1
  case h_3 => exact quiet_extend (withAdmissions_eq_ok h).choose_spec.1
  case h_4 => exact quiet_waive (withAdmissions_eq_ok h).choose_spec.1
  case h_5 => exact quiet_checkIn (withAdmissions_eq_ok h).choose_spec.1
  case h_6 => exact quiet_processLifecycle (withAdmissions_eq_ok h).choose_spec.1
  case h_7 => exact quiet_reserve (withAdmissions_eq_ok h).choose_spec.1
  case h_8 =>
    obtain ⟨x, hx, -⟩ := withAdmissions_eq_ok h
    have expired := @quiet_expire now call.surroundings s.admissions ‹Uuid›
    rw [Except.ok.inj hx] at expired
    exact expired
  case h_9 => exact quiet_adjustCapacity (withAdmissions_eq_ok h).choose_spec.1
  case h_10 => exact absurd command (other _)
  case h_11 =>
    obtain ⟨_, h⟩ := answered_eq_ok h
    obtain ⟨_, -, -, -, -, _, -, rfl⟩ := proposeFinancialOperation_eq_ok h
    exact .refl _
  case h_12 => exact quiet_approve (answered_eq_ok h).choose_spec
  case h_13 =>
    simp only [bind_eq_ok, pure_eq_ok, Prod.mk.injEq] at h
    obtain ⟨_, h, rfl, -⟩ := h
    exact restrictEach_induct (fun _ _ _ _ hr quiet h =>
      Quiet.trans quiet (quiet_restrictRegistration hr h)) _ (Quiet.refl _) h
  case h_14 =>
    obtain ⟨_, h⟩ := answered_eq_ok h
    rcases createPaymentIntent_eq_ok h with rfl | ⟨_, -, _, -, _, _, -, -, -, -, -, -, -, -, rfl⟩ <;> exact .refl _
  case h_15 => exact (withPayments_eq_ok h).2 ▸ .refl _
  case h_16 => exact (withPayments_eq_ok h).2 ▸ .refl _
  case h_17 =>
    simp only [bind_eq_ok, pure_eq_ok, Prod.mk.injEq] at h
    obtain ⟨_, h, rfl, -⟩ := h
    exact quiet_demo h
  case h_18 => exact quiet_reconcile (answered_eq_ok h).choose_spec
  case h_19 => exact (withPayments_eq_ok h).2 ▸ .refl _

end Maru.Registration
