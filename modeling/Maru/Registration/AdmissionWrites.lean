import Mathlib.Logic.Relation
import Maru.Registration.CapacityInvariant

/-!
# The writes of the admissions

Every command on the admissions is a sequence of a few kinds of write (`Write`), so what each
of them keeps, every command keeps (`Writes.keeps`).
-/

namespace Maru.Registration

/-- A change of a registration that leaves it where it belongs. -/
structure Updates (old new : Registration) : Prop where
  id : new.id = old.id
  organization : new.organizationId = old.organizationId
  configuration : new.configurationId = old.configurationId

/-- One write to the admissions. -/
inductive Write : Admissions → Admissions → Prop
  | create {a : Admissions} {r : Registration} {t : Table Registration.id} (inScope : Scoped a r)
      (inserted : a.registrations.insert? r = some t) : Write a { a with registrations := t }
  | update {a : Admissions} {old r : Registration} (mem : old ∈ a.registrations) (updates : Updates old r)
      (inScope : Scoped a r) (moves : r.state = old.state ∨ old.state.mayBecome r.state) :
      Write a { a with registrations := a.registrations.save r }
  /-- A provider's payment: the registration is confirmed and entitled, and its timeline says so. -/
  | pay {a : Admissions} {old r : Registration} {e : Entitlement} {t : Table Entitlement.key} {entry : TimelineEntry}
      (mem : old ∈ a.registrations) (updates : Updates old r) (inScope : Scoped a r)
      (pending : old.state = .paymentPending) (confirmed : r.state = .confirmed) (holder : e.registrationId = r.id)
      (inserted : a.entitlements.insert? e = some t) (about : entry.registrationId = r.id)
      (kind : entry.kind = "payment_confirmed") :
      Write a { a with
        registrations := a.registrations.save r, entitlements := t, timeline := a.timeline ++ [entry] }
  | note {a : Admissions} {entry : TimelineEntry} (kind : entry.kind ≠ "payment_confirmed") :
      Write a { a with timeline := a.timeline ++ [entry] }
  | grant {a : Admissions} {r : Registration} {e : Entitlement} {t : Table Entitlement.key}
      (mem : r ∈ a.registrations) (held : r.state = .confirmed ∨ r.state = .checkedIn)
      (about : e.registrationId = r.id) (inserted : a.entitlements.insert? e = some t) :
      Write a { a with entitlements := t }
  | revoke {a : Admissions} {t : Table Entitlement.key}
      (kept : ∀ e ∈ t, ∃ e' ∈ a.entitlements, e'.key = e.key) : Write a { a with entitlements := t }
  | hold {a : Admissions} {x : AdmissionTierReplacement} {t : Table AdmissionTierReplacement.id} {r : Registration}
      {p : AdmissionProduct} (mem : r ∈ a.registrations) (about : x.registrationId = r.id)
      (target : p ∈ a.products) (hp : x.targetProductId = p.id) (inScope : p.configurationId = r.configurationId)
      (other : x.targetProductId ≠ x.sourceProductId)
      (alone : ∀ y ∈ a.replacements, y.registrationId = x.registrationId → y.status ≠ .paymentPending)
      (inserted : a.replacements.insert? x = some t) :
      Write a { a with replacements := t }
  | release {a : Admissions} {x x' : AdmissionTierReplacement} (mem : x ∈ a.replacements) (id : x'.id = x.id)
      (about : x'.registrationId = x.registrationId) (source : x'.sourceProductId = x.sourceProductId)
      (target : x'.targetProductId = x.targetProductId) (ended : x'.status ≠ .paymentPending) :
      Write a { a with replacements := a.replacements.save x' }
  | rest {a : Admissions} (consents : Table GuardianConsent.id) (controls : Table CommerceControl.configurationId)
      (commerceReceipts : Table CommerceReceipt.key) (adjustments : Table CapacityAdjustment.id)
      (batches : Table WaitlistBatchOffer.id) :
      Write a { a with
        consents := consents, controls := controls, commerceReceipts := commerceReceipts
        adjustments := adjustments, batches := batches }

abbrev Writes : Admissions → Admissions → Prop := Relation.ReflTransGen Write

theorem Writes.keeps {I : Admissions → Prop} (keep : ∀ a a', I a → Write a a' → I a')
    {a a' : Admissions} (ha : I a) (h : Writes a a') : I a' := by
  induction h with
  | refl => exact ha
  | tail _ write ih => exact keep _ _ ih write

theorem Write.writes {a a' : Admissions} (h : Write a a') : Writes a a' := .single h

variable {P : Primitives} {now : Int} {w : Surroundings} {a a' : Admissions}

/-! ## Functions that write once -/

theorem write_appendTimeline (a : Admissions) (registrationId : Uuid) {kind : String} (occurredAt : Int)
    (actorKind : String) (actorId : Option Uuid) (correlationId : Uuid) (h : kind ≠ "payment_confirmed") :
    Write a (a.appendTimeline registrationId kind occurredAt actorKind actorId correlationId) := .note h

theorem write_saveRegistration {old r : Registration} (hr : old ∈ a.registrations)
    (updates : Updates old r) (h : a.saveRegistration w now r = .ok a') : Write a a' := by
  obtain ⟨inScope, ⟨old', hold, hid, guarded⟩, rfl⟩ := saveRegistration_eq_ok h
  obtain rfl := Table.eq_of_key hr hold (updates.id.symm.trans hid.symm)
  refine .update hr updates inScope ?_
  rcases guarded with h | h | ⟨h, -⟩
  · simp only [extends_, decide_eq_true_eq] at h
    exact .inl (h.2.1.trans h.1.symm)
  · simp only [Admissions.upgrades, decide_eq_true_eq] at h
    exact .inl h.2.1
  · exact .inr h

theorem mem_saveRegistration {old r : Registration} (hr : old ∈ a.registrations)
    (hid : r.id = old.id) (h : a.saveRegistration w now r = .ok a') : r ∈ a'.registrations := by
  obtain ⟨-, -, rfl⟩ := saveRegistration_eq_ok h
  exact Table.mem_save.mpr (.inr ⟨rfl, old, hr, hid.symm⟩)

theorem write_grant {r : Registration} {grantedAt : Int} (hr : r ∈ a.registrations) (confirmed : r.state = .confirmed)
    (h : a.grantProductEntitlement r grantedAt = .ok a') : Write a a' := by
  simp only [Admissions.grantProductEntitlement, bind_eq_ok] at h
  obtain ⟨p, -, h⟩ := h
  obtain ⟨t, ht, rfl⟩ := createEntitlement_eq_ok h
  refine .grant hr (.inl confirmed) ?_ ht
  rfl

theorem writes_grantIfConfirmed {r : Registration} {grantedAt : Int} (hr : r ∈ a.registrations)
    (h : a.grantIfConfirmed r grantedAt = .ok a') : Writes a a' := by
  unfold Admissions.grantIfConfirmed at h
  split at h
  · rename_i confirmed
    exact (write_grant hr confirmed h).writes
  · cases h
    exact .refl

theorem mem_revokeEntitlements {registrationId : Uuid} {e : Entitlement} :
    e ∈ (a.revokeEntitlements registrationId).entitlements ↔
      (e ∈ a.entitlements ∧ ¬ (e.registrationId = registrationId ∧ e.active)) ∨ ∃ e' ∈ a.entitlements,
        e'.registrationId = registrationId ∧ e'.active ∧ e = { e' with active := false } := by
  have active : ∀ e ∈ a.entitlements.rows.filter fun e => e.registrationId = registrationId ∧
      e.active, e ∈ a.entitlements := fun e he => (List.mem_filter.mp he).1
  have distinct : ((a.entitlements.rows.filter fun e =>
      e.registrationId = registrationId ∧ e.active).map Entitlement.key).Nodup :=
    (List.filter_sublist.map _).nodup a.entitlements.nodup
  have saved := Table.mem_saveAll (f := fun e => { e with active := false }) (fun _ => rfl) active distinct (a := e)
  refine saved.trans (or_congr ⟨fun h => ⟨h.1, fun own => ?_⟩, fun h => ⟨h.1, fun i hi key => ?_⟩⟩ ?_)
  · exact h.2 e (List.mem_filter.mpr ⟨h.1, by simpa using own⟩) rfl
  · obtain ⟨hi, own⟩ := List.mem_filter.mp hi
    obtain rfl := Table.eq_of_key h.1 hi key
    exact h.2 (by simpa using own)
  · simp only [List.mem_filter, decide_eq_true_eq, and_assoc, Table.mem_def]

theorem write_revokeEntitlements (a : Admissions) (registrationId : Uuid) :
    Write a (a.revokeEntitlements registrationId) := by
  refine .revoke fun e he => ?_
  rcases mem_revokeEntitlements.mp he with ⟨he, -⟩ | ⟨e', he', -, -, rfl⟩
  · exact ⟨e, he, rfl⟩
  · exact ⟨e', he', rfl⟩

theorem write_lockControl {c : Configuration} {k : CommerceControl}
    (h : a.lockControl c = .ok (a', k)) : Write a a' := by
  unfold Admissions.lockControl at h
  split at h
  · cases h
    exact .rest a.consents a.controls a.commerceReceipts a.adjustments a.batches
  · simp only [bind_eq_ok, pure_eq_ok, Prod.mk.injEq] at h
    obtain ⟨t, -, rfl, -⟩ := h
    exact .rest a.consents t a.commerceReceipts a.adjustments a.batches

theorem write_advanceControl (a : Admissions) (k : CommerceControl) : Write a (a.advanceControl k).1 :=
  .rest a.consents _ a.commerceReceipts a.adjustments a.batches

theorem write_createCommerceReceipt {receipt : CommerceReceipt}
    (h : a.createCommerceReceipt receipt = .ok a') : Write a a' := by
  simp only [Admissions.createCommerceReceipt, bind_eq_ok, pure_eq_ok] at h
  obtain ⟨t, -, rfl⟩ := h
  exact .rest a.consents a.controls t a.adjustments a.batches

/-! ## Registrations -/

theorem updates_offered (r : Registration) (c : Configuration) (p : AdmissionProduct)
    (offeredAt : Int) : Updates r (r.offered c p offeredAt) := by
  unfold Registration.offered
  split <;> exact ⟨rfl, rfl, rfl⟩

theorem writes_offerPlace {old r : Registration} (hr : old ∈ a.registrations)
    (updates : Updates old r) {actorKind : String} {actorId : Option Uuid} {correlationId : Uuid}
    (h : a.offerPlace w now r actorKind actorId correlationId = .ok a') : Writes a a' := by
  simp only [Admissions.offerPlace, bind_eq_ok, pure_eq_ok] at h
  obtain ⟨a₁, h₁, a₂, h₂, rfl⟩ := h
  refine (write_saveRegistration hr updates h₁).writes.trans
    ((writes_grantIfConfirmed (mem_saveRegistration hr updates.id h₁) h₂).tail ?_)
  exact write_appendTimeline _ _ _ _ _ _ (by decide)

theorem writes_promote {p : AdmissionProduct} {correlationId : Uuid} {promoted : Option Registration}
    (h : a.promoteWaitlistForProduct w p now correlationId = .ok (a', promoted)) : Writes a a' := by
  rcases promoteWaitlistForProduct_eq_ok h with rfl | ⟨c, r, -, -, waits, h₁⟩
  · exact .refl
  · exact writes_offerPlace (mem_waitlist waits).1 (updates_offered r c p now) h₁

theorem writes_recordOutcome {r : Registration} {submittedAt : Int} {correlationId : Uuid}
    (hr : r ∈ a.registrations) (h : a.recordOutcome r submittedAt correlationId = .ok a') : Writes a a' := by
  unfold Admissions.recordOutcome at h
  split at h
  · rename_i confirmed
    simp only [bind_eq_ok, pure_eq_ok] at h
    obtain ⟨a₁, h₁, rfl⟩ := h
    refine (write_grant hr confirmed h₁).writes.tail ?_
    exact write_appendTimeline _ _ _ _ _ _ (by decide)
  split at h
  · cases h
    exact (write_appendTimeline _ _ _ _ _ _ (by decide)).writes
  · cases h
    exact .refl

theorem writes_requestConsent {x : Submission} {registrationId : Uuid} {requestedAt : Int}
    (h : a.requestConsent x registrationId requestedAt = .ok a') : Writes a a' := by
  unfold Admissions.requestConsent at h
  split at h
  · cases h
    exact .refl
  · simp only [Admissions.createGuardianConsent, bind_eq_ok, pure_eq_ok] at h
    obtain ⟨_, -, t, -, rfl⟩ := h
    exact (Write.rest t a.controls a.commerceReceipts a.adjustments a.batches).writes

theorem writes_submit {x : Submission} {registrationId correlationId : Uuid} {r : Registration}
    (h : submitRegistration a w now x registrationId correlationId = .ok (a', r)) : Writes a a' := by
  simp only [submitRegistration, bind_eq_ok, pure_eq_ok, Prod.mk.injEq] at h
  obtain ⟨_, -, _, -, c, -, _, -, _, -, p, -, _, -, _, -, a₁, h₁, a₂, h₂, rfl, rfl⟩ := h
  obtain ⟨inScope, t, ht, rfl⟩ := createRegistration_eq_ok h₁
  refine (Write.create inScope ht).writes.trans ?_
  simp only [Admissions.recordSubmission, bind_eq_ok] at h₂
  obtain ⟨a₃, h₃, h₄⟩ := h₂
  have created := (Table.mem_insert? ht).mpr (.inr rfl)
  refine Relation.ReflTransGen.trans ?_ (Relation.ReflTransGen.trans (writes_recordOutcome ?_ h₃)
    (writes_requestConsent h₄))
  · split
    · exact (write_appendTimeline _ _ _ _ _ _ (by decide)).writes.tail
        (write_appendTimeline _ _ _ _ _ _ (by decide))
    · exact (write_appendTimeline _ _ _ _ _ _ (by decide)).writes
  · split <;> exact created

theorem updates_accepted (r : Registration) (c : Configuration) (p : AdmissionProduct)
    (reached : Bool) (acceptedAt : Int) : Updates r (r.accepted c p reached acceptedAt) := by
  unfold Registration.accepted
  split
  · exact ⟨rfl, rfl, rfl⟩
  · split <;> exact ⟨rfl, rfl, rfl⟩

theorem writes_accept {tokenDigest guardianName : String} {r : Registration}
    (h : acceptGuardianConsent a w now tokenDigest guardianName = .ok (a', r)) : Writes a a' := by
  simp only [acceptGuardianConsent, bind_eq_ok, pure_eq_ok, getOr_eq_ok, Prod.mk.injEq] at h
  obtain ⟨consent, -, _, -, _, -, r, hr, _, -, c, -, p, -, a₁, h₁, a₂, h₂, rfl, -⟩ := h
  obtain ⟨hr, -⟩ := Table.get?_eq_some.mp hr
  have updates := updates_accepted r c p (a.baseCapacityReached c p) now
  have saved := mem_saveRegistration hr updates.id h₁
  refine (write_saveRegistration hr updates h₁).writes.trans (Relation.ReflTransGen.head
    (.rest _ a₁.controls a₁.commerceReceipts a₁.adjustments a₁.batches)
    ((writes_grantIfConfirmed ?_ h₂).tail (write_appendTimeline _ _ _ _ _ _ (by decide))))
  exact saved

theorem writes_extend {organizationId editionId registrationId actorId : Uuid} {newDeadline : Int}
    {reason : String} {correlationId : Uuid} {r : Registration}
    (h : extendPaymentDeadline a w now organizationId editionId registrationId actorId newDeadline reason
      correlationId = .ok (a', r)) : Writes a a' := by
  simp only [extendPaymentDeadline, bind_eq_ok, pure_eq_ok, Prod.mk.injEq] at h
  obtain ⟨_, -, _, -, _, -, r₀, hr₀, _, -, a₁, h₁, rfl, -⟩ := h
  refine (write_saveRegistration (lockRegistration_eq_ok hr₀).1 ?_ h₁).writes.tail
    (write_appendTimeline _ _ _ _ _ _ (by decide))
  exact ⟨rfl, rfl, rfl⟩

theorem writes_waive {organizationId editionId registrationId actorId : Uuid} {reason : String}
    {correlationId : Uuid} {r : Registration}
    (h : waiveRegistrationPayment a w now organizationId editionId registrationId actorId reason correlationId =
      .ok (a', r)) : Writes a a' := by
  simp only [waiveRegistrationPayment, bind_eq_ok, pure_eq_ok, Prod.mk.injEq] at h
  obtain ⟨_, -, _, -, r₀, hr₀, _, -, a₁, h₁, a₂, h₂, rfl, -⟩ := h
  have hr := (lockRegistration_eq_ok hr₀).1
  refine (write_saveRegistration hr ?_ h₁).writes.trans
    ((write_grant (mem_saveRegistration hr ?_ h₁) ?_ h₂).writes.tail (write_appendTimeline _ _ _ _ _ _ (by decide)))
  · exact ⟨rfl, rfl, rfl⟩
  · rfl
  · rfl

theorem writes_checkIn {organizationId editionId registrationId actorId : Uuid} {reason : String}
    {correlationId : Uuid} {r : Registration}
    (h : checkInRegistration a w now organizationId editionId registrationId actorId reason correlationId =
      .ok (a', r)) : Writes a a' := by
  simp only [checkInRegistration, bind_eq_ok] at h
  obtain ⟨_, -, _, -, r₀, hr₀, h⟩ := h
  split at h
  · cases h
    exact .refl
  simp only [bind_eq_ok, pure_eq_ok, Prod.mk.injEq] at h
  obtain ⟨_, -, a₁, h₁, rfl, -⟩ := h
  refine (write_saveRegistration (lockRegistration_eq_ok hr₀).1 ?_ h₁).writes.tail
    (write_appendTimeline _ _ _ _ _ _ (by decide))
  exact ⟨rfl, rfl, rfl⟩

theorem updates_ended (r : Registration) (t : LifecycleTransition) (processedAt : Int) :
    Updates r (r.ended t processedAt) := by
  unfold Registration.ended
  split <;> exact ⟨rfl, rfl, rfl⟩

theorem lifecycleTransitionFor_kind {r : Registration} {c : Configuration} {p : AdmissionProduct}
    {processedAt : Int} {t : LifecycleTransition} (h : lifecycleTransitionFor w r c p processedAt = some t) :
    t.timelineKind ≠ "payment_confirmed" := by
  unfold lifecycleTransitionFor at h
  split at h
  · cases h; decide
  split at h
  · cases h; decide
  split at h
  · cases h; decide
  · cases h

theorem writes_processLifecycle {registrationId correlationId : Uuid} {t : Option LifecycleTransition}
    (h : processRegistrationLifecycle a w now registrationId correlationId = .ok (a', t)) : Writes a a' := by
  rcases processRegistrationLifecycle_eq_ok h with rfl | ⟨r, c, p, t, a₁, promoted, hr, -, -, ht, h₁, h₂⟩
  · exact .refl
  refine (write_saveRegistration hr (updates_ended r t now) h₁).writes.trans
    (Relation.ReflTransGen.head ?_ (writes_promote h₂))
  exact write_appendTimeline _ _ _ _ _ _ (lifecycleTransitionFor_kind ht)

theorem writes_cancel {r : Registration} (hr : r ∈ a.registrations) {timelineKind : String}
    {actorId correlationId : Uuid} (kind : timelineKind ≠ "payment_confirmed")
    (h : a.cancelRegistration w r now timelineKind actorId correlationId = .ok a') : Writes a a' := by
  simp only [Admissions.cancelRegistration, bind_eq_ok, pure_eq_ok] at h
  obtain ⟨a₁, h₁, rfl⟩ := h
  refine ((write_saveRegistration hr ?_ h₁).writes.tail (write_revokeEntitlements ..)).tail
    (write_appendTimeline _ _ _ _ _ _ kind)
  exact ⟨rfl, rfl, rfl⟩

/-! ## Commerce -/

theorem writes_reserve {x : TierRequest} {replacementId correlationId : Uuid} {result : TierReplacementResult}
    (h : reserveAdmissionTierReplacement P a w now x replacementId correlationId = .ok (a', result)) :
    Writes a a' := by
  obtain ⟨c, a₁, k, hk, written⟩ := reserveAdmissionTierReplacement_eq_ok h
  have locked := (write_lockControl hk).writes
  obtain rfl | ⟨r, hr, hrc, -, single, target, htarget, htc, source, other, -, t, receipt, ht, h₃⟩ := written
  · exact locked
  have held : Write a₁ { a₁ with replacements := t } :=
    .hold hr rfl htarget rfl (htc.trans hrc.symm) other single ht
  exact ((locked.tail held).tail (write_appendTimeline _ _ _ _ _ _ (by decide))).tail
    (write_advanceControl _ k) |>.tail (write_createCommerceReceipt h₃)

theorem updates_moved (r : Registration) (x : AdmissionTierReplacement) : Updates r (r.moved x) := ⟨rfl, rfl, rfl⟩

theorem writes_exchangeEntitlement {r : Registration} {x : AdmissionTierReplacement} {source : Entitlement}
    {grantedAt : Int} (hr : r ∈ a.registrations) (held : r.state = .confirmed ∨ r.state = .checkedIn)
    (hs : source ∈ a.entitlements) (h : a.exchangeEntitlement r x source grantedAt = .ok a') : Writes a a' := by
  unfold Admissions.exchangeEntitlement at h
  split at h
  · obtain ⟨t, ht, rfl⟩ := createEntitlement_eq_ok h
    refine (Write.revoke (t := a.entitlements.save { source with active := false }) fun e he => ?_).writes.tail
      (.grant (r := r) ?_ held ?_ ht)
    · rcases Table.mem_save.mp he with ⟨he, -⟩ | ⟨rfl, -⟩
      · exact ⟨e, he, rfl⟩
      · exact ⟨source, hs, rfl⟩
    · exact hr
    · rfl
  · cases h
    exact .refl

theorem writes_complete {replacementId correlationId : Uuid} {completedAt : Int}
    (h : completeAdmissionTierReplacement a w now replacementId correlationId completedAt = .ok a') :
    Writes a a' := by
  simp only [completeAdmissionTierReplacement, bind_eq_ok, require_eq_ok, getOr_eq_ok, pure_eq_ok] at h
  obtain ⟨x, hx, _, -, _, -, r, hr, _, ⟨-, held⟩, _, -, source, hs, a₁, h₁, a₂, h₂, rfl⟩ := h
  obtain ⟨hr, -⟩ := Table.get?_eq_some.mp hr
  have saved := write_saveRegistration hr (updates_moved r x) h₁
  have moved := mem_saveRegistration hr (updates_moved r x).id h₁
  obtain ⟨-, -, rfl⟩ := saveRegistration_eq_ok h₁
  have exchanged := writes_exchangeEntitlement moved (by exact held) (Table.find?_eq_some_and hs).1 h₂
  have same : a₂.replacements = a.replacements := by
    unfold Admissions.exchangeEntitlement at h₂
    split at h₂
    · obtain ⟨t, -, rfl⟩ := createEntitlement_eq_ok h₂
      rfl
    · cases h₂
      rfl
  refine ((saved.writes.trans exchanged).tail (.release (x := x) ?_ ?_ ?_ ?_ ?_ ?_)).tail
    (write_appendTimeline _ _ _ _ _ _ (by decide))
  · exact same ▸ (Table.get?_eq_some.mp hx).1
  · rfl
  · rfl
  · rfl
  · rfl
  · exact ReplacementStatus.noConfusion

theorem writes_expire (a : Admissions) (replacementId : Uuid) :
    Writes a (expireAdmissionTierReplacement a w now replacementId).1 := by
  unfold expireAdmissionTierReplacement
  split
  · exact .refl
  · rename_i x hx
    refine (Write.release (x := x) (Table.find?_eq_some_and hx).1 ?_ ?_ ?_ ?_ ?_).writes.tail
      (write_appendTimeline _ _ _ _ _ _ (by decide))
    · rfl
    · rfl
    · rfl
    · rfl
    · exact ReplacementStatus.noConfusion

theorem writes_adjustCapacity {x : CapacityRequest} {adjustmentId : Uuid} {result : CapacityAdjustmentResult}
    (h : adjustRegistrationCapacity P a w now x adjustmentId = .ok (a', result)) : Writes a a' := by
  simp only [adjustRegistrationCapacity, bind_eq_ok] at h
  obtain ⟨_, -, reason, -, _, -, c, -, ⟨a₁, k⟩, hk, receipt, -, h⟩ := h
  have locked := (write_lockControl hk).writes
  split at h
  · obtain rfl := store_of_answer h
    exact locked
  simp only [bind_eq_ok, pure_eq_ok, Prod.mk.injEq] at h
  obtain ⟨_, -, _, -, _, -, _, -, _, -, t, -, a₂, h₂, rfl, -⟩ := h
  exact ((locked.tail (write_advanceControl a₁ k)).tail (.rest a₁.consents _ a₁.commerceReceipts t a₁.batches)).tail
    (write_createCommerceReceipt h₂)

theorem writes_offerEach {actorId correlationId : Uuid} (rs : List Registration) {a : Admissions}
    (mem : ∀ r ∈ rs, r ∈ a.registrations) (distinct : (rs.map Registration.id).Nodup)
    (h : offerEach a w actorId now correlationId rs = .ok a') : Writes a a' := by
  induction rs generalizing a with
  | nil =>
    cases h
    exact .refl
  | cons r rs ih =>
    simp only [offerEach, bind_eq_ok, offerWaitlistedRegistration] at h
    obtain ⟨a₁, ⟨d, -, q, -, h₁⟩, h⟩ := h
    rw [List.map_cons, List.nodup_cons] at distinct
    have updates := updates_offered r d q now
    refine (writes_offerPlace (mem r List.mem_cons_self) updates h₁).trans (ih (fun r' hr' => ?_) distinct.2 h)
    rw [(offerPlace_eq_ok h₁).2.registrations]
    refine Table.mem_save.mpr (.inl ⟨mem r' (List.mem_cons_of_mem r hr'), fun e => distinct.1 ?_⟩)
    rw [← updates.id, ← e]
    exact List.mem_map_of_mem hr'

theorem writes_offerBatch {x : BatchRequest} {batchId : Uuid} {result : WaitlistBatchResult}
    (h : offerNextWaitlistBatch P a w now x batchId = .ok (a', result)) : Writes a a' := by
  simp only [offerNextWaitlistBatch, bind_eq_ok] at h
  obtain ⟨_, -, reason, -, _, -, c, -, p, -, ⟨a₁, k⟩, hk, receipt, -, h⟩ := h
  have locked := (write_lockControl hk).writes
  split at h
  · obtain rfl := store_of_answer h
    exact locked
  simp only [bind_eq_ok, pure_eq_ok, Prod.mk.injEq] at h
  obtain ⟨_, -, _, -, a₂, h₂, t, -, a₃, h₃, rfl, -⟩ := h
  have offered : Writes a₁ a₂ := by
    refine writes_offerEach _ (fun r hr => (mem_waitlist (List.mem_of_mem_take hr)).1) ?_ h₂
    exact ((List.take_sublist _ _).map _).nodup (nodup_waitlist ..)
  exact (((locked.trans offered).tail (write_advanceControl a₂ k)).tail
    (.rest a₂.consents _ a₂.commerceReceipts a₂.adjustments t)).tail (write_createCommerceReceipt h₃)

/-! ## Payments -/

theorem writes_confirmPaid {r : Registration} (hr : r ∈ a.registrations) (pending : r.state = .paymentPending)
    {paidAt : Int} {correlationId : Uuid} (h : a.confirmPaid w now r paidAt correlationId = .ok a') :
    Writes a a' := by
  simp only [Admissions.confirmPaid, bind_eq_ok, pure_eq_ok] at h
  obtain ⟨a₁, h₁, a₂, h₂, rfl⟩ := h
  obtain ⟨inScope, -, rfl⟩ := saveRegistration_eq_ok h₁
  simp only [Admissions.grantProductEntitlement, bind_eq_ok] at h₂
  obtain ⟨p, -, h₂⟩ := h₂
  obtain ⟨t, ht, rfl⟩ := createEntitlement_eq_ok h₂
  refine (Write.pay (r := r.paid paidAt) hr ⟨rfl, rfl, rfl⟩ inScope pending ?_ ?_ ht ?_ ?_).writes <;> rfl

theorem writes_completePayment {replacementId : Option Uuid} {r : Registration} (hr : r ∈ a.registrations)
    (pending : replacementId = none → r.state = .paymentPending) {paidAt : Int} {correlationId : Uuid}
    (h : a.completePayment w now replacementId r paidAt correlationId = .ok a') : Writes a a' := by
  unfold Admissions.completePayment at h
  split at h
  · exact writes_complete h
  · exact writes_confirmPaid hr (pending rfl) h

end Maru.Registration
