import Maru.Registration.Capacity
import Maru.Registration.CommandEffects

/-!
# The capacity invariant

Every command keeps `Sound`, but for a guardian's acceptance where the offered capacity has
room and the effective one has not (`AcceptanceHasRoom`).
-/

namespace Maru.Registration

variable {P : Primitives} {now : Int} {w : Surroundings} {a a' : Admissions}

/-! ## Writes -/

/-- What the trigger let through on an update. -/
def Guarded (a : Admissions) (now : Int) (old new : Registration) : Prop :=
  extends_ old new ∨ a.upgrades now old new ∨
    (old.state.mayBecome new.state ∧ new.aggregateVersion = old.aggregateVersion + 1)

theorem saveRegistration_eq_ok {r : Registration} (h : a.saveRegistration w now r = .ok a') :
    Scoped a r ∧ (∃ old ∈ a.registrations, old.id = r.id ∧ Guarded a now old r) ∧
      a' = { a with registrations := a.registrations.save r } := by
  simp only [Admissions.saveRegistration, Admissions.cleanRegistration, bind_eq_ok, pure_eq_ok,
    require_eq_ok, getOr_eq_ok] at h
  obtain ⟨_, ⟨_, -, hp⟩, old, hold, _, hg, rfl⟩ := h
  obtain ⟨hmem, hid⟩ := Table.get?_eq_some.mp hold
  refine ⟨?_, ⟨old, hmem, hid, ?_⟩, rfl⟩
  · simpa [List.any_eq_true, Scoped, Table.mem_def] using hp
  · simp only [Admissions.guardRegistration, bind_eq_ok, require_eq_ok] at hg
    obtain ⟨_, -, hg⟩ := hg
    unfold Guarded
    split at hg
    · rename_i hb
      rcases Bool.or_eq_true _ _ ▸ hb with hb | hb
      · exact .inl hb
      · exact .inr (.inl hb)
    · simp only [bind_eq_ok, require_eq_ok] at hg
      obtain ⟨_, hm, -⟩ := hg
      exact .inr (.inr hm)

theorem createRegistration_eq_ok {r : Registration} (h : a.createRegistration w r = .ok a') :
    Scoped a r ∧ ∃ t, a.registrations.insert? r = some t ∧ a' = { a with registrations := t } := by
  simp only [Admissions.createRegistration, Admissions.cleanRegistration, bind_eq_ok, pure_eq_ok,
    require_eq_ok, getOr_eq_ok] at h
  obtain ⟨_, ⟨_, -, hp⟩, _, -, _, -, _, -, _, -, _, -, t, ht, rfl⟩ := h
  exact ⟨by simpa [List.any_eq_true, Scoped, Table.mem_def] using hp, t, ht, rfl⟩

theorem same_appendTimeline (a : Admissions) (registrationId : Uuid) (kind : String)
    (occurredAt : Int) (actorKind : String) (actorId : Option Uuid) (correlationId : Uuid) :
    Same a (a.appendTimeline registrationId kind occurredAt actorKind actorId correlationId) :=
  ⟨rfl, rfl, rfl, rfl, rfl, rfl⟩

theorem same_consents (a : Admissions) (t : Table GuardianConsent.id) : Same a { a with consents := t } :=
  ⟨rfl, rfl, rfl, rfl, rfl, rfl⟩

theorem same_batches (a : Admissions) (t : Table WaitlistBatchOffer.id) : Same a { a with batches := t } :=
  ⟨rfl, rfl, rfl, rfl, rfl, rfl⟩

theorem same_revokeEntitlements (a : Admissions) (registrationId : Uuid) :
    Same a (a.revokeEntitlements registrationId) := ⟨rfl, rfl, rfl, rfl, rfl, rfl⟩

theorem createEntitlement_eq_ok {e : Entitlement} (h : a.createEntitlement e = .ok a') :
    ∃ t, a.entitlements.insert? e = some t ∧ a' = { a with entitlements := t } := by
  simp only [Admissions.createEntitlement, bind_eq_ok, pure_eq_ok, getOr_eq_ok] at h
  obtain ⟨t, ht, rfl⟩ := h
  exact ⟨t, ht, rfl⟩

theorem same_createEntitlement {e : Entitlement} (h : a.createEntitlement e = .ok a') : Same a a' := by
  obtain ⟨t, -, rfl⟩ := createEntitlement_eq_ok h
  exact ⟨rfl, rfl, rfl, rfl, rfl, rfl⟩

theorem same_grant {r : Registration} {grantedAt : Int}
    (h : a.grantProductEntitlement r grantedAt = .ok a') : Same a a' := by
  simp only [Admissions.grantProductEntitlement, bind_eq_ok] at h
  obtain ⟨p, -, h⟩ := h
  exact same_createEntitlement h

theorem same_grantIfConfirmed {r : Registration} {grantedAt : Int}
    (h : a.grantIfConfirmed r grantedAt = .ok a') : Same a a' := by
  unfold Admissions.grantIfConfirmed at h
  split at h
  · exact same_grant h
  · cases h
    exact .refl a

theorem same_createGuardianConsent {registrationId : Uuid} {g : GuardianRequest} {requestedAt : Int}
    (h : a.createGuardianConsent registrationId g requestedAt = .ok a') : Same a a' := by
  simp only [Admissions.createGuardianConsent, bind_eq_ok, pure_eq_ok, getOr_eq_ok] at h
  obtain ⟨_, -, t, -, rfl⟩ := h
  exact ⟨rfl, rfl, rfl, rfl, rfl, rfl⟩

theorem same_createCommerceReceipt {receipt : CommerceReceipt}
    (h : a.createCommerceReceipt receipt = .ok a') : Same a a' := by
  simp only [Admissions.createCommerceReceipt, bind_eq_ok, pure_eq_ok, getOr_eq_ok] at h
  obtain ⟨t, -, rfl⟩ := h
  exact ⟨rfl, rfl, rfl, rfl, rfl, rfl⟩

/-- The locked control is in the table, which is as it was but for it. -/
theorem lockControl_eq_ok {c : Configuration} {k : CommerceControl} (h : a.lockControl c = .ok (a', k)) :
    Kept a a' ∧ k ∈ a'.controls ∧ k.configurationId = c.id := by
  unfold Admissions.lockControl at h
  split at h
  · rename_i control hc
    obtain ⟨hmem, hid⟩ := Table.get?_eq_some.mp hc
    cases h
    exact ⟨(Same.refl a).kept, hmem, hid⟩
  · simp only [bind_eq_ok, pure_eq_ok, getOr_eq_ok, Prod.mk.injEq] at h
    obtain ⟨t, ht, rfl, rfl⟩ := h
    refine ⟨⟨rfl, rfl, rfl, rfl, rfl, fun k hk => ⟨k, (Table.mem_insert? ht).mpr (.inl hk), rfl, le_rfl⟩⟩, ?_, rfl⟩
    exact (Table.mem_insert? ht).mpr (.inr rfl)

theorem kept_advanceControl {k : CommerceControl} (hk : k ∈ a.controls) : Kept a (a.advanceControl k).1 := by
  refine ⟨rfl, rfl, rfl, rfl, rfl, fun k₀ hk₀ => ?_⟩
  by_cases h : k₀.configurationId = k.configurationId
  · obtain rfl := Table.eq_of_key hk₀ hk h
    exact ⟨_, Table.mem_save.mpr (.inr ⟨rfl, k₀, hk₀, rfl⟩), rfl, Nat.le_succ _⟩
  · exact ⟨k₀, Table.mem_save.mpr (.inl ⟨hk₀, h⟩), rfl, le_rfl⟩

theorem productOf_eq_ok {r : Registration} {p : AdmissionProduct} (h : a.productOf r = .ok p) :
    p ∈ a.products ∧ p.id = r.productId := Table.get?_eq_some.mp (getOr_eq_ok.mp h)

theorem configurationOf_eq_ok {p : AdmissionProduct} {c : Configuration} (h : a.configurationOf p = .ok c) :
    c ∈ a.configurations ∧ c.id = p.configurationId := Table.get?_eq_some.mp (getOr_eq_ok.mp h)

theorem lockRegistration_eq_ok {organizationId editionId registrationId : Uuid} {r : Registration}
    (h : a.lockRegistration organizationId editionId registrationId = .ok r) :
    r ∈ a.registrations ∧ r.id = registrationId := by
  obtain ⟨hr, hp⟩ := Table.find?_eq_some_and (getOr_eq_ok.mp h)
  exact ⟨hr, hp.1⟩

/-! ## Registrations that change -/

/-- Saving a registration that keeps its product and takes a place only where there is room. -/
theorem Sound.save (hs : Sound now a) {r r' : Registration} (hr : r ∈ a.registrations) (hid : r'.id = r.id)
    (hc : r'.configurationId = r.configurationId) (hp : r'.productId = r.productId)
    (room : r'.state.occupied → r.state.occupied ∨ Room now a r') (h : a.saveRegistration w now r' = .ok a') :
    Sound now a' := by
  obtain ⟨inScope, -, rfl⟩ := saveRegistration_eq_ok h
  exact hs.change hr hid.symm hc hp inScope room

/-- Where nothing is full there is room. -/
theorem Room.of_not_full {c : Configuration} {p : AdmissionProduct} {r : Registration} (hc : c ∈ a.configurations)
    (hp : p ∈ a.products) (hrc : r.configurationId = c.id) (hrp : r.productId = p.id)
    (h : a.full c p now = false) : Room now a r := by
  simp only [Admissions.full, decide_eq_false_iff_not, not_or, not_le] at h
  refine ⟨fun p' hp' e => ?_, fun c' hc' e => ?_⟩
  · obtain rfl := Table.eq_of_key hp hp' (hrp.symm.trans e.symm)
    exact h.1
  · obtain rfl := Table.eq_of_key hc hc' (hrc.symm.trans e.symm)
    exact h.2

theorem offered_eq (r : Registration) (c : Configuration) (p : AdmissionProduct) (offeredAt : Int) :
    (r.offered c p offeredAt).id = r.id ∧ (r.offered c p offeredAt).configurationId =
      r.configurationId ∧ (r.offered c p offeredAt).productId = r.productId := by
  unfold Registration.offered
  split <;> exact ⟨rfl, rfl, rfl⟩

/-- An offer writes the registration and what hangs on it. -/
theorem offerPlace_eq_ok {r : Registration} {actorKind : String} {actorId : Option Uuid}
    {correlationId : Uuid} (h : a.offerPlace w now r actorKind actorId correlationId = .ok a') :
    Scoped a r ∧ Same { a with registrations := a.registrations.save r } a' := by
  simp only [Admissions.offerPlace, bind_eq_ok, pure_eq_ok] at h
  obtain ⟨a₁, h₁, a₂, h₂, rfl⟩ := h
  obtain ⟨inScope, -, rfl⟩ := saveRegistration_eq_ok h₁
  exact ⟨inScope, (same_grantIfConfirmed h₂).trans (same_appendTimeline ..)⟩

theorem mem_waitlist {productId : Uuid} {r : Registration} (h : r ∈ a.waitlist w productId) :
    r ∈ a.registrations ∧ r.productId = productId ∧ r.state = .waitlisted := by
  rw [Admissions.waitlist, List.mem_insertionSort, List.mem_filter] at h
  simp only [decide_eq_true_eq] at h
  exact ⟨h.1, h.2.1, h.2.2.1⟩

theorem nodup_waitlist (a : Admissions) (w : Surroundings) (productId : Uuid) :
    ((a.waitlist w productId).map Registration.id).Nodup := by
  refine (((List.perm_insertionSort _ _).map _).nodup_iff).mpr ?_
  exact (List.filter_sublist.map _).nodup a.registrations.nodup

/-- A place offered from the waitlist of a product whose configuration is given. -/
theorem Sound.offer (hs : Sound now a) {c : Configuration} {p : AdmissionProduct} {r : Registration}
    (hr : r ∈ a.registrations) (room : Room now a r) {actorKind : String}
    {actorId : Option Uuid} {correlationId : Uuid}
    (h : a.offerPlace w now (r.offered c p now) actorKind actorId correlationId = .ok a') : Sound now a' := by
  obtain ⟨hid, hc, hp⟩ := offered_eq r c p now
  obtain ⟨inScope, same⟩ := offerPlace_eq_ok h
  refine Sound.same (hs.change hr hid.symm hc hp inScope fun _ => .inr ⟨fun q hq e => ?_, fun d hd e => ?_⟩) same
  · exact room.product q hq (e.trans hp)
  · exact room.configuration d hd (e.trans hc)

/-- A promotion leaves everything, or offers the place that is free to one who waits. -/
theorem promoteWaitlistForProduct_eq_ok {p : AdmissionProduct} {correlationId : Uuid} {promoted : Option Registration}
    (h : a.promoteWaitlistForProduct w p now correlationId = .ok (a', promoted)) :
    a' = a ∨ ∃ c r, a.configurationOf p = .ok c ∧
      ¬ (a.effectiveConfigurationCapacity c ≤ a.configurationOccupied c.id ∨
        a.effectiveProductCapacity p ≤ a.occupiedIn c.id p.id + a.pendingTargetCapacityHolds p.id now) ∧
      r ∈ a.waitlist w p.id ∧ a.offerPlace w now (r.offered c p now) "workload" none correlationId = .ok a' := by
  simp only [Admissions.promoteWaitlistForProduct, bind_eq_ok] at h
  obtain ⟨c, hc, h⟩ := h
  split at h
  · cases h
    exact .inl rfl
  split at h
  · cases h
    exact .inl rfl
  rename_i free
  split at h
  · cases h
    exact .inl rfl
  rename_i r hr
  simp only [bind_eq_ok, pure_eq_ok, Prod.mk.injEq] at h
  obtain ⟨a₁, h₁, rfl, -⟩ := h
  exact .inr ⟨c, r, hc, free, List.mem_of_mem_head? hr, h₁⟩

theorem Sound.promote (hs : Sound now a) {p : AdmissionProduct} (hp : p ∈ a.products)
    {correlationId : Uuid} {promoted : Option Registration}
    (h : a.promoteWaitlistForProduct w p now correlationId = .ok (a', promoted)) : Sound now a' := by
  rcases promoteWaitlistForProduct_eq_ok h with rfl | ⟨c, r, hc, free, waits, h₁⟩
  · exact hs
  obtain ⟨hcm, hcid⟩ := configurationOf_eq_ok hc
  obtain ⟨hr, hrp, -⟩ := mem_waitlist waits
  rw [hcid, occupiedIn_eq hs.inScope hp] at free
  have room : Room now a r := by
    refine ⟨fun q hq e => ?_, fun d hd e => ?_⟩
    · obtain rfl := Table.eq_of_key hp hq (hrp.symm.trans e.symm)
      omega
    · obtain ⟨q, hq, hqid, hqc⟩ := hs.inScope r hr
      obtain rfl := Table.eq_of_key hp hq (hrp.symm.trans hqid.symm)
      obtain rfl := Table.eq_of_key hcm hd (hcid.trans (hqc.trans e.symm))
      rw [hcid] at *
      omega
  exact hs.offer hr room h₁

/-! ## Submission and consent -/

theorem same_recordSubmission {x : Submission} {r : Registration} {submittedAt : Int} {correlationId : Uuid}
    (h : a.recordSubmission x r submittedAt correlationId = .ok a') : Same a a' := by
  simp only [Admissions.recordSubmission, bind_eq_ok] at h
  obtain ⟨a₁, h₁, h₂⟩ := h
  have started : Same a (if x.subjectAccountId.isSome then
      (a.appendTimeline r.id "registration_submitted" submittedAt "account" (some x.actorId)
        correlationId).appendTimeline
        r.id "staff_assisted_registration" submittedAt "account" (some x.actorId) correlationId
      else a.appendTimeline r.id "registration_submitted" submittedAt "account" (some x.actorId) correlationId) := by
    split
    · exact (same_appendTimeline ..).trans (same_appendTimeline ..)
    · exact same_appendTimeline ..
  have recorded : ∀ {b b' : Admissions}, b.recordOutcome r submittedAt correlationId = .ok b' → Same b b' := by
    intro b b' hb
    unfold Admissions.recordOutcome at hb
    split at hb
    · simp only [bind_eq_ok, pure_eq_ok] at hb
      obtain ⟨b₁, hb₁, rfl⟩ := hb
      exact (same_grant hb₁).trans (same_appendTimeline ..)
    split at hb
    · cases hb
      exact same_appendTimeline ..
    · cases hb
      exact .refl b
  refine started.trans ((recorded h₁).trans ?_)
  unfold Admissions.requestConsent at h₂
  split at h₂
  · cases h₂
    exact .refl _
  · exact same_createGuardianConsent h₂

theorem Sound.submit (hs : Sound now a) {x : Submission} {registrationId correlationId : Uuid} {r : Registration}
    (h : submitRegistration a w now x registrationId correlationId = .ok (a', r)) : Sound now a' := by
  simp only [submitRegistration, bind_eq_ok, require_eq_ok, getOr_eq_ok, pure_eq_ok,
    Prod.mk.injEq] at h
  obtain ⟨⟨subjectId, reason⟩, -, _, -, c, hc, _, -, _, -, p, hp, _, -, _, -, a₁, h₁, a₂, h₂, rfl, -⟩ := h
  obtain ⟨hcm, -⟩ := Table.find?_eq_some_and (getOr_eq_ok.mp hc)
  obtain ⟨hpm, -⟩ := Table.find?_eq_some_and hp
  obtain ⟨inScope, t, ht, rfl⟩ := createRegistration_eq_ok h₁
  refine (hs.register ht inScope fun occupied => ?_).same (same_recordSubmission h₂)
  refine .of_not_full hcm hpm rfl rfl ?_
  simp only [newRegistration, initialState] at occupied
  by_contra full
  rw [Bool.not_eq_false] at full
  rw [full] at occupied
  split at occupied <;> cases occupied

/-- Wherever the offered capacities have room for the registration that a guardian link can
still be used for, the effective ones have room as well. -/
def AcceptanceHasRoom (a : Admissions) (w : Surroundings) (now : Int) (tokenDigest : String) : Prop :=
  ∀ consent, a.consentFor w tokenDigest = some consent → consent.status = .pending →
    now < consent.expiresAt → ∀ r ∈ a.registrations, r.id = consent.registrationId →
      r.state = .guardianPending → ∀ p ∈ a.products, p.id = r.productId → ∀ c ∈ a.configurations,
        c.id = r.configurationId → a.baseCapacityReached c p = false → a.full c p now = false

theorem accepted_eq (r : Registration) (c : Configuration) (p : AdmissionProduct) (reached : Bool)
    (acceptedAt : Int) : (r.accepted c p reached acceptedAt).id = r.id ∧
      (r.accepted c p reached acceptedAt).configurationId = r.configurationId ∧
      (r.accepted c p reached acceptedAt).productId = r.productId ∧
      ((r.accepted c p reached acceptedAt).state.occupied ↔ reached = false) := by
  unfold Registration.accepted
  split
  · rename_i h
    exact ⟨rfl, rfl, rfl, by simp [State.occupied, h]⟩
  · rename_i h
    split <;> exact ⟨rfl, rfl, rfl, by simpa [State.occupied] using h⟩

/-- An acceptance writes the registration of a live link, on a place if none is taken. -/
theorem acceptGuardianConsent_eq_ok {tokenDigest guardianName : String} {r' : Registration}
    (h : acceptGuardianConsent a w now tokenDigest guardianName = .ok (a', r')) :
    ∃ consent, a.consentFor w tokenDigest = some consent ∧ consent.status = .pending ∧
      now < consent.expiresAt ∧ ∃ r ∈ a.registrations, r.id = consent.registrationId ∧
        r.state = .guardianPending ∧ ∃ c ∈ a.configurations, c.id = r.configurationId ∧
          ∃ p ∈ a.products, p.id = r.productId ∧ Scoped a
            (r.accepted c p (a.baseCapacityReached c p) now) ∧ Same { a with
              registrations := a.registrations.save (r.accepted c p (a.baseCapacityReached c p) now) } a' := by
  simp only [acceptGuardianConsent, bind_eq_ok, require_eq_ok, getOr_eq_ok, pure_eq_ok,
    Prod.mk.injEq] at h
  obtain ⟨consent, hconsent, _, ⟨pending, live⟩, _, -, r, hr, _, hstate, c, hc, p, hp, a₁, h₁, a₂, h₂, rfl, -⟩ := h
  obtain ⟨hr, hid⟩ := Table.get?_eq_some.mp hr
  obtain ⟨hcm, hcid⟩ := Table.get?_eq_some.mp hc
  obtain ⟨hpm, hpid⟩ := productOf_eq_ok hp
  obtain ⟨inScope, -, rfl⟩ := saveRegistration_eq_ok h₁
  exact ⟨consent, hconsent, pending, live, r, hr, hid, hstate, c, hcm, hcid, p, hpm, hpid, inScope,
    (same_consents _ _).trans ((same_grantIfConfirmed h₂).trans (same_appendTimeline ..))⟩

theorem Sound.accept (hs : Sound now a) {tokenDigest guardianName : String} {r : Registration}
    (hroom : AcceptanceHasRoom a w now tokenDigest)
    (h : acceptGuardianConsent a w now tokenDigest guardianName = .ok (a', r)) : Sound now a' := by
  obtain ⟨consent, hconsent, pending, live, r, hr, hid, hstate, c, hc, hcid, p, hp, hpid, inScope, same⟩ :=
    acceptGuardianConsent_eq_ok h
  obtain ⟨eid, ec, ep, occupied⟩ := accepted_eq r c p (a.baseCapacityReached c p) now
  refine (hs.change hr eid.symm ec ep inScope fun ho => .inr ?_).same same
  exact .of_not_full hc hp (ec.trans hcid.symm) (ep.trans hpid.symm)
    (hroom consent hconsent pending live r hr hid hstate p hp hpid c hc hcid (occupied.mp ho))

/-! ## Staff, check-in and the scheduled lifecycle -/

theorem Sound.extend (hs : Sound now a) {organizationId editionId registrationId actorId : Uuid}
    {newDeadline : Int} {reason : String} {correlationId : Uuid} {r : Registration}
    (h : extendPaymentDeadline a w now organizationId editionId registrationId actorId newDeadline reason
      correlationId = .ok (a', r)) : Sound now a' := by
  simp only [extendPaymentDeadline, bind_eq_ok, require_eq_ok, pure_eq_ok, Prod.mk.injEq] at h
  obtain ⟨_, -, _, -, _, -, r₀, hr₀, _, hstate, a₁, h₁, rfl, -⟩ := h
  refine (hs.save (lockRegistration_eq_ok hr₀).1 ?_ ?_ ?_ ?_ h₁).same (same_appendTimeline ..)
  · rfl
  · rfl
  · rfl
  · exact fun _ => .inl (by rw [hstate]; rfl)

theorem Sound.waive (hs : Sound now a) {organizationId editionId registrationId actorId : Uuid}
    {reason : String} {correlationId : Uuid} {r : Registration}
    (h : waiveRegistrationPayment a w now organizationId editionId registrationId actorId reason correlationId =
      .ok (a', r)) : Sound now a' := by
  simp only [waiveRegistrationPayment, bind_eq_ok, require_eq_ok, pure_eq_ok, Prod.mk.injEq] at h
  obtain ⟨_, -, _, -, r₀, hr₀, _, hstate, a₁, h₁, a₂, h₂, rfl, -⟩ := h
  refine (hs.save (lockRegistration_eq_ok hr₀).1 ?_ ?_ ?_ ?_ h₁).same
    ((same_grant h₂).trans (same_appendTimeline ..))
  · rfl
  · rfl
  · rfl
  · exact fun _ => .inl (by rw [hstate]; rfl)

theorem Sound.checkIn (hs : Sound now a) {organizationId editionId registrationId actorId : Uuid}
    {reason : String} {correlationId : Uuid} {r : Registration}
    (h : checkInRegistration a w now organizationId editionId registrationId actorId reason correlationId =
      .ok (a', r)) : Sound now a' := by
  simp only [checkInRegistration, bind_eq_ok] at h
  obtain ⟨_, -, _, -, r₀, hr₀, h⟩ := h
  split at h
  · cases h
    exact hs
  simp only [bind_eq_ok, require_eq_ok, pure_eq_ok, Prod.mk.injEq] at h
  obtain ⟨_, hstate, a₁, h₁, rfl, -⟩ := h
  refine (hs.save (lockRegistration_eq_ok hr₀).1 ?_ ?_ ?_ ?_ h₁).same (same_appendTimeline ..)
  · rfl
  · rfl
  · rfl
  · exact fun _ => .inl (by rw [hstate]; rfl)

theorem ended_eq (r : Registration) (t : LifecycleTransition) (processedAt : Int) :
    (r.ended t processedAt).id = r.id ∧ (r.ended t processedAt).configurationId = r.configurationId ∧
      (r.ended t processedAt).productId = r.productId ∧ (r.ended t processedAt).state = t.targetState := by
  unfold Registration.ended
  split <;> exact ⟨rfl, rfl, rfl, rfl⟩

/-- A lifecycle transition gives a place up. -/
theorem lifecycleTransitionFor_target {r : Registration} {c : Configuration} {p : AdmissionProduct}
    {processedAt : Int} {t : LifecycleTransition} (h : lifecycleTransitionFor w r c p processedAt = some t) :
    t.targetState = .cancelled ∨ t.targetState = .expired := by
  unfold lifecycleTransitionFor at h
  split at h
  · cases h; exact .inl rfl
  split at h
  · cases h; exact .inl rfl
  split at h
  · cases h; exact .inr rfl
  · cases h

/-- The lifecycle leaves everything, or ends a registration that is due and promotes another one. -/
theorem processRegistrationLifecycle_eq_ok {registrationId correlationId : Uuid} {t : Option LifecycleTransition}
    (h : processRegistrationLifecycle a w now registrationId correlationId = .ok (a', t)) :
    a' = a ∨ ∃ r c p t a₁ promoted, r ∈ a.registrations ∧ (r.state = .waitlisted ∨ r.state = .paymentPending) ∧
      a.productOf r = .ok p ∧ lifecycleTransitionFor w r c p now = some t ∧
      a.saveRegistration w now (r.ended t now) = .ok a₁ ∧
      (a₁.appendTimeline r.id t.timelineKind now "workload" none correlationId).promoteWaitlistForProduct w p now
        correlationId = .ok (a', promoted) := by
  unfold processRegistrationLifecycle at h
  split at h
  · cases h
    exact .inl rfl
  rename_i r hr
  simp only [bind_eq_ok] at h
  obtain ⟨c, -, p, hp, h⟩ := h
  split at h
  · cases h
    exact .inl rfl
  rename_i t ht
  simp only [bind_eq_ok, pure_eq_ok, Prod.mk.injEq] at h
  obtain ⟨a₁, h₁, ⟨a₂, promoted⟩, h₂, rfl, -⟩ := h
  obtain ⟨hr, found⟩ := Table.find?_eq_some_and hr
  exact .inr ⟨r, c, p, t, a₁, promoted, hr, found.2.2, hp, ht, h₁, h₂⟩

theorem Sound.processLifecycle (hs : Sound now a) {registrationId correlationId : Uuid}
    {t : Option LifecycleTransition}
    (h : processRegistrationLifecycle a w now registrationId correlationId = .ok (a', t)) : Sound now a' := by
  rcases processRegistrationLifecycle_eq_ok h with rfl | ⟨r, c, p, t, a₁, promoted, hr, -, hp, ht, h₁, h₂⟩
  · exact hs
  obtain ⟨eid, ec, ep, estate⟩ := ended_eq r t now
  have saved : Sound now a₁ := by
    refine hs.save hr eid ec ep (fun ho => ?_) h₁
    rw [estate] at ho
    rcases lifecycleTransitionFor_target ht with e | e <;> rw [e] at ho <;> cases ho
  have hp' : p ∈ a₁.products := by
    obtain ⟨-, -, rfl⟩ := saveRegistration_eq_ok h₁
    exact (productOf_eq_ok hp).1
  exact (saved.same (same_appendTimeline ..)).promote hp' h₂

/-! ## Admission tiers -/

/-- A reservation answers a retry, or holds a free place of another product for the caller's registration. -/
theorem reserveAdmissionTierReplacement_eq_ok {x : TierRequest} {replacementId correlationId : Uuid}
    {result : TierReplacementResult}
    (h : reserveAdmissionTierReplacement P a w now x replacementId correlationId = .ok (a', result)) :
    ∃ c a₁ k, a.lockControl c = .ok (a₁, k) ∧ (a' = a₁ ∨
      ∃ r ∈ a₁.registrations, r.configurationId = c.id ∧ (r.state = .confirmed ∨ r.state = .checkedIn) ∧
        (∀ y ∈ a₁.replacements, y.registrationId = r.id → y.status ≠ .paymentPending) ∧
        ∃ target ∈ a₁.products, target.configurationId = c.id ∧ ∃ source, target.id ≠ source.id ∧
          a₁.occupiedIn c.id target.id + a₁.pendingTargetCapacityHolds target.id now <
            a₁.effectiveProductCapacity target ∧
          ∃ t receipt, a₁.replacements.insert? (newReplacement x replacementId r c source target now) =
              some t ∧
            (({ a₁ with replacements := t }.appendTimeline r.id "admission_tier_replacement_reserved"
              now "account" (some x.actorId) correlationId).advanceControl k).1.createCommerceReceipt
                receipt = .ok a') := by
  simp only [reserveAdmissionTierReplacement, bind_eq_ok] at h
  obtain ⟨_, -, _, -, _, -, c, -, ⟨a₁, k⟩, hk, receipt, -, h⟩ := h
  refine ⟨c, a₁, k, hk, ?_⟩
  split at h
  · exact .inl (store_of_answer h).symm
  simp only [bind_eq_ok, pure_eq_ok, Prod.mk.injEq] at h
  obtain ⟨⟨r, source, target⟩, hr, a₂, h₂, a₃, h₃, rfl, -⟩ := h
  simp only [Admissions.reservable, bind_eq_ok, require_eq_ok, getOr_eq_ok, pure_eq_ok,
    Prod.mk.injEq] at hr
  obtain ⟨r, hr, _, -, _, ⟨held, -⟩, _, single, target, htarget, _, -, source, -, _, ⟨other, -⟩,
    _, free, rfl, rfl, rfl⟩ := hr
  obtain ⟨hr, hrc⟩ := Table.find?_eq_some_and hr
  obtain ⟨htarget, htc⟩ := Table.find?_eq_some_and htarget
  simp only [Admissions.createReplacement, bind_eq_ok, pure_eq_ok, getOr_eq_ok] at h₂
  obtain ⟨_, -, t, ht, rfl⟩ := h₂
  refine .inr ⟨r, hr, hrc.2.2.2.2, held, fun y hy e pending => single ?_, target, htarget, htc.2.1,
    source, other, free, t, _, ht, h₃⟩
  exact List.any_eq_true.mpr ⟨y, hy, by simpa using ⟨e, pending⟩⟩

theorem Sound.reserve (hs : Sound now a) {x : TierRequest} {replacementId correlationId : Uuid}
    {result : TierReplacementResult}
    (h : reserveAdmissionTierReplacement P a w now x replacementId correlationId = .ok (a', result)) :
    Sound now a' := by
  obtain ⟨c, a₁, k, hk, written⟩ := reserveAdmissionTierReplacement_eq_ok h
  obtain ⟨kept, hkm, -⟩ := lockControl_eq_ok hk
  have hs₁ := hs.keep kept
  obtain rfl | ⟨r, -, -, -, single, target, htm, hp, source, -, free, t, receipt, ht, h₃⟩ := written
  · exact hs₁
  rw [← hp, occupiedIn_eq hs₁.inScope htm] at free
  have held := hs₁.hold ht (fun p hpm e => by rwa [Table.eq_of_key hpm htm e]) single
  refine held.keep (((same_appendTimeline ..).kept.trans (kept_advanceControl ?_)).trans
    (same_createCommerceReceipt h₃).kept)
  exact hkm

theorem Sound.complete (hs : Sound now a) {replacementId correlationId : Uuid} {completedAt : Int}
    (h : completeAdmissionTierReplacement a w now replacementId correlationId completedAt = .ok a') :
    Sound now a' := by
  simp only [completeAdmissionTierReplacement, bind_eq_ok, require_eq_ok, getOr_eq_ok, pure_eq_ok] at h
  obtain ⟨x, hx, _, pending, _, -, r, hr, _, ⟨-, hstate⟩, _, -, source, -, a₁, h₁, a₂, h₂, rfl⟩ := h
  obtain ⟨hxm, -⟩ := Table.get?_eq_some.mp hx
  obtain ⟨hrm, hrid⟩ := Table.get?_eq_some.mp hr
  obtain ⟨inScope, ⟨old, hold, hoid, guarded⟩, rfl⟩ := saveRegistration_eq_ok h₁
  obtain rfl := Table.eq_of_key hold hrm hoid
  have occupied : old.state.occupied := by rcases hstate with e | e <;> rw [e] <;> rfl
  -- The trigger lets the change through for a pending replacement that is not yet due: this one.
  have upgrades : a.upgrades now old (old.moved x) := by
    rcases guarded with h | h | ⟨h, -⟩
    · simp only [extends_, decide_eq_true_eq] at h
      rcases hstate with e | e <;> rw [e] at h <;> cases h.1
    · exact h
    · rcases hstate with e | e <;> simp [Registration.moved, e, State.mayBecome] at h
  simp only [Admissions.upgrades, decide_eq_true_eq, List.any_eq_true] at upgrades
  obtain ⟨-, -, -, -, y, hy, hyr, hyp, -, hyt, -, -, live⟩ := upgrades
  obtain rfl := hs.single x hxm y hy pending hyp (hrid.symm.trans hyr.symm)
  have kept : ∃ entitlements, a₂ = { a with
      registrations := a.registrations.save (old.moved x), entitlements := entitlements } := by
    unfold Admissions.exchangeEntitlement at h₂
    split at h₂
    · obtain ⟨t, -, rfl⟩ := createEntitlement_eq_ok h₂
      exact ⟨t, rfl⟩
    · cases h₂
      exact ⟨_, rfl⟩
  obtain ⟨entitlements, rfl⟩ := kept
  refine Sound.same (hs.upgrade (z := { x with
    status := .completed, aggregateVersion := x.aggregateVersion + 1, completedAt := some completedAt
    resultingRegistrationVersion := some (old.moved x).aggregateVersion }) hrm ?_ occupied ?_ ?_ inScope hxm ?_ ?_ ?_)
    (same_appendTimeline ..)
  · rfl
  · rfl
  · rfl
  · rfl
  · simp only [AdmissionTierReplacement.holds, decide_eq_true_eq]
    exact ⟨rfl, pending, live⟩
  · exact ReplacementStatus.noConfusion

theorem Sound.expire (hs : Sound now a) (replacementId : Uuid) :
    Sound now (expireAdmissionTierReplacement a w now replacementId).1 := by
  unfold expireAdmissionTierReplacement
  split
  · exact hs
  · rename_i x hx
    refine Sound.same (hs.release (z := { x with
      status := .expired, aggregateVersion := x.aggregateVersion + 1, expiredAt := some now })
      (Table.find?_eq_some_and hx).1 ?_ ?_) (same_appendTimeline ..)
    · rfl
    · exact ReplacementStatus.noConfusion

/-! ## Adjustments and batches -/

theorem Sound.adjustCapacity (hs : Sound now a) {x : CapacityRequest} {adjustmentId : Uuid}
    {result : CapacityAdjustmentResult}
    (h : adjustRegistrationCapacity P a w now x adjustmentId = .ok (a', result)) : Sound now a' := by
  simp only [adjustRegistrationCapacity, bind_eq_ok] at h
  obtain ⟨_, -, reason, -, _, -, c, hc, ⟨a₁, k⟩, hk, receipt, -, h⟩ := h
  obtain ⟨kept, hkm, hkc⟩ := lockControl_eq_ok hk
  have hs₁ := hs.keep kept
  obtain ⟨hcm, -⟩ := Table.find?_eq_some_and (getOr_eq_ok.mp hc)
  split at h
  · obtain rfl := store_of_answer h
    exact hs₁
  simp only [bind_eq_ok, require_eq_ok, getOr_eq_ok, pure_eq_ok, Prod.mk.injEq] at h
  obtain ⟨_, -, ⟨previous, ceiling, occupied⟩, facts, _, -, _, enough, _, -, t, ht, a₂, h₂, rfl, -⟩ := h
  have enough' : occupied ≤ x.newCapacity.toNat := by
    simp only at enough
    omega
  refine Sound.same (hs₁.adjust hkm hkc.symm rfl ht (fun p hp e => ?_) fun d hd e none => ?_)
    (same_createCommerceReceipt h₂)
  · simp only at e
    rw [e] at facts
    simp only [Admissions.capacityFacts, bind_eq_ok, getOr_eq_ok, pure_eq_ok, Prod.mk.injEq] at facts
    obtain ⟨q, hq, -, -, rfl⟩ := facts
    obtain ⟨hqm, hqp⟩ := Table.find?_eq_some_and hq
    obtain rfl := Table.eq_of_key hqm hp hqp.1
    rw [← hqp.2, occupiedIn_eq hs₁.inScope hqm] at enough'
    exact enough'
  · simp only at none
    rw [none] at facts
    simp only [Admissions.capacityFacts, pure_eq_ok, Prod.mk.injEq] at facts
    obtain ⟨-, -, rfl⟩ := facts
    rw [e]
    exact enough'

/-- Offers to as many registrations as there are places. -/
theorem Sound.offerEach {a : Admissions} (hs : Sound now a) {p : AdmissionProduct} {c : Configuration}
    {actorId correlationId : Uuid} (rs : List Registration) (hp : p ∈ a.products) (hc : c ∈ a.configurations)
    (hpc : p.configurationId = c.id) (mem : ∀ r ∈ rs, r ∈ a.registrations ∧ r.productId = p.id)
    (distinct : (rs.map Registration.id).Nodup)
    (places : a.productOccupied p.id + a.pendingTargetCapacityHolds p.id now + rs.length ≤
      a.effectiveProductCapacity p)
    (places' : a.configurationOccupied c.id + rs.length ≤ a.effectiveConfigurationCapacity c)
    (h : offerEach a w actorId now correlationId rs = .ok a') : Sound now a' := by
  induction rs generalizing a with
  | nil =>
    cases h
    exact hs
  | cons r rs ih =>
    simp only [Registration.offerEach, bind_eq_ok, offerWaitlistedRegistration, getOr_eq_ok] at h
    obtain ⟨a₁, ⟨d, -, q, -, h₁⟩, h⟩ := h
    obtain ⟨hr, hrp⟩ := mem r List.mem_cons_self
    rw [List.map_cons, List.nodup_cons] at distinct
    rw [List.length_cons] at places places'
    obtain ⟨p', hp', hid', hcfg⟩ := hs.inScope r hr
    obtain rfl := Table.eq_of_key hp hp' (hrp.symm.trans hid'.symm)
    have room : Room now a r := by
      refine ⟨fun q hq e => ?_, fun d hd e => ?_⟩
      · obtain rfl := Table.eq_of_key hp hq (hrp.symm.trans e.symm)
        omega
      · obtain rfl := Table.eq_of_key hc hd (hpc.symm.trans (hcfg.trans e.symm))
        omega
    obtain ⟨eid, ecfg, epr⟩ := offered_eq r d q now
    obtain ⟨-, same⟩ := offerPlace_eq_ok h₁
    have count : Admissions.productOccupied
        { a with registrations := a.registrations.save (r.offered d q now) } p.id + _ =
        a.productOccupied p.id + _ := Table.countP_save hr eid.symm _
    have count' : Admissions.configurationOccupied
        { a with registrations := a.registrations.save (r.offered d q now) } c.id + _ =
        a.configurationOccupied c.id + _ := Table.countP_save hr eid.symm _
    refine ih (hs.offer hr room h₁) (same.products ▸ hp) (same.configurations ▸ hc) (fun r' hr' => ?_) distinct.2 ?_ ?_ h
    · obtain ⟨hm, hrp'⟩ := mem r' (List.mem_cons_of_mem r hr')
      refine ⟨?_, hrp'⟩
      rw [same.registrations]
      exact Table.mem_save.mpr (.inl ⟨hm, fun e => distinct.1 ((e.trans eid) ▸ List.mem_map_of_mem hr')⟩)
    · rw [productOccupied_congr same.registrations, holds_congr same.replacements,
        effectiveProductCapacity_congr same.adjustments]
      show _ + a.pendingTargetCapacityHolds p.id now + rs.length ≤ a.effectiveProductCapacity p
      split at count <;> split at count <;> omega
    · rw [configurationOccupied_congr same.registrations, effectiveConfigurationCapacity_congr same.adjustments]
      show _ + rs.length ≤ a.effectiveConfigurationCapacity c
      split at count' <;> split at count' <;> omega

theorem offerEach_controls {actorId correlationId : Uuid} (rs : List Registration) {a : Admissions}
    (h : offerEach a w actorId now correlationId rs = .ok a') : a'.controls = a.controls := by
  induction rs generalizing a with
  | nil =>
    cases h
    rfl
  | cons r rs ih =>
    simp only [offerEach, bind_eq_ok, offerWaitlistedRegistration] at h
    obtain ⟨a₁, ⟨d, -, q, -, h₁⟩, h⟩ := h
    exact (ih h).trans (offerPlace_eq_ok h₁).2.controls

theorem Sound.offerBatch (hs : Sound now a) {x : BatchRequest} {batchId : Uuid} {result : WaitlistBatchResult}
    (h : offerNextWaitlistBatch P a w now x batchId = .ok (a', result)) : Sound now a' := by
  simp only [offerNextWaitlistBatch, bind_eq_ok, getOr_eq_ok] at h
  obtain ⟨_, -, reason, -, _, -, c, hc, p, hp, ⟨a₁, k⟩, hk, receipt, -, h⟩ := h
  obtain ⟨kept, hkm, -⟩ := lockControl_eq_ok hk
  have hs₁ := hs.keep kept
  split at h
  · obtain rfl := store_of_answer h
    exact hs₁
  simp only [bind_eq_ok, require_eq_ok, getOr_eq_ok, pure_eq_ok, Prod.mk.injEq] at h
  obtain ⟨_, -, _, -, a₂, h₂, t, -, a₃, h₃, rfl, -⟩ := h
  obtain ⟨hpm, hpx⟩ := Table.find?_eq_some_and hp
  obtain ⟨hcm, -⟩ := Table.find?_eq_some_and (getOr_eq_ok.mp hc)
  have hpm₁ : p ∈ a₁.products := kept.products ▸ hpm
  have few := List.length_take_le (a₁.offerCount c p x.batchSize.toNat now) (a₁.waitlist w p.id)
  have slots : a₁.offerCount c p x.batchSize.toNat now ≤
        a₁.effectiveConfigurationCapacity c - a₁.configurationOccupied c.id ∧
      a₁.offerCount c p x.batchSize.toNat now ≤
        a₁.effectiveProductCapacity p - a₁.productOccupied p.id - a₁.pendingTargetCapacityHolds p.id now := by
    rw [← occupiedIn_eq hs₁.inScope hpm₁, hpx.2]
    unfold Admissions.offerCount
    omega
  have product := hs₁.product p hpm₁
  have configuration := hs₁.configuration c (kept.configurations ▸ hcm)
  have offered : Sound now a₂ := by
    refine hs₁.offerEach _ hpm₁ (kept.configurations ▸ hcm) hpx.2 (fun r hr => ?_) ?_ (by omega) (by omega) h₂
    · obtain ⟨hm, hrp, -⟩ := mem_waitlist (List.mem_of_mem_take hr)
      exact ⟨hm, hrp⟩
    · exact ((List.take_sublist _ _).map _).nodup (nodup_waitlist ..)
  have hkm₂ : k ∈ a₂.controls := by
    rw [offerEach_controls _ h₂]
    exact hkm
  exact offered.keep (((kept_advanceControl hkm₂).trans (same_batches _ t).kept).trans
    (same_createCommerceReceipt h₃).kept)

/-! ## Cancellation -/

/-- A cancellation gives a place up, and leaves the products alone. -/
theorem Sound.cancel (hs : Sound now a) {r : Registration} (hr : r ∈ a.registrations)
    {timelineKind : String} {actorId correlationId : Uuid}
    (h : a.cancelRegistration w r now timelineKind actorId correlationId = .ok a') :
    Sound now a' ∧ a'.products = a.products := by
  simp only [Admissions.cancelRegistration, bind_eq_ok, pure_eq_ok] at h
  obtain ⟨a₁, h₁, rfl⟩ := h
  have saved : Sound now a₁ := by
    refine hs.save hr ?_ ?_ ?_ (fun ho => ?_) h₁
    · rfl
    · rfl
    · rfl
    · cases ho
  obtain ⟨-, -, rfl⟩ := saveRegistration_eq_ok h₁
  exact ⟨saved.same ((same_revokeEntitlements ..).trans (same_appendTimeline ..)), rfl⟩

variable {s s' : Store}

theorem Sound.approve (hs : Sound now s.admissions) {organizationId editionId operationId actorId : Uuid}
    {reason : String} {correlationId : Uuid} {o : FinancialOperation}
    (h : approveFinancialOperation s w now organizationId editionId operationId actorId reason correlationId =
      .ok (s', o)) : Sound now s'.admissions := by
  obtain ⟨_, -, -, -, -, -, -, -, -, -, -, cancel | ⟨-, -, same⟩⟩ := approveFinancialOperation_eq_ok h
  · obtain ⟨-, -, r, hr, p, a₁, promoted, hp, h₁, h₂⟩ := cancel
    obtain ⟨cancelled, products⟩ := hs.cancel hr h₁
    exact cancelled.promote (products ▸ (productOf_eq_ok hp).1) h₂
  · rw [same]
    exact hs

theorem Sound.restrictRegistration (hs : Sound now s.admissions) {actorId : Uuid} {r : Registration}
    (hr : r ∈ s.admissions.registrations) {operationId correlationId : Uuid}
    (h : restrictRegistration s w now actorId r operationId correlationId = .ok s') : Sound now s'.admissions := by
  rcases restrictRegistration_eq_ok h with (rfl | rfl) | ⟨p, a₁, f, promoted, hp, h₁, -, h₂, -⟩
  · exact hs
  · exact hs.same (same_revokeEntitlements ..)
  · obtain ⟨cancelled, products⟩ := hs.cancel hr h₁
    exact cancelled.promote (products ▸ (productOf_eq_ok hp).1) h₂

/-! ## Payments -/

theorem Sound.confirmPaid (hs : Sound now a) {r : Registration} (hr : r ∈ a.registrations)
    (occupied : r.state.occupied) {paidAt : Int} {correlationId : Uuid}
    (h : a.confirmPaid w now r paidAt correlationId = .ok a') : Sound now a' := by
  simp only [Admissions.confirmPaid, bind_eq_ok, pure_eq_ok] at h
  obtain ⟨a₁, h₁, a₂, h₂, rfl⟩ := h
  refine (hs.save hr ?_ ?_ ?_ (fun _ => .inl occupied) h₁).same ((same_grant h₂).trans (same_appendTimeline ..))
  · rfl
  · rfl
  · rfl

theorem Sound.completePayment (hs : Sound now a) {replacementId : Option Uuid} {r : Registration}
    (hr : r ∈ a.registrations) (occupied : replacementId = none → r.state.occupied) {paidAt : Int}
    {correlationId : Uuid} (h : a.completePayment w now replacementId r paidAt correlationId = .ok a') :
    Sound now a' := by
  unfold Admissions.completePayment at h
  split at h
  · exact hs.complete h
  · exact hs.confirmPaid hr (occupied rfl) h

theorem Sound.demo (hs : Sound now s.admissions) {x : DemoPayment} {correlationId : Uuid}
    (h : confirmDemoPayment s w now x correlationId = .ok s') : Sound now s'.admissions := by
  rcases confirmDemoPayment_eq_ok h with rfl | ⟨r, hr, terms, _, _, hterms, -, h₁, -⟩
  · exact hs
  · refine hs.completePayment hr (fun none => ?_) h₁
    rcases paymentTerms_eq_ok hterms with ⟨-, pending⟩ | ⟨x, -, some, -⟩
    · rw [pending]
      rfl
    · rw [none] at some
      cases some

theorem Sound.effect (hs : Sound now s.admissions) {provider : PaymentProviderAccount}
    {d : Delivery} {intent : PaymentIntent} {r : Registration} (hr : r ∈ s.admissions.registrations)
    {replacement : Option AdmissionTierReplacement} {done : Reconciled}
    (h : Effect P s w now provider d intent r replacement done) : Sound now done.store.admissions := by
  cases h with
  | excepted => exact hs
  | overwritten => exact hs
  | refunded => exact hs
  | failed => exact hs
  | applied _ _ current _ _ completed =>
    refine hs.completePayment hr (fun none => ?_) completed
    rw [Option.map_eq_none_iff] at none
    rw [none] at current
    simp only [paymentIsCurrent, decide_eq_true_eq] at current
    rw [current.1]
    rfl

theorem Sound.reconcile (hs : Sound now s.admissions) {d : Delivery} {receipt : PaymentWebhookReceipt}
    (h : reconcileVerifiedPaymentEvent P s w now d = .ok (s', receipt)) : Sound now s'.admissions := by
  cases reconcile_delivered h with
  | replayed => exact hs
  | unknown => exact hs
  | matched _ _ _ hr reconciled _ =>
    exact hs.effect (Table.get?_eq_some.mp hr).1 (reconcileMatched_effect reconciled)

end Maru.Registration
