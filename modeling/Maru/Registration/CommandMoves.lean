import Maru.Registration.Moves

/-!
# The moves of the commands

Every command moves registrations (`exec_moves`): what is written in between is put together,
row by row, with the change of state it belongs to.
-/

namespace Maru.Registration

variable {P : Primitives} {now : Int} {w : Surroundings} {a a' : Admissions} {desk : Prop}

/-! ## What changes no registration -/

theorem revokes_revokeEntitlements (a : Admissions) (registrationId : Uuid) :
    Revokes a.entitlements registrationId (a.revokeEntitlements registrationId).entitlements :=
  fun _ => mem_revokeEntitlements

theorem move_lockControl {c : Configuration} {k : CommerceControl}
    (h : a.lockControl c = .ok (a', k)) : Move desk a a' := by
  unfold Admissions.lockControl at h
  split at h
  · cases h
    exact .rest a.consents a.controls a.commerceReceipts a.adjustments a.batches
  · simp only [bind_eq_ok, pure_eq_ok, Prod.mk.injEq] at h
    obtain ⟨t, -, rfl, -⟩ := h
    exact .rest a.consents t a.commerceReceipts a.adjustments a.batches

theorem move_advanceControl (a : Admissions) (k : CommerceControl) : Move desk a (a.advanceControl k).1 :=
  .rest a.consents _ a.commerceReceipts a.adjustments a.batches

theorem move_createCommerceReceipt {receipt : CommerceReceipt}
    (h : a.createCommerceReceipt receipt = .ok a') : Move desk a a' := by
  simp only [Admissions.createCommerceReceipt, bind_eq_ok, pure_eq_ok] at h
  obtain ⟨t, -, rfl⟩ := h
  exact .rest a.consents a.controls t a.adjustments a.batches

/-! ## Registrations that change -/

/-- A row that is saved is the next version of the one it replaces, as its trigger allows. -/
theorem saveRegistration_next {old r : Registration} (hr : old ∈ a.registrations)
    (h : a.saveRegistration w now r = .ok a') (hid : r.id = old.id) : r.aggregateVersion = old.aggregateVersion + 1 ∧
      ((r.state = old.state ∧ (old.state = .paymentPending ∨ old.state.admitted)) ∨ old.state.mayBecome r.state) ∧
      a' = { a with registrations := a.registrations.save r } := by
  obtain ⟨-, ⟨old', hold, hid', guarded⟩, rfl⟩ := saveRegistration_eq_ok h
  obtain rfl := Table.eq_of_key hr hold (hid.symm.trans hid'.symm)
  rcases guarded with h | h | ⟨moves, version⟩
  · simp only [extends_, decide_eq_true_eq] at h
    exact ⟨h.2.2.1, .inl ⟨h.2.1.trans h.1.symm, .inl h.1⟩, rfl⟩
  · simp only [Admissions.upgrades, decide_eq_true_eq] at h
    exact ⟨h.2.2.1, .inl ⟨h.2.1, .inr (by rcases h.1 with e | e <;> rw [e] <;> rfl)⟩, rfl⟩
  · exact ⟨version, .inr moves, rfl⟩

section

variable {old r : Registration} {a₁ : Admissions} {id : Uuid} {kind : String} {occurredAt : Int}
  {actorKind : String} {actorId : Option Uuid} {correlationId : Uuid}

/-- A saved change of state, with what becomes of the entitlements and the entry that says so. -/
theorem move_save {u : Table Entitlement.key} (hr : old ∈ a.registrations) (h : a.saveRegistration w now r = .ok a₁)
    (identity : r.identity = old.identity) (product : r.productId = old.productId) (about : id = r.id)
    (leads : Leads kind old.state r.state) (entitles : Entitles a.products a.entitlements old.state.admitted r u)
    (still : kind ≠ "checked_in" ∨ desk) :
    Move desk a (Admissions.appendTimeline { a₁ with entitlements := u } id kind occurredAt actorKind actorId
      correlationId) := by
  obtain ⟨version, -, rfl⟩ := saveRegistration_next hr h (Prod.ext_iff.mp identity).1
  rw [about]
  exact .change hr identity product version leads entitles still

theorem move_kept (hr : old ∈ a.registrations) (h : a.saveRegistration w now r = .ok a₁)
    (identity : r.identity = old.identity) (product : r.productId = old.productId) (about : id = r.id)
    (leads : Leads kind old.state r.state) (admitted : r.state.admitted = old.state.admitted)
    (still : kind ≠ "checked_in" ∨ desk) :
    Move desk a (a₁.appendTimeline id kind occurredAt actorKind actorId correlationId) := by
  have move : Move desk a (Admissions.appendTimeline { a₁ with entitlements := a.entitlements } id kind occurredAt
    actorKind actorId correlationId) := move_save hr h identity product about leads (.kept admitted) still
  obtain ⟨-, -, rfl⟩ := saveRegistration_next hr h (Prod.ext_iff.mp identity).1
  exact move

end

theorem entitles_grant {r : Registration} {grantedAt : Int} (confirmed : r.state = .confirmed)
    (h : a.grantProductEntitlement r grantedAt = .ok a') :
    ∃ u, Entitles a.products a.entitlements false r u ∧ a' = { a with entitlements := u } := by
  simp only [Admissions.grantProductEntitlement, bind_eq_ok] at h
  obtain ⟨p, hp, h⟩ := h
  obtain ⟨mem, product⟩ := productOf_eq_ok hp
  obtain ⟨t, ht, rfl⟩ := createEntitlement_eq_ok h
  exact ⟨t, .granted rfl confirmed mem product ⟨rfl, rfl, rfl⟩ ht, rfl⟩

theorem entitles_grantIfConfirmed {r : Registration} {grantedAt : Int}
    (arrived : r.state ≠ .checkedIn) (h : a.grantIfConfirmed r grantedAt = .ok a') :
    ∃ u, Entitles a.products a.entitlements false r u ∧ a' = { a with entitlements := u } := by
  unfold Admissions.grantIfConfirmed at h
  split at h
  · rename_i confirmed
    exact entitles_grant confirmed h
  · rename_i confirmed
    cases h
    refine ⟨a.entitlements, .kept ?_, rfl⟩
    cases hs : r.state <;> first | rfl | contradiction

/-! ## Places from the waitlist -/

theorem identity_offered (r : Registration) (c : Configuration) (p : AdmissionProduct) (offeredAt : Int) :
    (r.offered c p offeredAt).identity = r.identity ∧ (r.offered c p offeredAt).productId = r.productId ∧
      ((r.offered c p offeredAt).state = .paymentPending ∨ (r.offered c p offeredAt).state = .confirmed) := by
  unfold Registration.offered
  split
  · exact ⟨rfl, rfl, .inr rfl⟩
  · exact ⟨rfl, rfl, .inl rfl⟩

theorem moves_offerPlace {r : Registration} {c : Configuration} {p : AdmissionProduct} (hr : r ∈ a.registrations)
    (waiting : r.state = .waitlisted) {actorKind : String} {actorId : Option Uuid} {correlationId : Uuid}
    (h : a.offerPlace w now (r.offered c p now) actorKind actorId correlationId = .ok a') : Moves desk a a' := by
  simp only [Admissions.offerPlace, bind_eq_ok, pure_eq_ok] at h
  obtain ⟨a₁, h₁, a₂, h₂, rfl⟩ := h
  obtain ⟨identity, product, state⟩ := identity_offered r c p now
  have same := (saveRegistration_next hr h₁ (Prod.ext_iff.mp identity).1).2.2
  obtain ⟨u, entitles, rfl⟩ := entitles_grantIfConfirmed (by rcases state with h | h <;> simp [h]) h₂
  refine (move_save hr h₁ identity product rfl ?_ ?_ (.inl (by decide))).moves
  · rw [waiting]
    exact .offered state
  · rw [waiting]
    rw [same] at entitles
    exact entitles

theorem moves_promote {p : AdmissionProduct} {correlationId : Uuid} {promoted : Option Registration}
    (h : a.promoteWaitlistForProduct w p now correlationId = .ok (a', promoted)) : Moves desk a a' := by
  rcases promoteWaitlistForProduct_eq_ok h with rfl | ⟨c, r, -, -, waits, h₁⟩
  · exact .refl
  · obtain ⟨hr, -, waiting⟩ := mem_waitlist waits
    exact moves_offerPlace hr waiting h₁

/-! ## Submission and consent -/

theorem initial_initialState (requiresGuardianConsent capacityReached : Bool) (priceMinor : Nat) :
    (initialState requiresGuardianConsent capacityReached priceMinor).initial := by
  unfold initialState
  split
  · rfl
  split
  · rfl
  split <;> rfl

/-- No other registration of the edition has the account or the reference of a new one. -/
theorem createRegistration_alone {r : Registration} (h : a.createRegistration w r = .ok a') :
    r.aggregateVersion = 1 ∧ ∀ x ∈ a.registrations, x.editionId = r.editionId →
      x.accountId ≠ r.accountId ∧ x.reference ≠ r.reference := by
  simp only [Admissions.createRegistration, bind_eq_ok, require_eq_ok] at h
  obtain ⟨_, -, _, account, _, reference, _, -, _, ⟨version, -⟩, -⟩ := h
  refine ⟨version, fun x hx edition => ⟨fun e => account ?_, fun e => reference ?_⟩⟩
  · exact List.any_eq_true.mpr ⟨x, hx, by simpa using ⟨edition, e⟩⟩
  · exact List.any_eq_true.mpr ⟨x, hx, by simpa using ⟨edition, e⟩⟩

/-- What an outcome writes after the entitlement. -/
theorem entitles_recordOutcome {r : Registration} {submittedAt : Int} {correlationId : Uuid}
    (hr : r ∈ a.registrations) (initial : r.state.initial)
    (h : a.recordOutcome r submittedAt correlationId = .ok a') :
    ∃ u, Entitles a.products a.entitlements false r u ∧ Moves desk { a with entitlements := u } a' := by
  unfold Admissions.recordOutcome at h
  split at h
  · rename_i confirmed
    simp only [bind_eq_ok, pure_eq_ok] at h
    obtain ⟨a₁, h₁, rfl⟩ := h
    obtain ⟨u, entitles, rfl⟩ := entitles_grant confirmed h₁
    refine ⟨u, entitles, (Move.tell ?_ ?_).moves⟩
    · exact hr
    · rw [confirmed]
      exact .confirmed
  rename_i unconfirmed
  have kept : Entitles a.products a.entitlements false r a.entitlements := by
    refine .kept ?_
    cases hs : r.state <;> first | rfl | contradiction | (rw [hs] at initial; cases initial)
  split at h
  · rename_i waiting
    cases h
    refine ⟨_, kept, (Move.tell (a := a) hr ?_).moves⟩
    rw [waiting]
    exact .joined
  · cases h
    exact ⟨_, kept, .refl⟩

theorem moves_requestConsent {x : Submission} {registrationId : Uuid} {requestedAt : Int}
    (h : a.requestConsent x registrationId requestedAt = .ok a') : Moves desk a a' := by
  unfold Admissions.requestConsent at h
  split at h
  · cases h
    exact .refl
  · simp only [Admissions.createGuardianConsent, bind_eq_ok, pure_eq_ok] at h
    obtain ⟨_, -, t, -, rfl⟩ := h
    exact (Move.rest t a.controls a.commerceReceipts a.adjustments a.batches).moves

theorem moves_submit {x : Submission} {registrationId correlationId : Uuid} {r : Registration}
    (h : submitRegistration a w now x registrationId correlationId = .ok (a', r)) : Moves desk a a' := by
  simp only [submitRegistration, bind_eq_ok, pure_eq_ok, Prod.mk.injEq] at h
  obtain ⟨_, -, _, -, c, -, _, -, _, -, p, -, _, -, _, -, a₁, h₁, a₂, h₂, rfl, rfl⟩ := h
  obtain ⟨first, alone⟩ := createRegistration_alone h₁
  obtain ⟨-, t, ht, rfl⟩ := createRegistration_eq_ok h₁
  have created := (Table.mem_insert? ht).mpr (.inr rfl)
  have initial := initial_initialState x.guardian.isSome (a.full c p now) p.priceMinor
  simp only [Admissions.recordSubmission, bind_eq_ok] at h₂
  obtain ⟨a₃, h₃, h₄⟩ := h₂
  obtain ⟨u, entitles, told⟩ := entitles_recordOutcome (by split <;> exact created) initial h₃
  refine Relation.ReflTransGen.trans ?_ (told.trans (moves_requestConsent h₄))
  split at entitles
  · rename_i assisted
    rw [if_pos assisted]
    refine (Move.submit ht alone first initial entitles).moves.tail (Move.tell ?_ (.assisted _))
    exact created
  · rename_i unassisted
    rw [if_neg unassisted]
    exact (Move.submit ht alone first initial entitles).moves

theorem identity_accepted (r : Registration) (c : Configuration) (p : AdmissionProduct)
    (reached : Bool) (acceptedAt : Int) : (r.accepted c p reached acceptedAt).identity =
      r.identity ∧ (r.accepted c p reached acceptedAt).productId = r.productId ∧
      ((r.accepted c p reached acceptedAt).state = .waitlisted ∨
        (r.accepted c p reached acceptedAt).state = .paymentPending ∨
        (r.accepted c p reached acceptedAt).state = .confirmed) := by
  unfold Registration.accepted
  split
  · exact ⟨rfl, rfl, .inl rfl⟩
  split
  · exact ⟨rfl, rfl, .inr (.inr rfl)⟩
  · exact ⟨rfl, rfl, .inr (.inl rfl)⟩

theorem moves_accept {tokenDigest guardianName : String} {r : Registration}
    (h : acceptGuardianConsent a w now tokenDigest guardianName = .ok (a', r)) : Moves desk a a' := by
  simp only [acceptGuardianConsent, bind_eq_ok, pure_eq_ok, getOr_eq_ok, require_eq_ok,
    Prod.mk.injEq] at h
  obtain ⟨consent, -, _, -, _, -, r, hr, _, pending, c, -, p, -, a₁, h₁, a₂, h₂, rfl, -⟩ := h
  obtain ⟨hr, -⟩ := Table.get?_eq_some.mp hr
  obtain ⟨identity, product, state⟩ := identity_accepted r c p (a.baseCapacityReached c p) now
  have same := (saveRegistration_next hr h₁ (Prod.ext_iff.mp identity).1).2.2
  obtain ⟨u, entitles, rfl⟩ := entitles_grantIfConfirmed (by rcases state with h | h | h <;> simp [h]) h₂
  rw [same] at entitles
  refine Relation.ReflTransGen.tail (b := Admissions.appendTimeline { a₁ with entitlements := u } _ _ _ _ _ _)
    (move_save hr h₁ identity product rfl ?_ ?_ (.inl (by decide))).moves
    (.rest _ a₁.controls a₁.commerceReceipts a₁.adjustments a₁.batches)
  · rw [pending]
    exact .consented state
  · rw [pending]
    exact entitles

/-! ## Staff, check-in and the scheduled lifecycle -/

theorem moves_extend {organizationId editionId registrationId actorId : Uuid} {newDeadline : Int}
    {reason : String} {correlationId : Uuid} {r : Registration}
    (h : extendPaymentDeadline a w now organizationId editionId registrationId actorId newDeadline reason
      correlationId = .ok (a', r)) : Moves desk a a' := by
  simp only [extendPaymentDeadline, bind_eq_ok, pure_eq_ok, require_eq_ok, Prod.mk.injEq] at h
  obtain ⟨_, -, _, -, _, -, r₀, hr₀, _, pending, a₁, h₁, rfl, -⟩ := h
  refine (move_kept (lockRegistration_eq_ok hr₀).1 h₁ rfl rfl rfl ?_ rfl (.inl (by decide))).moves
  show Leads _ r₀.state r₀.state
  rw [pending]
  exact .extended

theorem moves_waive {organizationId editionId registrationId actorId : Uuid} {reason : String}
    {correlationId : Uuid} {r : Registration}
    (h : waiveRegistrationPayment a w now organizationId editionId registrationId actorId reason correlationId =
      .ok (a', r)) : Moves desk a a' := by
  simp only [waiveRegistrationPayment, bind_eq_ok, pure_eq_ok, require_eq_ok, Prod.mk.injEq] at h
  obtain ⟨_, -, _, -, r₀, hr₀, _, pending, a₁, h₁, a₂, h₂, rfl, -⟩ := h
  have hr := (lockRegistration_eq_ok hr₀).1
  have same := (saveRegistration_next hr h₁ rfl).2.2
  obtain ⟨u, entitles, rfl⟩ := entitles_grant rfl h₂
  refine (move_save hr h₁ rfl rfl rfl ?_ ?_ (.inl (by decide))).moves
  · rw [pending]
    exact .waived
  · rw [pending]
    rw [same] at entitles
    exact entitles

theorem moves_checkIn {organizationId editionId registrationId actorId : Uuid} {reason : String}
    {correlationId : Uuid} {r : Registration}
    (h : checkInRegistration a w now organizationId editionId registrationId actorId reason correlationId =
      .ok (a', r)) : Moves True a a' := by
  simp only [checkInRegistration, bind_eq_ok] at h
  obtain ⟨_, -, _, -, r₀, hr₀, h⟩ := h
  split at h
  · cases h
    exact .refl
  simp only [bind_eq_ok, pure_eq_ok, require_eq_ok, Prod.mk.injEq] at h
  obtain ⟨_, confirmed, a₁, h₁, rfl, -⟩ := h
  refine (move_kept (lockRegistration_eq_ok hr₀).1 h₁ rfl rfl rfl ?_ ?_ (.inr trivial)).moves
  · rw [confirmed]
    exact .arrived
  · rw [confirmed]
    rfl

theorem identity_ended (r : Registration) (t : LifecycleTransition) (processedAt : Int) :
    (r.ended t processedAt).identity = r.identity ∧ (r.ended t processedAt).productId =
      r.productId ∧ (r.ended t processedAt).state = t.targetState := by
  unfold Registration.ended
  split <;> exact ⟨rfl, rfl, rfl⟩

/-- A registration that is waitlisted or pays goes where its transition's entry says. -/
theorem leads_lifecycleTransitionFor {r : Registration} {c : Configuration} {p : AdmissionProduct} {processedAt : Int}
    {t : LifecycleTransition} (waiting : r.state = .waitlisted ∨ r.state = .paymentPending)
    (h : lifecycleTransitionFor w r c p processedAt = some t) :
    Leads t.timelineKind r.state t.targetState ∧ t.targetState.admitted = r.state.admitted ∧
      t.timelineKind ≠ "checked_in" := by
  unfold lifecycleTransitionFor at h
  split at h
  · cases h
    rcases waiting with e | e <;> rw [e] <;> exact ⟨.cancelled rfl, rfl, by decide⟩
  split at h
  · rename_i closed
    cases h
    rw [closed.1]
    exact ⟨.closed, rfl, by decide⟩
  split at h
  · rename_i due
    cases h
    rw [due.1]
    exact ⟨.expired, rfl, by decide⟩
  · cases h

theorem moves_processLifecycle {registrationId correlationId : Uuid} {t : Option LifecycleTransition}
    (h : processRegistrationLifecycle a w now registrationId correlationId = .ok (a', t)) : Moves desk a a' := by
  rcases processRegistrationLifecycle_eq_ok h with rfl | ⟨r, c, p, t, a₁, promoted, hr, open_, -, ht, h₁, h₂⟩
  · exact .refl
  obtain ⟨identity, product, state⟩ := identity_ended r t now
  obtain ⟨leads, admitted, still⟩ := leads_lifecycleTransitionFor open_ ht
  refine Relation.ReflTransGen.head ?_ (moves_promote h₂)
  exact move_kept hr h₁ identity product (Prod.ext_iff.mp identity).1.symm (state ▸ leads)
    (state ▸ admitted) (.inl still)

theorem moves_cancel {r : Registration} (hr : r ∈ a.registrations) {timelineKind : String}
    {actorId correlationId : Uuid} (leads : r.state.initial → Leads timelineKind r.state .cancelled)
    (still : timelineKind ≠ "checked_in")
    (h : a.cancelRegistration w r now timelineKind actorId correlationId = .ok a') : Moves desk a a' := by
  simp only [Admissions.cancelRegistration, bind_eq_ok, pure_eq_ok] at h
  obtain ⟨a₁, h₁, rfl⟩ := h
  obtain ⟨-, moves, same⟩ := saveRegistration_next hr h₁ rfl
  have initial : r.state.initial := by
    rcases moves with ⟨same, held⟩ | moves
    · rw [← same] at held
      rcases held with held | held <;> cases held
    · cases hs : r.state <;> rw [hs] at moves <;> first | rfl | cases moves
  have revokes := revokes_revokeEntitlements a₁ r.id
  rw [same] at revokes
  refine (move_save (u := (a₁.revokeEntitlements r.id).entitlements) hr h₁ rfl rfl rfl (leads initial)
    (.revoked rfl ?_) (.inl still)).moves
  rw [same]
  exact revokes

/-! ## Commerce -/

theorem moves_reserve {x : TierRequest} {replacementId correlationId : Uuid} {result : TierReplacementResult}
    (h : reserveAdmissionTierReplacement P a w now x replacementId correlationId = .ok (a', result)) :
    Moves desk a a' := by
  obtain ⟨c, a₁, k, hk, written⟩ := reserveAdmissionTierReplacement_eq_ok h
  have locked : Moves desk _ _ := (move_lockControl hk).moves
  obtain rfl | ⟨r, hr, -, state, -, target, htarget, -, source, -, -, t, receipt, ht, h₃⟩ := written
  · exact locked
  have held : Move desk a₁ { a₁ with replacements := t } := .hold htarget rfl rfl ht
  refine (((locked.tail held).tail (.tell hr (.reserved ?_))).tail
    (move_advanceControl _ k)).tail (move_createCommerceReceipt h₃)
  rcases state with e | e <;> rw [e] <;> rfl

theorem exchanges_exchangeEntitlement {old : Registration} {x : AdmissionTierReplacement} {source : Entitlement}
    {grantedAt : Int} (h : a.exchangeEntitlement (old.moved x) x source grantedAt = .ok a') :
    ∃ u, Exchanges a.entitlements old x source u ∧ a' = { a with entitlements := u } := by
  unfold Admissions.exchangeEntitlement at h
  split at h
  · rename_i other
    obtain ⟨u, hu, rfl⟩ := createEntitlement_eq_ok h
    exact ⟨u, .exchanged other rfl rfl rfl hu, rfl⟩
  · rename_i same
    cases h
    exact ⟨_, .same (not_not.mp same), rfl⟩

theorem moves_complete {replacementId correlationId : Uuid} {completedAt : Int}
    (h : completeAdmissionTierReplacement a w now replacementId correlationId completedAt = .ok a') :
    Moves desk a a' := by
  simp only [completeAdmissionTierReplacement, bind_eq_ok, require_eq_ok, getOr_eq_ok, pure_eq_ok] at h
  obtain ⟨x, hx, _, -, _, -, r, hr, _, ⟨-, held⟩, _, -, source, hs, a₁, h₁, a₂, h₂, rfl⟩ := h
  obtain ⟨hr, -⟩ := Table.get?_eq_some.mp hr
  obtain ⟨hs, own⟩ := Table.find?_eq_some_and hs
  obtain ⟨-, -, rfl⟩ := saveRegistration_eq_ok h₁
  obtain ⟨u, exchanges, rfl⟩ := exchanges_exchangeEntitlement h₂
  refine (Move.upgrade (x := x) hr ?_ (Table.get?_eq_some.mp hx).1 ⟨?_, ?_, ?_⟩ hs own.1 own.2.1 exchanges).moves
  · rcases held with e | e <;> rw [e] <;> rfl
  · rfl
  · rfl
  · rfl

theorem moves_expire (a : Admissions) (replacementId : Uuid) :
    Moves desk a (expireAdmissionTierReplacement a w now replacementId).1 := by
  unfold expireAdmissionTierReplacement
  split
  · exact .refl
  · rename_i x hx
    obtain ⟨hx, found⟩ := Table.find?_eq_some_and hx
    have about := found.2.2.2
    cases hr : a.registrations.get? x.registrationId with
    | none => simp [hr] at about
    | some r =>
    obtain ⟨mem, about⟩ := Table.get?_eq_some.mp hr
    have released : Move desk a { a with replacements := a.replacements.save { x with
        status := .expired, aggregateVersion := x.aggregateVersion + 1, expiredAt := some now } } :=
      .settle hx ⟨rfl, rfl, rfl⟩
    refine released.moves.tail ?_
    simp only [← about]
    exact .tell mem (.released _)

theorem moves_adjustCapacity {x : CapacityRequest} {adjustmentId : Uuid} {result : CapacityAdjustmentResult}
    (h : adjustRegistrationCapacity P a w now x adjustmentId = .ok (a', result)) : Moves desk a a' := by
  simp only [adjustRegistrationCapacity, bind_eq_ok] at h
  obtain ⟨_, -, reason, -, _, -, c, -, ⟨a₁, k⟩, hk, receipt, -, h⟩ := h
  have locked : Moves desk _ _ := (move_lockControl hk).moves
  split at h
  · obtain rfl := store_of_answer h
    exact locked
  simp only [bind_eq_ok, pure_eq_ok, Prod.mk.injEq] at h
  obtain ⟨_, -, _, -, _, -, _, -, _, -, t, -, a₂, h₂, rfl, -⟩ := h
  exact ((locked.tail (move_advanceControl a₁ k)).tail (.rest a₁.consents _ a₁.commerceReceipts t a₁.batches)).tail
    (move_createCommerceReceipt h₂)

theorem moves_offerEach {actorId correlationId : Uuid} (rs : List Registration) {a : Admissions}
    (waiting : ∀ r ∈ rs, r ∈ a.registrations ∧ r.state = .waitlisted) (distinct : (rs.map Registration.id).Nodup)
    (h : offerEach a w actorId now correlationId rs = .ok a') : Moves desk a a' := by
  induction rs generalizing a with
  | nil =>
    cases h
    exact .refl
  | cons r rs ih =>
    simp only [offerEach, bind_eq_ok, offerWaitlistedRegistration] at h
    obtain ⟨a₁, ⟨d, -, q, -, h₁⟩, h⟩ := h
    rw [List.map_cons, List.nodup_cons] at distinct
    obtain ⟨hr, state⟩ := waiting r List.mem_cons_self
    refine (moves_offerPlace hr state h₁).trans (ih (fun r' hr' => ?_) distinct.2 h)
    obtain ⟨mem, state⟩ := waiting r' (List.mem_cons_of_mem r hr')
    rw [(offerPlace_eq_ok h₁).2.registrations]
    refine ⟨Table.mem_save.mpr (.inl ⟨mem, fun e => distinct.1 ?_⟩), state⟩
    rw [← (offered_eq r d q now).1, ← e]
    exact List.mem_map_of_mem hr'

theorem moves_offerBatch {x : BatchRequest} {batchId : Uuid} {result : WaitlistBatchResult}
    (h : offerNextWaitlistBatch P a w now x batchId = .ok (a', result)) : Moves desk a a' := by
  simp only [offerNextWaitlistBatch, bind_eq_ok] at h
  obtain ⟨_, -, reason, -, _, -, c, -, p, -, ⟨a₁, k⟩, hk, receipt, -, h⟩ := h
  have locked : Moves desk _ _ := (move_lockControl hk).moves
  split at h
  · obtain rfl := store_of_answer h
    exact locked
  simp only [bind_eq_ok, pure_eq_ok, Prod.mk.injEq] at h
  obtain ⟨_, -, _, -, a₂, h₂, t, -, a₃, h₃, rfl, -⟩ := h
  have offered : Moves desk a₁ a₂ := by
    refine moves_offerEach _ (fun r hr => ?_) ?_ h₂
    · obtain ⟨mem, -, state⟩ := mem_waitlist (List.mem_of_mem_take hr)
      exact ⟨mem, state⟩
    · exact ((List.take_sublist _ _).map _).nodup (nodup_waitlist ..)
  exact (((locked.trans offered).tail (move_advanceControl a₂ k)).tail
    (.rest a₂.consents _ a₂.commerceReceipts a₂.adjustments t)).tail (move_createCommerceReceipt h₃)

/-! ## Payments, approvals and restrictions -/

theorem moves_confirmPaid {r : Registration} (hr : r ∈ a.registrations) (pending : r.state = .paymentPending)
    {paidAt : Int} {correlationId : Uuid} (h : a.confirmPaid w now r paidAt correlationId = .ok a') :
    Moves desk a a' := by
  simp only [Admissions.confirmPaid, bind_eq_ok, pure_eq_ok] at h
  obtain ⟨a₁, h₁, a₂, h₂, rfl⟩ := h
  have same := (saveRegistration_next hr h₁ rfl).2.2
  obtain ⟨u, entitles, rfl⟩ := entitles_grant rfl h₂
  refine (move_save hr h₁ rfl rfl rfl ?_ ?_ (.inl (by decide))).moves
  · rw [pending]
    exact .paid
  · rw [pending]
    rw [same] at entitles
    exact entitles

theorem moves_completePayment {replacementId : Option Uuid} {r : Registration} (hr : r ∈ a.registrations)
    (pending : replacementId = none → r.state = .paymentPending) {paidAt : Int} {correlationId : Uuid}
    (h : a.completePayment w now replacementId r paidAt correlationId = .ok a') : Moves desk a a' := by
  unfold Admissions.completePayment at h
  split at h
  · exact moves_complete h
  · exact moves_confirmPaid hr (pending rfl) h

section

variable {s s' : Store}

theorem moves_approve {organizationId editionId operationId actorId : Uuid} {reason : String}
    {correlationId : Uuid} {o : FinancialOperation}
    (h : approveFinancialOperation s w now organizationId editionId operationId actorId reason correlationId =
      .ok (s', o)) : Moves desk s.admissions s'.admissions := by
  obtain ⟨_, -, -, -, -, -, -, -, -, -, -, outcome⟩ := approveFinancialOperation_eq_ok h
  rcases outcome with ⟨-, -, r, hr, _, _, _, -, h₁, h₂⟩ | ⟨-, -, same⟩
  · exact (moves_cancel hr .cancelled (by decide) h₁).trans (moves_promote h₂)
  · rw [same]

theorem moves_restrict {actorId : Uuid} {r : Registration} (hr : r ∈ s.admissions.registrations)
    {operationId correlationId : Uuid}
    (h : restrictRegistration s w now actorId r operationId correlationId = .ok s') :
    Moves desk s.admissions s'.admissions := by
  unfold restrictRegistration at h
  split at h
  · split at h <;> cases h
    · rename_i arrived
      exact (Move.restrict hr arrived (revokes_revokeEntitlements s.admissions r.id)).moves
    · exact .refl
  · rename_i selected
    simp only [bind_eq_ok, pure_eq_ok] at h
    obtain ⟨p, -, a₁, h₁, f, -, ⟨a₂, promoted⟩, h₂, rfl⟩ := h
    rw [not_not] at selected
    exact (moves_cancel hr (fun _ => .restricted (by simpa using selected)) (by decide) h₁).trans (moves_promote h₂)

theorem moves_demo {x : DemoPayment} {correlationId : Uuid} (h : confirmDemoPayment s w now x correlationId = .ok s') :
    Moves desk s.admissions s'.admissions := by
  rcases confirmDemoPayment_eq_ok h with rfl | ⟨r, hr, terms, _, _, hterms, -, h₁, -⟩
  · exact .refl
  · refine moves_completePayment hr (fun unheld => ?_) h₁
    rcases paymentTerms_eq_ok hterms with ⟨-, pending⟩ | ⟨x, -, held, -⟩
    · exact pending
    · rw [unheld] at held
      cases held

theorem moves_reconcile {d : Delivery} {receipt : PaymentWebhookReceipt}
    (h : reconcileVerifiedPaymentEvent P s w now d = .ok (s', receipt)) : Moves desk s.admissions s'.admissions := by
  cases reconcile_delivered h with
  | replayed => exact .refl
  | unknown => exact .refl
  | @matched provider intent r done p _ _ _ hr reconciled _ =>
    have effect := reconcileMatched_effect reconciled
    cases effect with
    | applied _ _ current _ _ completed =>
      refine moves_completePayment (Table.get?_eq_some.mp hr).1 (fun unheld => ?_) completed
      rw [Option.map_eq_none_iff] at unheld
      rw [unheld] at current
      simp only [paymentIsCurrent, decide_eq_true_eq] at current
      exact current.1
    | _ => exact .refl

end

/-- The command checks a registration in. -/
def Command.arrival : Command → Prop
  | .checkIn .. => True
  | _ => False

theorem exec_moves {s s' : System} {call : Call} {answer : Answer} (h : exec P s call = .ok (s', answer)) :
    Moves call.command.arrival s.store.admissions s'.store.admissions := by
  replace h := exec_eq_ok h
  obtain ⟨store, rfl, h⟩ := h
  simp only [execCommand] at h
  split at h <;> rename_i command
  case h_1 => exact moves_submit (withAdmissions_eq_ok h).choose_spec.1
  case h_2 => exact moves_accept (withAdmissions_eq_ok h).choose_spec.1
  case h_3 => exact moves_extend (withAdmissions_eq_ok h).choose_spec.1
  case h_4 => exact moves_waive (withAdmissions_eq_ok h).choose_spec.1
  case h_5 =>
    rw [command]
    exact moves_checkIn (withAdmissions_eq_ok h).choose_spec.1
  case h_6 => exact moves_processLifecycle (withAdmissions_eq_ok h).choose_spec.1
  case h_7 => exact moves_reserve (withAdmissions_eq_ok h).choose_spec.1
  case h_8 =>
    have moves := @moves_expire
      (s.clock + call.elapsed) call.surroundings call.command.arrival s.store.admissions ‹Uuid›
    rwa [Except.ok.inj (withAdmissions_eq_ok h).choose_spec.1] at moves
  case h_9 => exact moves_adjustCapacity (withAdmissions_eq_ok h).choose_spec.1
  case h_10 => exact moves_offerBatch (withAdmissions_eq_ok h).choose_spec.1
  case h_11 =>
    obtain ⟨_, h⟩ := answered_eq_ok h
    obtain ⟨_, -, -, -, -, _, -, rfl⟩ := proposeFinancialOperation_eq_ok h
    exact .refl
  case h_12 => exact moves_approve (answered_eq_ok h).choose_spec
  case h_13 =>
    simp only [bind_eq_ok, pure_eq_ok, Prod.mk.injEq] at h
    obtain ⟨_, h, rfl, -⟩ := h
    exact restrictEach_induct (I := fun t => Moves call.command.arrival s.store.admissions t.admissions)
      (fun _ _ _ _ hr moves h => moves.trans (moves_restrict hr h)) _ .refl h
  case h_14 =>
    obtain ⟨_, h⟩ := answered_eq_ok h
    rcases createPaymentIntent_eq_ok h with rfl | ⟨_, -, _, -, _, _, -, -, -, -, -, -, -, -, rfl⟩ <;> exact .refl
  case h_17 =>
    simp only [bind_eq_ok, pure_eq_ok, Prod.mk.injEq] at h
    obtain ⟨_, h, rfl, -⟩ := h
    exact moves_demo h
  case h_18 => exact moves_reconcile (answered_eq_ok h).choose_spec
  case h_15 | h_16 | h_19 =>
    rw [(withPayments_eq_ok h).2]

end Maru.Registration
