import Maru.Registration.Consistency

/-!
# Moves of a registration

A command changes a registration together with its entitlement and its timeline. A `Move` is
one such change, and every command is a sequence of them (`exec_moves`): between two moves the
registrations agree with what hangs on them, which between two writes they need not.
-/

set_option linter.dupNamespace false

namespace Maru.Registration

/-! ## What entries say -/

/-- The states a submission starts in. -/
def State.initial : State → Bool
  | guardianPending | waitlisted | paymentPending | confirmed => true
  | checkedIn | expired | cancelled => false

def State.admitted : State → Bool
  | confirmed | checkedIn => true
  | guardianPending | waitlisted | paymentPending | expired | cancelled => false

/-- The entry leaves its registration in the state. -/
inductive Leaves : String → State → Prop
  | assisted (s : State) : Leaves "staff_assisted_registration" s
  | confirmed : Leaves "registration_confirmed" .confirmed
  | joined : Leaves "waitlist_joined" .waitlisted
  | reserved {s : State} (admitted : s.admitted) : Leaves "admission_tier_replacement_reserved" s
  | released (s : State) : Leaves "admission_tier_replacement_expired" s

/-- The entry says that its registration went from the one state to the other. -/
inductive Leads : String → State → State → Prop
  | consented {s : State} (h : s = .waitlisted ∨ s = .paymentPending ∨ s = .confirmed) :
      Leads "guardian_consent_received" .guardianPending s
  | extended : Leads "payment_deadline_changed" .paymentPending .paymentPending
  | waived : Leads "payment_waived" .paymentPending .confirmed
  | paid : Leads "payment_confirmed" .paymentPending .confirmed
  | offered {s : State} (h : s = .paymentPending ∨ s = .confirmed) : Leads "waitlist_place_offered" .waitlisted s
  | arrived : Leads "checked_in" .confirmed .checkedIn
  | upgraded {s : State} (admitted : s.admitted) : Leads "admission_tier_replacement_completed" s s
  | expired : Leads "payment_expired" .paymentPending .expired
  | closed : Leads "waitlist_closed" .waitlisted .cancelled
  | cancelled {s : State} (h : s.initial) : Leads "registration_cancelled" s .cancelled
  | restricted {s : State} (h : s = .waitlisted ∨ s = .paymentPending ∨ s = .confirmed) :
      Leads "registration_restricted" s .cancelled

/-! ## Entitlements -/

/-- The entitlement admits the registration to the product. -/
structure Admits (p : AdmissionProduct) (r : Registration) (e : Entitlement) : Prop where
  holder : e.registrationId = r.id
  code : e.code = p.entitlementCode
  active : e.active

/-- The active entitlements of a registration are no longer active. -/
def Revokes (t : Table Entitlement.key) (registrationId : Uuid) (u : Table Entitlement.key) : Prop :=
  ∀ e, e ∈ u ↔ (e ∈ t ∧ ¬ (e.registrationId = registrationId ∧ e.active)) ∨
    ∃ e' ∈ t, e'.registrationId = registrationId ∧ e'.active ∧ e = { e' with active := false }

/-- What a change of state makes of the entitlements of a registration that was admitted, or not. -/
inductive Entitles (products : Table AdmissionProduct.id) (t : Table Entitlement.key) (was : Bool)
    (r : Registration) : Table Entitlement.key → Prop
  | granted {p : AdmissionProduct} {e : Entitlement} {u : Table Entitlement.key} (new : was = false)
      (confirmed : r.state = .confirmed) (mem : p ∈ products) (product : p.id = r.productId) (admits : Admits p r e)
      (inserted : t.insert? e = some u) : Entitles products t was r u
  | revoked {u : Table Entitlement.key} (ended : r.state = .cancelled)
      (revokes : Revokes t r.id u) : Entitles products t was r u
  | kept (same : r.state.admitted = was) : Entitles products t was r t

/-- The source entitlement of a replacement is exchanged for the target's, where they differ. -/
inductive Exchanges (t : Table Entitlement.key) (r : Registration) (x : AdmissionTierReplacement)
    (source : Entitlement) : Table Entitlement.key → Prop
  | exchanged {e : Entitlement} {u : Table Entitlement.key} (other : x.targetEntitlementCode ≠ source.code)
      (holder : e.registrationId = r.id) (code : e.code = x.targetEntitlementCode) (active : e.active)
      (inserted : (t.save { source with active := false }).insert? e = some u) : Exchanges t r x source u
  | same (same : x.targetEntitlementCode = source.code) : Exchanges t r x source t

/-! ## Moves -/

/-- The columns that no command writes again. -/
def Registration.identity (r : Registration) : Uuid × Uuid × Uuid × Uuid × Uuid × String × Int × Option Uuid :=
  (r.id, r.organizationId, r.editionId, r.accountId, r.configurationId, r.reference, r.submittedAt, r.submittedBy)

/-- A replacement is of the same registration and products after its status changed. -/
structure Supersedes (x x' : AdmissionTierReplacement) : Prop where
  id : x'.id = x.id
  target : x'.targetProductId = x.targetProductId
  code : x'.targetEntitlementCode = x.targetEntitlementCode

/-- One change, by which a registration is checked in only where arrivals are taken (`desk`). -/
inductive Move (desk : Prop) (a : Admissions) : Admissions → Prop
  | submit {r : Registration} {t : Table Registration.id} {u : Table Entitlement.key}
      {occurredAt : Int} {actorKind : String} {actorId : Option Uuid} {correlationId : Uuid}
      (inserted : a.registrations.insert? r = some t)
      (alone : ∀ x ∈ a.registrations, x.editionId = r.editionId →
        x.accountId ≠ r.accountId ∧ x.reference ≠ r.reference)
      (first : r.aggregateVersion = 1) (initial : r.state.initial)
      (entitles : Entitles a.products a.entitlements false r u) :
      Move desk a (Admissions.appendTimeline { a with registrations := t, entitlements := u } r.id
        "registration_submitted" occurredAt actorKind actorId correlationId)
  | tell {r : Registration} {kind : String} {occurredAt : Int} {actorKind : String} {actorId : Option Uuid}
      {correlationId : Uuid} (mem : r ∈ a.registrations) (leaves : Leaves kind r.state) :
      Move desk a (a.appendTimeline r.id kind occurredAt actorKind actorId correlationId)
  | change {old r : Registration} {u : Table Entitlement.key} {kind : String} {occurredAt : Int} {actorKind : String}
      {actorId : Option Uuid} {correlationId : Uuid} (mem : old ∈ a.registrations)
      (identity : r.identity = old.identity) (product : r.productId = old.productId)
      (version : r.aggregateVersion = old.aggregateVersion + 1) (leads : Leads kind old.state r.state)
      (entitles : Entitles a.products a.entitlements old.state.admitted r u) (still : kind ≠ "checked_in" ∨ desk) :
      Move desk a (Admissions.appendTimeline { a with
        registrations := a.registrations.save r, entitlements := u } r.id kind occurredAt
        actorKind actorId correlationId)
  | upgrade {old : Registration} {x x' : AdmissionTierReplacement} {source : Entitlement} {u : Table Entitlement.key}
      {occurredAt : Int} {actorKind : String} {actorId : Option Uuid} {correlationId : Uuid}
      (mem : old ∈ a.registrations) (admitted : old.state.admitted) (hx : x ∈ a.replacements) (settles : Supersedes x x')
      (held : source ∈ a.entitlements) (holder : source.registrationId = old.id) (active : source.active)
      (exchanges : Exchanges a.entitlements old x source u) :
      Move desk a (Admissions.appendTimeline { a with
        registrations := a.registrations.save (old.moved x), entitlements := u
        replacements := a.replacements.save x' } old.id "admission_tier_replacement_completed" occurredAt
        actorKind actorId correlationId)
  /-- An attendance restriction of a registration that has arrived. -/
  | restrict {r : Registration} {u : Table Entitlement.key} (mem : r ∈ a.registrations)
      (arrived : r.state = .checkedIn) (revokes : Revokes a.entitlements r.id u) :
      Move desk a { a with entitlements := u }
  | hold {x : AdmissionTierReplacement} {t : Table AdmissionTierReplacement.id} {p : AdmissionProduct}
      (target : p ∈ a.products) (product : p.id = x.targetProductId) (code : p.entitlementCode = x.targetEntitlementCode)
      (inserted : a.replacements.insert? x = some t) : Move desk a { a with replacements := t }
  | settle {x x' : AdmissionTierReplacement} (mem : x ∈ a.replacements)
      (settles : Supersedes x x') : Move desk a { a with replacements := a.replacements.save x' }
  | rest (consents : Table GuardianConsent.id) (controls : Table CommerceControl.configurationId)
      (commerceReceipts : Table CommerceReceipt.key) (adjustments : Table CapacityAdjustment.id)
      (batches : Table WaitlistBatchOffer.id) :
      Move desk a { a with
        consents := consents, controls := controls, commerceReceipts := commerceReceipts
        adjustments := adjustments, batches := batches }

abbrev Moves (desk : Prop) : Admissions → Admissions → Prop := Relation.ReflTransGen (Move desk)

theorem Moves.keeps {desk : Prop} {I : Admissions → Prop} (keep : ∀ a a', I a → Move desk a a' →
    I a') {a a' : Admissions} (ha : I a) (h : Moves desk a a') : I a' := by
  induction h with
  | refl => exact ha
  | tail _ move ih => exact keep _ _ ih move

theorem Move.moves {desk : Prop} {a a' : Admissions} (h : Move desk a a') : Moves desk a a' := .single h

end Maru.Registration
