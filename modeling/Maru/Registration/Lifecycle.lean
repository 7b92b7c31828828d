import Maru.Registration.Admissions

/-!
# Registration lifecycle

Submission, guardian consent, deadline extension and waiver, the waitlist, the scheduled
lifecycle and check-in. A command is one transaction: it authorizes its actor, locks what
it is about, checks it and writes it with a timeline entry.
-/

set_option linter.dupNamespace false

namespace Maru.Registration

open Digits

/-! ## Submission -/

/-- What `create_guardian_consent` is given for a registration that needs consent. -/
structure GuardianRequest where
  consentId : Uuid
  tokenDigest : String
  guardianName : String
  guardianEmail : String
  relationship : String
  noticeVersion : String

structure Submission where
  organizationId : Uuid
  editionId : Uuid
  actorId : Uuid
  subjectAccountId : Option Uuid
  productId : Uuid
  /-- What `validate_registration_answers` makes of the answers. -/
  answers : Except RegistrationError Unit
  allowUnverified : Bool
  bypassSaleWindows : Bool
  staffReason : String
  guardian : Option GuardianRequest

/-- `f"REG-{registration_id.hex[:10].upper()}"`. -/
def registrationReference (id : Uuid) : String :=
  String.ofList ("REG-".toList ++ ((padHex 32 id.val).take 10).map Char.toUpper)

/-- The state a new registration starts in. -/
def initialState (requiresGuardianConsent capacityReached : Bool) (priceMinor : Nat) : State :=
  if requiresGuardianConsent then .guardianPending
  else if capacityReached then .waitlisted
  else if priceMinor = 0 then .confirmed
  else .paymentPending

/-- No place is left: live holds count against the product, adjusted capacities apply. -/
def Admissions.full (a : Admissions) (c : Configuration) (p : AdmissionProduct) (at_ : Int) : Bool :=
  a.effectiveProductCapacity p ≤ a.productOccupied p.id + a.pendingTargetCapacityHolds p.id at_ ∨
    a.effectiveConfigurationCapacity c ≤ a.configurationOccupied c.id

def newRegistration (x : Submission) (registrationId subjectId : Uuid) (staffReason : String)
    (c : Configuration) (p : AdmissionProduct) (state : State) (submittedAt : Int) : Registration :=
  { id := registrationId, organizationId := x.organizationId, editionId := x.editionId, accountId := subjectId,
    configurationId := c.id, productId := p.id, reference := registrationReference registrationId, state,
    aggregateVersion := 1, productNameSnapshot := p.name, priceMinorSnapshot := p.priceMinor,
    currencySnapshot := c.currency, submittedAt,
    waitlistedAt := if state = .waitlisted then some submittedAt else none, offeredAt := none,
    paymentDueAt := if state = .paymentPending then some (paymentDeadline c p submittedAt) else none,
    confirmedAt := if state = .confirmed then some submittedAt else none, checkedInAt := none,
    expiredAt := none, cancelledAt := none,
    confirmationBasis := if state = .confirmed then some .free else none,
    submittedBy := x.subjectAccountId.map fun _ => x.actorId, staffSubmissionReason := staffReason }

def guardianConsentLifetime : Int := Calendar.minutes (7 * 24 * 60)

def Admissions.createGuardianConsent (a : Admissions) (registrationId : Uuid) (g : GuardianRequest)
    (requestedAt : Int) : Except RegistrationError Admissions := do
  require (¬ a.consents.rows.any fun c => c.registrationId = registrationId ∨
    c.tokenDigest = g.tokenDigest) (.integrity "registration_guardianconsent")
  let consents ← getOr (.integrity "registration_guardianconsent_pkey") (a.consents.insert?
    { id := g.consentId, registrationId, guardianName := strip g.guardianName,
      guardianEmail := (strip g.guardianEmail).toLower, relationship := strip g.relationship,
      noticeVersion := g.noticeVersion, tokenDigest := g.tokenDigest, status := .pending, requestedAt,
      expiresAt := requestedAt + guardianConsentLifetime, decidedAt := none, guardianNameAtDecision := "" })
  return { a with consents := consents }

/-- The reason of a submission on someone's behalf. -/
def Submission.normalizedReason (x : Submission) : Except RegistrationError String :=
  if x.subjectAccountId.isSome then requireReason x.staffReason else return ""

/-- The checks of a submission before its transaction; the subject and the staff reason. -/
def authorizeSubmission (w : Surroundings) (x : Submission) : Except RegistrationError (Uuid × String) := do
  let subjectId := x.subjectAccountId.getD x.actorId
  let staffReason ← x.normalizedReason
  require (w.accountIsActive subjectId : Prop) (.invalid "__all__" "registration_account_inactive"
    "This account cannot start or change a registration.")
  require (x.allowUnverified ∨ w.accounts.any fun a => a.id = subjectId ∧ a.hasVerifiedEmail)
    (.invalid "__all__" "registration_email_not_verified"
      "Verify your email before registration can reserve a place.")
  let restriction := w.restriction subjectId x.organizationId x.editionId
  require (restriction = none) (.invalid "__all__" "account_restricted"
    (orElse (restriction.getD "") "This action is unavailable for this account."))
  w.requireDecision x.actorId (if x.subjectAccountId.isSome then .registerOnBehalf else .registerSelf)
    x.organizationId x.editionId
  return (subjectId, staffReason)

/-- The entitlement and the timeline of a registration that is confirmed or waitlisted. -/
def Admissions.recordOutcome (a : Admissions) (r : Registration) (submittedAt : Int)
    (correlationId : Uuid) : Except RegistrationError Admissions :=
  if r.state = .confirmed then do
    let a ← a.grantProductEntitlement r submittedAt
    return a.appendTimeline r.id "registration_confirmed" submittedAt "system" none correlationId
  else if r.state = .waitlisted then
    return a.appendTimeline r.id "waitlist_joined" submittedAt "system" none correlationId
  else return a

def Admissions.requestConsent (a : Admissions) (x : Submission) (registrationId : Uuid)
    (requestedAt : Int) : Except RegistrationError Admissions :=
  match x.guardian with
  | none => return a
  | some g => a.createGuardianConsent registrationId g requestedAt

/-- What follows the creation of a registration: its timeline, entitlement and consent. -/
def Admissions.recordSubmission (a : Admissions) (x : Submission) (r : Registration)
    (submittedAt : Int) (correlationId : Uuid) : Except RegistrationError Admissions := do
  let a := a.appendTimeline r.id "registration_submitted" submittedAt "account" (some x.actorId) correlationId
  let a := if x.subjectAccountId.isSome then
    a.appendTimeline r.id "staff_assisted_registration" submittedAt "account" (some x.actorId) correlationId
    else a
  let a ← a.recordOutcome r submittedAt correlationId
  a.requestConsent x r.id submittedAt

def submitRegistration (a : Admissions) (w : Surroundings) (submittedAt : Int) (x : Submission)
    (registrationId correlationId : Uuid) : Except RegistrationError (Admissions × Registration) := do
  let (subjectId, staffReason) ← authorizeSubmission w x
  require ((x.organizationId, x.editionId, subjectId) ∈ w.participations) (.missing "Participation")
  let c ← a.activeConfiguration w x.organizationId x.editionId
  require (x.bypassSaleWindows ∨ (c.opensAt ≤ submittedAt ∧ submittedAt < c.closesAt))
    (.invalid "__all__" "registration_not_open" "Registration is not open at this time.")
  require (¬ a.registrations.rows.any fun r => r.editionId = x.editionId ∧ r.accountId = subjectId)
    (.invalid "__all__" "registration_already_exists" "This account already has a registration for the edition.")
  let p ← getOr (.missing "AdmissionProduct") (a.products.rows.find? fun p =>
    p.id = x.productId ∧ p.configurationId = c.id ∧ p.available)
  let availability := a.assessProductAvailability w c p subjectId submittedAt x.bypassSaleWindows
  require (availability.selectable : Prop) (.invalid "__all__" availability.code availability.explanation)
  x.answers
  let state := initialState x.guardian.isSome (a.full c p submittedAt) p.priceMinor
  let r := newRegistration x registrationId subjectId staffReason c p state submittedAt
  let a ← a.createRegistration w r
  let a ← a.recordSubmission x r submittedAt correlationId
  return (a, r)

/-! ## Guardian consent -/

/-- The registration after its guardian accepted; the offered capacities alone decide. -/
def Registration.accepted (r : Registration) (c : Configuration) (p : AdmissionProduct)
    (capacityReached : Bool) (acceptedAt : Int) : Registration :=
  if capacityReached then
    { r with state := .waitlisted, waitlistedAt := some acceptedAt, aggregateVersion := r.aggregateVersion + 1 }
  else if r.priceMinorSnapshot = 0 then
    { r with state := .confirmed, confirmedAt := some acceptedAt, confirmationBasis := some .free,
             aggregateVersion := r.aggregateVersion + 1 }
  else
    { r with state := .paymentPending, paymentDueAt := some (paymentDeadline c p acceptedAt),
             aggregateVersion := r.aggregateVersion + 1 }

/-- The capacity check of `accept_guardian_consent`. -/
def Admissions.baseCapacityReached (a : Admissions) (c : Configuration) (p : AdmissionProduct) : Bool :=
  p.capacity ≤ a.productOccupied p.id ∨ c.capacity ≤ a.configurationOccupied c.id

/-- The consent a guardian link opens. -/
def Admissions.consentFor (a : Admissions) (w : Surroundings) (tokenDigest : String) : Option GuardianConsent :=
  a.consents.rows.find? fun c => c.tokenDigest = tokenDigest ∧
    (a.registrations.get? c.registrationId).any fun r => w.adoptsRegistration r.editionId

def acceptGuardianConsent (a : Admissions) (w : Surroundings) (acceptedAt : Int)
    (tokenDigest guardianName : String) : Except RegistrationError (Admissions × Registration) := do
  let unusable : RegistrationError :=
    .invalid "__all__" "guardian_consent_invalid" "This guardian link is invalid or has expired."
  let consent ← getOr unusable (a.consentFor w tokenDigest)
  require (consent.status = .pending ∧ acceptedAt < consent.expiresAt) unusable
  require (strip guardianName ≠ "") (.invalid "__all__" "guardian_name_required"
    "Enter the guardian name used for this authorization.")
  let r ← getOr (.missing "Registration") (a.registrations.get? consent.registrationId)
  require (r.state = .guardianPending) (.invalid "__all__" "guardian_consent_not_pending"
    "This registration is no longer awaiting guardian consent.")
  let c ← getOr (.missing "RegistrationConfiguration") (a.configurations.get? r.configurationId)
  let p ← a.productOf r
  let r := r.accepted c p (a.baseCapacityReached c p) acceptedAt
  let a ← a.saveRegistration w acceptedAt r
  let a := { a with consents := a.consents.save { consent with
    status := .accepted, decidedAt := some acceptedAt, guardianNameAtDecision := strip guardianName } }
  let a ← a.grantIfConfirmed r acceptedAt
  return (a.appendTimeline r.id "guardian_consent_received" acceptedAt "guardian" none consent.id, r)

/-! ## Exceptions made by staff -/

def extendPaymentDeadline (a : Admissions) (w : Surroundings) (changedAt : Int)
    (organizationId editionId registrationId actorId : Uuid) (newDeadline : Int) (reason : String)
    (correlationId : Uuid) : Except RegistrationError (Admissions × Registration) := do
  w.requireDecision actorId .manageExceptions organizationId editionId
  let _ ← requireReason reason
  require (changedAt < newDeadline) (.invalid "new_deadline" "payment_deadline_not_future"
    "The new payment deadline must be in the future.")
  let r ← a.lockRegistration organizationId editionId registrationId
  require (r.state = .paymentPending) (.invalid "__all__" "registration_not_payment_pending"
    "Only a payment-pending registration has an adjustable deadline.")
  let r := { r with paymentDueAt := some newDeadline, aggregateVersion := r.aggregateVersion + 1 }
  let a ← a.saveRegistration w changedAt r
  return (a.appendTimeline r.id "payment_deadline_changed" changedAt "account" (some actorId) correlationId, r)

def waiveRegistrationPayment (a : Admissions) (w : Surroundings) (waivedAt : Int)
    (organizationId editionId registrationId actorId : Uuid) (reason : String) (correlationId : Uuid) :
    Except RegistrationError (Admissions × Registration) := do
  w.requireDecision actorId .manageExceptions organizationId editionId
  let _ ← requireReason reason
  let r ← a.lockRegistration organizationId editionId registrationId
  require (r.state = .paymentPending) (.invalid "__all__" "registration_not_payment_pending"
    "Only a payment-pending registration can receive a waiver.")
  let r := { r with
    state := .confirmed, confirmedAt := some waivedAt, confirmationBasis := some .waiver
    aggregateVersion := r.aggregateVersion + 1 }
  let a ← a.saveRegistration w waivedAt r
  let a ← a.grantProductEntitlement r waivedAt
  return (a.appendTimeline r.id "payment_waived" waivedAt "account" (some actorId) correlationId, r)

def checkInRegistration (a : Admissions) (w : Surroundings) (checkedInAt : Int)
    (organizationId editionId registrationId actorId : Uuid) (reason : String) (correlationId : Uuid) :
    Except RegistrationError (Admissions × Registration) := do
  w.requireDecision actorId .checkIn organizationId editionId
  let _ ← requireReason reason
  let r ← a.lockRegistration organizationId editionId registrationId
  if r.state = .checkedIn then return (a, r) else do
    require (r.state = .confirmed) (.invalid "__all__" "registration_not_confirmed"
      "Only a confirmed registration can be checked in.")
    let r := { r with
      state := .checkedIn, checkedInAt := some checkedInAt, aggregateVersion := r.aggregateVersion + 1 }
    let a ← a.saveRegistration w checkedInAt r
    return (a.appendTimeline r.id "checked_in" checkedInAt "account" (some actorId) correlationId, r)

/-! ## The waitlist -/

/-- `order_by("waitlisted_at", "submitted_at", "id")`, a missing time last. -/
def Registration.queueKey (r : Registration) : Bool ×ₗ Int ×ₗ Int ×ₗ Uuid :=
  toLex (r.waitlistedAt.isNone, toLex (r.waitlistedAt.getD 0, toLex (r.submittedAt, r.id)))

/-- The waitlisted registrations of a product with an active account, first in first. -/
def Admissions.waitlist (a : Admissions) (w : Surroundings) (productId : Uuid) : List Registration :=
  (a.registrations.rows.filter fun r => r.productId = productId ∧ r.state = .waitlisted ∧
    w.accountIsActive r.accountId).insertionSort (·.queueKey ≤ ·.queueKey)

/-- The registration with a place offered to it. -/
def Registration.offered (r : Registration) (c : Configuration) (p : AdmissionProduct)
    (offeredAt : Int) : Registration :=
  if r.priceMinorSnapshot = 0 then
    { r with state := .confirmed, offeredAt := some offeredAt, confirmedAt := some offeredAt,
             confirmationBasis := some .free, paymentDueAt := none, aggregateVersion := r.aggregateVersion + 1 }
  else
    { r with state := .paymentPending, offeredAt := some offeredAt,
             paymentDueAt := some (paymentDeadline c p offeredAt), aggregateVersion := r.aggregateVersion + 1 }

def Admissions.offerPlace (a : Admissions) (w : Surroundings) (offeredAt : Int) (r : Registration)
    (actorKind : String) (actorId : Option Uuid) (correlationId : Uuid) : Except RegistrationError Admissions := do
  let a ← a.saveRegistration w offeredAt r
  let a ← a.grantIfConfirmed r offeredAt
  return a.appendTimeline r.id "waitlist_place_offered" offeredAt actorKind actorId correlationId

/-- The offer of a product has closed. -/
def offersClosed (c : Configuration) (p : AdmissionProduct) (at_ : Int) : Bool :=
  c.closesAt ≤ at_ ∨ p.salesCloseAt.any (· ≤ at_)

def Admissions.promoteWaitlistForProduct (a : Admissions) (w : Surroundings) (p : AdmissionProduct) (offeredAt : Int)
    (correlationId : Uuid) : Except RegistrationError (Admissions × Option Registration) := do
  let c ← a.configurationOf p
  if ¬ c.automaticWaitlistPromotion ∨ offersClosed c p offeredAt then return (a, none)
  else if a.effectiveConfigurationCapacity c ≤ a.configurationOccupied c.id ∨
      a.effectiveProductCapacity p ≤ a.occupiedIn c.id p.id + a.pendingTargetCapacityHolds p.id offeredAt then
    return (a, none)
  else match (a.waitlist w p.id).head? with
    | none => return (a, none)
    | some r => do
      let r := r.offered c p offeredAt
      let a ← a.offerPlace w offeredAt r "workload" none correlationId
      return (a, some r)

/-! ## The scheduled lifecycle -/

structure LifecycleTransition where
  counter : String
  targetState : State
  timelineKind : String

def lifecycleTransitionFor (w : Surroundings) (r : Registration) (c : Configuration)
    (p : AdmissionProduct) (processedAt : Int) : Option LifecycleTransition :=
  if ¬ w.accountIsActive r.accountId then
    some ⟨"inactive_cancelled", .cancelled, "registration_cancelled"⟩
  else if r.state = .waitlisted ∧ offersClosed c p processedAt then
    some ⟨"closed_waitlist_cancelled", .cancelled, "waitlist_closed"⟩
  else if r.state = .paymentPending ∧ r.paymentDueAt.any (· ≤ processedAt) then
    some ⟨"expired", .expired, "payment_expired"⟩
  else none

def Registration.ended (r : Registration) (t : LifecycleTransition) (processedAt : Int) : Registration :=
  if t.targetState = .expired then
    { r with state := t.targetState, expiredAt := some processedAt, aggregateVersion := r.aggregateVersion + 1 }
  else
    { r with state := t.targetState, cancelledAt := some processedAt, aggregateVersion := r.aggregateVersion + 1 }

/-- The transaction of `process_registration_lifecycle` for one candidate. -/
def processRegistrationLifecycle (a : Admissions) (w : Surroundings) (processedAt : Int)
    (registrationId correlationId : Uuid) : Except RegistrationError (Admissions × Option LifecycleTransition) :=
  match a.registrations.rows.find? fun r => r.id = registrationId ∧
      w.adoptsRegistration r.editionId ∧ (r.state = .waitlisted ∨ r.state = .paymentPending) with
  | none => return (a, none)
  | some r => do
    let c ← getOr (.missing "RegistrationConfiguration") (a.configurations.get? r.configurationId)
    let p ← a.productOf r
    match lifecycleTransitionFor w r c p processedAt with
    | none => return (a, none)
    | some t => do
      let a ← a.saveRegistration w processedAt (r.ended t processedAt)
      let a := a.appendTimeline r.id t.timelineKind processedAt "workload" none correlationId
      let (a, _) ← a.promoteWaitlistForProduct w p processedAt correlationId
      return (a, some t)

end Maru.Registration
