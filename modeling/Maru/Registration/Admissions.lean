import Mathlib.Data.List.MinMax
import Mathlib.Data.List.Sort
import Mathlib.Data.Prod.Lex
import Maru.Framework.Except
import Maru.Framework.IsoFormat
import Maru.Registration.Records

/-!
# Occupancy and the writing of registrations

How many places of a product or configuration are taken, what their capacities are at the
moment, whether a product can be selected, and how a registration row and what hangs on it
are written: through the model's own checks and the trigger on the table.
-/

namespace Maru.Registration

open Calendar

/-! ## Capacities -/

/-- `Registration.objects.filter(product=product,
state__in=OCCUPIED_REGISTRATION_STATES).count()`. -/
def Admissions.productOccupied (a : Admissions) (productId : Uuid) : Nat :=
  a.registrations.rows.countP fun r => r.state.occupied ∧ r.productId = productId

/-- `_occupied_registrations(configuration).count()`. -/
def Admissions.configurationOccupied (a : Admissions) (configurationId : Uuid) : Nat :=
  a.registrations.rows.countP fun r => r.state.occupied ∧ r.configurationId = configurationId

/-- `_occupied_registrations(configuration).filter(product=product).count()`. -/
def Admissions.occupiedIn (a : Admissions) (configurationId productId : Uuid) : Nat :=
  a.registrations.rows.countP fun r =>
    (r.state.occupied ∧ r.configurationId = configurationId) ∧ r.productId = productId

def AdmissionTierReplacement.holds (x : AdmissionTierReplacement) (productId : Uuid) (at_ : Int) : Bool :=
  x.targetProductId = productId ∧ x.status = .paymentPending ∧ at_ < x.paymentDueAt

def Admissions.pendingTargetCapacityHolds (a : Admissions) (productId : Uuid) (at_ : Int) : Nat :=
  a.replacements.rows.countP (·.holds productId at_)

/-- The new capacity of the latest adjustment, overall or of one product. -/
def Admissions.latestCapacity (a : Admissions) (configurationId : Uuid) (productId : Option Uuid) : Option Nat :=
  ((a.adjustments.rows.filter fun x => x.configurationId = configurationId ∧ x.productId = productId).argmax
    fun x => toLex (x.controlVersion, x.id)).map CapacityAdjustment.newCapacity

def Admissions.effectiveConfigurationCapacity (a : Admissions) (c : Configuration) : Nat :=
  (a.latestCapacity c.id none).getD c.capacity

def Admissions.effectiveProductCapacity (a : Admissions) (p : AdmissionProduct) : Nat :=
  (a.latestCapacity p.configurationId (some p.id)).getD p.capacity

/-- `capacity_ceiling or capacity`. -/
def Configuration.ceiling (c : Configuration) : Nat := (c.capacityCeiling.filter (· ≠ 0)).getD c.capacity

def AdmissionProduct.ceiling (p : AdmissionProduct) : Nat := (p.capacityCeiling.filter (· ≠ 0)).getD p.capacity

/-! ## Availability -/

structure ProductAvailability where
  selectable : Bool
  code : String
  explanation : String
  waitlist : Bool

/-- `%Y-%m-%d %H:%M %Z` of an instant in UTC. -/
def stamp (t : Int) : String :=
  String.ofList (dateChars (t.toNat / microsPerDay) ++ ' ' ::
    (clockChars (t.toNat % microsPerDay)).take 5 ++ " UTC".toList)

def orElse (text default_ : String) : String := if text = "" then default_ else text

def Admissions.assessProductAvailability (a : Admissions) (w : Surroundings) (c : Configuration)
    (p : AdmissionProduct) (accountId : Uuid) (at_ : Int) (ignoreSaleWindow : Bool) : ProductAvailability :=
  if ¬ p.available then
    ⟨false, "product_hidden", "This admission option is not currently offered.", false⟩
  else if ¬ ignoreSaleWindow ∧ p.salesOpenAt.any (at_ < ·) then
    ⟨false, "product_sales_not_open", s!"This offer opens on {stamp (p.salesOpenAt.getD 0)}.", false⟩
  else if ¬ ignoreSaleWindow ∧ p.salesCloseAt.any (· ≤ at_) then
    ⟨false, "product_sales_closed", "This offer has ended.", false⟩
  else if p.requiredCapacityCodes ≠ [] ∧ ¬ w.capacities.any fun x =>
      x.accountId = accountId ∧ x.editionId = c.editionId ∧ x.isActive ∧ x.code ∈ p.requiredCapacityCodes then
    ⟨false, "product_capacity_required",
      orElse p.eligibilityExplanation "This offer is limited to an assigned convention role.", false⟩
  else if p.capacity ≤ a.occupiedIn c.id p.id ∨ c.capacity ≤ a.configurationOccupied c.id then
    if c.waitlistEnabled ∧ p.waitlistEnabled then
      ⟨true, "waitlist_available", "Capacity is currently full. Submitting will join the waitlist; " ++
        "payment is requested only if a place is offered.", true⟩
    else ⟨false, "capacity_reached", "This admission option is currently full.", false⟩
  else ⟨true, "available", "A place can currently be reserved.", false⟩

/-! ## Writing a registration -/

/-- The changes of state that `maru_guard_registration_record` lets through. -/
def State.mayBecome : State → State → Bool
  | guardianPending, s => s ∈ [waitlisted, paymentPending, confirmed, cancelled]
  | waitlisted, s => s ∈ [paymentPending, confirmed, cancelled]
  | paymentPending, s => s ∈ [confirmed, expired, cancelled]
  | confirmed, s => s ∈ [checkedIn, cancelled]
  | checkedIn, _ | expired, _ | cancelled, _ => false

/-- The evidence the trigger asks of a state. -/
def requireEvidence (r : Registration) : Except RegistrationError Unit :=
  match r.state with
  | .waitlisted =>
    require (r.waitlistedAt.isSome : Prop) (.guard "waitlisted registration requires queue time")
  | .paymentPending =>
    require (r.paymentDueAt.isSome : Prop) (.guard "payment pending registration requires deadline")
  | .confirmed => require (r.confirmedAt.isSome ∧ r.confirmationBasis.isSome)
      (.guard "confirmed registration requires evidence basis")
  | .expired => require (r.expiredAt.isSome : Prop) (.guard "expired registration requires expiry time")
  | .cancelled =>
    require (r.cancelledAt.isSome : Prop) (.guard "cancelled registration requires cancellation time")
  | .guardianPending | .checkedIn => return

/-- The update only moves the deadline of a pending payment. -/
def extends_ (old new : Registration) : Bool :=
  old.state = .paymentPending ∧ new.state = .paymentPending ∧
    new.aggregateVersion = old.aggregateVersion + 1 ∧ new.paymentDueAt.isSome

/-- The update changes the product as a pending replacement that is not yet due says. -/
def Admissions.upgrades (a : Admissions) (now : Int) (old new : Registration) : Bool :=
  (old.state = .confirmed ∨ old.state = .checkedIn) ∧ new.state = old.state ∧
    new.aggregateVersion = old.aggregateVersion + 1 ∧ new.productId ≠ old.productId ∧
    a.replacements.rows.any fun x => x.registrationId = old.id ∧ x.status = .paymentPending ∧
      x.sourceProductId = old.productId ∧ x.targetProductId = new.productId ∧
      x.targetProductNameSnapshot = new.productNameSnapshot ∧
      x.targetPriceMinorSnapshot = new.priceMinorSnapshot ∧ now < x.paymentDueAt

/-- `maru_guard_registration_record` on an update. The columns it freezes are never written. -/
def Admissions.guardRegistration (a : Admissions) (w : Surroundings) (now : Int)
    (old new : Registration) : Except RegistrationError Unit := do
  require (w.editionOpen new.editionId : Prop) (.guard "registration records are closed for this edition")
  unless extends_ old new || a.upgrades now old new do
    require (old.state.mayBecome new.state ∧ new.aggregateVersion = old.aggregateVersion + 1)
      (.guard "invalid registration lifecycle transition")
    requireEvidence new

/-- The part of `Registration.clean` that does not compare copied scope columns. -/
def Admissions.cleanRegistration (a : Admissions) (w : Surroundings) (r : Registration) :
    Except RegistrationError Unit := do
  require (w.conventionSubject r.accountId : Prop) (.invalid "account" "platform_administrator_cannot_participate"
    "A platform administrator cannot participate in a convention.")
  require (a.products.rows.any fun p => p.id = r.productId ∧ p.configurationId = r.configurationId)
    (.invalid "__all__" "" "Registration product does not belong to its configuration.")

def Admissions.saveRegistration (a : Admissions) (w : Surroundings) (now : Int) (r : Registration) :
    Except RegistrationError Admissions := do
  a.cleanRegistration w r
  let old ← getOr (.missing "Registration") (a.registrations.get? r.id)
  a.guardRegistration w now old r
  return { a with registrations := a.registrations.save r }

def Admissions.createRegistration (a : Admissions) (w : Surroundings) (r : Registration) :
    Except RegistrationError Admissions := do
  a.cleanRegistration w r
  require (¬ a.registrations.rows.any fun x => x.editionId = r.editionId ∧ x.accountId = r.accountId)
    (.invalid "__all__" "unique_together" "one_registration_per_account_and_edition")
  require (¬ a.registrations.rows.any fun x => x.editionId = r.editionId ∧ x.reference = r.reference)
    (.invalid "__all__" "unique_together" "registration_reference_unique_within_edition")
  require (w.editionOpen r.editionId : Prop) (.guard "registration records are closed for this edition")
  require (r.aggregateVersion = 1 ∧ r.configurationId ∈ w.activeConfigurations)
    (.guard "new registration requires active version one")
  requireEvidence r
  let registrations ← getOr (.integrity "registration_registration_pkey") (a.registrations.insert? r)
  return { a with registrations := registrations }

/-! ## What hangs on a registration -/

def Admissions.appendTimeline (a : Admissions) (registrationId : Uuid) (kind : String) (occurredAt : Int)
    (actorKind : String) (actorId : Option Uuid) (correlationId : Uuid) : Admissions :=
  let latest := ((a.timeline.filter (·.registrationId = registrationId)).map TimelineEntry.sequence).foldl max 0
  { a with timeline := a.timeline ++
      [⟨registrationId, latest + 1, kind, occurredAt, actorKind, actorId, correlationId⟩] }

def Admissions.createEntitlement (a : Admissions) (e : Entitlement) : Except RegistrationError Admissions := do
  let entitlements ← getOr (.integrity "registration_entitlement_code_unique") (a.entitlements.insert? e)
  return { a with entitlements := entitlements }

def Admissions.productOf (a : Admissions) (r : Registration) : Except RegistrationError AdmissionProduct :=
  getOr (.missing "AdmissionProduct") (a.products.get? r.productId)

def Admissions.configurationOf (a : Admissions) (p : AdmissionProduct) : Except RegistrationError Configuration :=
  getOr (.missing "RegistrationConfiguration") (a.configurations.get? p.configurationId)

def Admissions.grantProductEntitlement (a : Admissions) (r : Registration) (grantedAt : Int) :
    Except RegistrationError Admissions := do
  let product ← a.productOf r
  a.createEntitlement ⟨r.id, product.entitlementCode, product.entitlementName, true, grantedAt⟩

/-- The entitlement of a registration that is confirmed. -/
def Admissions.grantIfConfirmed (a : Admissions) (r : Registration) (grantedAt : Int) :
    Except RegistrationError Admissions :=
  if r.state = .confirmed then a.grantProductEntitlement r grantedAt else return a

/-- `registration.entitlements.filter(status="active").update(status="revoked")`. -/
def Admissions.revokeEntitlements (a : Admissions) (registrationId : Uuid) : Admissions :=
  let active := a.entitlements.rows.filter fun e => e.registrationId = registrationId ∧ e.active
  { a with entitlements := a.entitlements.saveAll (fun e => { e with active := false }) active }

def paymentDeadline (c : Configuration) (p : AdmissionProduct) (startsAt : Int) : Int :=
  startsAt + minutes (p.paymentWindowMinutes.getD c.defaultPaymentWindowMinutes)

def Surroundings.requireDecision (w : Surroundings) (actorId : Uuid) (capability : Capability)
    (organizationId editionId : Uuid) : Except RegistrationError Unit :=
  require (w.decide actorId capability organizationId editionId : Prop)
    (.denied "The registration operation is unavailable.")

def requireReason (reason : String) : Except RegistrationError String := do
  let normalized := strip reason
  require (normalized ≠ "") (.invalid "reason" "reason_required" "A reason is required.")
  return normalized

/-- `Registration.objects.select_for_update().get(id, organization_id, edition_id)`. -/
def Admissions.lockRegistration (a : Admissions) (organizationId editionId registrationId : Uuid) :
    Except RegistrationError Registration :=
  getOr (.missing "Registration") (a.registrations.rows.find? fun r =>
    r.id = registrationId ∧ r.organizationId = organizationId ∧ r.editionId = editionId)

/-- `RegistrationConfiguration.objects.select_for_update().get(organization_id,
edition_id, status="active")`. -/
def Admissions.activeConfiguration (a : Admissions) (w : Surroundings)
    (organizationId editionId : Uuid) : Except RegistrationError Configuration :=
  getOr (.missing "RegistrationConfiguration") (a.configurations.rows.find? fun c =>
    c.organizationId = organizationId ∧ c.editionId = editionId ∧ c.id ∈ w.activeConfigurations)

end Maru.Registration
