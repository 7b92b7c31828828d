import Maru.Framework.Json
import Maru.Registration.Lifecycle

/-!
# Governed registration commerce

Admission-tier replacements with their capacity holds, capacity adjustments and waitlist
batches. A command that is retried answers from its receipt; every other one advances the
version of the configuration's control.
-/

set_option linter.dupNamespace false

namespace Maru.Registration

/-- What the program takes from its standard library: the SHA-256 of a canonical document,
the keyed digest of a guardian token, the name-based UUID, and the random identifiers of timeline
entries, by registration and number. -/
structure Primitives where
  canonicalDigest : Json → String
  tokenDigest : String → String
  uuid5 : Uuid → String → Uuid
  entryId : Uuid → Nat → Uuid

def maxWaitlistBatchSize : Int := 100
def maxCommerceReasonLength : Nat := 500

def commerceReason (value : String) : Except RegistrationError String := do
  let normalized := strip value
  require (normalized ≠ "") (.invalid "reason" "reason_required" "A reason is required.")
  require (normalized.length ≤ maxCommerceReasonLength)
    (.invalid "reason" "reason_too_long" "Use no more than 500 characters.")
  return normalized

/-! ## Control and receipts -/

/-- The configuration's control, created at version 1 when it has none. -/
def Admissions.lockControl (a : Admissions) (c : Configuration) :
    Except RegistrationError (Admissions × CommerceControl) :=
  match a.controls.get? c.id with
  | some control => return (a, control)
  | none => do
    let control : CommerceControl := ⟨c.id, 1⟩
    let controls ← getOr (.integrity "registration_registrationcommercecontrol_configuration_id_key")
      (a.controls.insert? control)
    return ({ a with controls := controls }, control)

def Admissions.existingReceipt (a : Admissions) (control : CommerceControl) (actorId idempotencyKey : Uuid)
    (operation : CommerceOperation) (requestDigest : String) : Except RegistrationError (Option CommerceReceipt) :=
  match a.commerceReceipts.get? (control.configurationId, actorId, idempotencyKey) with
  | none => return none
  | some receipt => do
    require (receipt.operation = operation ∧ receipt.requestDigest = requestDigest)
      (.invalid "__all__" "registration_commerce_idempotency_conflict"
        "The idempotency key belongs to another commerce command.")
    return some receipt

def Admissions.advanceControl (a : Admissions) (control : CommerceControl) : Admissions × Nat :=
  let control := { control with aggregateVersion := control.aggregateVersion + 1 }
  ({ a with controls := a.controls.save control }, control.aggregateVersion)

def Admissions.createCommerceReceipt (a : Admissions) (receipt : CommerceReceipt) :
    Except RegistrationError Admissions := do
  let commerceReceipts ← getOr (.integrity "reg_commerce_command_retry_unique") (a.commerceReceipts.insert? receipt)
  return { a with commerceReceipts := commerceReceipts }

def CommerceOperation.text : CommerceOperation → String
  | tierReplacementReserved => "tier_replacement_reserved"
  | overallCapacityAdjusted => "overall_capacity_adjusted"
  | productCapacityAdjusted => "product_capacity_adjusted"
  | waitlistBatchOffered => "waitlist_batch_offered"

/-! ## Admission tiers -/

structure TierReplacementResult where
  replacement : AdmissionTierReplacement
  controlVersion : Nat
  replayed : Bool

structure TierRequest where
  organizationId : Uuid
  editionId : Uuid
  registrationId : Uuid
  targetProductId : Uuid
  actorId : Uuid
  expectedRegistrationVersion : Int
  idempotencyKey : Uuid

def newReplacement (x : TierRequest) (replacementId : Uuid) (r : Registration) (c : Configuration)
    (source target : AdmissionProduct) (reservedAt : Int) : AdmissionTierReplacement :=
  { id := replacementId, registrationId := r.id, sourceProductId := source.id, targetProductId := target.id,
    sourceProductNameSnapshot := source.name, targetProductNameSnapshot := target.name,
    sourcePriceMinorSnapshot := source.priceMinor, targetPriceMinorSnapshot := target.priceMinor,
    amountDueMinor := target.priceMinor - source.priceMinor, currency := c.currency,
    sourceEntitlementCode := source.entitlementCode, targetEntitlementCode := target.entitlementCode,
    targetEntitlementNameSnapshot := target.entitlementName, status := .paymentPending, aggregateVersion := 1,
    expectedRegistrationVersion := r.aggregateVersion, resultingRegistrationVersion := none, reservedAt,
    paymentDueAt := paymentDeadline c target reservedAt, completedAt := none, expiredAt := none,
    actorId := x.actorId }

def Admissions.createReplacement (a : Admissions) (x : AdmissionTierReplacement) :
    Except RegistrationError Admissions := do
  require (x.reservedAt < x.paymentDueAt)
    (.invalid "__all__" "" "tier_replacement_deadline_after_reservation")
  let replacements ← getOr (.integrity "registration_admissiontierreplacement_pkey") (a.replacements.insert? x)
  return { a with replacements := replacements }

/-- The checks of a reservation: the registration, its product and the product to move to. -/
def Admissions.reservable (a : Admissions) (w : Surroundings) (reservedAt : Int) (x : TierRequest)
    (c : Configuration) : Except RegistrationError (Registration × AdmissionProduct × AdmissionProduct) := do
  let r ← getOr (.missing "Registration") (a.registrations.rows.find? fun r =>
    r.id = x.registrationId ∧ r.organizationId = x.organizationId ∧ r.editionId = x.editionId ∧
      r.accountId = x.actorId ∧ r.configurationId = c.id)
  require ((r.aggregateVersion : Int) = x.expectedRegistrationVersion)
    (.invalid "__all__" "registration_version_conflict"
      "The registration changed; reload it before requesting an upgrade.")
  require ((r.state = .confirmed ∨ r.state = .checkedIn) ∧ r.confirmationBasis = some .provider)
    (.invalid "__all__" "tier_replacement_source_not_paid" "Only a provider-paid admission can be upgraded.")
  require (¬ a.replacements.rows.any fun y => y.registrationId = r.id ∧ y.status = .paymentPending)
    (.invalid "__all__" "tier_replacement_already_pending"
      "This registration already has an upgrade awaiting payment.")
  let target ← getOr (.missing "AdmissionProduct") (a.products.rows.find? fun p =>
    p.id = x.targetProductId ∧ p.configurationId = c.id ∧ p.available)
  let availability := a.assessProductAvailability w c target x.actorId reservedAt false
  require (availability.selectable ∨ availability.code = "capacity_reached")
    (.invalid "__all__" availability.code availability.explanation)
  let source ← a.productOf r
  require (target.id ≠ source.id ∧ source.priceMinor < target.priceMinor)
    (.invalid "__all__" "tier_replacement_target_not_higher"
      "Choose a currently configured higher-priced admission tier.")
  require (a.occupiedIn c.id target.id + a.pendingTargetCapacityHolds target.id reservedAt <
      a.effectiveProductCapacity target)
    (.invalid "__all__" "tier_replacement_target_full" "The requested admission tier has no available capacity.")
  return (r, source, target)

def reserveAdmissionTierReplacement (P : Primitives) (a : Admissions) (w : Surroundings)
    (reservedAt : Int) (x : TierRequest) (replacementId correlationId : Uuid) :
    Except RegistrationError (Admissions × TierReplacementResult) := do
  require (a.registrations.rows.any fun r => r.id = x.registrationId ∧ r.organizationId = x.organizationId ∧
    r.editionId = x.editionId ∧ r.accountId = x.actorId) (.denied "The registration operation is unavailable.")
  w.requireDecision x.actorId .registerSelf x.organizationId x.editionId
  require (1 ≤ x.expectedRegistrationVersion)
    (.invalid "expected_registration_version" "registration_version_invalid" "Use a positive version.")
  let digest := P.canonicalDigest (.obj
    [("operation", .str CommerceOperation.tierReplacementReserved.text),
      ("organization_id", .str x.organizationId.text), ("edition_id", .str x.editionId.text),
      ("registration_id", .str x.registrationId.text), ("target_product_id", .str x.targetProductId.text),
      ("actor_id", .str x.actorId.text), ("expected_registration_version", .int x.expectedRegistrationVersion)])
  let c ← a.activeConfiguration w x.organizationId x.editionId
  let (a, control) ← a.lockControl c
  match ← a.existingReceipt control x.actorId x.idempotencyKey .tierReplacementReserved digest with
  | some receipt => do
    let replacement ← getOr (.missing "AdmissionTierReplacement") (a.replacements.get? receipt.resultId)
    return (a, ⟨replacement, receipt.resultingVersion, true⟩)
  | none => do
    let (r, source, target) ← a.reservable w reservedAt x c
    let replacement := newReplacement x replacementId r c source target reservedAt
    let a ← a.createReplacement replacement
    let a := a.appendTimeline r.id "admission_tier_replacement_reserved" reservedAt "account"
      (some x.actorId) correlationId
    let (a, version) := a.advanceControl control
    let a ← a.createCommerceReceipt
      { configurationId := control.configurationId, actorId := x.actorId, operation := .tierReplacementReserved,
        idempotencyKey := x.idempotencyKey, requestDigest := digest, expectedVersion := control.aggregateVersion,
        resultingVersion := version, resultId := replacement.id, resultCount := 1 }
    return (a, ⟨replacement, version, false⟩)

/-- The registration on the product its replacement moves it to. -/
def Registration.moved (r : Registration) (x : AdmissionTierReplacement) : Registration :=
  { r with productId := x.targetProductId, productNameSnapshot := x.targetProductNameSnapshot,
           priceMinorSnapshot := x.targetPriceMinorSnapshot, aggregateVersion := r.aggregateVersion + 1 }

/-- Revoke the source entitlement and grant the target's, when they differ. -/
def Admissions.exchangeEntitlement (a : Admissions) (r : Registration) (x : AdmissionTierReplacement)
    (source : Entitlement) (grantedAt : Int) : Except RegistrationError Admissions :=
  if x.targetEntitlementCode ≠ source.code then
    let a := { a with entitlements := a.entitlements.save { source with active := false } }
    a.createEntitlement ⟨r.id, x.targetEntitlementCode, x.targetEntitlementNameSnapshot, true, grantedAt⟩
  else return a

def completeAdmissionTierReplacement (a : Admissions) (w : Surroundings) (now : Int)
    (replacementId correlationId : Uuid) (completedAt : Int) : Except RegistrationError Admissions := do
  let x ← getOr (.missing "AdmissionTierReplacement") (a.replacements.get? replacementId)
  require (x.status = .paymentPending) (.invalid "__all__" "tier_replacement_not_pending"
    "The admission upgrade is no longer awaiting payment.")
  require (completedAt < x.paymentDueAt) (.invalid "__all__" "tier_replacement_payment_late"
    "The admission upgrade payment arrived after its capacity hold expired.")
  let r ← getOr (.missing "Registration") (a.registrations.get? x.registrationId)
  require (r.productId = x.sourceProductId ∧ (r.state = .confirmed ∨ r.state = .checkedIn))
    (.invalid "__all__" "tier_replacement_source_changed"
      "The source admission changed before the upgrade completed.")
  require (∀ e ∈ a.entitlements.rows, e.registrationId = r.id → e.active → instantReadable e.grantedAt) .data
  let source ← getOr (.invalid "__all__" "tier_replacement_source_entitlement_missing"
    "The paid source admission entitlement is unavailable.")
    (a.entitlements.rows.find? fun e => e.registrationId = r.id ∧ e.active ∧ e.code = x.sourceEntitlementCode)
  let r := r.moved x
  let a ← a.saveRegistration w now r
  let a ← a.exchangeEntitlement r x source completedAt
  let a := { a with replacements := a.replacements.save { x with
    status := .completed, aggregateVersion := x.aggregateVersion + 1, completedAt := some completedAt
    resultingRegistrationVersion := some r.aggregateVersion } }
  return a.appendTimeline r.id "admission_tier_replacement_completed" completedAt "provider" none correlationId

/-- The transaction of `expire_admission_tier_replacements` for one candidate. -/
def expireAdmissionTierReplacement (a : Admissions) (w : Surroundings) (expiredAt : Int)
    (replacementId : Uuid) : Admissions × Bool :=
  match a.replacements.rows.find? fun x => x.id = replacementId ∧ x.status = .paymentPending ∧
      x.paymentDueAt ≤ expiredAt ∧
      (a.registrations.get? x.registrationId).any fun r => w.adoptsRegistration r.editionId with
  | none => (a, false)
  | some x =>
    let a := { a with replacements := a.replacements.save { x with
      status := .expired, aggregateVersion := x.aggregateVersion + 1, expiredAt := some expiredAt } }
    (a.appendTimeline x.registrationId "admission_tier_replacement_expired" expiredAt "workload" none x.id, true)

/-! ## Capacity adjustment -/

structure CapacityAdjustmentResult where
  adjustment : CapacityAdjustment
  controlVersion : Nat
  replayed : Bool

structure CapacityRequest where
  organizationId : Uuid
  editionId : Uuid
  actorId : Uuid
  newCapacity : Int
  reason : String
  expectedControlVersion : Int
  idempotencyKey : Uuid
  productId : Option Uuid

/-- What an adjustment starts from: the effective capacity, its ceiling and the places taken. -/
def Admissions.capacityFacts (a : Admissions) (c : Configuration) (productId : Option Uuid)
    (at_ : Int) : Except RegistrationError (Nat × Nat × Nat) :=
  match productId with
  | some id => do
    let p ← getOr (.missing "AdmissionProduct") (a.products.rows.find? fun p => p.id = id ∧ p.configurationId = c.id)
    return (a.effectiveProductCapacity p, p.ceiling,
      a.occupiedIn c.id p.id + a.pendingTargetCapacityHolds p.id at_)
  | none => return (a.effectiveConfigurationCapacity c, c.ceiling, a.configurationOccupied c.id)

def adjustRegistrationCapacity (P : Primitives) (a : Admissions) (w : Surroundings)
    (adjustedAt : Int) (x : CapacityRequest) (adjustmentId : Uuid) :
    Except RegistrationError (Admissions × CapacityAdjustmentResult) := do
  w.requireDecision x.actorId .manageExceptions x.organizationId x.editionId
  let reason ← commerceReason x.reason
  require (1 ≤ x.newCapacity)
    (.invalid "new_capacity" "registration_capacity_invalid" "Use a positive capacity.")
  let operation := if x.productId.isSome then CommerceOperation.productCapacityAdjusted else .overallCapacityAdjusted
  let digest := P.canonicalDigest (.obj
    [("operation", .str operation.text), ("organization_id", .str x.organizationId.text),
      ("edition_id", .str x.editionId.text), ("product_id", (x.productId.map fun id => Json.str id.text).getD .null),
      ("new_capacity", .int x.newCapacity), ("reason", .str reason), ("actor_id", .str x.actorId.text),
      ("expected_control_version", .int x.expectedControlVersion)])
  let c ← a.activeConfiguration w x.organizationId x.editionId
  let (a, control) ← a.lockControl c
  match ← a.existingReceipt control x.actorId x.idempotencyKey operation digest with
  | some receipt => do
    let adjustment ← getOr (.missing "RegistrationCapacityAdjustment") (a.adjustments.get? receipt.resultId)
    return (a, ⟨adjustment, receipt.resultingVersion, true⟩)
  | none => do
    require ((control.aggregateVersion : Int) = x.expectedControlVersion)
      (.invalid "__all__" "registration_commerce_version_conflict"
        "Registration commerce settings changed; reload before adjusting capacity.")
    let (previous, ceiling, occupied) ← a.capacityFacts c x.productId adjustedAt
    require (x.newCapacity ≤ ceiling) (.invalid "__all__" "registration_capacity_ceiling_exceeded"
      "The requested capacity exceeds the configured hard ceiling.")
    require ((occupied : Int) ≤ x.newCapacity) (.invalid "__all__" "registration_capacity_below_occupied"
      "Capacity cannot be reduced below current reservations and holds.")
    require (x.newCapacity ≠ previous) (.invalid "__all__" "registration_capacity_unchanged"
      "Choose a capacity different from the current effective value.")
    let (a, version) := a.advanceControl control
    let adjustment : CapacityAdjustment :=
      { id := adjustmentId, configurationId := c.id, productId := x.productId, previousCapacity := previous,
        newCapacity := x.newCapacity.toNat, hardCeiling := ceiling, controlVersion := version, actorId := x.actorId,
        reason, occurredAt := adjustedAt }
    let adjustments ← getOr (.integrity "registration_registrationcapacityadjustment_pkey")
      (a.adjustments.insert? adjustment)
    let a := { a with adjustments := adjustments }
    let a ← a.createCommerceReceipt
      { configurationId := control.configurationId, actorId := x.actorId, operation,
        idempotencyKey := x.idempotencyKey, requestDigest := digest, expectedVersion := control.aggregateVersion,
        resultingVersion := version, resultId := adjustment.id, resultCount := 1 }
    return (a, ⟨adjustment, version, false⟩)

/-! ## Waitlist batches -/

structure WaitlistBatchResult where
  batch : WaitlistBatchOffer
  offeredRegistrationIds : List Uuid
  controlVersion : Nat
  replayed : Bool

structure BatchRequest where
  organizationId : Uuid
  editionId : Uuid
  productId : Uuid
  actorId : Uuid
  batchSize : Int
  reason : String
  expectedControlVersion : Int
  idempotencyKey : Uuid

def offerWaitlistedRegistration (a : Admissions) (w : Surroundings) (r : Registration) (actorId : Uuid)
    (offeredAt : Int) (correlationId : Uuid) : Except RegistrationError Admissions := do
  let c ← getOr (.missing "RegistrationConfiguration") (a.configurations.get? r.configurationId)
  let p ← a.productOf r
  a.offerPlace w offeredAt (r.offered c p offeredAt) "account" (some actorId) correlationId

def offerEach (a : Admissions) (w : Surroundings) (actorId : Uuid) (offeredAt : Int)
    (correlationId : Uuid) : List Registration → Except RegistrationError Admissions
  | [] => return a
  | r :: rs => do
    let a ← offerWaitlistedRegistration a w r actorId offeredAt correlationId
    offerEach a w actorId offeredAt correlationId rs

/-- How many places a batch offers. -/
def Admissions.offerCount (a : Admissions) (c : Configuration) (p : AdmissionProduct)
    (batchSize : Nat) (at_ : Int) : Nat :=
  min batchSize (min (a.effectiveConfigurationCapacity c - a.configurationOccupied c.id)
    (a.effectiveProductCapacity p - a.occupiedIn c.id p.id - a.pendingTargetCapacityHolds p.id at_))

/-- `RegistrationTimelineEntry.Meta.ordering` -/
def TimelineEntry.orderKey (P : Primitives) (t : TimelineEntry) : Nat ×ₗ Uuid :=
  toLex (t.sequence, P.entryId t.registrationId t.sequence)

/-- The registrations a batch offered places to, by its idempotency key. -/
def Admissions.batchRegistrations (P : Primitives) (a : Admissions) (x : BatchRequest) (c : Configuration) : List Uuid :=
  ((a.timeline.filter fun t => t.correlationId = x.idempotencyKey ∧ t.kind = "waitlist_place_offered" ∧
    t.actorKind = "account" ∧ t.actorId = some x.actorId ∧
    (a.registrations.get? t.registrationId).any fun r => r.configurationId = c.id ∧
      r.organizationId = x.organizationId ∧ r.editionId = x.editionId).insertionSort
    (·.orderKey P ≤ ·.orderKey P)).map TimelineEntry.registrationId

def offerNextWaitlistBatch (P : Primitives) (a : Admissions) (w : Surroundings) (offeredAt : Int)
    (x : BatchRequest) (batchId : Uuid) : Except RegistrationError (Admissions × WaitlistBatchResult) := do
  w.requireDecision x.actorId .manageExceptions x.organizationId x.editionId
  let reason ← commerceReason x.reason
  require (1 ≤ x.batchSize ∧ x.batchSize ≤ maxWaitlistBatchSize)
    (.invalid "batch_size" "waitlist_batch_size_invalid" s!"Choose 1 through {maxWaitlistBatchSize}.")
  let digest := P.canonicalDigest (.obj
    [("operation", .str CommerceOperation.waitlistBatchOffered.text), ("organization_id", .str x.organizationId.text),
      ("edition_id", .str x.editionId.text), ("product_id", .str x.productId.text), ("batch_size", .int x.batchSize),
      ("reason", .str reason), ("actor_id", .str x.actorId.text),
      ("expected_control_version", .int x.expectedControlVersion)])
  let c ← a.activeConfiguration w x.organizationId x.editionId
  let p ← getOr (.missing "AdmissionProduct") (a.products.rows.find? fun p =>
    p.id = x.productId ∧ p.configurationId = c.id)
  let (a, control) ← a.lockControl c
  match ← a.existingReceipt control x.actorId x.idempotencyKey .waitlistBatchOffered digest with
  | some receipt => do
    let batch ← getOr (.missing "WaitlistBatchOffer") (a.batches.rows.find? fun b =>
      b.id = receipt.resultId ∧ b.configurationId = c.id ∧ b.productId = p.id)
    return (a, ⟨batch, a.batchRegistrations P x c, receipt.resultingVersion, true⟩)
  | none => do
    require ((control.aggregateVersion : Int) = x.expectedControlVersion)
      (.invalid "__all__" "registration_commerce_version_conflict"
        "Registration commerce settings changed; reload the waitlist.")
    require (c.waitlistEnabled ∧ p.waitlistEnabled ∧ ¬ offersClosed c p offeredAt)
      (.invalid "__all__" "waitlist_offers_closed" "This product's waitlist is not open for offers.")
    let registrations := (a.waitlist w p.id).take (a.offerCount c p x.batchSize.toNat offeredAt)
    let a ← offerEach a w x.actorId offeredAt x.idempotencyKey registrations
    let (a, version) := a.advanceControl control
    let batch : WaitlistBatchOffer :=
      { id := batchId, configurationId := c.id, productId := p.id, requestedSize := x.batchSize.toNat,
        offeredCount := registrations.length, controlVersion := version, actorId := x.actorId, reason,
        occurredAt := offeredAt }
    let batches ← getOr (.integrity "registration_waitlistbatchoffer_pkey") (a.batches.insert? batch)
    let a := { a with batches := batches }
    let a ← a.createCommerceReceipt
      { configurationId := control.configurationId, actorId := x.actorId, operation := .waitlistBatchOffered,
        idempotencyKey := x.idempotencyKey, requestDigest := digest, expectedVersion := control.aggregateVersion,
        resultingVersion := version, resultId := batch.id, resultCount := registrations.length }
    return (a, ⟨batch, registrations.map Registration.id, version, false⟩)

end Maru.Registration
