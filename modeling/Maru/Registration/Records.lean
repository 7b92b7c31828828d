import Maru.Framework.Calendar
import Maru.Framework.Digits
import Maru.Framework.Table
import Maru.Framework.Text
import Maru.Framework.Uuid

/-!
# Registration records

The tables the registration commands write, the records of other owners that they read,
and the failures of the commands. Published configurations and products never change.
Scope columns that are copied from the registration are left out of the rows below it.
-/

set_option linter.dupNamespace false

namespace Maru.Registration

/-- How a registration command fails. -/
inductive RegistrationError where
  /-- `AuthorizationDenied`. -/
  | denied (message : String)
  /-- `DoesNotExist` of a model. -/
  | missing (model : String)
  /-- `ValidationError`. -/
  | invalid (field code message : String)
  /-- `IntegrityError` of the named constraint. -/
  | integrity (constraint : String)
  /-- An exception raised by a database trigger. -/
  | guard (message : String)
  /-- Text that the database cannot store. -/
  | data
  deriving DecidableEq

/-! ## Offers -/

/-- `RegistrationConfiguration`, as activated. -/
structure Configuration where
  id : Uuid
  organizationId : Uuid
  editionId : Uuid
  currency : String
  opensAt : Int
  closesAt : Int
  capacity : Nat
  capacityCeiling : Option Nat
  defaultPaymentWindowMinutes : Nat
  waitlistEnabled : Bool
  automaticWaitlistPromotion : Bool

/-- `AdmissionProduct`; `available` is its status. -/
structure AdmissionProduct where
  id : Uuid
  configurationId : Uuid
  available : Bool
  name : String
  priceMinor : Nat
  capacity : Nat
  capacityCeiling : Option Nat
  entitlementCode : String
  entitlementName : String
  salesOpenAt : Option Int
  salesCloseAt : Option Int
  requiredCapacityCodes : List String
  eligibilityExplanation : String
  waitlistEnabled : Bool
  paymentWindowMinutes : Option Nat

/-! ## Registrations -/

/-- `Registration.State`. -/
inductive State
  | guardianPending | waitlisted | paymentPending | confirmed | checkedIn | expired | cancelled
  deriving DecidableEq

/-- `state in OCCUPIED_REGISTRATION_STATES`. -/
def State.occupied : State → Bool
  | paymentPending | confirmed | checkedIn => true
  | guardianPending | waitlisted | expired | cancelled => false

/-- `Registration.ConfirmationBasis`. -/
inductive ConfirmationBasis
  | free | provider | waiver
  deriving DecidableEq

structure Registration where
  id : Uuid
  organizationId : Uuid
  editionId : Uuid
  accountId : Uuid
  configurationId : Uuid
  productId : Uuid
  reference : String
  state : State
  aggregateVersion : Nat
  productNameSnapshot : String
  priceMinorSnapshot : Nat
  currencySnapshot : String
  submittedAt : Int
  waitlistedAt : Option Int
  offeredAt : Option Int
  paymentDueAt : Option Int
  confirmedAt : Option Int
  checkedInAt : Option Int
  expiredAt : Option Int
  cancelledAt : Option Int
  confirmationBasis : Option ConfirmationBasis
  submittedBy : Option Uuid
  staffSubmissionReason : String

/-- The driver reads a stored instant back: its reading in UTC is of the years 1 to 9999. -/
def instantReadable (t : Int) : Bool := 0 ≤ t ∧ t < Calendar.maxMicros

def Registration.readable (r : Registration) : Bool :=
  [some r.submittedAt, r.waitlistedAt, r.offeredAt, r.paymentDueAt, r.confirmedAt, r.checkedInAt,
    r.expiredAt, r.cancelledAt].all (·.all instantReadable)

/-- `GuardianConsent.Status`. -/
inductive ConsentStatus
  | pending | accepted | declined | expired
  deriving DecidableEq

structure GuardianConsent where
  id : Uuid
  registrationId : Uuid
  guardianName : String
  guardianEmail : String
  relationship : String
  noticeVersion : String
  tokenDigest : String
  status : ConsentStatus
  requestedAt : Int
  expiresAt : Int
  decidedAt : Option Int
  guardianNameAtDecision : String

/-- `Entitlement`; a registration has a code once. -/
structure Entitlement where
  registrationId : Uuid
  code : String
  labelSnapshot : String
  active : Bool
  grantedAt : Int

/-- `RegistrationTimelineEntry`, without its texts for readers. -/
structure TimelineEntry where
  registrationId : Uuid
  sequence : Nat
  kind : String
  occurredAt : Int
  actorKind : String
  actorId : Option Uuid
  correlationId : Uuid

/-! ## Commerce -/

/-- `AdmissionTierReplacement.Status`. -/
inductive ReplacementStatus
  | paymentPending | completed | expired | cancelled
  deriving DecidableEq

structure AdmissionTierReplacement where
  id : Uuid
  registrationId : Uuid
  sourceProductId : Uuid
  targetProductId : Uuid
  sourceProductNameSnapshot : String
  targetProductNameSnapshot : String
  sourcePriceMinorSnapshot : Nat
  targetPriceMinorSnapshot : Nat
  amountDueMinor : Nat
  currency : String
  sourceEntitlementCode : String
  targetEntitlementCode : String
  targetEntitlementNameSnapshot : String
  status : ReplacementStatus
  aggregateVersion : Nat
  expectedRegistrationVersion : Nat
  resultingRegistrationVersion : Option Nat
  reservedAt : Int
  paymentDueAt : Int
  completedAt : Option Int
  expiredAt : Option Int
  actorId : Uuid

def AdmissionTierReplacement.readable (x : AdmissionTierReplacement) : Bool :=
  [some x.reservedAt, some x.paymentDueAt, x.completedAt, x.expiredAt].all (·.all instantReadable)

/-- `RegistrationCommerceControl`, one for each configuration. -/
structure CommerceControl where
  configurationId : Uuid
  aggregateVersion : Nat

/-- `RegistrationCommerceCommandReceipt.Operation`. -/
inductive CommerceOperation
  | tierReplacementReserved | overallCapacityAdjusted | productCapacityAdjusted | waitlistBatchOffered
  deriving DecidableEq

structure CommerceReceipt where
  configurationId : Uuid
  actorId : Uuid
  operation : CommerceOperation
  idempotencyKey : Uuid
  requestDigest : String
  expectedVersion : Nat
  resultingVersion : Nat
  resultId : Uuid
  resultCount : Nat

/-- `RegistrationCapacityAdjustment`: overall, or of one product. -/
structure CapacityAdjustment where
  id : Uuid
  configurationId : Uuid
  productId : Option Uuid
  previousCapacity : Nat
  newCapacity : Nat
  hardCeiling : Nat
  controlVersion : Nat
  actorId : Uuid
  reason : String
  occurredAt : Int

structure WaitlistBatchOffer where
  id : Uuid
  configurationId : Uuid
  productId : Uuid
  requestedSize : Nat
  offeredCount : Nat
  controlVersion : Nat
  actorId : Uuid
  reason : String
  occurredAt : Int

/-! ## Money -/

/-- `FinancialOperation.Kind`. -/
inductive OperationKind
  | cancel | refund | transfer | productChange | priceAdjustment
  deriving DecidableEq

/-- `FinancialOperation.Status`. -/
inductive OperationStatus
  | proposed | approved | providerPending | completed | rejected | failed
  deriving DecidableEq

structure FinancialOperation where
  id : Uuid
  registrationId : Uuid
  organizationId : Uuid
  editionId : Uuid
  kind : OperationKind
  status : OperationStatus
  amountMinor : Nat
  currency : String
  requestedBy : Uuid
  requestedAt : Int
  requestReason : String
  approvedBy : Option Uuid
  approvedAt : Option Int
  approvalReason : String
  completedAt : Option Int
  safeResultCode : String

/-- The kinds of `FinancialLedgerEntry` that belong to a registration. -/
inductive LedgerKind
  | payment | refund | dispute | chargeback
  deriving DecidableEq

/-- `FinancialLedgerEntry.Direction`. -/
inductive Direction
  | inflow | outflow
  deriving DecidableEq

structure LedgerEntry where
  registrationId : Uuid
  operationId : Option Uuid
  organizationId : Uuid
  providerAccountId : Uuid
  kind : LedgerKind
  direction : Direction
  amountMinor : Nat
  currency : String
  occurredAt : Int
  providerReference : String

/-! ## Payments -/

structure PaymentProviderAccount where
  id : Uuid
  organizationId : Uuid
  code : String
  enabled : Bool

/-- `PaymentIntent.Status`. -/
inductive IntentStatus
  | creating | checkoutReady | succeeded | failed | abandoned | uncertain | mismatch | late
  deriving DecidableEq

structure PaymentIntent where
  id : Uuid
  registrationId : Uuid
  tierReplacementId : Option Uuid
  organizationId : Uuid
  editionId : Uuid
  providerAccountId : Uuid
  idempotencyKey : Uuid
  amountMinor : Nat
  currency : String
  status : IntentStatus
  providerReference : String
  expiresAt : Int
  lastProviderEventAt : Option Int
  safeResultCode : String

def PaymentIntent.readable (i : PaymentIntent) : Bool :=
  instantReadable i.expiresAt ∧ i.lastProviderEventAt.all instantReadable

/-- `PaymentWebhookReceipt.Outcome`, of the receipts that are written. -/
inductive Outcome
  | applied | exception
  deriving DecidableEq

structure PaymentWebhookReceipt where
  providerAccountId : Uuid
  remoteEventId : String
  payloadDigest : String
  signatureTimestamp : Int
  receivedAt : Int
  outcome : Outcome
  safeResultCode : String
  paymentIntentId : Option Uuid

/-- `PaymentException.Kind`. -/
inductive ExceptionKind
  | providerUnavailable | unknownIntent | amountMismatch | currencyMismatch | lateSuccess | outOfOrder
  | disputeReview
  deriving DecidableEq

/-- `PaymentException`; `open_` is its status. -/
structure PaymentException where
  id : Uuid
  organizationId : Uuid
  editionId : Option Uuid
  providerAccountId : Uuid
  paymentIntentId : Option Uuid
  kind : ExceptionKind
  open_ : Bool
  safeSummary : String
  openedAt : Int
  resolvedAt : Option Int
  resolvedBy : Option Uuid
  resolutionReason : String

/-- `PaymentAttempt.Status`, of the attempts that are written. -/
inductive AttemptStatus
  | succeeded | failed
  deriving DecidableEq

structure PaymentAttempt where
  registrationId : Uuid
  provider : String
  providerReference : String
  idempotencyKey : Uuid
  amountMinor : Nat
  currency : String
  status : AttemptStatus
  occurredAt : Int
  safeResultCode : String

/-! ## Tables -/

def Entitlement.key (e : Entitlement) : Uuid × String := (e.registrationId, e.code)

def CommerceReceipt.key (r : CommerceReceipt) : Uuid × Uuid × Uuid := (r.configurationId, r.actorId, r.idempotencyKey)

def LedgerEntry.key (e : LedgerEntry) : Uuid × String × LedgerKind :=
  (e.providerAccountId, e.providerReference, e.kind)

def PaymentWebhookReceipt.key (r : PaymentWebhookReceipt) : Uuid × String := (r.providerAccountId, r.remoteEventId)

def PaymentAttempt.key (a : PaymentAttempt) : String × String := (a.provider, a.providerReference)

/-- Registrations with what they hold, and the offers they were made for. -/
structure Admissions where
  configurations : Table Configuration.id
  products : Table AdmissionProduct.id
  registrations : Table Registration.id
  consents : Table GuardianConsent.id
  entitlements : Table Entitlement.key
  timeline : List TimelineEntry
  replacements : Table AdmissionTierReplacement.id
  controls : Table CommerceControl.configurationId
  commerceReceipts : Table CommerceReceipt.key
  adjustments : Table CapacityAdjustment.id
  batches : Table WaitlistBatchOffer.id

structure Finance where
  operations : Table FinancialOperation.id
  ledger : Table LedgerEntry.key

structure Payments where
  providers : Table PaymentProviderAccount.id
  intents : Table PaymentIntent.id
  receipts : Table PaymentWebhookReceipt.key
  exceptions : Table PaymentException.id
  attempts : Table PaymentAttempt.key

structure Store where
  admissions : Admissions
  finance : Finance
  payments : Payments

/-! ## What a command reads of other owners -/

structure Account where
  id : Uuid
  isActive : Bool
  hasVerifiedEmail : Bool
  isPlatformAdministrator : Bool

structure Edition where
  id : Uuid
  organizationId : Uuid
  /-- The lifecycle is archived or cancelled. -/
  closed : Bool
  /-- The edition's adoption profile has the module. -/
  adoptsRegistration : Bool

structure ParticipationCapacity where
  accountId : Uuid
  editionId : Uuid
  code : String
  isActive : Bool

inductive Capability
  | registerSelf | registerOnBehalf | checkIn | manageExceptions | manageFinance
  deriving DecidableEq

/-- The records of other owners and the settings, as one command finds them. -/
structure Surroundings where
  accounts : List Account
  editions : List Edition
  /-- The configurations whose status is active. -/
  activeConfigurations : List Uuid
  /-- Participations, as organization, edition and account. -/
  participations : List (Uuid × Uuid × Uuid)
  capacities : List ParticipationCapacity
  /-- The message of the first registration restriction of an account in the
  organization and edition. -/
  restriction : Uuid → Uuid → Uuid → Option String
  /-- `decide` allows the capability to an account in the organization and edition. -/
  decide : Uuid → Capability → Uuid → Uuid → Bool
  demoPaymentAdapterEnabled : Bool

def Surroundings.accountIsActive (w : Surroundings) (id : Uuid) : Bool :=
  w.accounts.any fun a => a.id = id ∧ a.isActive

def Surroundings.editionOpen (w : Surroundings) (id : Uuid) : Bool :=
  w.editions.any fun e => e.id = id ∧ !e.closed

/-- `validate_convention_subject` accepts the account. -/
def Surroundings.conventionSubject (w : Surroundings) (id : Uuid) : Bool :=
  w.accounts.any fun a => a.id = id ∧ !a.isPlatformAdministrator

def Surroundings.adoptsRegistration (w : Surroundings) (id : Uuid) : Bool :=
  w.editions.any fun e => e.id = id ∧ e.adoptsRegistration

end Maru.Registration
