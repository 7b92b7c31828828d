import Maru.Framework.Table
import Maru.Workforce.ShiftInputs

/-!
# Shift records

The Shift tables the commands write, the records of other owners that they read, and the
checks a record passes before it is written (`ShiftDemand.clean`, `ShiftCommitment.clean`
and the receipts' uniqueness).
-/

namespace Maru.Workforce

open Calendar

/-! ## Demands and commitments -/

/-- `ShiftDemand.Status`; `openForClaims` is `open`. -/
inductive DemandStatus
  | draft | openForClaims | locked | completed | cancelled
  deriving DecidableEq

/-- `ShiftDemandCommandReceipt.Action`. -/
inductive DemandAction
  | created | updated | opened | locked | reopened | completed | cancelled
  deriving DecidableEq

/-- `ShiftCommitment.Status`. -/
inductive CommitmentStatus
  | claimed | confirmed | removed | completed
  deriving DecidableEq

/-- `ShiftCommitment.RemovalKind`. -/
inductive RemovalKind
  | withdrawn | organizer | cancelled
  deriving DecidableEq

/-- `ShiftCommitmentCommandReceipt.Action`. -/
inductive CommitmentAction
  | claimed | withdrawn | confirmed | removed | completed | cancelled
  deriving DecidableEq

def DemandAction.text : DemandAction → String
  | created => "created"
  | updated => "updated"
  | opened => "opened"
  | locked => "locked"
  | reopened => "reopened"
  | completed => "completed"
  | cancelled => "cancelled"

def CommitmentAction.text : CommitmentAction → String
  | claimed => "claimed"
  | withdrawn => "withdrawn"
  | confirmed => "confirmed"
  | removed => "removed"
  | completed => "completed"
  | cancelled => "cancelled"

structure ShiftDemand where
  id : Uuid
  organizationId : Uuid
  editionId : Uuid
  positionId : Uuid
  title : String
  locationLabel : String
  briefing : String
  supervisionNote : String
  startsAt : Int
  endsAt : Int
  requiredHeadcount : Nat
  breakMinutes : Nat
  minimumRestMinutes : Nat
  status : DemandStatus
  commandVersion : Int
  createdBy : Uuid
  publishedAt : Option Int
  publishedBy : Option Uuid
  lockedAt : Option Int
  lockedBy : Option Uuid
  lockedHeadcount : Option Nat
  lockReason : String
  completedAt : Option Int
  completedBy : Option Uuid
  completionReason : String
  cancelledAt : Option Int
  cancelledBy : Option Uuid
  cancellationReason : String

structure ShiftCommitment where
  id : Uuid
  demandId : Uuid
  organizationId : Uuid
  editionId : Uuid
  positionAssignmentId : Uuid
  accountId : Uuid
  status : CommitmentStatus
  startsAt : Int
  endsAt : Int
  restEndsAt : Int
  availabilityPlanId : Uuid
  availabilityVersion : Int
  commandVersion : Int
  claimedAt : Int
  confirmedAt : Option Int
  confirmedBy : Option Uuid
  confirmationReason : String
  removedAt : Option Int
  removedBy : Option Uuid
  removalKind : Option RemovalKind
  removalReason : String
  completedAt : Option Int
  completedBy : Option Uuid
  completionReason : String

/-- `status in _ACTIVE_COMMITMENT_STATES`. -/
def ShiftCommitment.active (c : ShiftCommitment) : Bool :=
  c.status = .claimed ∨ c.status = .confirmed

/-- `ShiftDemandCommandReceipt`. -/
structure DemandReceipt where
  id : Uuid
  demandId : Uuid
  organizationId : Uuid
  editionId : Uuid
  actorId : Uuid
  action : DemandAction
  resultingVersion : Int
  resultingStatus : DemandStatus
  reason : String
  retryKey : Uuid
  requestDigest : String
  correlationId : Uuid
  sourceChannel : String

/-- `ShiftCommitmentCommandReceipt`. -/
structure CommitmentReceipt where
  id : Uuid
  commitmentId : Uuid
  demandId : Uuid
  organizationId : Uuid
  editionId : Uuid
  actorId : Uuid
  action : CommitmentAction
  resultingVersion : Int
  resultingStatus : CommitmentStatus
  reason : String
  retryKey : Uuid
  requestDigest : String
  correlationId : Uuid
  sourceChannel : String

/-- The Shift tables. -/
structure Shifts where
  demands : Table ShiftDemand.id
  commitments : Table ShiftCommitment.id
  demandReceipts : Table DemandReceipt.id
  commitmentReceipts : Table CommitmentReceipt.id

/-! ## What a command reads of other owners -/

inductive EditionLifecycle
  | draft | preparing | ready | live | closing | archived | cancelled
  deriving DecidableEq

inductive OrganizationLifecycle
  | draft | active | suspended | closed
  deriving DecidableEq

/-- An edition with its organization's lifecycle and its calendar. -/
structure Edition where
  id : Uuid
  organizationId : Uuid
  seriesId : Uuid
  lifecycle : EditionLifecycle
  organizationLifecycle : OrganizationLifecycle
  startsOn : Int
  endsOn : Int
  /-- The calendar day of an instant in the edition's time zone. -/
  localDate : Int → Int
  /-- The edition's adoption profile has the module. -/
  adoptsWorkforce : Bool

structure Account where
  id : Uuid
  isPerson : Bool
  isActive : Bool

structure Department where
  id : Uuid
  organizationId : Uuid
  editionId : Uuid
  retiredAt : Option Int

inductive PositionStatus
  | planned | openForWork | filled | closed
  deriving DecidableEq

structure Position where
  id : Uuid
  organizationId : Uuid
  editionId : Uuid
  departmentId : Uuid
  status : PositionStatus

inductive AssignmentStatus
  | proposed | active | rejected | ended
  deriving DecidableEq

structure PositionAssignment where
  id : Uuid
  organizationId : Uuid
  editionId : Uuid
  positionId : Uuid
  accountId : Uuid
  status : AssignmentStatus
  effectiveFrom : Int
  expiresAt : Option Int

inductive PlanStatus
  | draft | submitted | withdrawn
  deriving DecidableEq

structure PersonAvailabilityPlan where
  id : Uuid
  organizationId : Uuid
  editionId : Uuid
  accountId : Uuid
  status : PlanStatus
  commandVersion : Int

structure PersonAvailabilityWindow where
  planId : Uuid
  createdByVersion : Int
  startsAt : Int
  endsAt : Int

/-- `PublishedPersonConflictReference`: published hosting of a person over a work interval. -/
structure PersonConflict where
  overlap : Bool
  rest : Bool

/-- The clock and the records of other owners, as one command finds them. -/
structure Surroundings where
  now : Int
  accounts : List Account
  editions : List Edition
  departments : List Department
  positions : List Position
  assignments : List PositionAssignment
  plans : List PersonAvailabilityPlan
  windows : List PersonAvailabilityWindow
  /-- `decide` allows the capability to an account on an edition at a time. -/
  viewShifts : Uuid → Uuid → Uuid → Int → Bool
  manageShifts : Uuid → Uuid → Uuid → Int → Bool
  manageSelfShifts : Uuid → Uuid → Uuid → Int → Bool
  /-- `resolve_published_person_conflict` of an account, start, end and rest end; nothing
  when the source is unavailable. -/
  publishedPersonConflict : Uuid → Int → Int → Int → Option PersonConflict

/-! ## Checks before a record is written -/

/-- Evidence of a state is complete: a time, a person and a reason that is not blank. -/
def complete (at_ : Option Int) (by_ : Option Uuid) (reason : String) : Bool :=
  at_.isSome && by_.isSome && collapseSpace reason != ""

/-- `ShiftDemand.clean`: the times, the texts and the evidence of the state. -/
def ShiftDemand.clean (d : ShiftDemand) : Bool :=
  let published := d.publishedAt.isSome && d.publishedBy.isSome
  let locked := complete d.lockedAt d.lockedBy d.lockReason && d.lockedHeadcount.isSome
  let completed := complete d.completedAt d.completedBy d.completionReason
  let cancelled := complete d.cancelledAt d.cancelledBy d.cancellationReason
  decide (d.startsAt < d.endsAt) && collapseSpace d.title != "" && collapseSpace d.locationLabel != "" &&
    collapseSpace d.briefing != "" && decide (minutes d.breakMinutes < d.endsAt - d.startsAt) &&
    decide (1 ≤ d.commandVersion) &&
    match d.status with
    | .draft => !published && !locked && !completed && !cancelled
    | .openForClaims => published && !locked && !completed && !cancelled
    | .locked => published && locked && !completed && !cancelled
    | .completed => published && locked && completed && !cancelled
    | .cancelled => cancelled && !completed

/-- `ShiftCommitment.clean`: the times, the versions and the evidence of the state. -/
def ShiftCommitment.clean (c : ShiftCommitment) : Bool :=
  let confirmed := complete c.confirmedAt c.confirmedBy c.confirmationReason
  let removed := complete c.removedAt c.removedBy c.removalReason && c.removalKind.isSome
  let completed := complete c.completedAt c.completedBy c.completionReason
  decide (c.startsAt < c.endsAt) && decide (c.endsAt ≤ c.restEndsAt) && decide (1 ≤ c.commandVersion) &&
    decide (1 ≤ c.availabilityVersion) &&
    match c.status with
    | .claimed => !confirmed && !removed && !completed
    | .confirmed => confirmed && !removed && !completed
    | .removed => removed && !completed
    | .completed => confirmed && !removed && completed

def Shifts.saveDemand (s : Shifts) (d : ShiftDemand) : Except ShiftError Shifts := do
  require d.clean (.invalid [⟨"__all__", "The Shift is inconsistent.", "invalid"⟩])
  return { s with demands := s.demands.save d }

def Shifts.saveCommitment (s : Shifts) (c : ShiftCommitment) : Except ShiftError Shifts := do
  require c.clean (.invalid [⟨"__all__", "The commitment is inconsistent.", "invalid"⟩])
  return { s with commitments := s.commitments.save c }

def Shifts.createDemand (s : Shifts) (d : ShiftDemand) : Except ShiftError Shifts := do
  require d.clean (.invalid [⟨"__all__", "The Shift is inconsistent.", "invalid"⟩])
  let demands ← getOr (.integrity "workforce_shiftdemand_pkey") (s.demands.insert? d)
  return { s with demands := demands }

def Shifts.createCommitment (s : Shifts) (c : ShiftCommitment) : Except ShiftError Shifts := do
  require c.clean (.invalid [⟨"__all__", "The commitment is inconsistent.", "invalid"⟩])
  let commitments ← getOr (.integrity "workforce_shiftcommitment_pkey") (s.commitments.insert? c)
  return { s with commitments := commitments }

end Maru.Workforce
