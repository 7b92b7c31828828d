import Mathlib.Data.List.Sort
import Mathlib.Data.List.Dedup
import Maru.Framework.Machine
import Maru.Workforce.Shift

/-!
# Shift commands

The commands on Shift demands and commitments. A command validates its input, authorizes
its actor and locks its scope, answers a retry from its receipt, and otherwise checks the
demand and the commitments it is about and writes them with a receipt. Row locks hold to
the end of the transaction, so a command is one step on the tables (`shiftMachine`).
-/

namespace Maru.Workforce

open Calendar

/-! ## Scope -/

/-- Who issues a command, where, and the identifiers it may use for what it creates. -/
structure Request where
  actorId : Uuid
  organizationId : Uuid
  seriesId : Uuid
  editionId : Uuid
  retryKey : Uuid
  correlationId : Uuid
  sourceChannel : String
  /-- Identifiers drawn for the record, its receipt, and the receipt of each commitment. -/
  newId : Uuid
  receiptId : Uuid
  childReceiptId : Uuid → Uuid

structure Scope where
  edition : Edition
  actorId : Uuid
  evaluatedAt : Int

def planningEditionLifecycles : List EditionLifecycle := [.draft, .preparing, .ready, .live]

def cleanupEditionLifecycles : List EditionLifecycle := planningEditionLifecycles ++ [.closing]

def editableOrganizationLifecycles : List OrganizationLifecycle := [.draft, .active]

def maxShiftCommitments : Nat := 1024

def maxPersonReferenceBatch : Nat := 2000

def editionSeriesId (w : Surroundings) (organizationId editionId : Uuid) : Except ShiftError Uuid := do
  let edition ← getOr (.authorizationDenied "")
    (w.editions.find? fun e => e.id = editionId ∧ e.organizationId = organizationId)
  return edition.seriesId

def requireOrganizerDecision (w : Surroundings) (actorId organizationId editionId : Uuid) :
    Except ShiftError Unit := do
  require (w.editions.any fun e => e.id = editionId ∧ e.organizationId = organizationId)
    (.authorizationDenied "")
  require (w.accounts.any fun a => a.id = actorId ∧ a.isActive) (.authorizationDenied "")
  require (w.viewShifts actorId organizationId editionId w.now) (.authorizationDenied "")
  require (w.manageShifts actorId organizationId editionId w.now) (.authorizationDenied "")

def requireSelfDecision (w : Surroundings) (actorId organizationId editionId : Uuid) :
    Except ShiftError Unit := do
  require (w.editions.any fun e => e.id = editionId ∧ e.organizationId = organizationId)
    (.authorizationDenied "")
  require (w.accounts.any fun a => a.id = actorId ∧ a.isPerson ∧ a.isActive) (.authorizationDenied "")
  require (w.manageSelfShifts actorId organizationId editionId w.now) (.authorizationDenied "")

def lockWorkforceEditionWriteScope (w : Surroundings) (organizationId seriesId editionId : Uuid) :
    Except ShiftError Edition :=
  getOr (.authorizationDenied "") (w.editions.find? fun e =>
    e.id = editionId ∧ e.adoptsWorkforce ∧ e.organizationId = organizationId ∧ e.seriesId = seriesId)

/-- The demand the locked people belong to: the given one, or the one of the given commitment. -/
def affectedDemand (s : Shifts) (organizationId editionId actorId : Uuid)
    (demandId commitmentId : Option Uuid) (selfOnly : Bool) : Except ShiftError (Option Uuid) :=
  match commitmentId with
  | none => return demandId
  | some id => do
    let selected ← getOr .unavailable (s.commitments.rows.find? fun c =>
      c.id = id ∧ c.organizationId = organizationId ∧ c.editionId = editionId)
    require (¬(selfOnly ∧ selected.accountId ≠ actorId)) (.authorizationDenied "")
    return some selected.demandId

/-- The people with an active commitment on a demand. -/
def activeAccounts (s : Shifts) (organizationId editionId demandId : Uuid) : List Uuid :=
  ((s.commitments.rows.filter fun c => c.demandId = demandId ∧ c.organizationId = organizationId ∧
    c.editionId = editionId ∧ c.active).map ShiftCommitment.accountId).dedup

def lockShiftPeople (s : Shifts) (w : Surroundings) (organizationId editionId actorId : Uuid)
    (demandId commitmentId : Option Uuid) (selfOnly : Bool) : Except ShiftError Unit := do
  let demandId ← affectedDemand s organizationId editionId actorId demandId commitmentId selfOnly
  require (demandId.all fun id => s.demands.rows.any fun d =>
    d.id = id ∧ d.organizationId = organizationId ∧ d.editionId = editionId) .unavailable
  let accounts := (demandId.map (activeAccounts s organizationId editionId)).getD []
  require (accounts.length ≤ maxShiftCommitments) (.stateConflict "")
  let complete := (actorId :: accounts).dedup
  require (complete.length ≤ maxPersonReferenceBatch ∧
    complete.all fun id => w.accounts.any fun a => a.id = id) .unavailable

def lockOrganizerScope (s : Shifts) (w : Surroundings) (r : Request)
    (demandId commitmentId : Option Uuid) : Except ShiftError Scope := do
  let edition ← lockWorkforceEditionWriteScope w r.organizationId r.seriesId r.editionId
  lockShiftPeople s w edition.organizationId edition.id r.actorId demandId commitmentId false
  requireOrganizerDecision w r.actorId edition.organizationId edition.id
  return ⟨edition, r.actorId, w.now⟩

def lockSelfScope (s : Shifts) (w : Surroundings) (r : Request)
    (demandId commitmentId : Option Uuid) : Except ShiftError Scope := do
  let seriesId ← editionSeriesId w r.organizationId r.editionId
  let edition ← lockWorkforceEditionWriteScope w r.organizationId seriesId r.editionId
  lockShiftPeople s w edition.organizationId edition.id r.actorId demandId commitmentId true
  requireSelfDecision w r.actorId edition.organizationId edition.id
  return ⟨edition, r.actorId, w.now⟩

def requireLifecycle (scope : Scope) (permittedEditions : List EditionLifecycle) : Except ShiftError Unit :=
  require (scope.edition.lifecycle ∈ permittedEditions ∧
    scope.edition.organizationLifecycle ∈ editableOrganizationLifecycles) .lifecycleConflict

def lockActiveDepartmentWriteTarget (w : Surroundings) (scope : Scope) (departmentId : Uuid) :
    Except ShiftError Unit := do
  let missing : ShiftError := .invalid
    [⟨"__all__", "The workforce Department target is unavailable.", "workforce_department_unavailable"⟩]
  let department ← getOr missing (w.departments.find? fun d => d.id = departmentId)
  require (department.organizationId = scope.edition.organizationId ∧
    department.editionId = scope.edition.id) missing
  require (department.retiredAt = none) (.invalid
    [⟨"__all__", "A retired Department cannot receive new workforce records.", "workforce_department_retired"⟩])

def lockPosition (w : Surroundings) (scope : Scope) (positionId : Uuid) : Except ShiftError Position := do
  let position ← getOr .unavailable (w.positions.find? fun p =>
    p.id = positionId ∧ p.organizationId = scope.edition.organizationId ∧ p.editionId = scope.edition.id)
  lockActiveDepartmentWriteTarget w scope position.departmentId
  require (position.status ≠ .closed) (.stateConflict "")
  return position

def lockDemand (s : Shifts) (w : Surroundings) (scope : Scope) (demandId : Uuid) :
    Except ShiftError ShiftDemand := do
  let demand ← getOr .unavailable (s.demands.get? demandId)
  require (demand.organizationId = scope.edition.organizationId ∧ demand.editionId = scope.edition.id) .unavailable
  let position ← getOr .unavailable (w.positions.find? fun p => p.id = demand.positionId)
  lockActiveDepartmentWriteTarget w scope position.departmentId
  return demand

/-! ## Receipts -/

structure DemandResult where
  demandId : Uuid
  receiptId : Uuid
  resultingVersion : Int
  status : DemandStatus
  replayed : Bool

structure CommitmentResult where
  commitmentId : Uuid
  demandId : Uuid
  receiptId : Uuid
  resultingVersion : Int
  status : CommitmentStatus
  replayed : Bool

def demandReceiptForRetry (s : Shifts) (scope : Scope) (retryKey : Uuid) : Option DemandReceipt :=
  s.demandReceipts.rows.find? fun r => r.organizationId = scope.edition.organizationId ∧
    r.editionId = scope.edition.id ∧ r.actorId = scope.actorId ∧ r.retryKey = retryKey

def commitmentReceiptForRetry (s : Shifts) (scope : Scope) (retryKey : Uuid) : Option CommitmentReceipt :=
  s.commitmentReceipts.rows.find? fun r => r.organizationId = scope.edition.organizationId ∧
    r.editionId = scope.edition.id ∧ r.actorId = scope.actorId ∧ r.retryKey = retryKey

def demandResult (receipt : DemandReceipt) (replayed : Bool) : DemandResult :=
  ⟨receipt.demandId, receipt.id, receipt.resultingVersion, receipt.resultingStatus, replayed⟩

def commitmentResult (receipt : CommitmentReceipt) (replayed : Bool) : CommitmentResult :=
  ⟨receipt.commitmentId, receipt.demandId, receipt.id, receipt.resultingVersion,
    receipt.resultingStatus, replayed⟩

/-- Write the receipt of a demand's change and answer with it. -/
def recordDemandChange (s : Shifts) (scope : Scope) (r : Request) (demand : ShiftDemand) (action : DemandAction)
    (reason requestDigest : String) : Except ShiftError (Shifts × DemandResult) := do
  let receipt : DemandReceipt :=
    { id := r.receiptId, demandId := demand.id, organizationId := scope.edition.organizationId,
      editionId := scope.edition.id, actorId := scope.actorId, action, resultingVersion := demand.commandVersion,
      resultingStatus := demand.status, reason, retryKey := r.retryKey, requestDigest,
      correlationId := r.correlationId, sourceChannel := r.sourceChannel }
  require (¬ s.demandReceipts.rows.any fun x =>
    x.demandId = receipt.demandId ∧ x.resultingVersion = receipt.resultingVersion)
    (.integrity "workforce_shift_demand_receipt_ver")
  require (¬ s.demandReceipts.rows.any fun x =>
    x.editionId = receipt.editionId ∧ x.actorId = receipt.actorId ∧ x.retryKey = receipt.retryKey)
    (.integrity "workforce_shift_demand_retry_unique")
  let demandReceipts ← getOr (.integrity "workforce_shiftdemandcommandreceipt_pkey")
    (s.demandReceipts.insert? receipt)
  return ({ s with demandReceipts := demandReceipts }, demandResult receipt false)

/-- Write the receipt of a commitment's change and answer with it. -/
def recordCommitmentChange (s : Shifts) (scope : Scope) (r : Request) (receiptId retryKey : Uuid)
    (commitment : ShiftCommitment) (action : CommitmentAction) (reason requestDigest : String) :
    Except ShiftError (Shifts × CommitmentResult) := do
  let receipt : CommitmentReceipt :=
    { id := receiptId, commitmentId := commitment.id, demandId := commitment.demandId,
      organizationId := scope.edition.organizationId, editionId := scope.edition.id, actorId := scope.actorId,
      action, resultingVersion := commitment.commandVersion, resultingStatus := commitment.status, reason, retryKey,
      requestDigest, correlationId := r.correlationId, sourceChannel := r.sourceChannel }
  require (¬ s.commitmentReceipts.rows.any fun x =>
    x.commitmentId = receipt.commitmentId ∧ x.resultingVersion = receipt.resultingVersion)
    (.integrity "workforce_shift_commit_receipt_ver")
  require (¬ s.commitmentReceipts.rows.any fun x =>
    x.editionId = receipt.editionId ∧ x.actorId = receipt.actorId ∧ x.retryKey = receipt.retryKey)
    (.integrity "workforce_shift_commit_retry_unique")
  let commitmentReceipts ← getOr (.integrity "workforce_shiftcommitmentcommandreceipt_pkey")
    (s.commitmentReceipts.insert? receipt)
  return ({ s with commitmentReceipts := commitmentReceipts }, commitmentResult receipt false)

/-! ## Suitability of a person for a demand -/

/-- The commitments of a demand, locked in the order of their identifiers. -/
def lockedCommitments (s : Shifts) (demand : ShiftDemand) : Except ShiftError (List ShiftCommitment) := do
  let commitments := (s.commitments.rows.filter fun c => c.demandId = demand.id).insertionSort fun a b => a.id ≤ b.id
  require (commitments.length ≤ maxShiftCommitments) (.stateConflict "")
  return commitments

def currentAvailability (w : Surroundings) (scope : Scope) (demand : ShiftDemand)
    (accountId : Uuid) : Except ShiftError PersonAvailabilityPlan := do
  let plan ← getOr (.availabilityConflict "") (w.plans.find? fun p =>
    p.organizationId = scope.edition.organizationId ∧ p.editionId = scope.edition.id ∧
      p.accountId = accountId ∧ p.status = .submitted)
  let covering := w.windows.filter fun x => x.planId = plan.id ∧ x.createdByVersion =
    plan.commandVersion ∧ x.startsAt ≤ demand.startsAt ∧ demand.endsAt ≤ x.endsAt
  require (covering.length = 1) (.availabilityConflict "")
  return plan

def activeAssignment (w : Surroundings) (scope : Scope) (demand : ShiftDemand) (accountId : Uuid) :
    Except ShiftError PositionAssignment :=
  match w.assignments.filter fun a => a.organizationId = scope.edition.organizationId ∧
      a.editionId = scope.edition.id ∧ a.positionId = demand.positionId ∧ a.accountId = accountId ∧
      a.status = .active ∧ a.effectiveFrom ≤ demand.startsAt ∧ a.expiresAt.all (demand.endsAt ≤ ·) with
  | [assignment] => return assignment
  | _ => throw .qualificationConflict

/-- `ends_at + timedelta(minutes=minimum_rest_minutes)`. -/
def ShiftDemand.restEndsAt (d : ShiftDemand) : Int := d.endsAt + minutes d.minimumRestMinutes

def requireNoOverlap (s : Shifts) (w : Surroundings) (accountId : Uuid) (demand : ShiftDemand)
    (excludeId : Option Uuid) : Except ShiftError Unit := do
  require (¬ s.commitments.rows.any fun c => c.accountId = accountId ∧ c.active ∧
    c.startsAt < demand.restEndsAt ∧ demand.startsAt < c.restEndsAt ∧ some c.id ≠ excludeId) .overlapConflict
  let published ← getOr .unavailable
    (w.publishedPersonConflict accountId demand.startsAt demand.endsAt demand.restEndsAt)
  require (¬(published.overlap ∨ published.rest)) .overlapConflict

/-! ## Demand commands -/

/-- The organizer's fields of a demand, as they are given. -/
structure DemandInput where
  title : String
  locationLabel : String
  briefing : String
  supervisionNote : String
  startsAt : DateTime
  endsAt : DateTime
  requiredHeadcount : Int
  breakMinutes : Int
  minimumRestMinutes : Int

/-- The organizer's fields of a demand, normalized. -/
structure DemandFields where
  title : String
  locationLabel : String
  briefing : String
  supervisionNote : String
  startsAt : Int
  endsAt : Int
  requiredHeadcount : Nat
  breakMinutes : Nat
  minimumRestMinutes : Nat

def normalizeDemandFields (scope : Scope) (i : DemandInput) : Except ShiftError DemandFields := do
  let (startsAt, endsAt) ← normalizeShiftInterval i.startsAt i.endsAt scope.edition.startsOn
    scope.edition.endsOn scope.edition.localDate
  validateShiftNumbers i.requiredHeadcount i.breakMinutes i.minimumRestMinutes startsAt endsAt
  let title ← normalizeShiftText i.title "title" maxShiftTitleLength true
  let locationLabel ← normalizeShiftText i.locationLabel "location_label" maxShiftLocationLength true
  let briefing ← normalizeShiftText i.briefing "briefing" maxShiftBriefingLength true
  let supervisionNote ← normalizeShiftText i.supervisionNote "supervision_note" maxShiftSupervisionLength false
  return ⟨title, locationLabel, briefing, supervisionNote, startsAt, endsAt,
    i.requiredHeadcount.toNat, i.breakMinutes.toNat, i.minimumRestMinutes.toNat⟩

/-- `isoformat` of an instant in UTC. -/
def isoUtc (t : Int) : String :=
  if h : t.toNat < maxMicros then (DateTime.utc t.toNat h).isoformat else ""

/-- The members of a demand command's payload that hold its fields. -/
def DemandFields.payload (f : DemandFields) : List (String × Json) :=
  [("title", .str f.title), ("location_label", .str f.locationLabel), ("briefing", .str f.briefing),
    ("supervision_note", .str f.supervisionNote), ("starts_at", .str (isoUtc f.startsAt)),
    ("ends_at", .str (isoUtc f.endsAt)), ("required_headcount", .int f.requiredHeadcount),
    ("break_minutes", .int f.breakMinutes), ("minimum_rest_minutes", .int f.minimumRestMinutes)]

def createShiftDemand (P : Primitives) (s : Shifts) (w : Surroundings) (r : Request) (positionId : Uuid)
    (input : DemandInput) (reason : String) : Except ShiftError (Shifts × DemandResult) := do
  let normalizedReason ← normalizeShiftReason reason
  validateSourceChannel r.sourceChannel
  let scope ← lockOrganizerScope s w r none none
  requireLifecycle scope planningEditionLifecycles
  let fields ← normalizeDemandFields scope input
  let requestDigest := shiftCommandDigest P "created"
    ([("organization_id", .str scope.edition.organizationId.text), ("edition_id", .str scope.edition.id.text),
      ("position_id", .str positionId.text)] ++ fields.payload ++ [("reason", .str normalizedReason)])
  match demandReceiptForRetry s scope r.retryKey with
  | some replay => do
    require (replay.action = .created ∧ replay.requestDigest = requestDigest) .retryConflict
    return (s, demandResult replay true)
  | none => do
    let position ← lockPosition w scope positionId
    let demand : ShiftDemand :=
      { id := r.newId, organizationId := scope.edition.organizationId, editionId := scope.edition.id,
        positionId := position.id, title := fields.title, locationLabel := fields.locationLabel,
        briefing := fields.briefing, supervisionNote := fields.supervisionNote, startsAt := fields.startsAt,
        endsAt := fields.endsAt, requiredHeadcount := fields.requiredHeadcount,
        breakMinutes := fields.breakMinutes, minimumRestMinutes := fields.minimumRestMinutes, status := .draft,
        commandVersion := 1, createdBy := scope.actorId, publishedAt := none, publishedBy := none,
        lockedAt := none, lockedBy := none, lockedHeadcount := none, lockReason := "", completedAt := none,
        completedBy := none, completionReason := "", cancelledAt := none, cancelledBy := none,
        cancellationReason := "" }
    let s ← s.createDemand demand
    recordDemandChange s scope r demand .created normalizedReason requestDigest

def updateShiftDemand (P : Primitives) (s : Shifts) (w : Surroundings) (r : Request)
    (demandId : Uuid) (expectedVersion : Int) (input : DemandInput) (reason : String) :
    Except ShiftError (Shifts × DemandResult) := do
  validateExpectedVersion expectedVersion
  let normalizedReason ← normalizeShiftReason reason
  validateSourceChannel r.sourceChannel
  let scope ← lockOrganizerScope s w r (some demandId) none
  requireLifecycle scope planningEditionLifecycles
  let fields ← normalizeDemandFields scope input
  let requestDigest := shiftCommandDigest P "updated"
    ([("demand_id", .str demandId.text), ("expected_version", .int expectedVersion)] ++
      fields.payload ++ [("reason", .str normalizedReason)])
  match demandReceiptForRetry s scope r.retryKey with
  | some replay => do
    require (replay.action = .updated ∧ replay.requestDigest = requestDigest) .retryConflict
    return (s, demandResult replay true)
  | none => do
    let demand ← lockDemand s w scope demandId
    require (demand.commandVersion = expectedVersion) .versionConflict
    require (demand.status = .draft) (.stateConflict "")
    require (¬ s.commitments.rows.any fun c => c.demandId = demand.id) (.stateConflict "")
    let demand' : ShiftDemand :=
      { demand with
        title := fields.title, locationLabel := fields.locationLabel, briefing := fields.briefing,
        supervisionNote := fields.supervisionNote, startsAt := fields.startsAt, endsAt := fields.endsAt,
        requiredHeadcount := fields.requiredHeadcount, breakMinutes := fields.breakMinutes,
        minimumRestMinutes := fields.minimumRestMinutes, commandVersion := demand.commandVersion + 1 }
    let s ← s.saveDemand demand'
    recordDemandChange s scope r demand' .updated normalizedReason requestDigest

/-- Save one commitment that a demand's completion or cancellation ends, with its own receipt. -/
def endCommitment (P : Primitives) (scope : Scope) (r : Request) (demand : ShiftDemand) (prefix_ : String)
    (action : CommitmentAction) (reason : String) (ended : ShiftCommitment → ShiftCommitment) (s : Shifts)
    (item : ShiftCommitment) : Except ShiftError Shifts := do
  let item' := ended item
  let s ← s.saveCommitment item'
  let childRetry := P.uuid5 r.retryKey (prefix_ ++ item.id.text)
  let childDigest := shiftCommandDigest P action.text
    [("commitment_id", .str item.id.text), ("demand_id", .str demand.id.text), ("reason", .str reason)]
  let (s, _) ← recordCommitmentChange s scope r (r.childReceiptId item.id) childRetry item' action reason childDigest
  return s

def ShiftCommitment.completedAs (scope : Scope) (reason : String) (c : ShiftCommitment) : ShiftCommitment :=
  { c with
    status := .completed, commandVersion := c.commandVersion + 1, completedAt := some scope.evaluatedAt,
    completedBy := some scope.actorId, completionReason := reason }

def ShiftCommitment.removedAs (scope : Scope) (kind : RemovalKind) (reason : String)
    (c : ShiftCommitment) : ShiftCommitment :=
  { c with
    status := .removed, commandVersion := c.commandVersion + 1, removedAt := some scope.evaluatedAt,
    removedBy := some scope.actorId, removalKind := some kind, removalReason := reason }

/-- What a confirmed commitment must still meet when coverage is locked. -/
def requireCurrentCoverage (s : Shifts) (w : Surroundings) (scope : Scope) (demand : ShiftDemand)
    (item : ShiftCommitment) : Except ShiftError Unit := do
  let _ ← activeAssignment w scope demand item.accountId
  let plan ← currentAvailability w scope demand item.accountId
  require (plan.id = item.availabilityPlanId ∧ plan.commandVersion = item.availabilityVersion)
    (.availabilityConflict "Availability changed after confirmation; review it again.")
  requireNoOverlap s w item.accountId demand (some item.id)

/-- The branches of `_transition_shift_demand`: the tables and the demand before its version
is counted up and it is saved. -/
def transition (P : Primitives) (s : Shifts) (w : Surroundings) (scope : Scope) (r : Request)
    (demand : ShiftDemand) (commitments : List ShiftCommitment) (action : DemandAction) (reason : String)
    (allowUnderstaffed : Bool) : Except ShiftError (Shifts × ShiftDemand) :=
  let active := commitments.filter (·.active)
  match action with
  | .opened => do
    require (demand.status = .draft) (.stateConflict "")
    require (scope.evaluatedAt < demand.endsAt) (.stateConflict "An ended Shift cannot be opened for claims.")
    return (s, { demand with
      status := .openForClaims, publishedAt := some scope.evaluatedAt, publishedBy := some scope.actorId })
  | .locked => do
    require (demand.status = .openForClaims) (.stateConflict "")
    require (∀ item ∈ active, item.status = .confirmed)
      (.stateConflict "Resolve every unconfirmed claim before locking coverage.")
    active.forM (requireCurrentCoverage s w scope demand)
    require (¬(active.length < demand.requiredHeadcount ∧ ¬allowUnderstaffed))
      (.capacityConflict "Coverage is below demand. Explicitly accept underfill to lock it.")
    return (s, { demand with
      status := .locked, lockedAt := some scope.evaluatedAt, lockedBy := some scope.actorId,
      lockedHeadcount := some active.length, lockReason := reason })
  | .reopened => do
    require (demand.status = .locked) (.stateConflict "")
    return (s, { demand with
      status := .openForClaims, lockedAt := none, lockedBy := none, lockedHeadcount := none, lockReason := "" })
  | .completed => do
    require (demand.status = .locked) (.stateConflict "")
    require (demand.endsAt ≤ scope.evaluatedAt) (.stateConflict "A Shift cannot complete before it ends.")
    require (∀ item ∈ active, item.status = .confirmed) (.stateConflict "")
    let s ← active.foldlM (endCommitment P scope r demand "complete:" .completed reason (·.completedAs scope reason)) s
    return (s, { demand with
      status := .completed, completedAt := some scope.evaluatedAt, completedBy := some scope.actorId,
      completionReason := reason })
  | .cancelled => do
    require (demand.status ≠ .completed ∧ demand.status ≠ .cancelled) (.stateConflict "")
    let s ← active.foldlM
      (endCommitment P scope r demand "cancel:" .cancelled reason (·.removedAs scope .cancelled reason)) s
    return (s, { demand with
      status := .cancelled, cancelledAt := some scope.evaluatedAt, cancelledBy := some scope.actorId,
      cancellationReason := reason })
  | .created | .updated => throw (.invalid [⟨"action", "Choose a supported Shift action.", "invalid"⟩])

/-- `demand.command_version += 1`. -/
def ShiftDemand.nextVersion (d : ShiftDemand) : ShiftDemand := { d with commandVersion := d.commandVersion + 1 }

/-- The edition lifecycles that permit a transition. -/
def DemandAction.permitted : DemandAction → List EditionLifecycle
  | reopened | completed | cancelled => cleanupEditionLifecycles
  | created | updated | opened | locked => planningEditionLifecycles

def transitionShiftDemand (P : Primitives) (s : Shifts) (w : Surroundings) (r : Request) (demandId : Uuid)
    (expectedVersion : Int) (action : DemandAction) (reason : String) (allowUnderstaffed : Bool) :
    Except ShiftError (Shifts × DemandResult) := do
  validateExpectedVersion expectedVersion
  let normalizedReason ← normalizeShiftReason reason
  validateSourceChannel r.sourceChannel
  let requestDigest := shiftCommandDigest P action.text
    [("demand_id", .str demandId.text), ("expected_version", .int expectedVersion),
      ("reason", .str normalizedReason), ("allow_understaffed", .bool allowUnderstaffed)]
  let scope ← lockOrganizerScope s w r (some demandId) none
  requireLifecycle scope action.permitted
  match demandReceiptForRetry s scope r.retryKey with
  | some replay => do
    require (replay.action = action ∧ replay.requestDigest = requestDigest) .retryConflict
    return (s, demandResult replay true)
  | none => do
    let demand ← lockDemand s w scope demandId
    let commitments ← lockedCommitments s demand
    require (demand.commandVersion = expectedVersion) .versionConflict
    let (s, demand') ← transition P s w scope r demand commitments action normalizedReason allowUnderstaffed
    let demand' := demand'.nextVersion
    let s ← s.saveDemand demand'
    recordDemandChange s scope r demand' action normalizedReason requestDigest

/-! ## Commitment commands -/

def selfClaimReason : String := "The person claimed this published suitable Shift."

def selfWithdrawReason : String := "The person withdrew their own open Shift commitment."

def claimShift (P : Primitives) (s : Shifts) (w : Surroundings) (r : Request) (demandId : Uuid)
    (expectedVersion : Int) : Except ShiftError (Shifts × CommitmentResult) := do
  validateExpectedVersion expectedVersion
  validateSourceChannel r.sourceChannel
  let requestDigest := shiftCommandDigest P "claimed"
    [("demand_id", .str demandId.text), ("expected_version", .int expectedVersion)]
  let scope ← lockSelfScope s w r (some demandId) none
  requireLifecycle scope planningEditionLifecycles
  match commitmentReceiptForRetry s scope r.retryKey with
  | some replay => do
    require (replay.action = .claimed ∧ replay.requestDigest = requestDigest) .retryConflict
    return (s, commitmentResult replay true)
  | none => do
    let demand ← lockDemand s w scope demandId
    require (demand.commandVersion = expectedVersion) .versionConflict
    require (demand.status = .openForClaims) (.stateConflict "")
    require (scope.evaluatedAt < demand.endsAt) (.stateConflict "An ended Shift can no longer be claimed.")
    let commitments ← lockedCommitments s demand
    let active := commitments.filter (·.active)
    require (active.length < demand.requiredHeadcount) (.capacityConflict "")
    require (¬ active.any fun item => item.accountId = scope.actorId) (.stateConflict "")
    let assignment ← activeAssignment w scope demand scope.actorId
    let plan ← currentAvailability w scope demand scope.actorId
    requireNoOverlap s w scope.actorId demand none
    let commitment : ShiftCommitment :=
      { id := r.newId, demandId := demand.id, organizationId := scope.edition.organizationId,
        editionId := scope.edition.id, positionAssignmentId := assignment.id, accountId := scope.actorId,
        status := .claimed, startsAt := demand.startsAt, endsAt := demand.endsAt, restEndsAt := demand.restEndsAt,
        availabilityPlanId := plan.id, availabilityVersion := plan.commandVersion, commandVersion := 1,
        claimedAt := scope.evaluatedAt, confirmedAt := none, confirmedBy := none, confirmationReason := "",
        removedAt := none, removedBy := none, removalKind := none, removalReason := "", completedAt := none,
        completedBy := none, completionReason := "" }
    let s ← s.createCommitment commitment
    recordCommitmentChange s scope r r.receiptId r.retryKey commitment .claimed selfClaimReason requestDigest

/-- A commitment in scope, with its demand. -/
def lockCommitment (s : Shifts) (w : Surroundings) (scope : Scope) (commitmentId : Uuid) :
    Except ShiftError (ShiftCommitment × ShiftDemand) := do
  let commitment ← getOr .unavailable (s.commitments.get? commitmentId)
  require (commitment.organizationId = scope.edition.organizationId ∧
    commitment.editionId = scope.edition.id) .unavailable
  let demand ← lockDemand s w scope commitment.demandId
  return (commitment, demand)

def withdrawShiftClaim (P : Primitives) (s : Shifts) (w : Surroundings) (r : Request) (commitmentId : Uuid)
    (expectedVersion : Int) : Except ShiftError (Shifts × CommitmentResult) := do
  validateExpectedVersion expectedVersion
  validateSourceChannel r.sourceChannel
  let requestDigest := shiftCommandDigest P "withdrawn"
    [("commitment_id", .str commitmentId.text), ("expected_version", .int expectedVersion)]
  let scope ← lockSelfScope s w r none (some commitmentId)
  requireLifecycle scope cleanupEditionLifecycles
  match commitmentReceiptForRetry s scope r.retryKey with
  | some replay => do
    require (replay.action = .withdrawn ∧ replay.requestDigest = requestDigest) .retryConflict
    return (s, commitmentResult replay true)
  | none => do
    let (commitment, demand) ← lockCommitment s w scope commitmentId
    require (commitment.accountId = scope.actorId) (.authorizationDenied "")
    require (commitment.commandVersion = expectedVersion) .versionConflict
    require (demand.status = .openForClaims ∧ commitment.active) (.stateConflict "")
    let commitment := commitment.removedAs scope .withdrawn selfWithdrawReason
    let s ← s.saveCommitment commitment
    recordCommitmentChange s scope r r.receiptId r.retryKey commitment .withdrawn selfWithdrawReason requestDigest

/-- The two organizer actions on a commitment of an open demand. -/
def organizerChange (s : Shifts) (w : Surroundings) (scope : Scope) (commitment : ShiftCommitment)
    (demand : ShiftDemand) (action : CommitmentAction) (reason : String) : Except ShiftError ShiftCommitment :=
  match action with
  | .confirmed => do
    require (commitment.status = .claimed ∨ commitment.status = .confirmed) (.stateConflict "")
    require (commitment.accountId ≠ scope.actorId)
      (.authorizationDenied "A person cannot confirm their own Shift claim.")
    let _ ← activeAssignment w scope demand commitment.accountId
    let plan ← currentAvailability w scope demand commitment.accountId
    requireNoOverlap s w commitment.accountId demand (some commitment.id)
    return { commitment with
      status := .confirmed, commandVersion := commitment.commandVersion + 1, availabilityPlanId := plan.id,
      availabilityVersion := plan.commandVersion, confirmedAt := some scope.evaluatedAt,
      confirmedBy := some scope.actorId, confirmationReason := reason }
  | .removed => do
    require commitment.active (.stateConflict "")
    return commitment.removedAs scope .organizer reason
  | .claimed | .withdrawn | .completed | .cancelled =>
    throw (.invalid [⟨"action", "Choose a supported commitment action.", "invalid"⟩])

def organizerCommitmentChange (P : Primitives) (s : Shifts) (w : Surroundings) (r : Request)
    (commitmentId : Uuid) (expectedVersion : Int) (action : CommitmentAction) (reason : String) :
    Except ShiftError (Shifts × CommitmentResult) := do
  validateExpectedVersion expectedVersion
  let normalizedReason ← normalizeShiftReason reason
  validateSourceChannel r.sourceChannel
  let requestDigest := shiftCommandDigest P action.text
    [("commitment_id", .str commitmentId.text), ("expected_version", .int expectedVersion),
      ("reason", .str normalizedReason)]
  let scope ← lockOrganizerScope s w r none (some commitmentId)
  requireLifecycle scope cleanupEditionLifecycles
  match commitmentReceiptForRetry s scope r.retryKey with
  | some replay => do
    require (replay.action = action ∧ replay.requestDigest = requestDigest) .retryConflict
    return (s, commitmentResult replay true)
  | none => do
    let (commitment, demand) ← lockCommitment s w scope commitmentId
    require (commitment.commandVersion = expectedVersion) .versionConflict
    require (demand.status = .openForClaims) (.stateConflict "")
    let commitment ← organizerChange s w scope commitment demand action normalizedReason
    let s ← s.saveCommitment commitment
    recordCommitmentChange s scope r r.receiptId r.retryKey commitment action normalizedReason requestDigest

/-! ## The machine -/

inductive ShiftCommand
  | create (positionId : Uuid) (input : DemandInput) (reason : String)
  | update (demandId : Uuid) (expectedVersion : Int) (input : DemandInput) (reason : String)
  /-- `open_`, `lock_`, `reopen_`, `complete_` and `cancel_shift_demand`. -/
  | transition (action : DemandAction) (demandId : Uuid) (expectedVersion : Int) (reason : String)
      (allowUnderstaffed : Bool)
  | claim (demandId : Uuid) (expectedVersion : Int)
  | withdraw (commitmentId : Uuid) (expectedVersion : Int)
  /-- `confirm_shift_commitment` and `remove_shift_commitment`. -/
  | organizer (action : CommitmentAction) (commitmentId : Uuid) (expectedVersion : Int) (reason : String)

inductive ShiftResult
  | demand (result : DemandResult)
  | commitment (result : CommitmentResult)

/-- One issued command: by whom, and in what surroundings it runs. -/
structure ShiftCall where
  surroundings : Surroundings
  request : Request
  command : ShiftCommand

def execShift (P : Primitives) (s : Shifts) (call : ShiftCall) : Except ShiftError (Shifts × ShiftResult) :=
  let w := call.surroundings
  let r := call.request
  match call.command with
  | .create positionId input reason => do
    let (s, result) ← createShiftDemand P s w r positionId input reason
    return (s, .demand result)
  | .update demandId expectedVersion input reason => do
    let (s, result) ← updateShiftDemand P s w r demandId expectedVersion input reason
    return (s, .demand result)
  | .transition action demandId expectedVersion reason allowUnderstaffed => do
    let (s, result) ← transitionShiftDemand P s w r demandId expectedVersion action reason allowUnderstaffed
    return (s, .demand result)
  | .claim demandId expectedVersion => do
    let (s, result) ← claimShift P s w r demandId expectedVersion
    return (s, .commitment result)
  | .withdraw commitmentId expectedVersion => do
    let (s, result) ← withdrawShiftClaim P s w r commitmentId expectedVersion
    return (s, .commitment result)
  | .organizer action commitmentId expectedVersion reason => do
    let (s, result) ← organizerCommitmentChange P s w r commitmentId expectedVersion action reason
    return (s, .commitment result)

def shiftMachine (P : Primitives) : Machine Shifts ShiftCall ShiftResult ShiftError := ⟨execShift P⟩

end Maru.Workforce
