import Maru.Framework.Machine
import Maru.Workforce.Shift

/-!
# Positions and assignments

`workforce/assignment_commands.py`, `activate_position_assignment` of `workforce/services.py`,
and the update and closure of a Position in `workforce/structure_commands.py`, on the tables
they write. Row locks hold to the end of the transaction, so a command is one step
(`staffingMachine`). What other modules answer is in the `Surroundings` of a command.
-/

namespace Maru.Workforce.Staffing

/-! ## Failures -/

/-- The classes of `AssignmentCommandError`. -/
inductive AssignmentFailure
  | authorizationDenied | unavailable | candidateUnavailable | lifecycleConflict | stateConflict
  | authorityIntervalConflict | versionConflict | retryConflict | readinessConflict | headcountConflict
deriving DecidableEq

def AssignmentFailure.reasonCode : AssignmentFailure → String
  | .authorizationDenied => "assignment_authorization_denied"
  | .unavailable => "assignment_unavailable"
  | .candidateUnavailable => "assignment_candidate_unavailable"
  | .lifecycleConflict => "assignment_lifecycle_conflict"
  | .stateConflict => "assignment_state_conflict"
  | .authorityIntervalConflict => "assignment_authority_interval_conflict"
  | .versionConflict => "assignment_version_conflict"
  | .retryConflict => "assignment_retry_conflict"
  | .readinessConflict => "assignment_onboarding_incomplete"
  | .headcountConflict => "assignment_headcount_reached"

/-- The classes of `StructureCommandError`. -/
inductive StructureFailure
  | authorizationDenied | positionUnavailable | versionConflict | lifecycleConflict | stateConflict
  | dependencyConflict | limitConflict
deriving DecidableEq

def StructureFailure.reasonCode : StructureFailure → String
  | .authorizationDenied => "structure_authorization_denied"
  | .positionUnavailable => "structure_position_unavailable"
  | .versionConflict => "structure_version_conflict"
  | .lifecycleConflict => "structure_lifecycle_conflict"
  | .stateConflict => "structure_state_conflict"
  | .dependencyConflict => "structure_department_has_dependencies"
  | .limitConflict => "structure_limit_exceeded"

/-- How a command fails; the message is that of the class where none is given. -/
inductive StaffingError
  | assignment (failure : AssignmentFailure) (message : String := "The assignment action could not complete.")
  | structural (failure : StructureFailure) (message : String := "The structure command could not complete.")
  /-- `ValidationError`. -/
  | invalid (errors : List FieldError)
  /-- `IntegrityError` of the named constraint. -/
  | integrity (constraint : String)

def invalidField (field message code : String) : StaffingError := .invalid [⟨field, message, code⟩]

/-! ## Inputs -/

/-- NFC, whether the category of a character is `Cc`, and the SHA-256 of a canonical document. -/
structure Library where
  nfc : String → String
  isControl : Char → Bool
  fingerprint : Json → String

def maxAssignmentReasonLength : Nat := 240

def normalizeAssignmentReason (lib : Library) (value : String) : Except StaffingError String := do
  require (¬ value.toList.any lib.isControl)
    (invalidField "reason" "Control characters are not allowed." "assignment_control_character")
  let normalized := collapseSpace (lib.nfc value)
  require (normalized ≠ "")
    (invalidField "reason" "Enter a reason for this assignment decision." "assignment_reason_required")
  require (normalized.length ≤ maxAssignmentReasonLength) (invalidField "reason"
    s!"Ensure this value has at most {maxAssignmentReasonLength} characters." "assignment_reason_too_long")
  return normalized

/-- The interval's instants are aware. -/
def validateAssignmentInterval (effectiveFrom : Int) (expiresAt : Option Int) : Except StaffingError Unit :=
  require (expiresAt.all (effectiveFrom < ·))
    (invalidField "expires_at" "Ending must be after the effective time." "assignment_interval_invalid")

def nfcWithoutControlCharacters (lib : Library) (value fieldName : String) : Except StaffingError String := do
  require (¬ value.toList.any lib.isControl)
    (invalidField fieldName "Control characters are not allowed." "structure_control_character")
  return lib.nfc value

def normalizeRequiredStructureText (lib : Library) (value fieldName humanLabel : String)
    (maxLength : Nat) : Except StaffingError String := do
  let text ← nfcWithoutControlCharacters lib value fieldName
  let normalized := collapseSpace text
  require (normalized ≠ "") (invalidField fieldName s!"Enter {humanLabel}." s!"structure_{fieldName}_required")
  require (normalized.length ≤ maxLength) (invalidField fieldName
    s!"Ensure this value has at most {maxLength} characters." s!"structure_{fieldName}_too_long")
  return normalized

def normalizePositionTitle (lib : Library) (value : String) : Except StaffingError String :=
  normalizeRequiredStructureText lib value "title" "a Position title" 160

def normalizePositionDescription (lib : Library) (value : String) : Except StaffingError String :=
  normalizeRequiredStructureText lib value "description" "a Position description" 2000

def normalizeStructureReason (lib : Library) (value : String) : Except StaffingError String :=
  normalizeRequiredStructureText lib value "reason" "a reason for this structure change" 240

def validatePositionHeadcount (value : Int) : Except StaffingError Nat := do
  require (1 ≤ value ∧ value ≤ 500)
    (invalidField "headcount" "Enter a whole number from 1 through 500." "structure_headcount_invalid")
  return value.toNat

def validateExactConfirmation (value expected : String) : Except StaffingError Unit :=
  require (value = expected) (invalidField "confirmation_name"
    "Enter the exact current name to confirm this action." "structure_confirmation_mismatch")

/-- `[a-z][a-z0-9_-]*`, bounded. -/
def isSourceChannel (value : String) : Bool :=
  value.length ≤ 32 &&
    match value.toList with
    | [] => false
    | c :: cs => ('a' ≤ c && c ≤ 'z') &&
        cs.all fun c => ('a' ≤ c && c ≤ 'z') || ('0' ≤ c && c ≤ '9') || c = '_' || c = '-'

def validateSourceChannel (value code : String) : Except StaffingError Unit :=
  require (isSourceChannel value) (invalidField "source_channel" "Use a registered source channel." code)

/-! ## Records -/

structure Position where
  id : Uuid
  organizationId : Uuid
  editionId : Uuid
  departmentId : Uuid
  roleBundleId : Uuid
  reportsToId : Option Uuid
  title : String
  description : String
  headcount : Nat
  status : PositionStatus
  lastChangedInStructureVersion : Option Nat
  closedAt : Option Int
  closedBy : Option Uuid

structure PositionAssignment where
  id : Uuid
  positionId : Uuid
  organizationId : Uuid
  editionId : Uuid
  accountId : Uuid
  status : AssignmentStatus
  effectiveFrom : Int
  expiresAt : Option Int
  proposedBy : Uuid
  approvedBy : Option Uuid
  reason : String
  commandVersion : Option Nat
  decisionBy : Option Uuid
  decisionAt : Option Int
  decisionReason : String
  roleAssignmentId : Option Uuid
  endedAt : Option Int
  endedBy : Option Uuid
  endReason : String

/-- `status in (PROPOSED, ACTIVE)`. -/
def PositionAssignment.isOpen (a : PositionAssignment) : Bool := a.status = .proposed ∨ a.status = .active

/-- `PositionAssignmentCommandReceipt.Action`. -/
inductive AssignmentAction
  | proposed | approved | rejected | ended
deriving DecidableEq

def AssignmentAction.value : AssignmentAction → String
  | .proposed => "proposed"
  | .approved => "approved"
  | .rejected => "rejected"
  | .ended => "ended"

/-- `PositionAssignmentCommandReceipt`. -/
structure AssignmentReceipt where
  id : Uuid
  assignmentId : Uuid
  organizationId : Uuid
  editionId : Uuid
  positionId : Uuid
  actorId : Uuid
  action : AssignmentAction
  resultingVersion : Nat
  reason : String
  retryKey : Uuid
  requestDigest : String
  sourceChannel : String

structure EditionStructureControl where
  id : Uuid
  organizationId : Uuid
  editionId : Uuid
  aggregateVersion : Nat

/-- The tables that the commands write. -/
structure StaffingTables where
  positions : Table Position.id
  assignments : Table PositionAssignment.id
  receipts : Table AssignmentReceipt.id
  controls : Table EditionStructureControl.id

def StaffingTables.activeCount (s : StaffingTables) (positionId : Uuid) : Nat :=
  s.assignments.rows.countP fun a => a.positionId = positionId ∧ a.status = .active

/-- The open assignments of a position, in the order of their identifiers. -/
def StaffingTables.openAssignments (s : StaffingTables) (positionId : Uuid) : List PositionAssignment :=
  (s.assignments.rows.filter fun a => a.positionId = positionId ∧ a.isOpen).insertionSort fun a b => a.id ≤ b.id

/-- What `position.status` is computed to be from a number of active assignments. -/
def staffedStatus (headcount active : Nat) : PositionStatus := if headcount ≤ active then .filled else .openForWork

/-! ## Surroundings -/

inductive Capability
  | viewStructure | manageStructure | manageAssignments | manageRoles | revokeAuthority
deriving DecidableEq

def Capability.code : Capability → String
  | .viewStructure => "workforce.view_structure"
  | .manageStructure => "workforce.manage_structure"
  | .manageAssignments => "workforce.manage_assignments"
  | .manageRoles => "authorization.manage_roles"
  | .revokeAuthority => "authorization.revoke"

/-- How Authorization refuses to assign or revoke a role, or to cover an interval. -/
inductive AuthorityFailure
  | denied
  /-- `AuthorityCommandValidationError`, with its reason code. -/
  | command (reasonCode : String)
  /-- Another `ValidationError`. -/
  | invalid (message : String)

/-- The clock and the records of other owners, as one command finds them. -/
structure Surroundings where
  now : Int
  accounts : List Account
  editions : List Edition
  departments : List Department
  /-- `decide` allows the capability to an account on an edition at a time. -/
  allows : Capability → Uuid → Uuid → Uuid → Int → Bool
  /-- `known_assignment_candidates` of a position; nothing where there are too many. -/
  candidates : Uuid → Option (List Uuid)
  /-- `assignment_readiness` of an account for a position. -/
  ready : Uuid → Uuid → Bool
  /-- Every required document of a position is approved for an account. -/
  documentsApproved : Uuid → Uuid → Bool
  /-- `require_authorized_control_horizon` of an account and an interval. -/
  controlHorizon : Uuid → Int → Option Int → Except AuthorityFailure Unit
  /-- `assign_role` by an actor and an approver to a recipient of a bundle: the role assignment. -/
  assignRole : Uuid → Uuid → Uuid → Uuid → Int → Option Int → Except AuthorityFailure Uuid
  /-- `role_assignment.revoked_at is not None`. -/
  roleRevoked : Uuid → Bool
  /-- `revoke_role_assignment`. -/
  revokeRole : Uuid → Uuid → Except AuthorityFailure Unit
  /-- A draft, open or locked Shift of a position. -/
  unfinishedShiftDemands : Uuid → Bool
  /-- `_position_authority_is_open`. -/
  positionAuthorityOpen : Uuid → Bool
  /-- Receipts or bindings of an edition's structure. -/
  otherStructureContent : Uuid → Bool

/-- Who issues a command, where, and the identifiers drawn for what it creates. -/
structure Request where
  actorId : Uuid
  organizationId : Uuid
  seriesId : Uuid
  editionId : Uuid
  sourceChannel : String
  retryKey : Uuid
  newId : Uuid
  receiptId : Uuid

/-! ## The scope of an assignment command -/

structure AssignmentScope where
  edition : Edition
  actorId : Uuid
  evaluatedAt : Int

def assignableEditionLifecycles : List EditionLifecycle := [.draft, .preparing, .ready, .live]

def cleanupEditionLifecycles : List EditionLifecycle := assignableEditionLifecycles ++ [.closing]

def editableOrganizationLifecycles : List OrganizationLifecycle := [.draft, .active]

def maxOpenAssignments : Nat := 1024

def requireCapabilities (w : Surroundings) (actorId organizationId seriesId editionId : Uuid)
    (capabilities : List Capability) : Except StaffingError Unit := do
  require (w.editions.any fun e => e.id = editionId ∧
    e.organizationId = organizationId ∧ e.seriesId = seriesId) (.assignment .authorizationDenied)
  require (capabilities.all fun c => w.allows c actorId organizationId editionId w.now)
    (.assignment .authorizationDenied)

def lockAndAuthorizeScope (w : Surroundings) (r : Request) (capabilities : List Capability) :
    Except StaffingError AssignmentScope := do
  let edition ← getOr (.assignment .authorizationDenied) (w.editions.find? fun e =>
    e.id = r.editionId ∧ e.adoptsWorkforce ∧ e.organizationId = r.organizationId ∧ e.seriesId = r.seriesId)
  require (w.accounts.any fun a => a.id = r.actorId ∧ a.isActive) (.assignment .authorizationDenied)
  requireCapabilities w r.actorId edition.organizationId edition.seriesId edition.id capabilities
  return ⟨edition, r.actorId, w.now⟩

def requireLifecycle (scope : AssignmentScope) (permittedEditions : List EditionLifecycle) :
    Except StaffingError Unit :=
  require (scope.edition.lifecycle ∈ permittedEditions ∧
    scope.edition.organizationLifecycle ∈ editableOrganizationLifecycles) (.assignment .lifecycleConflict)

structure AssignmentResult where
  assignmentId : Uuid
  receiptId : Uuid
  resultingVersion : Nat
  status : AssignmentStatus
  replayed : Bool

def receiptForRetry (s : StaffingTables) (scope : AssignmentScope) (retryKey : Uuid) : Option AssignmentReceipt :=
  s.receipts.rows.find? fun r => r.organizationId = scope.edition.organizationId ∧
    r.editionId = scope.edition.id ∧ r.actorId = scope.actorId ∧ r.retryKey = retryKey

/-- The answer to a command whose retry key has a receipt. -/
def replayResult (s : StaffingTables) (receipt : AssignmentReceipt) (action : AssignmentAction)
    (requestDigest : String) : Except StaffingError AssignmentResult := do
  require (receipt.action = action ∧ receipt.requestDigest = requestDigest) (.assignment .retryConflict)
  let assignment ← getOr (.integrity "workforce_positionassignmentcommandreceipt_assignment_id_fk")
    (s.assignments.get? receipt.assignmentId)
  return ⟨assignment.id, receipt.id, receipt.resultingVersion, assignment.status, true⟩

/-- Write the receipt of an assignment's change and answer with it. -/
def createReceipt (s : StaffingTables) (r : Request) (assignment : PositionAssignment)
    (action : AssignmentAction) (resultingVersion : Nat) (reason requestDigest : String) :
    Except StaffingError (StaffingTables × AssignmentResult) := do
  let receipt : AssignmentReceipt :=
    { id := r.receiptId, assignmentId := assignment.id, organizationId := assignment.organizationId,
      editionId := assignment.editionId, positionId := assignment.positionId, actorId := r.actorId, action,
      resultingVersion, reason, retryKey := r.retryKey, requestDigest, sourceChannel := r.sourceChannel }
  require (¬ s.receipts.rows.any fun x => x.assignmentId = receipt.assignmentId ∧
    x.resultingVersion = receipt.resultingVersion) (.integrity "workforce_assignment_receipt_version_unique")
  require (¬ s.receipts.rows.any fun x => x.editionId = receipt.editionId ∧ x.actorId = receipt.actorId ∧
    x.retryKey = receipt.retryKey) (.integrity "workforce_assignment_retry_key_unique")
  let receipts ← getOr (.integrity "workforce_positionassignmentcommandreceipt_pkey") (s.receipts.insert? receipt)
  return ({ s with receipts := receipts }, ⟨assignment.id, receipt.id, resultingVersion, assignment.status, false⟩)

def lockActiveDepartmentWriteTarget (w : Surroundings) (edition : Edition) (departmentId : Uuid) :
    Except StaffingError Unit := do
  let missing := invalidField "__all__" "The workforce Department target is unavailable."
    "workforce_department_unavailable"
  let department ← getOr missing (w.departments.find? fun d => d.id = departmentId)
  require (department.organizationId = edition.organizationId ∧ department.editionId = edition.id) missing
  require (department.retiredAt = none) (invalidField "__all__"
    "A retired Department cannot receive new workforce records." "workforce_department_retired")

def lockPosition (s : StaffingTables) (w : Surroundings) (scope : AssignmentScope)
    (positionId : Uuid) : Except StaffingError Position := do
  let position ← getOr (.assignment .unavailable) (s.positions.get? positionId)
  require (position.organizationId = scope.edition.organizationId ∧
    position.editionId = scope.edition.id) (.assignment .unavailable)
  lockActiveDepartmentWriteTarget w scope.edition position.departmentId
  return position

def lockedOpenAssignments (s : StaffingTables) (position : Position) :
    Except StaffingError (List PositionAssignment) := do
  let assignments := s.openAssignments position.id
  require (assignments.length ≤ maxOpenAssignments) (.assignment .stateConflict)
  return assignments

/-- `_AUTHORITY_INTERVAL_VALIDATION_ERRORS`. -/
def authorityIntervalError (reasonCode : String) : Option FieldError :=
  if reasonCode = "authority_effective_from_too_early" then
    some ⟨"effective_from", "The assignment cannot start before current controlling authority.", reasonCode⟩
  else if reasonCode = "authority_expiry_too_early" then
    some ⟨"expires_at", "The assignment interval must fit within current controlling authority.", reasonCode⟩
  else none

def requireAssignmentAuthorityInterval (w : Surroundings) (actorId : Uuid) (effectiveFrom : Int)
    (expiresAt : Option Int) : Except StaffingError Unit :=
  match w.controlHorizon actorId effectiveFrom expiresAt with
  | .ok _ => .ok ()
  | .error (.command reasonCode) =>
    match authorityIntervalError reasonCode with
    | some error => .error (.invalid [error])
    | none => .error (.assignment .stateConflict)
  | .error .denied => .error (.assignment .authorizationDenied)
  | .error (.invalid message) => .error (invalidField "__all__" message "")

/-! ## Assignment commands -/

def commandDigest (lib : Library) (action : AssignmentAction) (payload : List (String × Json)) : String :=
  lib.fingerprint (.obj (("action", .str action.value) :: payload))

/-- The payload of a decision on an assignment. -/
def decisionPayload (r : Request) (assignmentId : Uuid) (expectedVersion : Nat) (reason : String) :
    List (String × Json) :=
  [("organization_id", .str r.organizationId.text), ("series_id", .str r.seriesId.text),
    ("edition_id", .str r.editionId.text), ("assignment_id", .str assignmentId.text),
    ("expected_version", .int expectedVersion), ("reason", .str reason)]

/-- Instants stand for their texts. -/
def proposalPayload (r : Request) (positionId accountId : Uuid) (effectiveFrom : Int)
    (expiresAt : Option Int) (reason : String) : List (String × Json) :=
  [("organization_id", .str r.organizationId.text), ("series_id", .str r.seriesId.text),
    ("edition_id", .str r.editionId.text), ("position_id", .str positionId.text), ("account_id", .str accountId.text),
    ("effective_from", .int effectiveFrom), ("expires_at", expiresAt.elim .null .int), ("reason", .str reason)]

def proposePositionAssignment (lib : Library) (s : StaffingTables) (w : Surroundings) (r : Request)
    (positionId accountId : Uuid) (effectiveFrom : Int) (expiresAt : Option Int) (reason : String) :
    Except StaffingError (StaffingTables × AssignmentResult) := do
  let reason ← normalizeAssignmentReason lib reason
  validateAssignmentInterval effectiveFrom expiresAt
  validateSourceChannel r.sourceChannel "assignment_source_channel_invalid"
  let digest := commandDigest lib .proposed (proposalPayload r positionId accountId effectiveFrom expiresAt reason)
  let capabilities := [Capability.viewStructure, .manageAssignments, .manageRoles]
  requireCapabilities w r.actorId r.organizationId r.seriesId r.editionId capabilities
  let scope ← lockAndAuthorizeScope w r capabilities
  requireLifecycle scope assignableEditionLifecycles
  match receiptForRetry s scope r.retryKey with
  | some receipt => do
    let result ← replayResult s receipt .proposed digest
    return (s, result)
  | none => do
    let position ← lockPosition s w scope positionId
    require (position.status ≠ .closed)
      (.assignment .stateConflict "A closed Position cannot receive assignments.")
    requireAssignmentAuthorityInterval w r.actorId effectiveFrom expiresAt
    let openAssignments ← lockedOpenAssignments s position
    require (openAssignments.length < position.headcount) (.assignment .headcountConflict)
    require (¬ openAssignments.any fun a => a.accountId = accountId)
      (.assignment .stateConflict "That person already has an open assignment for this Position.")
    let candidates ← getOr (.assignment .stateConflict "The candidate relationship set needs operator review.")
      (w.candidates position.id)
    require (accountId ∈ candidates) (.assignment .candidateUnavailable)
    require (w.accounts.any fun a => a.id = accountId ∧ a.isPerson ∧ a.isActive) (.assignment .candidateUnavailable)
    let assignment : PositionAssignment :=
      { id := r.newId, positionId := position.id, organizationId := scope.edition.organizationId,
        editionId := scope.edition.id, accountId, status := .proposed, effectiveFrom, expiresAt,
        proposedBy := r.actorId, approvedBy := none, reason, commandVersion := some 1, decisionBy := none,
        decisionAt := none, decisionReason := "", roleAssignmentId := none, endedAt := none, endedBy := none,
        endReason := "" }
    let assignments ← getOr (.integrity "workforce_positionassignment_pkey") (s.assignments.insert? assignment)
    createReceipt { s with assignments := assignments } r assignment .proposed 1 reason digest

def lockAssignmentForDecision (s : StaffingTables) (w : Surroundings) (scope : AssignmentScope)
    (assignmentId : Uuid) : Except StaffingError (PositionAssignment × Position) := do
  let assignment ← getOr (.assignment .unavailable) (s.assignments.get? assignmentId)
  require (assignment.organizationId = scope.edition.organizationId ∧
    assignment.editionId = scope.edition.id) (.assignment .unavailable)
  let position ← lockPosition s w scope assignment.positionId
  let _ ← lockedOpenAssignments s position
  return (assignment, position)

/-- How `activate_position_assignment` fails. -/
inductive ActivationError
  | denied
  /-- `AuthorityCommandValidationError`. -/
  | command (reasonCode : String)
  /-- Another `ValidationError`, with its code. -/
  | invalid (message code : String)

def ActivationError.ofAuthority : AuthorityFailure → ActivationError
  | .denied => .denied
  | .command reasonCode => .command reasonCode
  | .invalid message => .invalid message ""

/-- `activate_position_assignment` of a proposal, after its input checks. -/
def activatePositionAssignment (s : StaffingTables) (w : Surroundings) (edition : Edition) (positionId : Uuid)
    (proposal : PositionAssignment) (actorId approverId : Uuid) (effectiveFrom : Int) (expiresAt : Option Int)
    (reason : String) (assignmentCommandVersion : Nat) :
    Except ActivationError (StaffingTables × PositionAssignment) := do
  require (actorId ≠ approverId)
    (.invalid "A different controller must approve this assignment." "")
  let position ← getOr (.invalid "The workforce Position target is unavailable." "workforce_position_unavailable")
    (s.positions.get? positionId)
  require (w.departments.any fun d => d.id = position.departmentId ∧
    d.organizationId = edition.organizationId ∧ d.editionId = edition.id)
    (.invalid "The workforce Department target is unavailable." "workforce_department_unavailable")
  require (w.departments.any fun d => d.id = position.departmentId ∧ d.retiredAt = none)
    (.invalid "A retired Department cannot receive new workforce records." "workforce_department_retired")
  require ([actorId, approverId].all fun controller =>
    w.allows .manageAssignments controller position.organizationId position.editionId w.now) .denied
  require (position.status ≠ .closed) (.invalid "A closed position cannot receive assignments." "position_closed")
  let activeCount := s.activeCount position.id
  require (activeCount < position.headcount)
    (.invalid "This position has reached its approved headcount." "position_headcount_reached")
  let proposed ← getOr
    (.invalid "The proposed workforce assignment is unavailable." "workforce_assignment_unavailable")
    (s.assignments.get? proposal.id)
  require (proposed.positionId = position.id ∧ proposed.organizationId = edition.organizationId ∧
    proposed.editionId = edition.id ∧ proposed.accountId = proposal.accountId ∧ proposed.status = .proposed)
    (.invalid "The proposed workforce assignment is unavailable." "workforce_assignment_unavailable")
  require (proposed.effectiveFrom = effectiveFrom ∧ proposed.expiresAt = expiresAt)
    (.invalid "Approval cannot rewrite the proposal's effective interval." "assignment_interval_changed")
  require (w.documentsApproved position.id proposed.accountId)
    (.invalid "Every required onboarding document must be approved first." "assignment_documents_incomplete")
  let roleAssignmentId ← (w.assignRole actorId approverId proposed.accountId position.roleBundleId effectiveFrom
    expiresAt).mapError .ofAuthority
  let assignment : PositionAssignment :=
    { proposed with
      status := .active, effectiveFrom, expiresAt, approvedBy := some approverId, decisionBy := some approverId,
      decisionAt := some w.now, decisionReason := reason, commandVersion := some assignmentCommandVersion,
      roleAssignmentId := some roleAssignmentId }
  let position := { position with status := staffedStatus position.headcount (activeCount + 1) }
  return ({ s with assignments := s.assignments.save assignment, positions := s.positions.save position }, assignment)

/-- What an approval answers for a failed activation. -/
def ActivationError.answer : ActivationError → StaffingError
  | .denied => .assignment .authorizationDenied
  | .command reasonCode =>
    if (authorityIntervalError reasonCode).isSome then .assignment .authorityIntervalConflict
    else .assignment .stateConflict
  | .invalid _ code =>
    if code = "assignment_documents_incomplete" then .assignment .readinessConflict
    else if code = "position_headcount_reached" then .assignment .headcountConflict
    else .assignment .stateConflict

def differentController : String := "A different current controller must decide this proposal."

def validateExpectedVersion (value : Nat) : Except StaffingError Unit :=
  require (1 ≤ value) (invalidField "expected_version" "Enter an assignment version of one or greater."
    "assignment_expected_version_invalid")

def approvePositionAssignment (lib : Library) (s : StaffingTables) (w : Surroundings) (r : Request)
    (assignmentId : Uuid) (expectedVersion : Nat) (reason : String) :
    Except StaffingError (StaffingTables × AssignmentResult) := do
  validateExpectedVersion expectedVersion
  let reason ← normalizeAssignmentReason lib reason
  validateSourceChannel r.sourceChannel "assignment_source_channel_invalid"
  let digest := commandDigest lib .approved (decisionPayload r assignmentId expectedVersion reason)
  let capabilities := [Capability.viewStructure, .manageAssignments, .manageRoles]
  requireCapabilities w r.actorId r.organizationId r.seriesId r.editionId capabilities
  let scope ← lockAndAuthorizeScope w r capabilities
  requireLifecycle scope assignableEditionLifecycles
  match receiptForRetry s scope r.retryKey with
  | some receipt => do
    let result ← replayResult s receipt .approved digest
    return (s, result)
  | none => do
    let (assignment, position) ← lockAssignmentForDecision s w scope assignmentId
    require (assignment.commandVersion = some expectedVersion) (.assignment .versionConflict)
    require (assignment.status = .proposed) (.assignment .stateConflict)
    require (assignment.proposedBy ≠ r.actorId) (.assignment .authorizationDenied differentController)
    require (position.status ≠ .closed) (.assignment .stateConflict)
    require (w.ready position.id assignment.accountId) (.assignment .readinessConflict)
    let (activated, result) ← (activatePositionAssignment s w scope.edition position.id assignment
      assignment.proposedBy r.actorId assignment.effectiveFrom assignment.expiresAt reason
      (expectedVersion + 1)).mapError ActivationError.answer
    createReceipt activated r result .approved (expectedVersion + 1) reason digest

def PositionAssignment.rejected (a : PositionAssignment) (version : Nat) (actorId : Uuid)
    (now : Int) (reason : String) : PositionAssignment :=
  { a with
    status := .rejected, commandVersion := some version, decisionBy := some actorId, decisionAt := some now,
    decisionReason := reason }

def rejectPositionAssignment (lib : Library) (s : StaffingTables) (w : Surroundings) (r : Request)
    (assignmentId : Uuid) (expectedVersion : Nat) (reason : String) :
    Except StaffingError (StaffingTables × AssignmentResult) := do
  validateExpectedVersion expectedVersion
  let reason ← normalizeAssignmentReason lib reason
  validateSourceChannel r.sourceChannel "assignment_source_channel_invalid"
  let digest := commandDigest lib .rejected (decisionPayload r assignmentId expectedVersion reason)
  let capabilities := [Capability.viewStructure, .manageAssignments, .manageRoles]
  requireCapabilities w r.actorId r.organizationId r.seriesId r.editionId capabilities
  let scope ← lockAndAuthorizeScope w r capabilities
  requireLifecycle scope cleanupEditionLifecycles
  match receiptForRetry s scope r.retryKey with
  | some receipt => do
    let result ← replayResult s receipt .rejected digest
    return (s, result)
  | none => do
    let (assignment, _) ← lockAssignmentForDecision s w scope assignmentId
    require (assignment.commandVersion = some expectedVersion) (.assignment .versionConflict)
    require (assignment.status = .proposed) (.assignment .stateConflict)
    require (assignment.proposedBy ≠ r.actorId) (.assignment .authorizationDenied differentController)
    let rejected := assignment.rejected (expectedVersion + 1) r.actorId w.now reason
    createReceipt { s with assignments := s.assignments.save rejected } r rejected .rejected
      (expectedVersion + 1) reason digest

/-- What an ending answers where the role cannot be revoked. -/
def revocationError : AuthorityFailure → StaffingError
  | .denied => .assignment .authorizationDenied
  | .command reasonCode => .assignment .stateConflict reasonCode
  | .invalid message => .assignment .stateConflict message

/-- Revoke the role of an ending assignment, unless it is revoked. -/
def revokeRole (w : Surroundings) (actorId roleAssignmentId : Uuid) : Except StaffingError Unit :=
  if w.roleRevoked roleAssignmentId then .ok ()
  else (w.revokeRole actorId roleAssignmentId).mapError revocationError

def PositionAssignment.ended (a : PositionAssignment) (version : Nat) (actorId : Uuid) (now : Int)
    (reason : String) : PositionAssignment :=
  { a with
    status := .ended, commandVersion := some version, endedAt := some now, endedBy := some actorId,
    endReason := reason }

/-- Save the status recomputed after an ending, if it is another. -/
def refreshStatus (s : StaffingTables) (position : Position) : StaffingTables :=
  let next := staffedStatus position.headcount (s.activeCount position.id)
  if position.status ≠ next then { s with positions := s.positions.save { position with status := next } } else s

def endPositionAssignment (lib : Library) (s : StaffingTables) (w : Surroundings) (r : Request)
    (assignmentId : Uuid) (expectedVersion : Nat) (reason : String) :
    Except StaffingError (StaffingTables × AssignmentResult) := do
  validateExpectedVersion expectedVersion
  let reason ← normalizeAssignmentReason lib reason
  validateSourceChannel r.sourceChannel "assignment_source_channel_invalid"
  let digest := commandDigest lib .ended (decisionPayload r assignmentId expectedVersion reason)
  let capabilities := [Capability.viewStructure, .manageAssignments, .revokeAuthority]
  requireCapabilities w r.actorId r.organizationId r.seriesId r.editionId capabilities
  let scope ← lockAndAuthorizeScope w r capabilities
  requireLifecycle scope cleanupEditionLifecycles
  match receiptForRetry s scope r.retryKey with
  | some receipt => do
    let result ← replayResult s receipt .ended digest
    return (s, result)
  | none => do
    let (assignment, position) ← lockAssignmentForDecision s w scope assignmentId
    require (assignment.commandVersion = some expectedVersion) (.assignment .versionConflict)
    require (assignment.status = .active) (.assignment .stateConflict)
    let roleAssignmentId ← getOr (.assignment .stateConflict) assignment.roleAssignmentId
    revokeRole w r.actorId roleAssignmentId
    let ended := assignment.ended (expectedVersion + 1) r.actorId w.now reason
    createReceipt (refreshStatus { s with assignments := s.assignments.save ended } position)
      r ended .ended (expectedVersion + 1) reason digest

/-! ## Structure commands -/

structure StructureScope where
  edition : Edition
  control : Option EditionStructureControl
  departments : List Department
  positions : List Position
  evaluatedAt : Int

def maxStructureDepartments : Nat := 256

def maxStructurePositions : Nat := 1024

def maxStructureDepth : Nat := 32

def editableEditionLifecycles : List EditionLifecycle := [.draft, .preparing]

def requireViewAndManage (w : Surroundings) (actorId organizationId seriesId editionId : Uuid) :
    Except StaffingError Unit := do
  require (w.editions.any fun e => e.id = editionId ∧
    e.organizationId = organizationId ∧ e.seriesId = seriesId) (.structural .authorizationDenied)
  require (w.allows .viewStructure actorId organizationId editionId w.now ∧
    w.allows .manageStructure actorId organizationId editionId w.now) (.structural .authorizationDenied)

def lockScope (s : StaffingTables) (w : Surroundings) (r : Request) : Except StaffingError StructureScope := do
  let edition ← getOr (.structural .authorizationDenied) (w.editions.find? fun e =>
    e.id = r.editionId ∧ e.organizationId = r.organizationId ∧ e.seriesId = r.seriesId)
  let control := s.controls.rows.find? fun c => c.organizationId = edition.organizationId ∧ c.editionId = edition.id
  let departments := w.departments.filter fun d =>
    d.organizationId = edition.organizationId ∧ d.editionId = edition.id
  require (departments.length ≤ maxStructureDepartments) (.structural .limitConflict)
  let positions := (s.positions.rows.filter fun p =>
    p.organizationId = edition.organizationId ∧ p.editionId = edition.id).insertionSort fun a b => a.id ≤ b.id
  require (positions.length ≤ maxStructurePositions) (.structural .limitConflict)
  require (w.accounts.any fun a => a.id = r.actorId) (.structural .authorizationDenied)
  requireViewAndManage w r.actorId edition.organizationId edition.seriesId edition.id
  return ⟨edition, control, departments, positions, w.now⟩

def requireEditableLifecycle (scope : StructureScope) : Except StaffingError Unit :=
  require (scope.edition.organizationLifecycle ∈ editableOrganizationLifecycles ∧
    scope.edition.lifecycle ∈ editableEditionLifecycles) (.structural .lifecycleConflict)

def editionHasStructureContent (s : StaffingTables) (w : Surroundings) (scope : StructureScope) : Bool :=
  !scope.departments.isEmpty || !scope.positions.isEmpty ||
    (s.assignments.rows.any fun a => a.organizationId = scope.edition.organizationId ∧ a.editionId = scope.edition.id) ||
    w.otherStructureContent scope.edition.id

def currentVersion (s : StaffingTables) (w : Surroundings) (scope : StructureScope) : Except StaffingError Nat :=
  match scope.control with
  | some control => .ok control.aggregateVersion
  | none =>
    if editionHasStructureContent s w scope then
      .error (.structural .stateConflict "A populated edition has no structure control aggregate.")
    else .ok 0

def requireExpectedVersion (s : StaffingTables) (w : Surroundings) (scope : StructureScope)
    (expectedVersion : Nat) : Except StaffingError Nat := do
  let current ← currentVersion s w scope
  require (expectedVersion = current) (.structural .versionConflict)
  return current

/-- The control of the edition, with the version that the command results in. -/
def newOrAdvancedControl (s : StaffingTables) (scope : StructureScope) (r : Request)
    (resultingVersion : Nat) : Except StaffingError StaffingTables :=
  match scope.control with
  | none => do
    let controls ← getOr (.integrity "workforce_editionstructurecontrol_pkey") (s.controls.insert?
      { id := r.newId, organizationId := scope.edition.organizationId,
        editionId := scope.edition.id, aggregateVersion := resultingVersion })
    return { s with controls := controls }
  | some control => .ok { s with controls := s.controls.save { control with aggregateVersion := resultingVersion } }

def positionById (scope : StructureScope) (positionId : Uuid) : Except StaffingError Position :=
  getOr (.structural .positionUnavailable) (scope.positions.find? fun p => p.id = positionId)

def reportingPosition (scope : StructureScope) (reportsToId : Option Uuid)
    (currentPositionId : Uuid) : Except StaffingError Unit :=
  match reportsToId with
  | none => .ok ()
  | some id => do
    require (id ≠ currentPositionId) (invalidField "reports_to_id" "A Position cannot report to itself."
      "structure_position_reports_to_self")
    let manager ← positionById scope id
    require (manager.status ≠ .closed) (invalidField "reports_to_id" "Choose a current Position in this edition."
      "structure_position_manager_closed")

/-- Up the reporting line from a position, as many steps as are left. -/
def walkReportingLine (parent : Uuid → Option (Option Uuid)) : Nat → List Uuid → Option Uuid → Except StaffingError Unit
  | _, _, none => .ok ()
  | steps, seen, some cursor =>
    if cursor ∈ seen then
      .error (invalidField "reports_to_id" "The Position reporting line cannot contain a cycle."
        "structure_position_reporting_cycle")
    else
      match parent cursor with
      | none => .error (.structural .stateConflict "The Position reporting graph is incomplete.")
      | some next =>
        match steps with
        | 0 => .error (.structural .limitConflict)
        | steps + 1 => walkReportingLine parent steps (cursor :: seen) next

/-- `parent_by_id` with the changed entry. -/
def changedParent (positions : List Position) (changedPositionId : Uuid)
    (changedReportsToId : Option Uuid) (id : Uuid) : Option (Option Uuid) :=
  (positions.find? fun p => p.id = id).map fun p => if id = changedPositionId then changedReportsToId else p.reportsToId

def validatePositionReportingGraph (positions : List Position) (changedPositionId : Uuid)
    (changedReportsToId : Option Uuid) : Except StaffingError Unit :=
  positions.forM fun p =>
    walkReportingLine (changedParent positions changedPositionId changedReportsToId) maxStructureDepth [] (some p.id)

inductive PositionField
  | description | headcount | reportsTo | title | closure
deriving DecidableEq

structure PositionResult where
  positionId : Uuid
  resultingVersion : Nat
  changedFields : List PositionField

/-- The fields of an update, normalized. -/
structure PositionValues where
  reportsToId : Option Uuid
  title : String
  description : String
  headcount : Nat

def changedFields (position : Position) (values : PositionValues) : List PositionField :=
  (if position.description ≠ values.description then [.description] else []) ++
    (if position.headcount ≠ values.headcount then [.headcount] else []) ++
    (if position.reportsToId ≠ values.reportsToId then [.reportsTo] else []) ++
    if position.title ≠ values.title then [.title] else []

def updatePosition (lib : Library) (s : StaffingTables) (w : Surroundings) (r : Request) (positionId : Uuid)
    (reportsToId : Option Uuid) (title description : String) (headcount : Int) (expectedVersion : Nat)
    (reason : String) : Except StaffingError (StaffingTables × PositionResult) := do
  let title ← normalizePositionTitle lib title
  let description ← normalizePositionDescription lib description
  let headcount ← validatePositionHeadcount headcount
  validateSourceChannel r.sourceChannel "structure_source_channel_invalid"
  let _ ← normalizeStructureReason lib reason
  requireViewAndManage w r.actorId r.organizationId r.seriesId r.editionId
  let scope ← lockScope s w r
  requireEditableLifecycle scope
  let current ← requireExpectedVersion s w scope expectedVersion
  let position ← positionById scope positionId
  require (position.status ≠ .closed) (.structural .stateConflict "A closed Position is immutable.")
  reportingPosition scope reportsToId position.id
  let openAssignments := (s.openAssignments position.id).filter fun a =>
    a.organizationId = scope.edition.organizationId ∧ a.editionId = scope.edition.id
  require (openAssignments.length ≤ headcount) (invalidField "headcount"
    "Headcount cannot be lower than current and proposed assignments." "structure_position_headcount_below_assignments")
  let values : PositionValues := ⟨reportsToId, title, description, headcount⟩
  let fields := changedFields position values
  if fields = [] then do
    require scope.control.isSome (.structural .stateConflict)
    return (s, ⟨position.id, current, []⟩)
  else do
    validatePositionReportingGraph scope.positions position.id reportsToId
    let resultingVersion := current + 1
    let s ← newOrAdvancedControl s scope r resultingVersion
    -- The status is not among the fields that are saved.
    let updated : Position :=
      { position with
        title, description, headcount, reportsToId, lastChangedInStructureVersion := some resultingVersion }
    return ({ s with positions := s.positions.save updated }, ⟨position.id, resultingVersion, fields⟩)

def closePosition (lib : Library) (s : StaffingTables) (w : Surroundings) (r : Request)
    (positionId : Uuid) (expectedVersion : Nat) (confirmationName reason : String) :
    Except StaffingError (StaffingTables × PositionResult) := do
  validateSourceChannel r.sourceChannel "structure_source_channel_invalid"
  let _ ← normalizeStructureReason lib reason
  requireViewAndManage w r.actorId r.organizationId r.seriesId r.editionId
  let scope ← lockScope s w r
  requireEditableLifecycle scope
  let current ← requireExpectedVersion s w scope expectedVersion
  let position ← positionById scope positionId
  require (position.status ≠ .closed) (.structural .stateConflict "The Position is already closed.")
  validateExactConfirmation confirmationName position.title
  require (¬ w.unfinishedShiftDemands position.id) (.structural .dependencyConflict
    "Draft, open, or locked Shifts still depend on this Position. Complete or cancel them before closing it.")
  let openAssignments := (s.openAssignments position.id).filter fun a =>
    a.organizationId = scope.edition.organizationId ∧ a.editionId = scope.edition.id
  let directReport := scope.positions.any fun p => p.reportsToId = some position.id ∧ p.status ≠ .closed
  require (¬(openAssignments ≠ [] ∨ directReport ∨ w.positionAuthorityOpen position.id)) (.structural
    .dependencyConflict "Current assignments, reports, or authority protect this Position.")
  let resultingVersion := current + 1
  let s ← newOrAdvancedControl s scope r resultingVersion
  let closed : Position :=
    { position with
      status := .closed, closedAt := some scope.evaluatedAt, closedBy := some r.actorId,
      lastChangedInStructureVersion := some resultingVersion }
  return ({ s with positions := s.positions.save closed }, ⟨position.id, resultingVersion, [.closure]⟩)

/-! ## Runs -/

inductive StaffingCommand
  | propose (positionId accountId : Uuid) (effectiveFrom : Int) (expiresAt : Option Int) (reason : String)
  | approve (assignmentId : Uuid) (expectedVersion : Nat) (reason : String)
  | reject (assignmentId : Uuid) (expectedVersion : Nat) (reason : String)
  | finish (assignmentId : Uuid) (expectedVersion : Nat) (reason : String)
  | update (positionId : Uuid) (reportsToId : Option Uuid) (title description : String)
      (headcount : Int) (expectedVersion : Nat) (reason : String)
  | close (positionId : Uuid) (expectedVersion : Nat) (confirmationName reason : String)

/-- A command, who issues it, and what it finds. -/
structure StaffingCall where
  surroundings : Surroundings
  request : Request
  command : StaffingCommand

inductive StaffingResult
  | assignment (result : AssignmentResult)
  | position (result : PositionResult)

def execStaffing (lib : Library) (s : StaffingTables) (call : StaffingCall) :
    Except StaffingError (StaffingTables × StaffingResult) :=
  let w := call.surroundings
  let r := call.request
  match call.command with
  | .propose positionId accountId effectiveFrom expiresAt reason =>
    (proposePositionAssignment lib s w r positionId accountId effectiveFrom expiresAt reason).map
      (Prod.map id .assignment)
  | .approve assignmentId expectedVersion reason =>
    (approvePositionAssignment lib s w r assignmentId expectedVersion reason).map (Prod.map id .assignment)
  | .reject assignmentId expectedVersion reason =>
    (rejectPositionAssignment lib s w r assignmentId expectedVersion reason).map (Prod.map id .assignment)
  | .finish assignmentId expectedVersion reason =>
    (endPositionAssignment lib s w r assignmentId expectedVersion reason).map (Prod.map id .assignment)
  | .update positionId reportsToId title description headcount expectedVersion reason =>
    (updatePosition lib s w r positionId reportsToId title description headcount expectedVersion reason).map
      (Prod.map id .position)
  | .close positionId expectedVersion confirmationName reason =>
    (closePosition lib s w r positionId expectedVersion confirmationName reason).map (Prod.map id .position)

def staffingMachine (lib : Library) : Machine StaffingTables StaffingCall StaffingResult StaffingError where
  exec := execStaffing lib

end Maru.Workforce.Staffing
