import Maru.Framework.Machine
import Maru.Framework.TableErase
import Maru.Workforce.StructureInputs

/-!
# The Department tree of an edition

The template and Department commands of `workforce/structure_commands.py` on the tables they
write, and of a Position command what it writes of the structure. Row locks hold to the end
of the transaction, so a command is one step (`structureMachine`). What other modules answer
is in the `Surroundings` of a command.
-/

namespace Maru.Workforce.Structure

open Staffing (editableEditionLifecycles maxStructureDepartments maxStructurePositions
  maxStructureDepth)

/-! ## Records -/

structure Department where
  id : Uuid
  organizationId : Uuid
  editionId : Uuid
  parentId : Option Uuid
  code : String
  name : String
  description : String
  displayOrder : Nat
  createdInStructureVersion : Option Nat
  lastChangedInStructureVersion : Option Nat
  retiredAt : Option Int
  retiredBy : Option Uuid
  retiredInStructureVersion : Option Nat

/-- `EditionStructureControl.Origin`. -/
inductive Origin
  | legacyExisting | manual | builtinTemplate
deriving DecidableEq

structure EditionStructureControl where
  id : Uuid
  organizationId : Uuid
  editionId : Uuid
  origin : Origin
  aggregateVersion : Nat

/-- `EditionStructureCommandReceipt.Action`. -/
inductive Action
  | templateApplied | departmentCreated | departmentUpdated | departmentRetired | departmentDeleted | positionCreated
  | positionUpdated | positionClosed | opportunityUpdated
deriving DecidableEq

def Action.value : Action → String
  | .templateApplied => "template_applied"
  | .departmentCreated => "department_created"
  | .departmentUpdated => "department_updated"
  | .departmentRetired => "department_retired"
  | .departmentDeleted => "department_deleted"
  | .positionCreated => "position_created"
  | .positionUpdated => "position_updated"
  | .positionClosed => "position_closed"
  | .opportunityUpdated => "opportunity_updated"

/-- What a command says of its change. -/
structure ChangeEvidence where
  action : Action
  changedFields : List String
  affectedDepartmentIds : List Uuid
  affectedPositionId : Option Uuid := none
  retryKey : Option Uuid := none
  requestDigest : String := ""
  templateCode : String := ""
  templateVersion : Option Nat := none
  templateDigest : String := ""
  deletedNameSnapshot : String := ""

/-- `EditionStructureCommandReceipt`. -/
structure CommandReceipt extends ChangeEvidence where
  id : Uuid
  structureId : Uuid
  organizationId : Uuid
  editionId : Uuid
  resultingVersion : Nat
  actorId : Uuid
  reason : String
  sourceChannel : String

structure Structures where
  controls : Table EditionStructureControl.id
  departments : Table Department.id
  receipts : Table CommandReceipt.id

/-! ## Surroundings -/

/-- `ProgrammeDepartmentDependencyState`. -/
inductive DependencyState
  | clear | blocked | unavailable
deriving DecidableEq

/-- The clock and the records of other owners, as one command finds them. -/
structure Surroundings where
  now : Int
  accountIds : List Uuid
  editions : List Edition
  editionName : Uuid → String
  /-- `profile_allows_structure_template` of an edition and a template. -/
  allowsTemplate : Uuid → String → Bool
  /-- `decide` allows the capability to an account on an edition at a time. -/
  allows : Staffing.Capability → Uuid → Uuid → Uuid → Int → Bool
  positionCount : Uuid → Nat
  /-- Assignments or resource bindings of an edition. -/
  otherContent : Uuid → Bool
  /-- Positions that are not closed, active assignments or authority of a Department;
  nothing where a query fails. -/
  operations : Uuid → Option Bool
  /-- `programme_department_retirement_dependency_state` of a Department. -/
  programmeDependencies : Uuid → DependencyState
  /-- Positions, assignments, bindings or authority that a Department ever had. -/
  everReferenced : Uuid → Bool
  /-- A foreign key protects a Department. -/
  isProtected : Uuid → Bool
  /-- The checks of a Position command that are not about the structure. -/
  admitsPosition : Bool

/-- Who issues a command, where, and the identifiers drawn for what it creates. -/
structure Request where
  actorId : Uuid
  organizationId : Uuid
  seriesId : Uuid
  editionId : Uuid
  sourceChannel : String
  retryKey : Uuid
  controlId : Uuid
  receiptId : Uuid
  departmentIds : Nat → Uuid

/-! ## The scope of a command -/

structure LockedScope where
  edition : Edition
  control : Option EditionStructureControl
  departments : List Department
  evaluatedAt : Int

def requireViewAndManage (w : Surroundings) (actorId organizationId seriesId editionId : Uuid) :
    Except StructureError Unit := do
  require (w.editions.any fun e => e.id = editionId ∧
    e.organizationId = organizationId ∧ e.seriesId = seriesId) (.command .authorizationDenied)
  require (w.allows .viewStructure actorId organizationId editionId w.now ∧
    w.allows .manageStructure actorId organizationId editionId w.now) (.command .authorizationDenied)

def lockScope (s : Structures) (w : Surroundings) (r : Request) : Except StructureError LockedScope := do
  let edition ← getOr (.command .authorizationDenied) (w.editions.find? fun e =>
    e.id = r.editionId ∧ e.organizationId = r.organizationId ∧ e.seriesId = r.seriesId)
  let control := s.controls.rows.find? fun c => c.organizationId = edition.organizationId ∧ c.editionId = edition.id
  let departments := (s.departments.rows.filter fun d =>
    d.organizationId = edition.organizationId ∧ d.editionId = edition.id).insertionSort fun a b => a.id ≤ b.id
  require (departments.length ≤ maxStructureDepartments) (.command .limitConflict)
  require (w.positionCount edition.id ≤ maxStructurePositions) (.command .limitConflict)
  require (r.actorId ∈ w.accountIds) (.command .authorizationDenied)
  requireViewAndManage w r.actorId edition.organizationId edition.seriesId edition.id
  return ⟨edition, control, departments, w.now⟩

def requireEditableLifecycle (scope : LockedScope) : Except StructureError Unit :=
  require (scope.edition.organizationLifecycle ∈ Staffing.editableOrganizationLifecycles ∧
    scope.edition.lifecycle ∈ editableEditionLifecycles) (.command .lifecycleConflict)

def editionHasStructureContent (s : Structures) (w : Surroundings) (scope : LockedScope) : Bool :=
  !scope.departments.isEmpty || 0 < w.positionCount scope.edition.id ||
    (s.receipts.rows.any fun x => x.organizationId = scope.edition.organizationId ∧ x.editionId = scope.edition.id) ||
    w.otherContent scope.edition.id

def currentVersion (s : Structures) (w : Surroundings) (scope : LockedScope) : Except StructureError Nat :=
  match scope.control with
  | some control => .ok control.aggregateVersion
  | none =>
    if editionHasStructureContent s w scope then
      .error (.command .stateConflict "A populated edition has no structure control aggregate.")
    else .ok 0

def requireExpectedVersion (s : Structures) (w : Surroundings) (scope : LockedScope)
    (expectedVersion : Nat) : Except StructureError Nat := do
  let current ← currentVersion s w scope
  require (expectedVersion = current) (.command .versionConflict)
  return current

def receiptForRetry (s : Structures) (scope : LockedScope) (r : Request) : Option CommandReceipt :=
  s.receipts.rows.find? fun x => x.organizationId = scope.edition.organizationId ∧
    x.editionId = scope.edition.id ∧ x.actorId = r.actorId ∧ x.retryKey = some r.retryKey

def validateRetryReceipt (receipt : CommandReceipt) (action : Action) (requestDigest : String) :
    Except StructureError Unit :=
  require (receipt.action = action ∧ receipt.requestDigest = requestDigest) (.command .retryConflict)

def newOrAdvancedControl (s : Structures) (scope : LockedScope) (r : Request) (origin : Origin)
    (resultingVersion : Nat) : Except StructureError (Structures × EditionStructureControl) :=
  match scope.control with
  | none => do
    let control : EditionStructureControl :=
      ⟨r.controlId, scope.edition.organizationId, scope.edition.id, origin, resultingVersion⟩
    require (¬ s.controls.rows.any fun c => c.editionId = control.editionId)
      (.integrity "workforce_editionstructurecontrol_edition_id_key")
    let controls ← getOr (.integrity "workforce_editionstructurecontrol_pkey") (s.controls.insert? control)
    return ({ s with controls := controls }, control)
  | some control =>
    let advanced := { control with aggregateVersion := resultingVersion }
    .ok ({ s with controls := s.controls.save advanced }, advanced)

def appendChangeEvidence (s : Structures) (scope : LockedScope) (r : Request) (control : EditionStructureControl)
    (resultingVersion : Nat) (reason : String) (evidence : ChangeEvidence) :
    Except StructureError (Structures × CommandReceipt) := do
  let receipt : CommandReceipt :=
    { evidence with
      id := r.receiptId, structureId := control.id, organizationId := scope.edition.organizationId,
      editionId := scope.edition.id, resultingVersion, actorId := r.actorId, reason, sourceChannel := r.sourceChannel }
  require (¬ s.receipts.rows.any fun x => x.structureId = receipt.structureId ∧
    x.resultingVersion = receipt.resultingVersion) (.integrity "workforce_structure_receipt_version_unique")
  require (¬ s.receipts.rows.any fun x => x.editionId = receipt.editionId ∧ x.actorId = receipt.actorId ∧
    x.retryKey = receipt.retryKey ∧ x.retryKey ≠ none) (.integrity "workforce_structure_retry_key_unique")
  let receipts ← getOr (.integrity "workforce_editionstructurecommandreceipt_pkey") (s.receipts.insert? receipt)
  return ({ s with receipts := receipts }, receipt)

def departmentById (scope : LockedScope) (departmentId : Uuid) (current : Bool := true) :
    Except StructureError Department := do
  let department ← getOr (.command .departmentUnavailable) (scope.departments.find? fun d => d.id = departmentId)
  require (¬(current = true ∧ department.retiredAt ≠ none)) (.command .departmentUnavailable)
  return department

def parentById (scope : LockedScope) (parentId : Option Uuid) : Except StructureError Unit :=
  match parentId with
  | none => .ok ()
  | some id => do
    let _ ← departmentById scope id
    return ()

/-! ## The hierarchy -/

/-- Up the hierarchy from a Department, as many steps as are left. -/
def walkHierarchy (parent : Uuid → Option (Option Uuid)) : Nat → List Uuid → Option Uuid → Except StructureError Unit
  | _, _, none => .ok ()
  | steps, seen, some cursor =>
    if cursor ∈ seen then
      .error (invalidField "parent_department_id" "The Department hierarchy cannot contain a cycle."
        "structure_department_cycle")
    else
      match parent cursor with
      | none => .error (.command .stateConflict "The Department hierarchy is incomplete.")
      | some next =>
        match steps with
        | 0 => .error (.command .limitConflict)
        | steps + 1 => walkHierarchy parent steps (cursor :: seen) next

/-- `parent_by_id`, with the changed entry if there is one. -/
def changedParent (departments : List Department) (changed : Option (Uuid × Option Uuid))
    (id : Uuid) : Option (Option Uuid) :=
  (departments.find? fun d => d.id = id).map fun d =>
    match changed with
    | some (changedId, parentId) => if id = changedId then parentId else d.parentId
    | none => d.parentId

def validateResultingHierarchy (departments : List Department)
    (changed : Option (Uuid × Option Uuid)) : Except StructureError Unit := do
  require (departments.length ≤ maxStructureDepartments) (.command .limitConflict)
  departments.forM fun d => walkHierarchy (changedParent departments changed) maxStructureDepth [] (some d.id)

/-- A rank among the siblings under a parent: the one it has if nobody else has it, else the nearest
gap that follows, else any gap; at the end for one that comes to the parent. -/
def automaticSiblingDisplayOrder (scope : LockedScope) (parentId : Option Uuid)
    (current : Option Department) : Except StructureError Nat :=
  let siblings := scope.departments.filter fun d => d.parentId = parentId ∧ current.all fun c => d.id ≠ c.id
  let taken := siblings.map (·.displayOrder)
  let free (candidates : List Nat) : Option Nat := candidates.find? fun rank => rank ∉ taken
  match current.filter fun c => c.parentId = parentId with
  | some c =>
    if c.displayOrder ∉ taken then .ok c.displayOrder
    else
      let following := (List.range (maxDepartmentDisplayOrder - c.displayOrder)).map (c.displayOrder + 1 + ·)
      getOr (.command .limitConflict) ((free following).or (free (List.range c.displayOrder)))
  | none =>
    let appended := (taken.map (· + 1)).foldl max 0
    if appended ≤ maxDepartmentDisplayOrder then .ok appended
    else getOr (.command .limitConflict) (free (List.range (maxDepartmentDisplayOrder + 1)))

/-- The requested rank, or an automatic one. -/
def effectiveDisplayOrder (scope : LockedScope) (requested : Option Nat) (parentId : Option Uuid)
    (current : Option Department) : Except StructureError Nat :=
  match requested with
  | some rank => .ok rank
  | none => automaticSiblingDisplayOrder scope parentId current

/-! ## Commands -/

structure StructureResult where
  structureId : Uuid
  receiptId : Option Uuid
  departmentIds : List Uuid
  resultingVersion : Nat
  changedFields : List String
  action : Action
  replayed : Bool
deriving DecidableEq

def CommandReceipt.result (receipt : CommandReceipt) (replayed : Bool) : StructureResult :=
  ⟨receipt.structureId, some receipt.id, receipt.affectedDepartmentIds, receipt.resultingVersion,
    receipt.changedFields, receipt.action, replayed⟩

/-- Rows of `Department`, one code only once in an edition. -/
def insertDepartments (s : Structures) (rows : List Department) : Except StructureError Structures := do
  require (((s.departments.rows ++ rows).map fun d => (d.editionId, d.code)).Nodup)
    (.integrity "workforce_department_edition_code_unique")
  let departments ← getOr (.integrity "workforce_department_pkey") (s.departments.insertAll? rows)
  return { s with departments := departments }

/-- The Departments of a template, each under the one its parent code names. -/
def templateDepartments (scope : LockedScope) (r : Request)
    (definitions : List StructureDepartmentDefinition) : List Department :=
  let idOf (code : String) : Uuid := r.departmentIds (definitions.findIdx fun d => d.code = code)
  definitions.map fun d =>
    { id := idOf d.code, organizationId := scope.edition.organizationId, editionId := scope.edition.id,
      parentId := d.parentCode.map idOf, code := d.code, name := d.name, description := d.description,
      displayOrder := d.displayOrder, createdInStructureVersion := some 1, lastChangedInStructureVersion := some 1,
      retiredAt := none, retiredBy := none, retiredInStructureVersion := none }

/-- The members that every digest starts with. -/
def digestScope (r : Request) (action : Action) : List (String × Json) :=
  [("action", .str action.value), ("organization_id", .str r.organizationId.text),
    ("series_id", .str r.seriesId.text), ("edition_id", .str r.editionId.text)]

def applyBuiltinStructureTemplate (lib : Library) (s : Structures) (w : Surroundings) (r : Request)
    (templateIdentifier : String) (expectedVersion : Nat) (confirmationName reason : String) :
    Except StructureError (Structures × StructureResult) := do
  validateSourceChannel r.sourceChannel
  let reason ← normalizeStructureReason lib reason
  requireViewAndManage w r.actorId r.organizationId r.seriesId r.editionId
  let template ← getBuiltinStructureTemplate templateIdentifier
  let digest := lib.fingerprint (.obj (digestScope r .templateApplied ++ [("template", .str template.identifier),
    ("expected_version", .int expectedVersion), ("confirmation_name", .str confirmationName), ("reason", .str reason)]))
  let scope ← lockScope s w r
  require (w.allowsTemplate scope.edition.id template.identifier) (invalidField "template"
    "This structure template is not adopted by the edition." "structure_template_not_adopted")
  match receiptForRetry s scope r with
  | some receipt => do
    validateRetryReceipt receipt .templateApplied digest
    return (s, receipt.result true)
  | none => do
    requireEditableLifecycle scope
    let current ← requireExpectedVersion s w scope expectedVersion
    require (current = 0) (.command .stateConflict "A template requires an empty structure.")
    validateExactConfirmation confirmationName (w.editionName scope.edition.id)
    require (template.departments.length ≤ maxStructureDepartments) (.command .limitConflict)
    let departments := templateDepartments scope r template.departments
    validateResultingHierarchy departments none
    let (s, control) ← newOrAdvancedControl s scope r .builtinTemplate 1
    let s ← insertDepartments s departments
    let (s, receipt) ← appendChangeEvidence s scope r control 1 reason
      { action := .templateApplied, changedFields := ["departments"], affectedDepartmentIds := departments.map (·.id),
        retryKey := some r.retryKey, requestDigest := digest, templateCode := template.code,
        templateVersion := some template.version, templateDigest := lib.fingerprint template.canonicalJson }
    return (s, receipt.result false)

def createDepartment (lib : Library) (s : Structures) (w : Surroundings) (r : Request) (name description : String)
    (parentDepartmentId : Option Uuid) (displayOrder : Option Int) (expectedVersion : Nat) (reason : String) :
    Except StructureError (Structures × StructureResult) := do
  let name ← validateManualName lib name
  let description ← normalizeDepartmentDescription lib description
  let requested ← displayOrder.mapM validateDepartmentDisplayOrder
  validateSourceChannel r.sourceChannel
  let reason ← normalizeStructureReason lib reason
  requireViewAndManage w r.actorId r.organizationId r.seriesId r.editionId
  let digest := lib.fingerprint (.obj (digestScope r .departmentCreated ++ [("name", .str name),
    ("description", .str description), ("parent_department_id", parentDepartmentId.elim .null fun id => .str id.text),
    ("display_order", requested.elim (.str "automatic") fun rank => .int rank),
    ("expected_version", .int expectedVersion), ("reason", .str reason)]))
  let scope ← lockScope s w r
  match receiptForRetry s scope r with
  | some receipt => do
    validateRetryReceipt receipt .departmentCreated digest
    return (s, receipt.result true)
  | none => do
    requireEditableLifecycle scope
    let current ← requireExpectedVersion s w scope expectedVersion
    require (scope.departments.length < maxStructureDepartments) (.command .limitConflict)
    parentById scope parentDepartmentId
    let rank ← effectiveDisplayOrder scope requested parentDepartmentId none
    let resultingVersion := current + 1
    let code ← generateDepartmentCode lib name (scope.departments.map (·.code))
    let department : Department :=
      { id := r.departmentIds 0, organizationId := scope.edition.organizationId, editionId := scope.edition.id,
        parentId := parentDepartmentId, code, name, description, displayOrder := rank,
        createdInStructureVersion := some resultingVersion, lastChangedInStructureVersion := some resultingVersion,
        retiredAt := none, retiredBy := none, retiredInStructureVersion := none }
    validateResultingHierarchy (scope.departments ++ [department]) none
    let (s, control) ← newOrAdvancedControl s scope r .manual resultingVersion
    require (¬ s.departments.rows.any fun d => d.editionId = department.editionId ∧ d.code = department.code)
      (invalidField "__all__" "Department with this Edition and Code already exists." "unique_together")
    let s ← insertDepartments s [department]
    let (s, receipt) ← appendChangeEvidence s scope r control resultingVersion reason
      { action := .departmentCreated, changedFields := ["departments"], affectedDepartmentIds := [department.id],
        retryKey := some r.retryKey, requestDigest := digest }
    return (s, receipt.result false)

/-- The fields of an update, normalized. -/
structure DepartmentValues where
  name : String
  description : String
  parentId : Option Uuid
  displayOrder : Nat

def changedFields (department : Department) (values : DepartmentValues) : List String :=
  (if department.description ≠ values.description then ["description"] else []) ++
    (if department.displayOrder ≠ values.displayOrder then ["display_order"] else []) ++
    (if department.name ≠ values.name then ["name"] else []) ++
    if department.parentId ≠ values.parentId then ["parent_department"] else []

def Department.updated (d : Department) (values : DepartmentValues) (version : Nat) : Department :=
  { d with
    name := values.name, description := values.description, parentId := values.parentId,
    displayOrder := values.displayOrder, lastChangedInStructureVersion := some version }

def updateDepartment (lib : Library) (s : Structures) (w : Surroundings) (r : Request) (departmentId : Uuid)
    (name description : String) (parentDepartmentId : Option Uuid) (displayOrder : Option Int) (expectedVersion : Nat)
    (reason : String) : Except StructureError (Structures × StructureResult) := do
  let name ← validateManualName lib name
  let description ← normalizeDepartmentDescription lib description
  let requested ← displayOrder.mapM validateDepartmentDisplayOrder
  validateSourceChannel r.sourceChannel
  let reason ← normalizeStructureReason lib reason
  requireViewAndManage w r.actorId r.organizationId r.seriesId r.editionId
  let scope ← lockScope s w r
  requireEditableLifecycle scope
  let current ← requireExpectedVersion s w scope expectedVersion
  let department ← departmentById scope departmentId
  parentById scope parentDepartmentId
  let rank ← effectiveDisplayOrder scope requested parentDepartmentId (some department)
  let values : DepartmentValues := ⟨name, description, parentDepartmentId, rank⟩
  let fields := changedFields department values
  if fields = [] then do
    let control ← getOr (.command .stateConflict) scope.control
    return (s, ⟨control.id, none, [department.id], current, [], .departmentUpdated, false⟩)
  else do
    validateResultingHierarchy scope.departments (some (department.id, parentDepartmentId))
    let resultingVersion := current + 1
    let (s, control) ← newOrAdvancedControl s scope r .manual resultingVersion
    let s := { s with departments := s.departments.save (department.updated values resultingVersion) }
    let (s, receipt) ← appendChangeEvidence s scope r control resultingVersion reason
      { action := .departmentUpdated, changedFields := fields, affectedDepartmentIds := [department.id] }
    return (s, receipt.result false)

/-- `_retirement_dependencies`; nothing where a query fails. -/
def retirementDependencies (w : Surroundings) (scope : LockedScope) (department : Department) : Option Bool :=
  if scope.departments.any fun d => d.parentId = some department.id ∧ d.retiredAt = none then some true
  else w.operations department.id

def Department.retired (d : Department) (version : Nat) (at_ : Int) (actorId : Uuid) : Department :=
  { d with
    retiredAt := some at_, retiredBy := some actorId, retiredInStructureVersion := some version,
    lastChangedInStructureVersion := some version }

def retireDepartment (lib : Library) (s : Structures) (w : Surroundings) (r : Request) (departmentId : Uuid)
    (expectedVersion : Nat) (reason : String) : Except StructureError (Structures × StructureResult) := do
  validateSourceChannel r.sourceChannel
  let reason ← normalizeStructureReason lib reason
  requireViewAndManage w r.actorId r.organizationId r.seriesId r.editionId
  let scope ← lockScope s w r
  requireEditableLifecycle scope
  let current ← requireExpectedVersion s w scope expectedVersion
  let department ← departmentById scope departmentId
  let localDependencies := retirementDependencies w scope department
  let programmeDependencies := w.programmeDependencies department.id
  require (¬(localDependencies = some true ∨ programmeDependencies = .blocked)) (.command .dependencyConflict)
  require (¬(localDependencies = none ∨ programmeDependencies = .unavailable)) (.command .dependencyUnavailable)
  let resultingVersion := current + 1
  let (s, control) ← newOrAdvancedControl s scope r .manual resultingVersion
  let s := { s with departments := s.departments.save (department.retired resultingVersion scope.evaluatedAt r.actorId) }
  let (s, receipt) ← appendChangeEvidence s scope r control resultingVersion reason
    { action := .departmentRetired, changedFields := ["retirement"], affectedDepartmentIds := [department.id] }
  return (s, receipt.result false)

/-- The receipts of an edition that name a Department. -/
def departmentHistory (s : Structures) (scope : LockedScope) (department : Department) : List CommandReceipt :=
  s.receipts.rows.filter fun x => x.organizationId = scope.edition.organizationId ∧
    x.editionId = scope.edition.id ∧ department.id ∈ x.affectedDepartmentIds

/-- A receipt that a Department was created by, at a version. -/
def CommandReceipt.Creates (x : CommandReceipt) (version : Option Nat) : Prop :=
  some x.resultingVersion = version ∧ (x.action = .templateApplied ∨ x.action = .departmentCreated)

instance (x : CommandReceipt) (version : Option Nat) : Decidable (x.Creates version) :=
  inferInstanceAs (Decidable (_ ∧ _))

def hasDeletionDependencies (s : Structures) (w : Surroundings) (scope : LockedScope) (department : Department) : Bool :=
  department.createdInStructureVersion = none ||
    department.lastChangedInStructureVersion ≠ department.createdInStructureVersion ||
    (scope.departments.any fun d => d.parentId = some department.id) ||
    w.everReferenced department.id ||
    match departmentHistory s scope department with
    | [creation] => ¬ creation.Creates department.createdInStructureVersion
    | _ => true

def deleteUnusedDepartment (lib : Library) (s : Structures) (w : Surroundings) (r : Request)
    (departmentId : Uuid) (expectedVersion : Nat) (confirmationName reason : String) :
    Except StructureError (Structures × StructureResult) := do
  validateSourceChannel r.sourceChannel
  let reason ← normalizeStructureReason lib reason
  requireViewAndManage w r.actorId r.organizationId r.seriesId r.editionId
  let scope ← lockScope s w r
  requireEditableLifecycle scope
  let current ← requireExpectedVersion s w scope expectedVersion
  let department ← departmentById scope departmentId
  validateExactConfirmation confirmationName department.name
  require (¬ hasDeletionDependencies s w scope department) (.command .dependencyConflict)
  let resultingVersion := current + 1
  require scope.control.isSome (.command .stateConflict)
  let (s, control) ← newOrAdvancedControl s scope r .manual resultingVersion
  require (¬ w.isProtected department.id) (.command .dependencyConflict)
  let s := { s with departments := s.departments.erase department.id }
  let (s, receipt) ← appendChangeEvidence s scope r control resultingVersion reason
    { action := .departmentDeleted, changedFields := ["departments"],
      affectedDepartmentIds := [department.id], deletedNameSnapshot := department.name }
  return (s, receipt.result false)

/-- The action of a Position command. -/
inductive PositionAction
  | created | updated | closed | opportunityUpdated
deriving DecidableEq

def PositionAction.action : PositionAction → Action
  | .created => .positionCreated
  | .updated => .positionUpdated
  | .closed => .positionClosed
  | .opportunityUpdated => .opportunityUpdated

/-- What a Position command that changes something writes of the structure. Only a creation can be
retried, and only it needs a Department that is current. -/
def changePosition (lib : Library) (s : Structures) (w : Surroundings) (r : Request) (change : PositionAction)
    (positionId departmentId : Uuid) (fields : List String) (digest : String) (expectedVersion : Nat) (reason : String) :
    Except StructureError (Structures × StructureResult) := do
  validateSourceChannel r.sourceChannel
  let reason ← normalizeStructureReason lib reason
  requireViewAndManage w r.actorId r.organizationId r.seriesId r.editionId
  let scope ← lockScope s w r
  requireEditableLifecycle scope
  match if change = .created then receiptForRetry s scope r else none with
  | some receipt => do
    validateRetryReceipt receipt .positionCreated digest
    return (s, receipt.result true)
  | none => do
    let current ← requireExpectedVersion s w scope expectedVersion
    require scope.control.isSome (.command .limitConflict)
    let department ← departmentById scope departmentId (change = .created)
    require w.admitsPosition (.command .stateConflict)
    let resultingVersion := current + 1
    let (s, control) ← newOrAdvancedControl s scope r .manual resultingVersion
    let (s, receipt) ← appendChangeEvidence s scope r control resultingVersion reason
      { action := change.action, changedFields := fields, affectedDepartmentIds := [department.id],
        affectedPositionId := some positionId, retryKey := if change = .created then some r.retryKey else none,
        requestDigest := if change = .created then digest else "" }
    return (s, receipt.result false)

/-! ## Runs -/

inductive StructureCommand
  | applyTemplate (templateIdentifier : String) (expectedVersion : Nat) (confirmationName reason : String)
  | create (name description : String) (parentDepartmentId : Option Uuid)
      (displayOrder : Option Int) (expectedVersion : Nat) (reason : String)
  | update (departmentId : Uuid) (name description : String) (parentDepartmentId : Option Uuid)
      (displayOrder : Option Int) (expectedVersion : Nat) (reason : String)
  | retire (departmentId : Uuid) (expectedVersion : Nat) (reason : String)
  | delete (departmentId : Uuid) (expectedVersion : Nat) (confirmationName reason : String)
  | position (change : PositionAction) (positionId departmentId : Uuid) (fields : List String)
      (digest : String) (expectedVersion : Nat) (reason : String)

/-- A command, who issues it, and what it finds. -/
structure StructureCall where
  surroundings : Surroundings
  request : Request
  command : StructureCommand

def execStructure (lib : Library) (s : Structures) (call : StructureCall) :
    Except StructureError (Structures × StructureResult) :=
  let w := call.surroundings
  let r := call.request
  match call.command with
  | .applyTemplate templateIdentifier expectedVersion confirmationName reason =>
    applyBuiltinStructureTemplate lib s w r templateIdentifier expectedVersion confirmationName reason
  | .create name description parentDepartmentId displayOrder expectedVersion reason =>
    createDepartment lib s w r name description parentDepartmentId displayOrder expectedVersion reason
  | .update departmentId name description parentDepartmentId displayOrder expectedVersion reason =>
    updateDepartment lib s w r departmentId name description parentDepartmentId displayOrder expectedVersion reason
  | .retire departmentId expectedVersion reason => retireDepartment lib s w r departmentId expectedVersion reason
  | .delete departmentId expectedVersion confirmationName reason =>
    deleteUnusedDepartment lib s w r departmentId expectedVersion confirmationName reason
  | .position change positionId departmentId fields digest expectedVersion reason =>
    changePosition lib s w r change positionId departmentId fields digest expectedVersion reason

def structureMachine (lib : Library) : Machine Structures StructureCall StructureResult StructureError where
  exec := execStructure lib

end Maru.Workforce.Structure
