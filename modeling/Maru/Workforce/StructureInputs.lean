import Maru.Workforce.Positions

/-!
# Inputs of the Department commands

How a Department command fails, what `workforce/structure_inputs.py` makes of its texts, the
codes that a new Department can have, and the built-in template of
`workforce/structure_templates.py`.
-/

namespace Maru.Workforce.Structure

open Staffing (StaffingError normalizeRequiredStructureText nfcWithoutControlCharacters)

/-! ## Failures -/

/-- The classes of `StructureCommandError`. -/
inductive StructureFailure
  | authorizationDenied | departmentUnavailable | positionUnavailable | versionConflict | retryConflict
  | lifecycleConflict | stateConflict | dependencyConflict | dependencyUnavailable | limitConflict
deriving DecidableEq

def StructureFailure.reasonCode : StructureFailure → String
  | .authorizationDenied => "structure_authorization_denied"
  | .departmentUnavailable => "structure_department_unavailable"
  | .positionUnavailable => "structure_position_unavailable"
  | .versionConflict => "structure_version_conflict"
  | .retryConflict => "structure_retry_conflict"
  | .lifecycleConflict => "structure_lifecycle_conflict"
  | .stateConflict => "structure_state_conflict"
  | .dependencyConflict => "structure_department_has_dependencies"
  | .dependencyUnavailable => "structure_dependency_unavailable"
  | .limitConflict => "structure_limit_exceeded"

inductive StructureError
  | command (failure : StructureFailure) (message : String := "The structure command could not complete.")
  /-- `ValidationError`. -/
  | invalid (errors : List FieldError)
  /-- `IntegrityError` of the named constraint. -/
  | integrity (constraint : String)

def invalidField (field message code : String) : StructureError := .invalid [⟨field, message, code⟩]

/-- An input that the Position commands have too. -/
def ofPosition {α : Type} (checked : Except StaffingError α) : Except StructureError α :=
  checked.mapError fun
    | .invalid errors => .invalid errors
    | .integrity constraint => .integrity constraint
    | .assignment _ message | .structural _ message => .command .stateConflict message

/-! ## Texts -/

/-- `Staffing.Library` with `str.casefold` and NFKD. -/
structure Library extends Staffing.Library where
  casefold : String → String
  nfkd : String → String

def maxDepartmentNameLength : Nat := 160

def maxDepartmentDescriptionLength : Nat := 1000

def maxDepartmentDisplayOrder : Nat := 65535

def normalizeDepartmentName (lib : Library) (value : String) : Except StructureError String :=
  ofPosition (normalizeRequiredStructureText lib.toLibrary value "name" "a Department name" maxDepartmentNameLength)

def normalizeDepartmentDescription (lib : Library) (value : String) : Except StructureError String := do
  let text ← ofPosition (nfcWithoutControlCharacters lib.toLibrary value "description")
  let normalized := strip text
  require (normalized.length ≤ maxDepartmentDescriptionLength) (invalidField "description"
    s!"Ensure this value has at most {maxDepartmentDescriptionLength} characters." "structure_description_too_long")
  return normalized

def normalizeStructureReason (lib : Library) (value : String) : Except StructureError String :=
  ofPosition (Staffing.normalizeStructureReason lib.toLibrary value)

def validateSourceChannel (value : String) : Except StructureError Unit :=
  ofPosition (Staffing.validateSourceChannel value "structure_source_channel_invalid")

def validateExactConfirmation (value expected : String) : Except StructureError Unit :=
  ofPosition (Staffing.validateExactConfirmation value expected)

def validateDepartmentDisplayOrder (value : Int) : Except StructureError Nat := do
  require (0 ≤ value ∧ value ≤ maxDepartmentDisplayOrder) (invalidField "display_order"
    s!"Enter a whole number from 0 through {maxDepartmentDisplayOrder}." "structure_display_order_invalid")
  return value.toNat

/-- `ACCOUNTABLE_REPRESENTATION_NAMES`, before they are casefolded. -/
def accountableRepresentationNames : List String :=
  ["Executive Board", "Maru operators", "Announcements operators", "Workspace operators"]

def validateManualName (lib : Library) (name : String) : Except StructureError String := do
  let normalized ← normalizeDepartmentName lib name
  let folded := lib.casefold normalized
  require (folded ∉ accountableRepresentationNames.map lib.casefold) (invalidField "name"
    s!"{normalized} is the separate accountable representation, not a Department."
    (if folded = "executive board" then "structure_executive_board_reserved"
      else "structure_accountable_representation_reserved"))
  return normalized

/-! ## Codes -/

def maxDepartmentCodeLength : Nat := 80

def maxDepartmentCodeCandidates : Nat := 256

/-- `[A-Za-z0-9_]`. -/
def isWord (c : Char) : Bool := c.isAlphanum || c = '_'

/-- The words of a text between the characters that meet `p`, one hyphen between them. -/
def hyphenate (p : Char → Bool) (text : List Char) : List Char :=
  ['-'].intercalate ((text.splitOnP p).filter (· ≠ []))

/-- `django.utils.text.slugify`. -/
def slugify (lib : Library) (value : String) : List Char :=
  let ascii := ((lib.nfkd value).toList.filter fun c => c.toNat < 128).map Char.toLower
  let edge (c : Char) : Bool := c = '-' || c = '_'
  let joined := hyphenate (fun c => isSpace c || c = '-') (ascii.filter fun c => isWord c || isSpace c || c = '-')
  ((joined.dropWhile edge).reverse.dropWhile edge).reverse

/-- `str.rstrip("-")`. -/
def rstripHyphens (text : List Char) : List Char := (text.reverse.dropWhile (· = '-')).reverse

def departmentCodeCandidates (lib : Library) (normalizedName : String) : List String :=
  let base := hyphenate (· = '-') ((slugify lib normalizedName).map fun c => if c = '_' then '-' else c)
  let bounded := rstripHyphens (base.take maxDepartmentCodeLength)
  let base := if bounded = [] then "department".toList else bounded
  (List.range maxDepartmentCodeCandidates).map fun i =>
    let suffix := if i = 0 then [] else s!"-{i + 1}".toList
    String.ofList (rstripHyphens (base.take (maxDepartmentCodeLength - suffix.length)) ++ suffix)

/-- Codes are ASCII, and `casefold` only lowers their letters. -/
def foldCode (code : String) : String := code.map Char.toLower

def generateDepartmentCode (lib : Library) (name : String)
    (existingCodes : List String) : Except StructureError String := do
  let normalized ← normalizeDepartmentName lib name
  getOr (invalidField "name" "Maru could not generate an available Department code." "structure_code_unavailable")
    ((departmentCodeCandidates lib normalized).find? fun code => foldCode code ∉ existingCodes.map foldCode)

/-! ## The built-in template -/

structure StructureDepartmentDefinition where
  code : String
  name : String
  description : String
  parentCode : Option String
  displayOrder : Nat

structure BuiltinStructureTemplate where
  code : String
  version : Nat
  departments : List StructureDepartmentDefinition

namespace BuiltinStructureTemplate

def identifier (template : BuiltinStructureTemplate) : String := s!"{template.code}@{template.version}"

/-- The document whose digest is `sha256_digest`. -/
def canonicalJson (template : BuiltinStructureTemplate) : Json :=
  .obj [("code", .str template.code),
    ("departments", .arr (template.departments.map fun d => .obj [("code", .str d.code),
      ("description", .str d.description), ("display_order", .int d.displayOrder), ("name", .str d.name),
      ("parent_code", d.parentCode.elim .null .str)])),
    ("version", .int template.version)]

end BuiltinStructureTemplate

def boardDescription : String := "Readiness, risks, approvals, cross-department blockers, and material changes."

def registrationDescription : String :=
  "Attendee lookup, payment and check-in state, badges, service requests, knowledge, and surge staffing."

def programmeDescription : String := "Calls, proposals, review, readiness, timetable, hosts, and public copy."

def techDescription : String :=
  "Riders, cues, equipment, rehearsals, setup and teardown, operator shifts, and media consent."

def safetyDescription : String :=
  "Narrowly scoped cases, duty routing, access policy, retention, and ordinary minimum-disclosure tasks."

def hrDescription : String :=
  "Opportunities, applications, onboarding, qualifications, assignments, availability, hours, and handover."

def operationsDescription : String :=
  "Storage, boxes, kits, manifests, movements, maintenance, deployment, and return."

def applicationsDescription : String :=
  "Configured applications, allocations, content classification, inventory, staffing, payments, and reconciliation."

def contentDescription : String :=
  "Briefs, assets, approvals, rights, publishing schedule, and public content renditions."

def serviceDescription : String := "Service capacity, spaces, programme dependencies, queues, shifts, and run of show."

def department (code name description : String) (displayOrder : Nat) : StructureDepartmentDefinition :=
  { code, name, description, parentCode := some "convention-coordination", displayOrder }

def maruconReferenceV1 : BuiltinStructureTemplate where
  code := "marucon-reference"
  version := 1
  departments :=
    [{ department "convention-coordination" "Convention Coordination" boardDescription 0 with parentCode := none },
      department "attendee-services" "Attendee Services" registrationDescription 1,
      department "registration" "Registration" registrationDescription 2,
      department "programme" "Programme" programmeDescription 3,
      department "stage-production" "Stage Production" techDescription 4,
      department "venue-operations" "Venue Operations" serviceDescription 5,
      department "logistics" "Logistics" operationsDescription 6,
      department "volunteer-support" "Volunteer Support" hrDescription 7,
      department "safety" "Safety" safetyDescription 8,
      department "accessibility" "Accessibility" safetyDescription 9,
      department "technology" "Technology" operationsDescription 10,
      department "communications" "Communications" contentDescription 11,
      department "design-publications" "Design & Publications" contentDescription 12,
      department "exhibitors" "Exhibitors" applicationsDescription 13,
      department "charity" "Charity" applicationsDescription 14,
      department "guest-relations" "Guest Relations" serviceDescription 15,
      department "accommodation" "Accommodation" serviceDescription 16,
      department "hospitality" "Hospitality" serviceDescription 17,
      department "finance-procurement" "Finance & Procurement" applicationsDescription 18,
      department "partnerships" "Partnerships" applicationsDescription 19,
      department "live-operations" "Live Operations" operationsDescription 20,
      department "archive-handover" "Archive & Handover" contentDescription 21]

def builtinStructureTemplates : List BuiltinStructureTemplate := [maruconReferenceV1]

def getBuiltinStructureTemplate (identifier : String) : Except StructureError BuiltinStructureTemplate :=
  getOr (invalidField "template" "Choose an available built-in structure template." "structure_template_unknown")
    (builtinStructureTemplates.find? fun template => template.identifier = identifier)

end Maru.Workforce.Structure
