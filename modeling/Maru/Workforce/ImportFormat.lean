import Maru.Framework.Dict
import Maru.Framework.Except
import Maru.Framework.IsoRead
import Maru.Framework.JsonBytes
import Maru.Framework.JsonNesting
import Maru.Framework.Text

/-!
# Workforce import proposals

`workforce/import_format.py`. A proposal is decoded, its structure is checked field by field,
and only a proposal without a structural issue is checked for its references, its ancestry, its
pairs and its times. The functions return the issues that the source adds, in the same order;
`report` keeps the first `MAX_ISSUES` of them. What NFC and the time-zone database say is a
parameter (`ImportPrimitives`).

`json.loads` is told to fail at a repeated member, a number of too many digits or a number that is
not an integer, each with a code of its own: `importFault` finds the first of them. A text with a
lone surrogate is no `String`; its code is `invalid_json` here, where the source goes on and refuses
the field or the member that has it.
-/

namespace Maru.Workforce

open Calendar

/-- The kinds of fields. -/
inductive ImportKind
  | key
  | text
  | nullableKey
  | instant
  | capacity
  | zone
deriving DecidableEq

/-- `FIELDS` -/
def importFields : List (String × List (String × ImportKind)) :=
  [("departments", [("key", .key), ("name", .text), ("parent_key", .nullableKey)]),
    ("positions", [("key", .key), ("department_key", .key), ("title", .text)]),
    ("people", [("key", .key), ("label", .text)]),
    ("assignments", [("key", .key), ("person_key", .key), ("position_key", .key)]),
    ("shifts", [("key", .key), ("position_key", .key), ("starts_at", .instant),
      ("ends_at", .instant), ("capacity", .capacity)]),
    ("commitments", [("key", .key), ("assignment_key", .key), ("shift_key", .key)])]

/-- `SCOPE_FIELDS` -/
def scopeFields : List (String × ImportKind) := [("organization_key", .key), ("edition_key", .key), ("time_zone", .zone)]

/-- `ROW_LIMITS` -/
def rowLimit (name : String) : Nat :=
  if name = "departments" then 128
  else if name = "positions" then 512
  else if name = "people" then 2048
  else if name = "shifts" then 1024
  else 4096

def maxImportBytes : Nat := 1048576

def maxImportDepth : Nat := 16

def maxImportIssues : Nat := 64

def maxAncestry : Nat := 16

def maxImportText : Nat := 200

def maxCapacity : Nat := 1024

structure ImportIssue where
  code : String
  location : String
deriving DecidableEq

inductive ImportStatus
  | valid
  | invalid
  | unavailable
deriving DecidableEq

structure ImportValidationReport where
  status : ImportStatus
  issues : List ImportIssue
  counts : List (String × Nat)
  issuesTruncated : Bool
deriving DecidableEq

/-- What the program takes from its standard library: NFC, the offset from UTC that a zone has at an
instant, in microseconds, and the text of a float. -/
structure ImportPrimitives where
  nfc : String → String
  zone : String → Option (Int → Int)
  floatRepr : String → String

/-! ## Decoding -/

/-- The state of `_check_depth` between two bytes. -/
structure DepthScan where
  depth : Int
  quoted : Bool
  escaped : Bool

/-- The loop's body; `none` where it raises. -/
def DepthScan.next (scan : DepthScan) (value : UInt8) : Option DepthScan :=
  if scan.quoted then
    if scan.escaped then some { scan with escaped := false }
    else if value = 92 then some { scan with escaped := true }
    else if value = 34 then some { scan with quoted := false }
    else some scan
  else if value = 34 then some { scan with quoted := true }
  else if value = 123 ∨ value = 91 then
    if scan.depth + 1 > maxImportDepth then none else some { scan with depth := scan.depth + 1 }
  else if value = 125 ∨ value = 93 then some { scan with depth := scan.depth - 1 }
  else some scan

/-- `_check_depth` -/
def depthAllowed (raw : ByteArray) : Bool := (raw.data.toList.foldlM DepthScan.next ⟨0, false, false⟩).isSome

mutual

/-- Every number is an integer of at most nineteen digits. -/
def boundedNumbers : Json → Bool
  | .null | .bool _ | .str _ => true
  | .int n => n.natAbs < 10 ^ 19
  | .float _ => false
  | .arr vs => boundedElems vs
  | .obj ms => boundedMembers ms

def boundedElems : List Json → Bool
  | [] => true
  | v :: vs => boundedNumbers v && boundedElems vs

def boundedMembers : List (String × Json) → Bool
  | [] => true
  | (_, v) :: ms => boundedNumbers v && boundedMembers ms

end

/-- `json.loads` of bytes that are UTF-8. -/
def loadImport (lib : ImportPrimitives) (raw : ByteArray) : Option Json :=
  (String.fromUTF8? raw).bind (Json.loads lib.floatRepr)

/-- Read the characters `word`. -/
def expectWord (word : String) (cs : List Char) : Except String (List Char) := do
  require (word.toList.isPrefixOf cs) "invalid_json"
  return cs.drop word.length

/-- `parse_constant` gets the constant and raises. -/
def rejectConstant (word : String) (cs : List Char) : Except String (List Char) := do
  let _ ← expectWord word cs
  throw "invalid_json_number"

/-- A number that `_integer` returns. -/
def isBoundedInteger (number : List Char) : Bool :=
  number.all (fun c => c = '-' ∨ (Digits.digitVal? c).isSome) && (number.dropWhile (· = '-')).length ≤ 19

mutual

/-- Read a value as `json.loads` does with the hooks of `_decode`: what follows it, or the
code of the first failure. -/
def expectValue (fuel : Nat) (cs : List Char) : Except String (List Char) :=
  match fuel with
  | 0 => throw "invalid_json"
  | fuel + 1 =>
    match cs with
    | '"' :: cs => do return (← getOr "invalid_json" (Json.readPoints cs)).2
    | '[' :: cs =>
      match Json.skipBlanks cs with
      | ']' :: rest => return rest
      | cs => do expectElems fuel (Json.skipBlanks (← expectValue fuel cs))
    | '{' :: cs =>
      match Json.skipBlanks cs with
      | '}' :: rest => return rest
      | cs => expectMember fuel [] cs
    | 'n' :: cs => expectWord "ull" cs
    | 't' :: cs => expectWord "rue" cs
    | 'f' :: cs => expectWord "alse" cs
    | 'N' :: cs => rejectConstant "aN" cs
    | 'I' :: cs | '-' :: 'I' :: cs => rejectConstant "nfinity" cs
    | cs => do
      let (number, rest) ← getOr "invalid_json" (Json.matchNumber cs)
      require (isBoundedInteger number) "invalid_json_number"
      return rest

/-- The elements after the first, up to the closing bracket. -/
def expectElems (fuel : Nat) (cs : List Char) : Except String (List Char) :=
  match fuel with
  | 0 => throw "invalid_json"
  | fuel + 1 =>
    match cs with
    | ']' :: rest => return rest
    | ',' :: cs => do expectElems fuel (Json.skipBlanks (← expectValue fuel (Json.skipBlanks cs)))
    | _ => throw "invalid_json"

/-- A member after those with the `keys`, and the next ones up to the closing brace. -/
def expectMember (fuel : Nat) (keys : List (List Nat)) (cs : List Char) : Except String (List Char) :=
  match fuel with
  | 0 => throw "invalid_json"
  | fuel + 1 =>
    match cs with
    | '"' :: cs => do
      let (key, rest) ← getOr "invalid_json" (Json.readPoints cs)
      let rest ← expectWord ":" (Json.skipBlanks rest)
      let rest ← expectValue fuel (Json.skipBlanks rest)
      match Json.skipBlanks rest with
      | '}' :: rest => do
        require (key :: keys).Nodup "duplicate_member"
        return rest
      | ',' :: rest => expectMember fuel (key :: keys) (Json.skipBlanks rest)
      | _ => throw "invalid_json"
    | _ => throw "invalid_json"

end

/-- The code of a text that is not read. -/
def importFault (text : String) : String :=
  let cs := Json.skipBlanks text.toList
  match expectValue (cs.length + 1) cs with
  | .error code => code
  | .ok _ => "invalid_json"

/-- `_decode` -/
def decodeImport (lib : ImportPrimitives) (raw : ByteArray) : Except ImportIssue (List (String × Json)) := do
  require (raw.size ≤ maxImportBytes) ⟨"input_too_large", "/"⟩
  require (depthAllowed raw) ⟨"too_deep", "/"⟩
  let text ← getOr ⟨"invalid_encoding", "/"⟩ (String.fromUTF8? raw)
  require (text.toList.head? ≠ some (Char.ofNat 0xfeff)) ⟨"invalid_encoding", "/"⟩
  let value ← getOr ⟨importFault text, "/"⟩ ((loadImport lib raw).filter boundedNumbers)
  match value with
  | .obj document => return document
  | _ => throw ⟨"invalid_document", "/"⟩

example : importFault "\x7b\"a\":1,\"a\":1.5\x7d" = "invalid_json_number" ∧
    importFault "\x7b\"a\":1,\"\\u0061\":2\x7d]" = "duplicate_member" := by decide +kernel

/-! ## Fields -/

/-- `KEY_PATTERN` -/
def isImportKey (value : String) : Bool :=
  match value.toList with
  | [] => false
  | c :: cs => 'a' ≤ c && c ≤ 'z' && cs.length ≤ 63 &&
    cs.all fun c => ('a' ≤ c && c ≤ 'z') || ('0' ≤ c && c ≤ '9') || c = '_' || c = '-'

/-- `INSTANT_PATTERN`, a `0` standing for a digit. -/
def isInstantText (value : String) : Bool :=
  let shape := value.toList.map fun c => if '0' ≤ c ∧ c ≤ '9' then '0' else c
  let wall := "0000-00-00T00:00:00".toList
  shape = wall ++ ['Z'] ∨ shape = wall ++ "+00:00".toList ∨ shape = wall ++ "-00:00".toList

/-- `TEXT_PATTERN` -/
def isImportText (value : String) : Bool :=
  1 ≤ value.length && value.length ≤ maxImportText &&
    value.toList.all fun c => !(c.toNat < 0x20 ∨ (0x7f ≤ c.toNat ∧ c.toNat ≤ 0x9f))

/-- `_instant` -/
def importInstant (value : String) : Option Iso.Stamp :=
  if isInstantText value then Iso.Stamp.read (Points.ofString value) else none

/-- `_field_valid` -/
def fieldValid (lib : ImportPrimitives) (kind : ImportKind) (value : Json) : Bool :=
  match kind, value with
  | .capacity, .int n => 1 ≤ n ∧ n ≤ maxCapacity
  | .capacity, _ => false
  | .nullableKey, .null => true
  | .nullableKey, .str s | .key, .str s => isImportKey s
  | .instant, .str s => (importInstant s).isSome
  | .text, .str s | .zone, .str s => isImportText s && s = strip s && lib.nfc s = s
  | _, _ => false

/-! ## Structure -/

/-- `_closed` -/
def closedIssues (value : List (String × Json)) (fields : List String) (location : String) : List ImportIssue :=
  (fields.filter (· ∉ value.map Prod.fst)).map (fun name => ⟨"missing_field", location ++ "/" ++ name⟩) ++
    if value.all fun member => member.1 ∈ fields then []
    else [⟨"unknown_field", if location = "" then "/" else location⟩]

/-- `_record` -/
def recordIssues (lib : ImportPrimitives) (fields : List (String × ImportKind))
    (location : String) : Json → List ImportIssue
  | .obj members =>
    closedIssues members (fields.map Prod.fst) location ++
      (fields.filter fun field => (Json.get? field.1 members).any fun value => !fieldValid lib field.2 value).map
        fun field => ⟨"invalid_field", location ++ "/" ++ field.1⟩
  | _ => [⟨"invalid_field", location⟩]

/-- The rows of a section in `_structure`. -/
def sectionIssues (lib : ImportPrimitives) (name : String)
    (fields : List (String × ImportKind)) : Json → List ImportIssue
  | .arr rows =>
    if rows.length > rowLimit name then [⟨"too_many_records", "/" ++ name⟩]
    else rows.zipIdx.flatMap fun row => recordIssues lib fields ("/" ++ name ++ "/" ++ toString row.2) row.1
  | _ => [⟨"invalid_field", "/" ++ name⟩]

/-- The members that must have one value, and the codes for another one. -/
def importHeader : List (String × Json × String) :=
  [("format", .str "maru.workforce-import", "unsupported_format"), ("version", .int 1, "unsupported_version"),
    ("profile", .str "workforce_only@1", "unsupported_profile")]

/-- `_structure` -/
def structureIssues (lib : ImportPrimitives) (document : List (String × Json)) : List ImportIssue :=
  closedIssues document (["format", "version", "profile", "scope"] ++ importFields.map Prod.fst) "" ++
    ((importHeader.filter fun header => (Json.get? header.1 document).any (· ≠ header.2.1)).map
      fun header => ⟨header.2.2, "/" ++ header.1⟩) ++
    (((Json.get? "scope" document).map (recordIssues lib scopeFields "/scope")).getD []) ++
    importFields.flatMap fun part =>
      ((Json.get? part.1 document).map (sectionIssues lib part.1 part.2)).getD []

/-! ## Rows and their fields -/

/-- `document[section]`, once the structure is checked. -/
def sectionRows (document : List (String × Json)) (name : String) : List Json :=
  match Json.get? name document with
  | some (.arr rows) => rows
  | _ => []

/-- `row[name]`, once the structure is checked. -/
def rowField (row : Json) (name : String) : Json :=
  match row with
  | .obj members => (Json.get? name members).getD .null
  | _ => .null

/-- The first row of each key. -/
def sectionIndex (document : List (String × Json)) (name : String) : List Json :=
  Dict.firsts (rowField · "key") [] (sectionRows document name)

/-- `index.get(key)` -/
def indexed (document : List (String × Json)) (name : String) (key : Json) : Option Json :=
  (sectionIndex document name).find? fun row => rowField row "key" = key

/-- The rows of a section whose key is the key of a row before them. -/
def duplicateKeyIssues (name : String) : List Json → List (Json × Nat) → List ImportIssue
  | _, [] => []
  | seen, (row, number) :: rows =>
    if rowField row "key" ∈ seen then
      ⟨"duplicate_key", "/" ++ name ++ "/" ++ toString number ++ "/key"⟩ :: duplicateKeyIssues name seen rows
    else duplicateKeyIssues name (rowField row "key" :: seen) rows

/-- `_indexes` -/
def indexIssues (document : List (String × Json)) : List ImportIssue :=
  importFields.flatMap fun part => duplicateKeyIssues part.1 [] (sectionRows document part.1).zipIdx

/-! ## References -/

/-- `relations` -/
def importRelations : List (String × String × String) :=
  [("departments", "parent_key", "departments"), ("positions", "department_key", "departments"),
    ("assignments", "person_key", "people"), ("assignments", "position_key", "positions"),
    ("shifts", "position_key", "positions"), ("commitments", "assignment_key", "assignments"),
    ("commitments", "shift_key", "shifts")]

/-- `_references` -/
def referenceIssues (document : List (String × Json)) : List ImportIssue :=
  importRelations.flatMap fun relation =>
    ((sectionRows document relation.1).zipIdx.filter fun row =>
      rowField row.1 relation.2.1 ≠ .null ∧ indexed document relation.2.2 (rowField row.1 relation.2.1) = none).map
        fun row => ⟨"unknown_reference", "/" ++ relation.1 ++ "/" ++ toString row.2 ++ "/" ++ relation.2.1⟩

/-- The `while` of `_ancestry`, which turns at most as often as `visited` may still grow. -/
def ancestryIssues (document : List (String × Json)) (location : String) : Nat → List Json → Json → List ImportIssue
  | 0, _, _ => []
  | turns + 1, visited, parent =>
    match indexed document "departments" parent with
    | none => []
    | some row =>
      if parent ∈ visited then [⟨"department_cycle", location⟩]
      else if visited.length ≥ maxAncestry then [⟨"department_depth", location⟩]
      else ancestryIssues document location turns (parent :: visited) (rowField row "parent_key")

/-- `_ancestry` -/
def departmentIssues (document : List (String × Json)) : List ImportIssue :=
  (sectionRows document "departments").zipIdx.flatMap fun row =>
    ancestryIssues document ("/departments/" ++ toString row.2 ++ "/parent_key") maxAncestry
      [rowField row.1 "key"] (rowField row.1 "parent_key")

/-- `_unique_pairs` -/
def pairIssues (first second name code : String) : List (Json × Json) → List (Json × Nat) → List ImportIssue
  | _, [] => []
  | seen, (row, number) :: rows =>
    let pair := (rowField row first, rowField row second)
    (if pair ∈ seen then [⟨code, "/" ++ name ++ "/" ++ toString number⟩] else []) ++
      pairIssues first second name code (pair :: seen) rows

/-- `_commitments` -/
def commitmentIssues (document : List (String × Json)) : List ImportIssue :=
  let rows := sectionRows document "commitments"
  let assignment (row : Json) := indexed document "assignments" (rowField row "assignment_key")
  let shift (row : Json) := indexed document "shifts" (rowField row "shift_key")
  let count (key : Json) := rows.countP fun row => (shift row).isSome ∧ rowField row "shift_key" = key
  ((rows.zipIdx.filter fun row => (assignment row.1).any fun assigned => (shift row.1).any fun shift =>
      rowField assigned "position_key" ≠ rowField shift "position_key").map
    fun row => ⟨"position_mismatch", "/commitments/" ++ toString row.2 ++ "/assignment_key"⟩) ++
  ((sectionRows document "shifts").zipIdx.filter fun row =>
      match rowField row.1 "capacity" with
      | .int capacity => (count (rowField row.1 "key") : Int) > capacity
      | _ => false).map fun row => ⟨"capacity_exceeded", "/shifts/" ++ toString row.2 ++ "/capacity"⟩

/-! ## Times -/

/-- `astimezone(UTC)`, in microseconds from the first day of the calendar;
`none` where it overflows. -/
def utcInstant (stamp : Iso.Stamp) : Option Int :=
  let wall : Int :=
    ((ymdToOrd stamp.date.year stamp.date.month stamp.date.day - 1) * microsPerDay + stamp.time.micros : Nat)
  (stamp.time.offset.map fun offset => wall - offset).filter fun utc => 0 ≤ utc ∧ utc < maxMicros

/-- `instant.astimezone(zone).utcoffset()`; `none` where it overflows. -/
def zoneOffset (zone : Int → Int) (stamp : Iso.Stamp) : Option Int :=
  (utcInstant stamp).bind fun utc => if 0 ≤ utc + zone utc ∧ utc + zone utc < maxMicros then some (zone utc) else none

/-- The `try` of `_times` for one shift: the issues added, and whether it failed after them. -/
def shiftTimeIssues (zone : Int → Int) (location : String) (start ends : Iso.Stamp) : List ImportIssue :=
  let failed : List ImportIssue := [⟨"invalid_field", location⟩]
  let mismatch (name : String) (stamp : Iso.Stamp) (offset : Int) : List ImportIssue :=
    if some offset = stamp.time.offset then [] else [⟨"time_zone_mismatch", location ++ "/" ++ name⟩]
  match utcInstant ends, utcInstant start with
  | some endsAt, some startsAt =>
    (if endsAt ≤ startsAt then [⟨"invalid_interval", location ++ "/ends_at"⟩] else []) ++
      match zoneOffset zone start with
      | none => failed
      | some startOffset => mismatch "starts_at" start startOffset ++
        match zoneOffset zone ends with
        | none => failed
        | some endOffset => mismatch "ends_at" ends endOffset
  | _, _ => failed

/-- `_times` -/
def timeIssues (lib : ImportPrimitives) (document : List (String × Json)) : List ImportIssue :=
  let text (value : Json) : String := match value with | .str s => s | _ => ""
  let scope := (Json.get? "scope" document).getD .null
  match lib.zone (text (rowField scope "time_zone")) with
  | none => [⟨"invalid_time_zone", "/scope/time_zone"⟩]
  | some zone => (sectionRows document "shifts").zipIdx.flatMap fun row =>
    match importInstant (text (rowField row.1 "starts_at")), importInstant (text (rowField row.1 "ends_at")) with
    | some start, some ends => shiftTimeIssues zone ("/shifts/" ++ toString row.2) start ends
    | _, _ => []

/-! ## Validation -/

/-- The issues of a decoded document. -/
def documentIssues (lib : ImportPrimitives) (document : List (String × Json)) : List ImportIssue :=
  if structureIssues lib document ≠ [] then structureIssues lib document
  else
    indexIssues document ++ referenceIssues document ++ departmentIssues document ++
      pairIssues "person_key" "position_key" "assignments" "duplicate_assignment" []
        (sectionRows document "assignments").zipIdx ++
      pairIssues "assignment_key" "shift_key" "commitments" "duplicate_commitment" []
        (sectionRows document "commitments").zipIdx ++
      commitmentIssues document ++ timeIssues lib document

/-- `validate_import_bytes` -/
def validateImportBytes (lib : ImportPrimitives) (raw : ByteArray) : ImportValidationReport :=
  match decodeImport lib raw with
  | .error issue => ⟨.invalid, [issue], [], false⟩
  | .ok document =>
    let issues := documentIssues lib document
    if issues = [] then ⟨.valid, [], importFields.map fun part => (part.1, (sectionRows document part.1).length), false⟩
    else ⟨.invalid, issues.take maxImportIssues, [], maxImportIssues < issues.length⟩

/-! ## What a valid proposal is -/

theorem get?_isSome {name : String} {members : List (String × Json)} :
    (Json.get? name members).isSome ↔ name ∈ members.map Prod.fst := by
  rw [Json.get?, ← not_iff_not, Option.not_isSome_iff_eq_none, List.lookup_eq_none_iff]
  simp only [bne_iff_ne, List.mem_map, not_exists, not_and]
  exact ⟨fun h member hm same => h member hm same.symm, fun h member hm same => h member hm same.symm⟩

theorem closedIssues_eq_nil {value : List (String × Json)} {fields : List String} {location : String} :
    closedIssues value fields location = [] ↔ ∀ name, name ∈ value.map Prod.fst ↔ name ∈ fields := by
  unfold closedIssues
  rw [List.append_eq_nil_iff, List.map_eq_nil_iff, List.filter_eq_nil_iff]
  constructor
  · rintro ⟨present, known⟩ name
    constructor
    · intro hn
      obtain ⟨member, hm, rfl⟩ := List.mem_map.mp hn
      by_contra unknown
      have notAll : ¬ (value.all fun member => member.1 ∈ fields) = true := fun all =>
        unknown (of_decide_eq_true (List.all_eq_true.mp all member hm))
      rw [if_neg notAll] at known
      cases known
    · intro hn
      simpa using present name hn
  · intro same
    refine ⟨fun name hn => by simpa using (same name).mpr hn, if_pos ?_⟩
    exact List.all_eq_true.mpr fun member hm => decide_eq_true ((same member.1).mp (List.mem_map_of_mem hm))

/-- A record without issues is an object of exactly the fields. -/
theorem recordIssues_eq_nil {lib : ImportPrimitives} {fields : List (String × ImportKind)}
    {location : String} {value : Json} (h : recordIssues lib fields location value = []) :
    ∃ members, value = .obj members ∧ ∀ name, name ∈ members.map Prod.fst ↔ name ∈ fields.map Prod.fst := by
  cases value with
  | obj members => exact ⟨members, rfl, closedIssues_eq_nil.mp (List.append_eq_nil_iff.mp h).1⟩
  | null => cases h
  | bool b => cases h
  | int n => cases h
  | float r => cases h
  | str s => cases h
  | arr vs => cases h

/-- The rows of a section without issues. -/
theorem sectionIssues_eq_nil {lib : ImportPrimitives} {name : String}
    {fields : List (String × ImportKind)} {value : Json}
    (h : sectionIssues lib name fields value = []) :
    ∃ rows, value = .arr rows ∧ ∀ row ∈ rows, ∃ members, row = .obj members ∧
      ∀ name, name ∈ members.map Prod.fst ↔ name ∈ fields.map Prod.fst := by
  cases value with
  | arr rows =>
    refine ⟨rows, rfl, fun row hr => ?_⟩
    simp only [sectionIssues] at h
    split at h
    · cases h
    · obtain ⟨number, hn⟩ := List.mem_iff_getElem?.mp hr
      exact recordIssues_eq_nil (List.flatMap_eq_nil_iff.mp h (row, number) (List.mem_zipIdx_iff_getElem?.mpr hn))
  | null => cases h
  | bool b => cases h
  | int n => cases h
  | float r => cases h
  | str s => cases h
  | obj ms => cases h

/-- Without a repeated key the keys are distinct. -/
theorem duplicateKeyIssues_eq_nil {name : String} {seen : List Json} {rows : List (Json × Nat)}
    (h : duplicateKeyIssues name seen rows = []) :
    (rows.map fun row => rowField row.1 "key").Nodup ∧ ∀ row ∈ rows, rowField row.1 "key" ∉ seen := by
  induction rows generalizing seen with
  | nil => exact ⟨List.nodup_nil, fun _ hr => absurd hr List.not_mem_nil⟩
  | cons row rows ih =>
    obtain ⟨row, number⟩ := row
    rw [duplicateKeyIssues] at h
    split at h
    · cases h
    · rename_i fresh
      obtain ⟨nodup, apart⟩ := ih h
      refine ⟨List.nodup_cons.mpr ⟨fun hm => ?_, nodup⟩, fun other ho => ?_⟩
      · obtain ⟨other, ho, same⟩ := List.mem_map.mp hm
        exact apart other ho (same ▸ List.mem_cons_self)
      · rcases List.mem_cons.mp ho with rfl | ho
        · exact fresh
        · exact fun hs => apart other ho (List.mem_cons_of_mem _ hs)

/-- A valid file is an object without issues. -/
theorem validateImportBytes_valid {lib : ImportPrimitives} {raw : ByteArray}
    (h : (validateImportBytes lib raw).status = .valid) :
    ∃ document, loadImport lib raw = some (.obj document) ∧ documentIssues lib document = [] ∧
      (validateImportBytes lib raw).issues = [] ∧ (validateImportBytes lib raw).issuesTruncated = false := by
  unfold validateImportBytes at h ⊢
  cases decoded : decodeImport lib raw with
  | error issue =>
    rw [decoded] at h
    cases h
  | ok document =>
    rw [decoded] at h
    dsimp only at h ⊢
    split at h
    · rename_i none'
      rw [if_pos none']
      refine ⟨document, ?_, none', rfl, rfl⟩
      simp only [decodeImport, bind_eq_ok, getOr_eq_ok, require_eq_ok, Option.filter_eq_some_iff] at decoded
      obtain ⟨_, _, _, _, _, _, _, _, value, ⟨loaded, _⟩, object⟩ := decoded
      split at object
      · rw [loaded, pure_eq_ok.mp object]
      · exact absurd object throw_ne_ok
    · cases h

theorem documentIssues_eq_nil {lib : ImportPrimitives} {document : List (String × Json)}
    (h : documentIssues lib document = []) :
    structureIssues lib document = [] ∧ indexIssues document = [] := by
  unfold documentIssues at h
  split at h
  · rename_i issues
    exact absurd h issues
  · rename_i structured
    simp only [List.append_eq_nil_iff] at h
    exact ⟨not_not.mp structured, h.1.1.1.1.1.1⟩

/-! ## A proposal written canonically -/

theorem loadImport_encode {lib : ImportPrimitives} {v : Json}
    (canonical : Json.Canonical v) : loadImport lib v.encode = some v := by
  rw [loadImport, Json.fromUTF8?_encode, Option.bind_some, Json.loads_dumps lib.floatRepr canonical]

theorem data_encode (v : Json) : v.encode.data.toList = v.chars.flatMap String.utf8EncodeChar := by
  rw [Json.encode, Json.dumps, String.toByteArray_ofList, List.utf8Encode, List.toList_data_toByteArray]

/-- The text of a document is decoded to the document if it is not too large nor too deep. -/
theorem decodeImport_encode {lib : ImportPrimitives} {document : List (String × Json)}
    (canonical : Json.Canonical (.obj document))
    (bounded : boundedNumbers (.obj document) = true) (small : Json.size (Json.chars (.obj document)) ≤ maxImportBytes)
    (shallow : (((Json.chars (.obj document)).flatMap String.utf8EncodeChar).foldlM DepthScan.next
      ⟨0, false, false⟩).isSome = true) :
    decodeImport lib (Json.encode (.obj document)) = .ok document := by
  have allowed : depthAllowed (Json.encode (.obj document)) = true := by rw [depthAllowed, data_encode]; exact shallow
  have sized : (Json.encode (.obj document)).size ≤ maxImportBytes := by rw [Json.size_encode]; exact small
  have loaded := @loadImport_encode lib _ canonical
  have unmarked : (Json.dumps (.obj document)).toList.head? ≠ some (Char.ofNat 0xfeff) := by
    rw [Json.dumps, String.toList_ofList]
    have brace : some '{' ≠ some (Char.ofNat 0xfeff) := by decide
    cases document with
    | nil => rw [Json.chars]; exact brace
    | cons member members => rw [Json.chars]; exact brace
  simp only [decodeImport, bind_eq_ok, getOr_eq_ok, require_eq_ok, Option.filter_eq_some_iff,
    loaded, Json.fromUTF8?_encode]
  exact ⟨(), sized, (), allowed, _, rfl, (), unmarked, _, ⟨rfl, bounded⟩, rfl⟩

end Maru.Workforce
