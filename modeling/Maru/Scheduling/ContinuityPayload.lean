import Maru.Framework.IsoOrder
import Maru.Framework.Text
import Maru.Scheduling.ContinuityCodec

/-!
# The continuity payload

`scheduling/continuity_payload.py`: the on-site cards of one audience, their wire form and
its reader. The cards are validated where they are written; the reader writes what it has
read again and compares the bytes.
-/

namespace Maru.Scheduling

open Calendar

def continuityPayloadContract : String := "scheduling.programme-onsite@1"

def maxContinuityEntries : Nat := 7120

def maxContinuityFacts : Nat := 65536

def maxContinuityFactText : Nat := 5000

def titleLength : Nat := 240

/-- `_SOURCE_CONTRACTS` -/
def sourceContract (audience : String) : Option String :=
  if audience = "public" then some "scheduling.public-timetable@1"
  else if audience = "exact_person" then some "scheduling.personal-timetable@1"
  else if audience = "private_operator" then some "scheduling.operator-run-sheet@1"
  else none

def publicFacts : List String :=
  ["summary", "content_note", "room", "venue", "reviewed_copy", "wayfinding_version", "service_day"]

def hostFacts : List String := ["role", "briefing", "host_version", "room", "venue", "wayfinding_version", "service_day"]

def workFacts : List String :=
  ["status", "location", "briefing", "supervision", "department", "position", "commitment_version",
    "demand_version", "demand_status", "rest_until"]

def staffingFacts : List String :=
  ["status", "location", "briefing", "supervision", "demand_version", "required_headcount",
    "retained_work", "programme_link"]

/-- `_KINDS` -/
def kinds (audience : String) : List String :=
  if audience = "public" then ["public_event"]
  else if audience = "exact_person" then
    ["host_presence", "work_claimed", "work_confirmed", "work_removed", "work_completed"]
  else if audience = "private_operator" then ["operator_event", "staffing_demand"]
  else []

/-- `_KEY_PREFIXES` -/
def keyPrefix (kind : String) : Option String :=
  if kind = "public_event" then some "public"
  else if kind = "operator_event" then some "operator"
  else if kind = "host_presence" then some "host"
  else if kind = "work_claimed" ∨ kind = "work_confirmed" ∨ kind = "work_removed" ∨ kind = "work_completed" then
    some "work"
  else if kind = "staffing_demand" then some "demand"
  else none

/-- One code-labelled fact. -/
structure ContinuityFact where
  code : String
  value : String

/-- Setup, delivery start and end, and teardown. -/
structure ContinuityContext where
  setup : DateTime
  deliveryStart : DateTime
  deliveryEnd : DateTime
  teardown : DateTime

/-- One timetable or retained-work card. -/
structure ContinuityEntry where
  key : String
  kind : String
  title : String
  startsAt : DateTime
  endsAt : DateTime
  spaceId : Option Uuid
  dayId : Option Uuid
  context : Option ContinuityContext
  facts : List ContinuityFact

structure ContinuityProjection where
  scope : ContinuityScope
  sourceContract : String
  sourceSha256 : String
  observedAt : DateTime
  zoneName : String
  releaseState : String
  pointerVersion : Option Int
  releaseId : Option Uuid
  publishedAt : Option DateTime
  hostingStatus : String
  workStatus : String
  entries : List ContinuityEntry

/-! ## Entries -/

/-- `_text`. A string here has a UTF-8 form. -/
def text (value : String) (maximum : Nat) (required : Bool) : Except ContinuityError String := do
  require (value.length ≤ maximum ∧ (required = true → strip value ≠ "") ∧
    value.toList.all fun c => ¬ ((c.toNat < 32 ∧ c ∉ ['\t', '\n', '\r']) ∨ c.toNat = 127)) .invalid
  return value

/-- `_fact_codes` -/
def factCodes (kind : String) (scope : ContinuityScope) : Except ContinuityError (List String) :=
  if kind = "public_event" then return publicFacts
  else if kind = "host_presence" then return hostFacts
  else if "work_".toList.isPrefixOf kind.toList then return workFacts
  else if kind = "staffing_demand" then do
    require ("staffing" ∈ scope.layers) .invalid
    return staffingFacts
  else
    let layers := scope.layers.filter (· ≠ "staffing")
    return publicFacts ++ layers ++ (if layers ≠ [] then ["delivery_version"] else []) ++
      if "staffing" ∈ scope.layers then ["programme_link"] else []

/-- The context in UTC, where its phases are in order around the entry's own times. -/
def contextTimes (kind : String) (start finish : DateTime) : Option ContinuityContext →
    Except ContinuityError (Option ContinuityContext)
  | some context => do
    require (kind = "operator_event" ∨ kind = "host_presence") .invalid
    let setup ← utc context.setup
    let deliveryStart ← utc context.deliveryStart
    let deliveryEnd ← utc context.deliveryEnd
    let teardown ← utc context.teardown
    require (setup.wall ≤ deliveryStart.wall ∧ deliveryStart.wall < deliveryEnd.wall ∧
      deliveryEnd.wall ≤ teardown.wall ∧ setup.wall ≤ start.wall ∧ start.wall < finish.wall ∧
      finish.wall ≤ teardown.wall) .invalid
    require (¬ (kind = "operator_event" ∧ (start.wall ≠ setup.wall ∨ finish.wall ≠ teardown.wall))) .invalid
    return some { setup, deliveryStart, deliveryEnd, teardown }
  | none => do
    require (¬ (kind = "operator_event" ∨ kind = "host_presence")) .invalid
    return none

def contextJson : Option ContinuityContext → Json
  | some context => .obj [("delivery_end", .str context.deliveryEnd.isoformat),
      ("delivery_start", .str context.deliveryStart.isoformat), ("setup", .str context.setup.isoformat),
      ("teardown", .str context.teardown.isoformat)]
  | none => .null

/-- The parts of a key between its colons. -/
def keyParts (key : String) : List String := (key.toList.splitOn ':').map String.ofList

def factJson (fact : ContinuityFact) : Json := .obj [("code", .str fact.code), ("value", .str fact.value)]

/-- The loop over an entry's facts; `seen` are the codes before. -/
def factDocuments (allowed : List String) (seen : List String) : List ContinuityFact → Except ContinuityError (List Json)
  | [] => return []
  | fact :: facts => do
    require (fact.code ∈ allowed) .invalid
    require (¬ (fact.code ∈ seen ∧ fact.code ∉ ["retained_work", "programme_link"])) .invalid
    let _ ← text fact.value maxContinuityFactText false
    let rest ← factDocuments allowed (fact.code :: seen) facts
    return factJson fact :: rest

/-- The wire form of an entry whose times are in UTC. -/
def ContinuityEntry.json (entry : ContinuityEntry) (facts : List Json) : Json :=
  .obj [("context", contextJson entry.context), ("day_id", optionalText entry.dayId),
    ("ends_at", .str entry.endsAt.isoformat), ("facts", .arr facts), ("key", .str entry.key),
    ("kind", .str entry.kind), ("space_id", optionalText entry.spaceId),
    ("starts_at", .str entry.startsAt.isoformat), ("title", .str entry.title)]

/-- The kinds of the released programme, which have a place. -/
def releasedKinds : List String := ["public_event", "operator_event", "host_presence"]

/-- `_entry` -/
def entryDocument (entry : ContinuityEntry) (scope : ContinuityScope) : Except ContinuityError Json := do
  require (entry.kind ∈ kinds scope.audience) .invalid
  let parts := keyParts entry.key
  require (parts.head? = keyPrefix entry.kind ∧ parts.length = if entry.kind = "host_presence" then 3 else 2) .invalid
  parts.tail.forM fun identifier => do
    let _ ← uuid (.str identifier)
  let start ← utc entry.startsAt
  let finish ← utc entry.endsAt
  require (start.wall < finish.wall) .invalid
  let context ← contextTimes entry.kind start finish entry.context
  let _ ← optionalUuid (optionalText entry.spaceId)
  let _ ← optionalUuid (optionalText entry.dayId)
  require (if entry.kind ∈ releasedKinds then entry.spaceId ≠ none ∧ entry.dayId ≠ none
    else entry.spaceId = none ∧ entry.dayId = none) .invalid
  require (entry.facts.length ≤ maxContinuityFacts) .invalid
  let allowed ← factCodes entry.kind scope
  let facts ← factDocuments allowed [] entry.facts
  let _ ← text entry.title titleLength true
  return ContinuityEntry.json { entry with startsAt := start, endsAt := finish, context } facts

/-! ## The projection -/

/-- `_layer_states` -/
def ValidLayerStates (projection : ContinuityProjection) : Prop :=
  if projection.scope.audience = "public" then
    projection.hostingStatus = "not_applicable" ∧ projection.workStatus = "not_applicable"
  else if projection.scope.audience = "private_operator" then
    projection.hostingStatus = "not_applicable" ∧
      if "staffing" ∈ projection.scope.layers then
        projection.workStatus = "available" ∨ projection.workStatus = "unadopted"
      else projection.workStatus = "unrequested"
  else
    projection.hostingStatus = projection.releaseState ∧
      (projection.workStatus = "available" ∨ projection.workStatus = "unadopted")

instance : DecidablePred ValidLayerStates := fun _ => by
  unfold ValidLayerStates
  infer_instance

/-- The time of publication in UTC: just a released state has one, not after the observation. -/
def publishedTime (projection : ContinuityProjection) : Except ContinuityError (Option DateTime) :=
  if projection.releaseState = "available" ∨ projection.releaseState = "invalidated" then do
    let published ← getOr .invalid projection.publishedAt
    let published ← utc published
    let observed ← utc projection.observedAt
    require (published.wall ≤ observed.wall) .invalid
    return some published
  else do
    require (projection.publishedAt = none) .invalid
    return none

/-- `_source_metadata`, with the time of publication. -/
def sourceMetadata (lib : Library) (projection : ContinuityProjection) : Except ContinuityError (Option DateTime) := do
  require (ValidReleaseState projection.scope.audience projection.releaseState projection.pointerVersion
    projection.releaseId) .invalid
  require (1 ≤ projection.zoneName.length ∧ projection.zoneName.length ≤ maxZoneText) .invalid
  require (lib.zoneInfo projection.zoneName) .invalid
  publishedTime projection

/-- The loop over the entries: `seen` are the keys before, `factsCount` the facts before. -/
def entryDocuments (projection : ContinuityProjection) (seen : List String) (factsCount : Nat) :
    List ContinuityEntry → Except ContinuityError (List Json)
  | [] => return []
  | row :: rows => do
    let entry ← entryDocument row projection.scope
    require (row.key ∉ seen) .invalid
    require (factsCount + row.facts.length ≤ maxContinuityFacts) .invalid
    require (¬ (row.kind ∈ releasedKinds ∧ projection.releaseState ≠ "available")) .invalid
    require (¬ (("work_".toList.isPrefixOf row.kind.toList ∨ row.kind = "staffing_demand") ∧
      projection.workStatus ≠ "available")) .invalid
    let rest ← entryDocuments projection (row.key :: seen) (factsCount + row.facts.length) rows
    return entry :: rest

/-- A member of an entry's document that is text. -/
def rowText (name : String) : Json → String
  | .obj members =>
    match Json.get? name members with
    | some (.str s) => s
    | _ => ""
  | _ => ""

/-- The order of `sorted(entries, key=lambda row: (str(row["starts_at"]), str(row["key"])))`. -/
def rowLe (a b : Json) : Bool :=
  rowText "starts_at" a < rowText "starts_at" b ∨
    rowText "starts_at" a = rowText "starts_at" b ∧ rowText "key" a ≤ rowText "key" b

def ContinuityProjection.json (projection : ContinuityProjection) (entries : List Json) : Json :=
  .obj [("contract", .str continuityPayloadContract), ("entries", .arr (entries.mergeSort rowLe)),
    ("hosting_status", .str projection.hostingStatus), ("observed_at", .str projection.observedAt.isoformat),
    ("pointer_version", (projection.pointerVersion.map Json.int).getD .null),
    ("published_at", (projection.publishedAt.map fun t => Json.str t.isoformat).getD .null),
    ("release_id", optionalText projection.releaseId), ("release_state", .str projection.releaseState),
    ("scope", projection.scope.json), ("source_contract", .str projection.sourceContract),
    ("source_sha256", .str projection.sourceSha256), ("work_status", .str projection.workStatus),
    ("zone_name", .str projection.zoneName)]

/-- `_document` -/
def payloadDocument (lib : Library) (projection : ContinuityProjection) : Except ContinuityError Json := do
  let _ ← scopeDocument projection.scope
  let published ← sourceMetadata lib projection
  require (some projection.sourceContract = sourceContract projection.scope.audience) .invalid
  require (IsDigest projection.sourceSha256) .invalid
  require (projection.entries.length ≤ maxContinuityEntries) .invalid
  require (ValidLayerStates projection) .invalid
  let entries ← entryDocuments projection [] 0 projection.entries
  let observed ← utc projection.observedAt
  return ContinuityProjection.json { projection with observedAt := observed, publishedAt := published } entries

def encodeContinuityPayload (lib : Library) (projection : ContinuityProjection) :
    Except ContinuityError ByteArray := do
  let document ← payloadDocument lib projection
  let encoded ← canonical document
  require (encoded.size ≤ maxContinuityPayloadBytes) .invalid
  return encoded

/-! ## Reading -/

def payloadKeys : List String :=
  ["contract", "entries", "hosting_status", "observed_at", "pointer_version", "published_at", "release_id",
    "release_state", "scope", "source_contract", "source_sha256", "work_status", "zone_name"]

def entryKeys : List String :=
  ["context", "day_id", "ends_at", "facts", "key", "kind", "space_id", "starts_at", "title"]

def contextKeys : List String := ["delivery_end", "delivery_start", "setup", "teardown"]

def factKeys : List String := ["code", "value"]

def decodedContext (value : Json) : Except ContinuityError (Option ContinuityContext) :=
  if value = .null then return none
  else do
    let context ← objectWith contextKeys value
    let setup ← field "setup" context >>= date
    let deliveryStart ← field "delivery_start" context >>= date
    let deliveryEnd ← field "delivery_end" context >>= date
    let teardown ← field "teardown" context >>= date
    return some { setup, deliveryStart, deliveryEnd, teardown }

def decodedFacts : List Json → Except ContinuityError (List ContinuityFact)
  | [] => return []
  | value :: values => do
    let fact ← objectWith factKeys value
    let code ← field "code" fact >>= string
    let content ← field "value" fact >>= string
    let rest ← decodedFacts values
    return { code, value := content } :: rest

/-- `_decoded_entry` -/
def decodedEntry (value : Json) : Except ContinuityError ContinuityEntry := do
  let entry ← objectWith entryKeys value
  let facts ← field "facts" entry >>= array
  require (facts.length ≤ maxContinuityFacts) .invalid
  let facts ← decodedFacts facts
  let key ← field "key" entry >>= string
  let kind ← field "kind" entry >>= string
  let title ← field "title" entry >>= string
  let startsAt ← field "starts_at" entry >>= date
  let endsAt ← field "ends_at" entry >>= date
  let spaceId ← field "space_id" entry >>= optionalUuid
  let dayId ← field "day_id" entry >>= optionalUuid
  let context ← field "context" entry >>= decodedContext
  return { key, kind, title, startsAt, endsAt, spaceId, dayId, context, facts }

def decodedEntries : List Json → Except ContinuityError (List ContinuityEntry)
  | [] => return []
  | value :: values => do
    let entry ← decodedEntry value
    let rest ← decodedEntries values
    return entry :: rest

def optionalDate (value : Json) : Except ContinuityError (Option DateTime) :=
  if value = .null then return none
  else do
    let result ← date value
    return some result

/-- The fields that the manifest fixes. -/
def expectedFields (manifest : ContinuityManifest) (scope : Json) (observed : DateTime) : List (String × Json) :=
  [("contract", .str continuityPayloadContract), ("scope", scope), ("observed_at", .str observed.isoformat),
    ("zone_name", .str manifest.zoneName), ("release_state", .str manifest.releaseState),
    ("pointer_version", (manifest.pointerVersion.map Json.int).getD .null),
    ("release_id", optionalText manifest.releaseId)]

def decodeContinuityPayload (lib : Library) (payload : ByteArray) (manifest : ContinuityManifest) :
    Except ContinuityError ContinuityProjection := do
  let data ← json lib.floatRepr payload payloadKeys maxContinuityPayloadBytes
  let scope ← scopeDocument manifest.scope
  let observed ← utc manifest.observedAt
  -- A number or a truth value that only equals what is expected is refused here, in the
  -- source by the comparison of the bytes.
  require (∀ f ∈ expectedFields manifest scope observed, Json.get? f.1 data = some f.2) .invalid
  let entries ← field "entries" data >>= array
  require (entries.length ≤ maxContinuityEntries) .invalid
  let sourceContract ← field "source_contract" data >>= string
  let sourceSha256 ← field "source_sha256" data >>= string
  let hostingStatus ← field "hosting_status" data >>= string
  let workStatus ← field "work_status" data >>= string
  let publishedAt ← field "published_at" data >>= optionalDate
  let entries ← decodedEntries entries
  let projection : ContinuityProjection :=
    { scope := manifest.scope, sourceContract, sourceSha256, observedAt := manifest.observedAt,
      zoneName := manifest.zoneName, releaseState := manifest.releaseState,
      pointerVersion := manifest.pointerVersion, releaseId := manifest.releaseId, publishedAt, hostingStatus,
      workStatus, entries }
  let again ← encodeContinuityPayload lib projection
  require (again = payload) .invalid
  return projection

end Maru.Scheduling
