import Maru.Framework.Calendar
import Maru.Scheduling.Candidates

/-!
# Service days and occurrences

`scheduling/day_commands.py` and `scheduling/occurrence_commands.py`. A day and an occurrence are
an aggregate with its revisions (`Register`); the commands create one, append a revision or retire
it. The editions, people, programme items and reservations that the commands read are rows here
too, and so what the owners answer is read from them (`Metadata.world`); the policy's decisions are
arguments (`Surroundings`).
-/

namespace Maru.Scheduling.Metadata

open Calendar (microsPerDay)

/-! ## Registers -/

/-- `_AttributedSchedulingEvidence` of an aggregate's version. -/
structure Revision (ρ : Type) where
  organizationId : Uuid
  editionId : Uuid
  actorId : Uuid
  occurredAt : Int
  reason : String
  parentId : Uuid
  sequence : Nat
  lifecycle : SchedulingLifecycle
  content : ρ

/-- `sch_day_revision_sequence_uq` and `sch_occurrence_revision_uq` -/
def Revision.key {ρ : Type} (revision : Revision ρ) : Uuid × Nat := (revision.parentId, revision.sequence)

structure Register (δ ρ : Type) where
  aggregates : Table (Aggregate.id (δ := δ))
  revisions : Table (Revision.key (ρ := ρ))

/-- What a write knows of its transaction: its time beside `_CommandTransaction`. -/
structure Evidence extends CommandTransaction where
  occurredAt : Int

def maxRevisions : Nat := 1000

namespace Register

variable {δ ρ : Type} (register : Register δ ρ) (context : Evidence)

def empty : Register δ ρ := ⟨∅, ∅⟩

/-- `objects.filter(**context.ownership()).count()` -/
def retained : Nat :=
  register.aggregates.rows.countP fun aggregate =>
    aggregate.organizationId = context.request.organizationId ∧ aggregate.editionId = context.request.editionId

/-- `sequence=F("day__aggregate_version")` -/
def isCurrent (revision : Revision ρ) : Bool :=
  (register.aggregates.get? revision.parentId).any fun aggregate => aggregate.aggregateVersion = revision.sequence

/-- The active revisions that are current, in the order of their aggregates, without those
of one that is left out. -/
def current (excluding : Option Uuid) : List (Revision ρ) :=
  sortBy (·.parentId) (register.revisions.rows.filter fun revision =>
    revision.organizationId = context.request.organizationId ∧ revision.editionId = context.request.editionId ∧
      register.isCurrent revision ∧ revision.lifecycle = .active ∧ excluding ≠ some revision.parentId)

/-- `_day_revision` and `_revision`: the row of the aggregate's version. -/
def revisionOf (aggregate : Aggregate δ) (content : ρ) : Revision ρ where
  organizationId := context.request.organizationId
  editionId := context.request.editionId
  actorId := context.request.actorId
  occurredAt := context.occurredAt
  reason := context.request.reason
  parentId := aggregate.id
  sequence := aggregate.aggregateVersion
  lifecycle := aggregate.lifecycle
  content := content

def append (aggregate : Aggregate δ) (content : ρ) : Except SchedulingCommandError (Register δ ρ) := do
  let revisions ← getOr (.integrity "sequence") (register.revisions.insert? (revisionOf context aggregate content))
  return { register with revisions }

/-- Create an aggregate with its first revision. -/
def create (id : Uuid) (detail : δ) (content : ρ) : Except SchedulingCommandError (Register δ ρ) := do
  let aggregate : Aggregate δ := {
    id, organizationId := context.request.organizationId, editionId := context.request.editionId, aggregateVersion := 1,
    lifecycle := .active, detail }
  let aggregates ← getOr (.integrity "pkey") (register.aggregates.insert? aggregate)
  ({ register with aggregates } : Register δ ρ).append context aggregate content

/-- `_locked_day` and `_locked_occurrence` -/
def locked (id : Uuid) (expected : Int) : Except SchedulingCommandError (Aggregate δ) := do
  let aggregate ← getOr .unavailable ((register.aggregates.get? id).filter fun aggregate =>
    aggregate.organizationId = context.request.organizationId ∧ aggregate.editionId = context.request.editionId)
  require ((aggregate.aggregateVersion : Int) = expected) .versionConflict
  require (aggregate.lifecycle = .active) .lifecycleConflict
  return aggregate

/-- Save the aggregate with its next version, and append the revision. -/
def advance (aggregate : Aggregate δ) (lifecycle : SchedulingLifecycle) (content : ρ) :
    Except SchedulingCommandError (Register δ ρ × Aggregate δ) := do
  let aggregate := { aggregate with aggregateVersion := aggregate.aggregateVersion + 1, lifecycle }
  let register ← ({ register with aggregates := register.aggregates.save aggregate } : Register δ ρ).append context
    aggregate content
  return (register, aggregate)

/-- Retire an aggregate with what its last revision says. -/
def retire (aggregate : Aggregate δ) : Except SchedulingCommandError (Register δ ρ × Aggregate δ) := do
  let latest ← getOr .unavailable (register.revisions.rows.find? fun revision =>
    revision.organizationId = context.request.organizationId ∧ revision.editionId = context.request.editionId ∧
      revision.parentId = aggregate.id ∧ revision.sequence = aggregate.aggregateVersion)
  register.advance context aggregate .retired latest.content

end Register

/-! ## Days and occurrences -/

/-- What a revision of a service day says. -/
structure DayContent where
  label : String
  window : SchedulingWindow
  precisionMinutes : Int
  editionVersion : Nat

/-- What a revision of an occurrence says. -/
structure OccurrenceContent where
  groupKey : Option Uuid
  groupSequence : Option Int

abbrev SchedulingServiceDayRevision := Revision DayContent

abbrev SchedulingOccurrenceRevision := Revision OccurrenceContent

inductive EditionLifecycle
  | draft | preparing | ready | live | closing | archived | cancelled
deriving DecidableEq

/-- `_PLANNING_LIFECYCLES` -/
def EditionLifecycle.acceptsSchedulingWrites : EditionLifecycle → Bool
  | .draft | .preparing | .ready | .live => true
  | .closing | .archived | .cancelled => false

/-- Dates are days since the epoch, in the local time of the zone. -/
structure EventEdition where
  id : Uuid
  organizationId : Uuid
  seriesOrganizationId : Uuid
  aggregateVersion : Nat
  startsOn : Int
  endsOn : Int
  timeZone : String
  lifecycle : EditionLifecycle

structure ProgrammeItem where
  id : Uuid
  organizationId : Uuid
  editionId : Uuid
  active : Bool

structure VenueSchedulingBinding where
  organizationId : Uuid
  editionId : Uuid
  occurrenceId : Uuid
  bookingId : Uuid
  bookingActive : Bool

/-- The rows that the commands read and write; `people` are the active verified persons. -/
structure Rows where
  editions : Table EventEdition.id
  people : Uuid → Bool
  items : Table ProgrammeItem.id
  bindings : Table VenueSchedulingBinding.bookingId
  days : Register Unit DayContent
  occurrences : Register Uuid OccurrenceContent

/-- `resolve_scheduling_edition_reference` -/
def Rows.edition? (rows : Rows) (organizationId editionId : Uuid) : Option EventEdition :=
  (rows.editions.get? editionId).filter fun edition =>
    edition.organizationId = organizationId ∧ edition.seriesOrganizationId = organizationId

/-! ## Bounds of an edition -/

/-- The instants of local times as the language and the database know them. Both know the local
times that have one instant. -/
structure Zones where
  /-- `utcoffset` of a local time, by its fold; none for a zone that is not found. -/
  utcoffset : String → Option (Int → Bool → Int)
  /-- The offset of an instant, by which `astimezone` writes it. -/
  offsetAt : String → Int → Int
  /-- `timestamp AT TIME ZONE zone` -/
  atTimeZone : String → Int → Option Int
  agree : ∀ zone offset local_, utcoffset zone = some offset → offset local_ false = offset local_
    true → local_ - offset local_ false + offsetAt zone (local_ - offset local_ false) = local_ →
    atTimeZone zone local_ = some (local_ - offset local_ false)

structure EditionTimeEnvelopeReference where
  version : Nat
  startsAt : Int
  endsAt : Int

/-- `resolve_edition_time_envelope_reference` -/
def resolveEditionTimeEnvelopeReference (zones : Zones) (rows : Rows)
    (organizationId editionId : Uuid) : Option EditionTimeEnvelopeReference := do
  let edition ← rows.edition? organizationId editionId
  let offset ← zones.utcoffset edition.timeZone
  let firstLocal := edition.startsOn * microsPerDay
  let finalLocal := (edition.endsOn + 1) * microsPerDay
  let start := firstLocal - offset firstLocal false
  let stop := finalLocal - offset finalLocal false
  guard (1 ≤ edition.aggregateVersion ∧ start < stop ∧
    start + zones.offsetAt edition.timeZone start = firstLocal ∧
    stop + zones.offsetAt edition.timeZone stop = finalLocal ∧
    offset firstLocal false = offset firstLocal true ∧ offset finalLocal false = offset finalLocal true)
  return ⟨edition.aggregateVersion, start, stop⟩

/-! ## Inputs -/

structure SchedulingServiceDayInput where
  label : String
  window : SchedulingWindow
  precisionMinutes : Int

def SchedulingServiceDayInput.normalized (lib : Primitives) (day : SchedulingServiceDayInput) :
    Except SchedulingCommandError SchedulingServiceDayInput := do
  let label ← normalizedText lib day.label maxTitleLength
  let window ← checked (normalizeSchedulingWindow day.window)
  let precisionMinutes ← checked (requireSchedulingPrecision day.precisionMinutes)
  return { label, window, precisionMinutes }

structure SchedulingOccurrenceInput where
  itemId : Uuid
  groupKey : Option Uuid
  groupSequence : Option Int

def SchedulingOccurrenceInput.normalized (occurrence : SchedulingOccurrenceInput) :
    Except SchedulingCommandError SchedulingOccurrenceInput := do
  if occurrence.groupKey.isNone then
    require (occurrence.groupSequence = none) (.invalid { message := "A group sequence requires an explicit group." })
  else
    require (occurrence.groupSequence.any fun sequence : Int => 1 ≤ sequence ∧ sequence ≤ maxOccurrences)
      (.invalid { message := "Supply a positive bounded group sequence." })
  return occurrence

/-! ## Commands -/

def manageDays : String := "scheduling.manage_service_days"

def manageOccurrences : String := "scheduling.manage_occurrences"

def maxServiceDays : Nat := 32

def maxRetainedServiceDays : Nat := 128

/-- What the policy decides while a command runs, how the programme answers its query, the text of
an instant, the time of the transaction and the identifiers that it draws. -/
structure Surroundings where
  allows : AuthorizationCheck → (capability : String) → Bool
  programme : Except SchedulingCommandError Unit
  isoformat : Int → String
  occurredAt : Int
  objectId : Uuid
  receiptId : Uuid

/-- `authorize_scheduling_scope` over the rows. -/
def Rows.world (rows : Rows) (sur : Surroundings) (request : SchedulingCommandRequest) : World where
  editionKnown := (rows.edition? request.organizationId request.editionId).isSome
  authorize check capability := do
    let edition ← rows.edition? request.organizationId request.editionId
    guard (rows.people request.actorId ∧ sur.allows check capability)
    return ⟨edition.lifecycle.acceptsSchedulingWrites⟩

section

variable (lib : Primitives) (zones : Zones) (sur : Surroundings) (request : SchedulingCommandRequest)

/-- `_payload` of the day commands -/
def dayPayload (day : SchedulingServiceDayInput) (expectedVersion : Int) (dayId : Option Uuid) : Json :=
  .obj [("day_id", (dayId.map fun id => Json.str id.text).getD .null),
    ("ends_at", .str (sur.isoformat day.window.endsAt)), ("expected_version", .int expectedVersion),
    ("label", .str day.label), ("precision_minutes", .int day.precisionMinutes),
    ("starts_at", .str (sur.isoformat day.window.startsAt))]

/-- `_prepare_day` -/
def prepareDay (store : Store Rows) : Except SchedulingCommandError (Rows × EditionTimeEnvelopeReference) := do
  let envelope ← getOr .unavailable
    (resolveEditionTimeEnvelopeReference zones store.rows request.organizationId request.editionId)
  return (store.rows, envelope)

/-- `_validate_current_day` -/
def validateCurrentDay (rows : Rows) (context : Evidence) (intent : SchedulingServiceDayInput)
    (envelope : EditionTimeEnvelopeReference) (excluding : Option Uuid) : Except SchedulingCommandError Unit := do
  require (envelope.startsAt ≤ intent.window.startsAt ∧ intent.window.endsAt ≤ envelope.endsAt) .unavailable
  let current := (rows.days.current context excluding).take (maxServiceDays + 1)
  require (current.length < maxServiceDays) .limit
  require (∀ row ∈ current, schedulingWindowsOverlap intent.window row.content.window = false) .unavailable

/-- What a day's revision says of the input. -/
def SchedulingServiceDayInput.content (day : SchedulingServiceDayInput) (editionVersion : Nat) : DayContent :=
  ⟨day.label, day.window, day.precisionMinutes, editionVersion⟩

def createSchedulingServiceDay (day : SchedulingServiceDayInput) (expectedControlVersion : Int) : Command Rows where
  Intent := SchedulingServiceDayInput
  Prepared := EditionTimeEnvelopeReference
  operation := .dayCreate
  capability := manageDays
  normalize := do
    let _ ← requireVersion expectedControlVersion true
    day.normalized lib
  payload intent := dayPayload sur intent expectedControlVersion none
  prepare _ store := prepareDay zones request store
  write transaction intent envelope store := do
    let context : Evidence := { transaction with occurredAt := sur.occurredAt }
    require ((context.priorControlVersion : Int) = expectedControlVersion) .versionConflict
    validateCurrentDay store.rows context intent envelope none
    require (store.rows.days.retained context < maxRetainedServiceDays) .limit
    let days ← store.rows.days.create context sur.objectId () (intent.content envelope.version)
    return ({ store.rows with days }, sur.objectId, 1)

def reviseSchedulingServiceDay (dayId : Uuid) (day : SchedulingServiceDayInput)
    (expectedVersion : Int) : Command Rows where
  Intent := SchedulingServiceDayInput
  Prepared := EditionTimeEnvelopeReference
  operation := .dayRevise
  capability := manageDays
  normalize := do
    let _ ← requireVersion expectedVersion
    day.normalized lib
  payload intent := dayPayload sur intent expectedVersion (some dayId)
  prepare _ store := prepareDay zones request store
  write transaction intent envelope store := do
    let context : Evidence := { transaction with occurredAt := sur.occurredAt }
    let record ← store.rows.days.locked context dayId expectedVersion
    require (record.aggregateVersion < maxRevisions) .limit
    validateCurrentDay store.rows context intent envelope (some dayId)
    let (days, record) ← store.rows.days.advance context record record.lifecycle (intent.content envelope.version)
    return ({ store.rows with days }, record.id, record.aggregateVersion)

def retireSchedulingServiceDay (dayId : Uuid) (expectedVersion : Int) : Command Rows where
  Intent := Uuid
  Prepared := Unit
  operation := .dayRetire
  capability := manageDays
  normalize := do
    let _ ← requireVersion expectedVersion
    return dayId
  payload identifier := .obj [("day_id", .str identifier.text), ("expected_version", .int expectedVersion)]
  prepare _ store := return (store.rows, ())
  write transaction identifier _ store := do
    let context : Evidence := { transaction with occurredAt := sur.occurredAt }
    let record ← store.rows.days.locked context identifier expectedVersion
    let (days, record) ← store.rows.days.retire context record
    return ({ store.rows with days }, record.id, record.aggregateVersion)

/-- `_source` -/
def source (intent : SchedulingOccurrenceInput) (store : Store Rows) : Except SchedulingCommandError (Rows × Unit) := do
  sur.programme
  let item ← getOr .unavailable ((store.rows.items.get? intent.itemId).filter fun item =>
    item.organizationId = request.organizationId ∧ item.editionId = request.editionId)
  require item.active .unavailable
  return (store.rows, ())

/-- `_payload` of the occurrence commands -/
def occurrencePayload (intent : SchedulingOccurrenceInput) (expectedVersion : Int) (occurrenceId : Option Uuid) : Json :=
  .obj [("expected_version", .int expectedVersion),
    ("group_key", (intent.groupKey.map fun key => Json.str key.text).getD .null),
    ("group_sequence", (intent.groupSequence.map Json.int).getD .null), ("item_id", .str intent.itemId.text),
    ("occurrence_id", (occurrenceId.map fun id => Json.str id.text).getD .null)]

/-- `_group_available` -/
def groupAvailable (rows : Rows) (context : Evidence) (intent : SchedulingOccurrenceInput)
    (excluding : Option Uuid) : Except SchedulingCommandError Unit :=
  require (intent.groupKey = none ∨ ∀ row ∈ rows.occurrences.current context excluding,
    ¬ (row.content.groupKey = intent.groupKey ∧ row.content.groupSequence = intent.groupSequence)) .unavailable

/-- What an occurrence's revision says of the input. -/
def SchedulingOccurrenceInput.content (occurrence : SchedulingOccurrenceInput) : OccurrenceContent :=
  ⟨occurrence.groupKey, occurrence.groupSequence⟩

def createSchedulingOccurrence (occurrence : SchedulingOccurrenceInput)
    (expectedControlVersion : Int) : Command Rows where
  Intent := SchedulingOccurrenceInput
  Prepared := Unit
  operation := .occurrenceCreate
  capability := manageOccurrences
  normalize := do
    let _ ← requireVersion expectedControlVersion true
    occurrence.normalized
  payload intent := occurrencePayload intent expectedControlVersion none
  prepare intent store := source sur request intent store
  write transaction intent _ store := do
    let context : Evidence := { transaction with occurredAt := sur.occurredAt }
    require ((context.priorControlVersion : Int) = expectedControlVersion) .versionConflict
    require (store.rows.occurrences.retained context < maxOccurrences) .limit
    groupAvailable store.rows context intent none
    let occurrences ← store.rows.occurrences.create context sur.objectId intent.itemId intent.content
    return ({ store.rows with occurrences }, sur.objectId, 1)

def reviseSchedulingOccurrence (occurrenceId : Uuid) (occurrence : SchedulingOccurrenceInput)
    (expectedVersion : Int) : Command Rows where
  Intent := SchedulingOccurrenceInput
  Prepared := Unit
  operation := .occurrenceRevise
  capability := manageOccurrences
  normalize := do
    let _ ← requireVersion expectedVersion
    occurrence.normalized
  payload intent := occurrencePayload intent expectedVersion (some occurrenceId)
  prepare intent store := source sur request intent store
  write transaction intent _ store := do
    let context : Evidence := { transaction with occurredAt := sur.occurredAt }
    let record ← store.rows.occurrences.locked context occurrenceId expectedVersion
    require (record.detail = intent.itemId) .unavailable
    require (record.aggregateVersion < maxRevisions) .limit
    groupAvailable store.rows context intent (some occurrenceId)
    let (occurrences, record) ← store.rows.occurrences.advance context record record.lifecycle intent.content
    return ({ store.rows with occurrences }, record.id, record.aggregateVersion)

/-- `require_no_active_scheduling_reservation` -/
def requireNoActiveSchedulingReservation (rows : Rows)
    (organizationId editionId occurrenceId : Uuid) : Except SchedulingCommandError Unit := do
  require (rows.edition? organizationId editionId).isSome .dependency
  require (∀ binding ∈ rows.bindings.rows, ¬ (binding.organizationId = organizationId ∧ binding.editionId = editionId ∧
    binding.occurrenceId = occurrenceId ∧ binding.bookingActive = true)) .dependency

def retireSchedulingOccurrence (occurrenceId : Uuid) (expectedVersion : Int) : Command Rows where
  Intent := Uuid
  Prepared := Unit
  operation := .occurrenceRetire
  capability := manageOccurrences
  normalize := do
    let _ ← requireVersion expectedVersion
    return occurrenceId
  payload identifier := .obj [("expected_version", .int expectedVersion), ("occurrence_id", .str identifier.text)]
  prepare _ store := return (store.rows, ())
  write transaction identifier _ store := do
    let context : Evidence := { transaction with occurredAt := sur.occurredAt }
    let record ← store.rows.occurrences.locked context identifier expectedVersion
    requireNoActiveSchedulingReservation store.rows request.organizationId request.editionId identifier
    let (occurrences, record) ← store.rows.occurrences.retire context record
    return ({ store.rows with occurrences }, record.id, record.aggregateVersion)

end

end Maru.Scheduling.Metadata
