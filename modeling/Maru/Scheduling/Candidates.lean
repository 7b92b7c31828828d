import Maru.Framework.Lists
import Maru.Scheduling.CommandSupport

/-!
# Candidates

`scheduling/candidate_commands.py` and `scheduling/placement_commands.py`: a candidate's
revisions, each with its own manifest of which occurrence is placed where, and the six
commands that append one. Identifiers that the source draws are arguments (`Draws`), and so
is what the owners of the programme and the venues answer when a placement is prepared.
-/

namespace Maru.Scheduling

inductive SchedulingLifecycle
  | active
  | retired
deriving DecidableEq

inductive CandidateLifecycle
  | draft
  | archived
deriving DecidableEq

/-- An aggregate that is retained with its revisions; `detail` is what it has for good. -/
structure Aggregate (δ : Type) where
  id : Uuid
  organizationId : Uuid
  editionId : Uuid
  aggregateVersion : Nat
  lifecycle : SchedulingLifecycle
  detail : δ
deriving DecidableEq

/-- An occurrence; its detail is its `programme_item`. -/
abbrev SchedulingOccurrence := Aggregate Uuid

structure SchedulingOccurrenceRevision where
  id : Uuid
  organizationId : Uuid
  editionId : Uuid
  occurrenceId : Uuid
  sequence : Nat

abbrev SchedulingServiceDay := Aggregate Unit

structure SchedulingServiceDayRevision where
  id : Uuid
  organizationId : Uuid
  editionId : Uuid
  dayId : Uuid
  sequence : Nat

structure SchedulingCandidate where
  id : Uuid
  organizationId : Uuid
  editionId : Uuid
  aggregateVersion : Nat
  lifecycle : CandidateLifecycle
  createdById : Uuid

structure SchedulingCandidateRevision where
  id : Uuid
  organizationId : Uuid
  editionId : Uuid
  candidateId : Uuid
  sequence : Nat
  actorId : Uuid
  label : String
  operation : SchedulingOperation
  sourceRevisionId : Option Uuid
  placementCount : Nat
  manifestDigest : String

structure SchedulingPlacementRevision where
  id : Uuid
  organizationId : Uuid
  editionId : Uuid
  introducedIn : Uuid
  occurrenceRevisionId : Uuid
  dayRevisionId : Uuid
  spaceSelectionId : Uuid
  capacityMode : String
  expectedAttendance : Int
  envelope : SchedulingEnvelope
  hostPresenceCount : Nat

structure SchedulingPlacementHostPresence where
  organizationId : Uuid
  editionId : Uuid
  placementId : Uuid
  presence : SchedulingHostPresence

structure SchedulingCandidateMember where
  organizationId : Uuid
  editionId : Uuid
  revisionId : Uuid
  occurrenceId : Uuid
  placementId : Uuid

/-- `sch_manifest_occurrence_uq` -/
def SchedulingCandidateMember.key (member : SchedulingCandidateMember) : Uuid × Uuid :=
  (member.revisionId, member.occurrenceId)

/-- The days and occurrences, which the commands on candidates only read. -/
structure Structure where
  occurrences : List SchedulingOccurrence
  occurrenceRevisions : List SchedulingOccurrenceRevision
  days : List SchedulingServiceDay
  dayRevisions : List SchedulingServiceDayRevision

structure Planning where
  structure_ : Structure
  candidates : Table SchedulingCandidate.id
  revisions : Table SchedulingCandidateRevision.id
  members : Table SchedulingCandidateMember.key
  placements : Table SchedulingPlacementRevision.id
  presences : List SchedulingPlacementHostPresence

def maxCandidates : Nat := 100

def maxCandidateRevisions : Nat := 10000

def viewHistory : String := "scheduling.view_history"

def manageCandidates : String := "scheduling.manage_candidates"

/-- Occurrences with their placements. -/
abbrev Manifest := List (Uuid × Uuid)

/-- `_manifest_digest` -/
def manifestDigest (lib : Primitives) (members : Manifest) : String :=
  schedulingDigest lib (.obj [("members", .arr ((sortBy (·.1.text) members).map fun pair =>
    .obj [("occurrence_id", .str pair.1.text), ("placement_id", .str pair.2.text)]))])

/-- The rows of `_load_manifest`, in their order. -/
def Planning.manifest (planning : Planning) (revision : SchedulingCandidateRevision) : Manifest :=
  sortBy (·.1) ((planning.members.rows.filter fun member =>
    member.organizationId = revision.organizationId ∧ member.editionId = revision.editionId ∧
      member.revisionId = revision.id).map fun member => (member.occurrenceId, member.placementId))

/-- `_load_manifest` -/
def loadManifest (lib : Primitives) (planning : Planning) (revision : SchedulingCandidateRevision) :
    Except SchedulingCommandError Manifest := do
  let members := (planning.manifest revision).take (maxOccurrences + 1)
  require (members.length ≤ maxOccurrences ∧ members.length = revision.placementCount ∧
    manifestDigest lib members = revision.manifestDigest) .unavailable
  return members

/-- `_locked_candidate` -/
def lockedCandidate (planning : Planning) (context : CommandTransaction) (candidateId : Uuid) (expectedVersion : Int)
    (terminal : Bool := false) : Except SchedulingCommandError SchedulingCandidate := do
  let candidate ← getOr .unavailable ((planning.candidates.get? candidateId).filter fun candidate =>
    candidate.organizationId = context.request.organizationId ∧ candidate.editionId = context.request.editionId)
  require ((candidate.aggregateVersion : Int) = expectedVersion) .versionConflict
  require (candidate.lifecycle = .draft) .lifecycleConflict
  require (terminal = true ∨ candidate.aggregateVersion < maxCandidateRevisions) .limit
  return candidate

/-- `_current_revision` -/
def currentRevision (planning : Planning) (candidate : SchedulingCandidate) :
    Except SchedulingCommandError SchedulingCandidateRevision :=
  getOr .unavailable (planning.revisions.rows.find? fun revision =>
    revision.organizationId = candidate.organizationId ∧ revision.editionId = candidate.editionId ∧
      revision.candidateId = candidate.id ∧ revision.sequence = candidate.aggregateVersion)

/-- `SchedulingCandidateMember.objects.bulk_create` -/
def createMembers (context : CommandTransaction) (revisionId : Uuid) :
    Table SchedulingCandidateMember.key → Manifest → Except SchedulingCommandError (Table SchedulingCandidateMember.key)
  | members, [] => return members
  | members, (occurrenceId, placementId) :: rest => do
    require (∀ member ∈ members.rows, ¬ (member.revisionId = revisionId ∧ member.placementId = placementId))
      (.integrity "sch_manifest_placement_uq")
    let members ← getOr (.integrity "sch_manifest_occurrence_uq") (members.insert?
      { organizationId := context.request.organizationId, editionId := context.request.editionId,
        revisionId, occurrenceId, placementId })
    createMembers context revisionId members rest

/-- The row that `_append_revision` creates. -/
def newRevision (lib : Primitives) (context : CommandTransaction) (candidate : SchedulingCandidate) (revisionId : Uuid)
    (operation : SchedulingOperation) (label : String) (members : Manifest) (source : Option Uuid) :
    SchedulingCandidateRevision where
  id := revisionId
  organizationId := context.request.organizationId
  editionId := context.request.editionId
  candidateId := candidate.id
  sequence := candidate.aggregateVersion
  actorId := context.request.actorId
  label := label
  operation := operation
  sourceRevisionId := source
  placementCount := members.length
  manifestDigest := manifestDigest lib members

/-- `_append_revision`; `introduce` creates the rows of a new placement. -/
def appendRevision (lib : Primitives) (planning : Planning) (context : CommandTransaction)
    (candidate : SchedulingCandidate) (revisionId : Uuid) (operation : SchedulingOperation) (label : String)
    (members : Manifest) (source : Option Uuid := none)
    (introduce : SchedulingCandidateRevision → Planning → Except SchedulingCommandError Planning := fun _ => pure) :
    Except SchedulingCommandError Planning := do
  require (members.length ≤ maxOccurrences ∧ (members.map Prod.fst).Nodup) .limit
  let revision := newRevision lib context candidate revisionId operation label members source
  require (∀ r ∈ planning.revisions.rows, ¬ (r.candidateId = revision.candidateId ∧ r.sequence = revision.sequence))
    (.integrity "sch_candidate_revision_uq")
  let revisions ← getOr (.integrity "scheduling_schedulingcandidaterevision_pkey") (planning.revisions.insert? revision)
  let planning ← introduce revision { planning with revisions }
  let rows ← createMembers context revisionId planning.members members
  return { planning with members := rows }

/-- `_create_candidate` -/
def createCandidate (planning : Planning) (context : CommandTransaction) (candidateId : Uuid) :
    Except SchedulingCommandError (Planning × SchedulingCandidate) := do
  require ((planning.candidates.rows.countP fun candidate =>
    candidate.organizationId = context.request.organizationId ∧
      candidate.editionId = context.request.editionId) < maxCandidates) .limit
  let candidate : SchedulingCandidate :=
    { id := candidateId, organizationId := context.request.organizationId, editionId := context.request.editionId,
      aggregateVersion := 1, lifecycle := .draft, createdById := context.request.actorId }
  let candidates ← getOr (.integrity "scheduling_schedulingcandidate_pkey") (planning.candidates.insert? candidate)
  return ({ planning with candidates }, candidate)

/-- `_advance` -/
def advance (planning : Planning) (candidate : SchedulingCandidate) (archive : Bool := false) :
    Planning × SchedulingCandidate :=
  let candidate := { candidate with
    aggregateVersion := candidate.aggregateVersion + 1
    lifecycle := if archive then .archived else candidate.lifecycle }
  ({ planning with candidates := planning.candidates.save candidate }, candidate)

/-- `_historical_source` -/
def historicalSource (lib : Primitives) (history : Bool) (request : SchedulingCommandRequest) (revisionId : Uuid)
    (planning : Planning) : Except SchedulingCommandError (SchedulingCandidateRevision × Manifest) := do
  require (history = true) .authorizationDenied
  let revision ← getOr .unavailable ((planning.revisions.get? revisionId).filter fun revision =>
    revision.organizationId = request.organizationId ∧ revision.editionId = request.editionId)
  let members ← loadManifest lib planning revision
  return (revision, members)

/-- The identifiers that a command draws. -/
structure Draws where
  candidateId : Uuid
  revisionId : Uuid
  placementId : Uuid

/-! ## Placements -/

structure SchedulingPlacementInput where
  occurrenceId : Uuid
  occurrenceVersion : Int
  dayId : Uuid
  dayVersion : Int
  spaceSelectionId : Uuid
  envelope : SchedulingEnvelope
  capacityMode : String
  expectedAttendance : Int
  hostPresences : List SchedulingHostPresence

/-- `ValidationError` of a boundary check. -/
def checked {α : Type} : Except ValidationError α → Except SchedulingCommandError α :=
  Except.mapError .invalid

def SchedulingPlacementInput.normalized (input : SchedulingPlacementInput) :
    Except SchedulingCommandError SchedulingPlacementInput := do
  let _ ← requireVersion input.occurrenceVersion
  let _ ← requireVersion input.dayVersion
  let envelope ← checked (normalizeSchedulingEnvelope input.envelope)
  require (input.capacityMode ∈ ["seated", "standing", "table"])
    (.invalid { message := "Use a closed Scheduling capacity mode." })
  require (1 ≤ input.expectedAttendance ∧ input.expectedAttendance ≤ 2 ^ 31 - 1)
    (.invalid { message := "Supply a positive bounded attendance estimate." })
  let hostPresences ← checked (normalizeHostPresences input.hostPresences envelope)
  return { input with envelope, hostPresences }

structure PlacementSources where
  occurrence : SchedulingOccurrenceRevision
  day : SchedulingServiceDayRevision

/-- The revision is the occurrence's current one, and the occurrence is active. -/
def Structure.IsCurrentOccurrence (s : Structure) (revision : SchedulingOccurrenceRevision) : Prop :=
  ∃ occurrence ∈ s.occurrences, occurrence.id = revision.occurrenceId ∧
    occurrence.aggregateVersion = revision.sequence ∧ occurrence.lifecycle = .active

instance (s : Structure) (revision : SchedulingOccurrenceRevision) : Decidable (s.IsCurrentOccurrence revision) :=
  inferInstanceAs (Decidable (∃ _ ∈ _, _))

/-- The revision is the day's current one, and the day is active. -/
def Structure.IsCurrentDay (s : Structure) (revision : SchedulingServiceDayRevision) : Prop :=
  ∃ day ∈ s.days, day.id = revision.dayId ∧ day.aggregateVersion = revision.sequence ∧ day.lifecycle = .active

instance (s : Structure) (revision : SchedulingServiceDayRevision) : Decidable (s.IsCurrentDay revision) :=
  inferInstanceAs (Decidable (∃ _ ∈ _, _))

/-- `_placement_revisions` -/
def placementRevisions (s : Structure) (organizationId editionId : Uuid)
    (intent : SchedulingPlacementInput) : Except SchedulingCommandError PlacementSources := do
  let occurrence ← getOr .unavailable (s.occurrenceRevisions.find? fun revision =>
    revision.organizationId = organizationId ∧ revision.editionId = editionId ∧
      revision.occurrenceId = intent.occurrenceId ∧ (revision.sequence : Int) = intent.occurrenceVersion ∧
      s.IsCurrentOccurrence revision)
  let day ← getOr .unavailable (s.dayRevisions.find? fun revision =>
    revision.organizationId = organizationId ∧ revision.editionId = editionId ∧
      revision.dayId = intent.dayId ∧ (revision.sequence : Int) = intent.dayVersion ∧ s.IsCurrentDay revision)
  return ⟨occurrence, day⟩

/-- `introduce` of `set_scheduling_placement`. -/
def introducePlacement (context : CommandTransaction) (placementId : Uuid) (intent : SchedulingPlacementInput)
    (sources : PlacementSources) (revision : SchedulingCandidateRevision) (planning : Planning) :
    Except SchedulingCommandError Planning := do
  let row : SchedulingPlacementRevision :=
    { id := placementId, organizationId := context.request.organizationId, editionId := context.request.editionId,
      introducedIn := revision.id, occurrenceRevisionId := sources.occurrence.id, dayRevisionId := sources.day.id,
      spaceSelectionId := intent.spaceSelectionId, capacityMode := intent.capacityMode,
      expectedAttendance := intent.expectedAttendance, envelope := intent.envelope,
      hostPresenceCount := intent.hostPresences.length }
  let placements ← getOr (.integrity "scheduling_schedulingplacementrevision_pkey") (planning.placements.insert? row)
  let presences := intent.hostPresences.map fun presence =>
    { organizationId := context.request.organizationId, editionId := context.request.editionId, placementId, presence }
  return { planning with placements, presences := planning.presences ++ presences }

/-! ## The commands -/

section

variable (lib : Primitives) (draws : Draws)

/-- `create_scheduling_candidate` -/
def createSchedulingCandidate (label : String) (expectedControlVersion : Int) : Command Planning where
  Intent := String
  Prepared := Unit
  operation := .candidateCreate
  capability := manageCandidates
  normalize := do
    let _ ← requireVersion expectedControlVersion true
    normalizedText lib label maxTitleLength
  payload title := .obj [("expected_control_version", .int expectedControlVersion), ("label", .str title)]
  prepare _ store := return (store.rows, ())
  write context title _ store := do
    require ((context.priorControlVersion : Int) = expectedControlVersion) .versionConflict
    let (planning, candidate) ← createCandidate store.rows context draws.candidateId
    let planning ← appendRevision lib planning context candidate draws.revisionId .candidateCreate title []
    return (planning, candidate.id, 1)

/-- `copy_scheduling_candidate`; `history` is what the policy says of reading the source. -/
def copySchedulingCandidate (history : Bool) (request : SchedulingCommandRequest) (sourceRevisionId : Uuid)
    (label : String) (expectedControlVersion : Int) : Command Planning where
  Intent := String
  Prepared := SchedulingCandidateRevision × Manifest
  operation := .candidateCopy
  capability := manageCandidates
  normalize := do
    let _ ← requireVersion expectedControlVersion
    normalizedText lib label maxTitleLength
  payload title := .obj [("expected_control_version", .int expectedControlVersion),
    ("label", .str title), ("source_revision_id", .str sourceRevisionId.text)]
  prepare _ store := do
    let prepared ← historicalSource lib history request sourceRevisionId store.rows
    return (store.rows, prepared)
  write context title prepared store := do
    require ((context.priorControlVersion : Int) = expectedControlVersion) .versionConflict
    let (source, members) := prepared
    let (planning, candidate) ← createCandidate store.rows context draws.candidateId
    let planning ← appendRevision lib planning context candidate draws.revisionId .candidateCopy
      title members (some source.id)
    return (planning, candidate.id, 1)

/-- `restore_scheduling_candidate` -/
def restoreSchedulingCandidate (history : Bool) (request : SchedulingCommandRequest)
    (candidateId : Uuid) (sourceRevisionId : Uuid) (expectedVersion : Int) : Command Planning where
  Intent := Uuid
  Prepared := SchedulingCandidateRevision × Manifest
  operation := .candidateRestore
  capability := manageCandidates
  normalize := do
    let _ ← requireVersion expectedVersion
    return sourceRevisionId
  payload identifier := .obj [("candidate_id", .str candidateId.text),
    ("expected_version", .int expectedVersion), ("source_revision_id", .str identifier.text)]
  prepare identifier store := do
    let prepared ← historicalSource lib history request identifier store.rows
    return (store.rows, prepared)
  write context _ prepared store := do
    let candidate ← lockedCandidate store.rows context candidateId expectedVersion
    let (source, members) := prepared
    require (source.candidateId = candidate.id) .unavailable
    let (planning, candidate) := advance store.rows candidate
    let planning ← appendRevision lib planning context candidate draws.revisionId .candidateRestore
      source.label members (some source.id)
    return (planning, candidate.id, candidate.aggregateVersion)

/-- `archive_scheduling_candidate` -/
def archiveSchedulingCandidate (candidateId : Uuid) (expectedVersion : Int) : Command Planning where
  Intent := Uuid
  Prepared := Unit
  operation := .candidateArchive
  capability := manageCandidates
  normalize := do
    let _ ← requireVersion expectedVersion
    return candidateId
  payload identifier := .obj [("candidate_id", .str identifier.text), ("expected_version", .int expectedVersion)]
  prepare _ store := return (store.rows, ())
  write context identifier _ store := do
    let candidate ← lockedCandidate store.rows context identifier expectedVersion true
    let current ← currentRevision store.rows candidate
    let members ← loadManifest lib store.rows current
    let (planning, candidate) := advance store.rows candidate true
    let planning ← appendRevision lib planning context candidate draws.revisionId .candidateArchive current.label members
    return (planning, candidate.id, candidate.aggregateVersion)

/-- `remove_scheduling_placement` -/
def removeSchedulingPlacement (candidateId occurrenceId : Uuid) (expectedVersion : Int) : Command Planning where
  Intent := Uuid
  Prepared := Unit
  operation := .placementRemove
  capability := manageCandidates
  normalize := do
    let _ ← requireVersion expectedVersion
    return occurrenceId
  payload identifier := .obj [("candidate_id", .str candidateId.text),
    ("expected_version", .int expectedVersion), ("occurrence_id", .str identifier.text)]
  prepare _ store := return (store.rows, ())
  write context identifier _ store := do
    let candidate ← lockedCandidate store.rows context candidateId expectedVersion
    let current ← currentRevision store.rows candidate
    let members ← loadManifest lib store.rows current
    let remaining := members.filter (·.1 ≠ identifier)
    require (remaining.length ≠ members.length) .unavailable
    let (planning, candidate) := advance store.rows candidate
    let planning ← appendRevision lib planning context candidate draws.revisionId .placementRemove
      current.label remaining
    return (planning, candidate.id, candidate.aggregateVersion)

/-- `_payload` of `set_scheduling_placement`; `isoformat` writes the instants. -/
def placementPayload (isoformat : Int → String) (intent : SchedulingPlacementInput)
    (candidateId : Uuid) (expectedVersion : Int) : Json :=
  .obj [("candidate_id", .str candidateId.text), ("capacity_mode", .str intent.capacityMode),
    ("day_id", .str intent.dayId.text), ("day_version", .int intent.dayVersion),
    ("effective_ends_at", .str (isoformat intent.envelope.effectiveEndsAt)),
    ("effective_starts_at", .str (isoformat intent.envelope.effectiveStartsAt)),
    ("expected_attendance", .int intent.expectedAttendance), ("expected_version", .int expectedVersion),
    ("host_presences", .arr (intent.hostPresences.map fun host =>
      .obj [("ends_at", .str (isoformat host.endsAt)), ("host_id", .str host.hostId.text),
        ("starts_at", .str (isoformat host.startsAt))])),
    ("occurrence_id", .str intent.occurrenceId.text), ("occurrence_version", .int intent.occurrenceVersion),
    ("setup_starts_at", .str (isoformat intent.envelope.setupStartsAt)),
    ("space_selection_id", .str intent.spaceSelectionId.text),
    ("teardown_ends_at", .str (isoformat intent.envelope.teardownEndsAt))]

/-- `set_scheduling_placement`; `dependencies` is what the programme and the venues answer. -/
def setSchedulingPlacement (isoformat : Int → String) (dependencies : Except SchedulingCommandError Unit)
    (request : SchedulingCommandRequest) (candidateId : Uuid) (placement : SchedulingPlacementInput)
    (expectedVersion : Int) : Command Planning where
  Intent := SchedulingPlacementInput
  Prepared := PlacementSources
  operation := .placementSet
  capability := manageCandidates
  normalize := do
    let _ ← requireVersion expectedVersion
    placement.normalized
  payload intent := placementPayload isoformat intent candidateId expectedVersion
  prepare intent store := do
    let sources ← placementRevisions store.rows.structure_ request.organizationId request.editionId intent
    dependencies
    return (store.rows, sources)
  write context intent sources store := do
    let candidate ← lockedCandidate store.rows context candidateId expectedVersion
    let previous ← currentRevision store.rows candidate
    let members ← loadManifest lib store.rows previous
    let retained := members.filter (·.1 ≠ intent.occurrenceId)
    require (retained.length < maxOccurrences) .limit
    let (planning, candidate) := advance store.rows candidate
    let planning ← appendRevision lib planning context candidate draws.revisionId .placementSet
      previous.label (retained ++ [(intent.occurrenceId, draws.placementId)]) none
      (introducePlacement context draws.placementId intent sources)
    return (planning, candidate.id, candidate.aggregateVersion)

end

end Maru.Scheduling
