import Maru.Framework.Budget
import Maru.Framework.Dict
import Maru.Scheduling.TimeRules
import Mathlib.Data.Prod.Lex

/-!
# Findings about a candidate

`scheduling/conflicts.py`: the checks of a candidate's placements against the service days,
the programme and the venues. Each check is the list of the calls it makes on `_Findings`,
in their order; `evaluateSchedulingFacts` makes all of them, and stops where `_Findings`
raises.
-/

namespace Maru.Scheduling

open Budget Sweep

def maxConflicts : Nat := 10000

def maxConflictComparisons : Nat := 1000000

def schedulingTimeConflictSource : String := "scheduling.service-day-and-placement@1"

def programmeSchedulingConflictSource : String := "programme.item-and-host-availability@1"

def venuesSchedulingConflictSource : String := "venues.physical-scheduling-dependencies@1"

/-! ## Inputs -/

structure SchedulingOccurrenceFacts where
  id : Uuid
  itemId : Uuid
  selectedVersion : Nat
  currentVersion : Nat
  active : Bool

structure SchedulingDayFacts where
  selectedVersion : Nat
  currentVersion : Nat
  active : Bool
  window : SchedulingWindow
  precisionMinutes : Int

inductive CapacityMode
  | seated
  | standing
  | table
  | unknown (text : String)

structure SchedulingPlacementFacts where
  occurrence : SchedulingOccurrenceFacts
  day : SchedulingDayFacts
  spaceId : Uuid
  envelope : SchedulingEnvelope
  capacityMode : CapacityMode
  expectedAttendance : Int
  hosts : List SchedulingHostPresence
  ownBookingId : Option Uuid := none

inductive ItemLifecycle
  | active
  | retired
deriving DecidableEq

structure ProgrammeSchedulingItem where
  itemId : Uuid
  lifecycle : ItemLifecycle
  hostingRequired : Bool

inductive HostStatus
  | ended
  | inactive
  | unconfirmed
  | notShared
  | outsideEdition
  | unavailable
  | shared
deriving DecidableEq

inductive AvailabilityKind
  | available
  | preferred
deriving DecidableEq

structure ProgrammeHostAvailabilityPeriod where
  window : SchedulingWindow
  kind : AvailabilityKind

structure ProgrammeSchedulingHost where
  hostId : Uuid
  itemId : Uuid
  personKey : Option Uuid
  status : HostStatus
  periods : List ProgrammeHostAvailabilityPeriod

structure ProgrammeSchedulingSnapshot where
  contract : String
  items : List ProgrammeSchedulingItem
  hosts : List ProgrammeSchedulingHost

structure VenueSchedulingSpace where
  selectionId : Uuid
  availabilityVersion : Nat
  active : Bool
  memberIds : List Uuid
  seatedCapacity : Int
  standingCapacity : Int
  tableCapacity : Int
  fireCapacity : Int
  windows : List SchedulingWindow

inductive ConflictGroup
  | setupEffective
  | effectiveTeardown
  | unknown (text : String)
deriving DecidableEq

structure VenueSchedulingBusyPeriod where
  sourceKey : Uuid
  bookingId : Option Uuid
  memberId : Uuid
  conflictGroup : ConflictGroup
  window : SchedulingWindow

structure VenueSchedulingSnapshot where
  contract : String
  spaces : List VenueSchedulingSpace
  busyPeriods : List VenueSchedulingBusyPeriod

/-! ## Findings -/

inductive SchedulingConflictSeverity
  | blocker
  | warning
  | unavailable
deriving DecidableEq

inductive SchedulingConflictCode
  | editionUnavailable
  | dayChanged
  | dayRetired
  | editionBounds
  | dayBounds
  | minuteGrid
  | occurrenceChanged
  | occurrenceRetired
  | programmeUnavailable
  | itemRetired
  | hostRequired
  | hostNotCurrent
  | hostSourceUnavailable
  | hostUnavailable
  | hostOutsideAvailability
  | hostOutsidePreference
  | hostOverlap
  | venueUnavailable
  | venueInactive
  | venueCapacity
  | venueAvailabilityMissing
  | venueHardAvailability
  | candidateRoomOverlap
  | reservedRoomOverlap
  | turnoverOverlap
  | evaluationLimit
deriving DecidableEq

def SchedulingConflictCode.value : SchedulingConflictCode → String
  | .editionUnavailable => "edition_unavailable"
  | .dayChanged => "day_changed"
  | .dayRetired => "day_retired"
  | .editionBounds => "edition_bounds"
  | .dayBounds => "day_bounds"
  | .minuteGrid => "minute_grid"
  | .occurrenceChanged => "occurrence_changed"
  | .occurrenceRetired => "occurrence_retired"
  | .programmeUnavailable => "programme_unavailable"
  | .itemRetired => "item_retired"
  | .hostRequired => "host_required"
  | .hostNotCurrent => "host_not_current"
  | .hostSourceUnavailable => "host_source_unavailable"
  | .hostUnavailable => "host_unavailable"
  | .hostOutsideAvailability => "host_outside_availability"
  | .hostOutsidePreference => "host_outside_preference"
  | .hostOverlap => "host_overlap"
  | .venueUnavailable => "venue_unavailable"
  | .venueInactive => "venue_inactive"
  | .venueCapacity => "venue_capacity"
  | .venueAvailabilityMissing => "venue_availability_missing"
  | .venueHardAvailability => "venue_hard_availability"
  | .candidateRoomOverlap => "candidate_room_overlap"
  | .reservedRoomOverlap => "reserved_room_overlap"
  | .turnoverOverlap => "turnover_overlap"
  | .evaluationLimit => "evaluation_limit"

structure SchedulingFinding where
  sourceCode : String
  code : SchedulingConflictCode
  severity : SchedulingConflictSeverity
  occurrenceId : Option Uuid := none
  otherOccurrenceId : Option Uuid := none
deriving DecidableEq

abbrev FindingCall := Call SchedulingFinding ValidationError

/-- `sorted((left, right), key=str)` -/
def sortedIds (left right : Uuid) : Uuid × Uuid := if right.text < left.text then (right, left) else (left, right)

/-- `findings.add` without an occurrence, or with one. -/
def add (source : String) (code : SchedulingConflictCode) (severity : SchedulingConflictSeverity)
    (occurrenceId : Option Uuid := none) : FindingCall :=
  .add { sourceCode := source, code, severity, occurrenceId }

/-- The finding about two occurrences. -/
def pairFinding (source : String) (code : SchedulingConflictCode)
    (severity : SchedulingConflictSeverity) (occurrenceId otherId : Uuid) : SchedulingFinding :=
  { sourceCode := source, code, severity, occurrenceId := (sortedIds occurrenceId otherId).1,
    otherOccurrenceId := (sortedIds occurrenceId otherId).2 }

/-- `findings.add` with two occurrences. -/
def addPair (source : String) (code : SchedulingConflictCode)
    (severity : SchedulingConflictSeverity) (occurrenceId otherId : Uuid) : FindingCall :=
  .add (pairFinding source code severity occurrenceId otherId)

/-- The calls of an `if` without an `else`. -/
def onlyIf (p : Prop) [Decidable p] (calls : List FindingCall) : List FindingCall := if p then calls else []

/-- `a <= b < c <= d` -/
def Encloses (outer inner : SchedulingWindow) : Prop :=
  outer.startsAt ≤ inner.startsAt ∧ inner.startsAt < inner.endsAt ∧ inner.endsAt ≤ outer.endsAt

instance (outer inner : SchedulingWindow) : Decidable (Encloses outer inner) :=
  inferInstanceAs (Decidable (_ ∧ _))

/-! ## Service days -/

def timeFindings (placement : SchedulingPlacementFacts) (edition : Option SchedulingWindow) : List FindingCall :=
  let occurrence := placement.occurrence
  let day := placement.day
  let envelope := placement.envelope
  let source := schedulingTimeConflictSource
  onlyIf (occurrence.active = false) [add source .occurrenceRetired .blocker occurrence.id] ++
  onlyIf (occurrence.selectedVersion ≠ occurrence.currentVersion)
    [add source .occurrenceChanged .blocker occurrence.id] ++
  onlyIf (day.active = false) [add source .dayRetired .blocker occurrence.id] ++
  onlyIf (day.selectedVersion ≠ day.currentVersion) [add source .dayChanged .blocker occurrence.id] ++
  (match edition with
  | none => []
  | some edition =>
    onlyIf (¬ Encloses edition envelope.whole ∨ ¬ Encloses edition day.window)
      [add source .editionBounds .blocker occurrence.id]) ++
  if ¬ Encloses day.window envelope.whole then [add source .dayBounds .blocker occurrence.id]
  else
    match placementFitsServiceDay envelope day.window day.precisionMinutes with
    | .ok fits => onlyIf (fits = false) [add source .minuteGrid .blocker occurrence.id]
    | .error e => [.refuse e]

/-! ## Hosts -/

/-- The loop of `_covered` behind the cursor. -/
def coveredFrom (endsAt : Int) : Int → List SchedulingWindow → Bool
  | _, [] => false
  | cursor, period :: periods =>
    if period.endsAt ≤ cursor then coveredFrom endsAt cursor periods
    else if cursor < period.startsAt then false
    else if endsAt ≤ period.endsAt then true
    else coveredFrom endsAt period.endsAt periods

def covered (window : SchedulingWindow) (periods : List SchedulingWindow) : Bool :=
  coveredFrom window.endsAt window.startsAt (sortBy SchedulingWindow.startsAt periods)

/-- What a shared calendar says about a required presence. -/
def sharedFindings (occurrence : Uuid) (required : SchedulingWindow)
    (periods : List ProgrammeHostAvailabilityPeriod) : List FindingCall :=
  let source := programmeSchedulingConflictSource
  if covered required (periods.map (·.window)) = false then
    [add source .hostOutsideAvailability .blocker occurrence]
  else
    let preferred := (periods.filter (·.kind = .preferred)).map (·.window)
    onlyIf (preferred ≠ [] ∧ covered required preferred = false)
      [add source .hostOutsidePreference .warning occurrence]

def hostFindings (placement : SchedulingPlacementFacts) (presence : SchedulingHostPresence) :
    Option ProgrammeSchedulingHost → List FindingCall
  | none => [add programmeSchedulingConflictSource .hostSourceUnavailable .unavailable placement.occurrence.id]
  | some host =>
    let source := programmeSchedulingConflictSource
    let occurrence := placement.occurrence
    if host.itemId ≠ occurrence.itemId then [add source .hostSourceUnavailable .unavailable occurrence.id]
    else
      match host.status with
      | .ended | .inactive | .unconfirmed => [add source .hostNotCurrent .blocker occurrence.id]
      | .unavailable => [add source .hostUnavailable .blocker occurrence.id]
      | .notShared | .outsideEdition => [add source .hostSourceUnavailable .unavailable occurrence.id]
      | .shared =>
        if host.personKey = none then [add source .hostSourceUnavailable .unavailable occurrence.id]
        else sharedFindings occurrence.id ⟨presence.startsAt, presence.endsAt⟩ host.periods

/-- `{item.item_id: item for item in programme.items}.get(item_id)`: the last one is kept. -/
def ProgrammeSchedulingSnapshot.item? (programme : ProgrammeSchedulingSnapshot) (itemId : Uuid) :
    Option ProgrammeSchedulingItem :=
  programme.items.reverse.find? (·.itemId = itemId)

/-- `{host.host_id: host for host in programme.hosts}.get(host_id)` -/
def ProgrammeSchedulingSnapshot.host? (programme : ProgrammeSchedulingSnapshot) (hostId : Uuid) :
    Option ProgrammeSchedulingHost :=
  programme.hosts.reverse.find? (·.hostId = hostId)

/-- An occurrence, and when a person has to be there. -/
abbrev Commitment := Uuid × SchedulingWindow

/-- What the first loop of `_programme_findings` finds about one placement. -/
def itemFindings (programme : ProgrammeSchedulingSnapshot) (placement : SchedulingPlacementFacts) : List FindingCall :=
  let source := programmeSchedulingConflictSource
  match programme.item? placement.occurrence.itemId with
  | none => [add source .programmeUnavailable .unavailable placement.occurrence.id]
  | some item =>
    onlyIf (item.lifecycle ≠ .active) [add source .itemRetired .blocker placement.occurrence.id] ++
    onlyIf (item.hostingRequired = true ∧ placement.hosts = [])
      [add source .hostRequired .blocker placement.occurrence.id] ++
    placement.hosts.flatMap fun presence => hostFindings placement presence (programme.host? presence.hostId)

/-- The person behind a presence, if the host is one of the placement's item and known. -/
def personOf (programme : ProgrammeSchedulingSnapshot) (placement : SchedulingPlacementFacts)
    (presence : SchedulingHostPresence) : Option Uuid :=
  match programme.host? presence.hostId with
  | none => none
  | some host => if host.itemId = placement.occurrence.itemId then host.personKey else none

/-- What the same loop appends to `people` for one placement. -/
def commitmentsOf (programme : ProgrammeSchedulingSnapshot) (placement : SchedulingPlacementFacts) :
    List (Uuid × Commitment) :=
  match programme.item? placement.occurrence.itemId with
  | none => []
  | some _ => placement.hosts.filterMap fun presence =>
      (personOf programme placement presence).map fun person =>
        (person, placement.occurrence.id, ⟨presence.startsAt, presence.endsAt⟩)

/-- `people` -/
def people (placements : List SchedulingPlacementFacts) (programme : ProgrammeSchedulingSnapshot) :
    List (Uuid × List Commitment) :=
  Dict.groups (placements.flatMap (commitmentsOf programme))

/-- The inner loop on two commitments of one person. -/
def comparePresences (left right : Commitment) : List FindingCall :=
  .compare :: onlyIf (left.1 ≠ right.1)
    [addPair programmeSchedulingConflictSource .hostOverlap .blocker left.1 right.1]

/-- The sweep over one person's commitments. -/
def personFindings (commitments : List Commitment) : List FindingCall :=
  (sweep (·.2.startsAt) (·.2.endsAt) (sortBy (·.2.startsAt) commitments)).flatMap
    fun p => comparePresences p.1 p.2

def programmeFindings (placements : List SchedulingPlacementFacts) :
    Option ProgrammeSchedulingSnapshot → List FindingCall
  | none => [add programmeSchedulingConflictSource .programmeUnavailable .unavailable]
  | some programme =>
    if programme.contract ≠ programmeSchedulingConflictSource then
      [add programmeSchedulingConflictSource .programmeUnavailable .unavailable]
    else
      placements.flatMap (itemFindings programme) ++
        (people placements programme).flatMap fun person => personFindings person.2

/-! ## Rooms -/

def spaceFindings (placement : SchedulingPlacementFacts) (space : VenueSchedulingSpace) : List FindingCall :=
  let source := venuesSchedulingConflictSource
  let occurrence := placement.occurrence.id
  let limit := match placement.capacityMode with
    | .seated => space.seatedCapacity
    | .standing => space.standingCapacity
    | .table => space.tableCapacity
    | .unknown _ => 0
  onlyIf (space.active = false) [add source .venueInactive .blocker occurrence] ++
  onlyIf (min limit space.fireCapacity < placement.expectedAttendance)
    [add source .venueCapacity .blocker occurrence] ++
  if space.availabilityVersion < 1 then [add source .venueAvailabilityMissing .unavailable occurrence]
  else onlyIf (¬ ∃ window ∈ space.windows, Encloses window placement.envelope.whole)
    [add source .venueHardAvailability .blocker occurrence]

/-- `{space.selection_id: space for space in venues.spaces}.get(space_id)`, if it has members. -/
def VenueSchedulingSnapshot.space? (venues : VenueSchedulingSnapshot) (spaceId : Uuid) : Option VenueSchedulingSpace :=
  (venues.spaces.reverse.find? (·.selectionId = spaceId)).filter (·.memberIds ≠ [])

/-- What the first loop of `_venue_findings` finds about one placement. -/
def roomFindings (venues : VenueSchedulingSnapshot) (placement : SchedulingPlacementFacts) : List FindingCall :=
  match venues.space? placement.spaceId with
  | none => [add venuesSchedulingConflictSource .venueUnavailable .unavailable placement.occurrence.id]
  | some space => spaceFindings placement space

/-- What the same loop appends to `members` for one placement. -/
def membersOf (venues : VenueSchedulingSnapshot) (placement : SchedulingPlacementFacts) :
    List (Uuid × SchedulingPlacementFacts) :=
  match venues.space? placement.spaceId with
  | none => []
  | some space => space.memberIds.map fun member => (member, placement)

/-- `members` -/
def members (placements : List SchedulingPlacementFacts) (venues : VenueSchedulingSnapshot) :
    List (Uuid × List SchedulingPlacementFacts) :=
  Dict.groups (placements.flatMap (membersOf venues))

/-- What `_candidate_pair` finds about two placements that share a member. -/
def comparePlacements (left right : SchedulingPlacementFacts) : List FindingCall :=
  .compare ::
    if roomEnvelopesConflict left.envelope right.envelope then
      [addPair venuesSchedulingConflictSource .candidateRoomOverlap .blocker left.occurrence.id right.occurrence.id]
    else onlyIf (permittedTurnoverWindow left.envelope right.envelope ≠ none)
      [addPair venuesSchedulingConflictSource .turnoverOverlap .warning left.occurrence.id right.occurrence.id]

/-- The sweep over the placements that share one member. -/
def sharingPairs (sharing : List SchedulingPlacementFacts) :
    List (SchedulingPlacementFacts × SchedulingPlacementFacts) :=
  sweep (·.envelope.setupStartsAt) (·.envelope.teardownEndsAt) (sortBy (·.envelope.setupStartsAt) sharing)

/-- `_candidate_pair` on each pair in turn, with the pairs that are in `compared`. -/
def candidatePairs (compared : List (Uuid × Uuid)) :
    List (SchedulingPlacementFacts × SchedulingPlacementFacts) → List FindingCall
  | [] => []
  | (left, right) :: visits =>
    let pair := sortedIds left.occurrence.id right.occurrence.id
    if pair ∈ compared then candidatePairs compared visits
    else comparePlacements left right ++ candidatePairs (pair :: compared) visits

/-- The clique of the envelope that a busy period is held against. -/
def SchedulingEnvelope.clique (envelope : SchedulingEnvelope) : ConflictGroup → Option SchedulingWindow
  | .setupEffective => some envelope.setupEffective
  | .effectiveTeardown => some envelope.effectiveTeardown
  | .unknown _ => none

/-- The placements that a busy period is compared with. -/
def busyPlacements (members : List (Uuid × List SchedulingPlacementFacts))
    (busy : VenueSchedulingBusyPeriod) : List SchedulingPlacementFacts :=
  (Dict.get? members busy.memberId).getD []

/-- The calls of the first loop of `_busy_findings`. -/
def busyCalls (members : List (Uuid × List SchedulingPlacementFacts))
    (busy : VenueSchedulingBusyPeriod) : List FindingCall :=
  match busy.conflictGroup with
  | .unknown _ => [add venuesSchedulingConflictSource .venueUnavailable .unavailable]
  | _ => (busyPlacements members busy).map fun _ => .compare

/-- What a busy period does to a placement: it blocks it, and it touches it. -/
def interaction (busy : VenueSchedulingBusyPeriod) (placement : SchedulingPlacementFacts) :
    Option ((Uuid × Uuid) × Bool × Bool) :=
  if busy.bookingId ≠ none ∧ busy.bookingId = placement.ownBookingId then none
  else (placement.envelope.clique busy.conflictGroup).map fun clique =>
    ((placement.occurrence.id, busy.sourceKey), schedulingWindowsOverlap clique busy.window,
      schedulingWindowsOverlap placement.envelope.whole busy.window)

/-- `interactions` -/
def interactions (members : List (Uuid × List SchedulingPlacementFacts))
    (venues : VenueSchedulingSnapshot) : List ((Uuid × Uuid) × Bool × Bool) :=
  Dict.collect (false, false) (fun previous met => (previous.1 || met.1, previous.2 || met.2))
    (venues.busyPeriods.flatMap fun busy => (busyPlacements members busy).filterMap (interaction busy))

/-- What the second loop of `_busy_findings` finds about one interaction. -/
def interactionFindings : (Uuid × Uuid) × Bool × Bool → List FindingCall
  | ((occurrence, _), blocked, touching) =>
    if blocked then [add venuesSchedulingConflictSource .reservedRoomOverlap .blocker occurrence]
    else onlyIf (touching = true) [add venuesSchedulingConflictSource .turnoverOverlap .warning occurrence]

def busyFindings (members : List (Uuid × List SchedulingPlacementFacts))
    (venues : VenueSchedulingSnapshot) : List FindingCall :=
  venues.busyPeriods.flatMap (busyCalls members) ++ (interactions members venues).flatMap interactionFindings

def venueFindings (placements : List SchedulingPlacementFacts) : Option VenueSchedulingSnapshot → List FindingCall
  | none => [add venuesSchedulingConflictSource .venueUnavailable .unavailable]
  | some venues =>
    if venues.contract ≠ venuesSchedulingConflictSource then
      [add venuesSchedulingConflictSource .venueUnavailable .unavailable]
    else
      let members := members placements venues
      placements.flatMap (roomFindings venues) ++
        candidatePairs [] (members.flatMap fun member => sharingPairs member.2) ++ busyFindings members venues

/-! ## Evaluation -/

/-- All calls of an evaluation. -/
def evaluationCalls (placements : List SchedulingPlacementFacts) (edition : Option SchedulingWindow)
    (programme : Option ProgrammeSchedulingSnapshot) (venues : Option VenueSchedulingSnapshot) : List FindingCall :=
  onlyIf (edition = none) [add schedulingTimeConflictSource .editionUnavailable .unavailable] ++
  placements.flatMap (timeFindings · edition) ++ programmeFindings placements programme ++
  venueFindings placements venues

/-- `str(value)` of an optional identifier. -/
def idText : Option Uuid → String
  | none => "None"
  | some id => id.text

/-- The sort key of a finding. -/
def SchedulingFinding.key (finding : SchedulingFinding) : String ×ₗ String ×ₗ String ×ₗ String :=
  toLex (finding.sourceCode, toLex (finding.code.value,
    toLex (idText finding.occurrenceId, idText finding.otherOccurrenceId)))

/-- An order in which a set is walked; that of a Python set depends on the hashes of a process. -/
structure SetOrder (α : Type) where
  list : Finset α → List α
  nodup : ∀ s, (list s).Nodup
  mem_list : ∀ s a, a ∈ list s ↔ a ∈ s

def evaluationLimit : SchedulingFinding where
  sourceCode := schedulingTimeConflictSource
  code := .evaluationLimit
  severity := .unavailable

/-- The manifest is bounded, and no occurrence is in it twice. -/
def CompleteManifest (placements : List SchedulingPlacementFacts) : Prop :=
  placements.length ≤ maxOccurrences ∧ (placements.map (·.occurrence.id)).Nodup

instance (placements : List SchedulingPlacementFacts) : Decidable (CompleteManifest placements) :=
  inferInstanceAs (Decidable (_ ∧ _))

def evaluateSchedulingFacts (order : SetOrder SchedulingFinding) (placements : List SchedulingPlacementFacts)
    (edition : Option SchedulingWindow) (programme : Option ProgrammeSchedulingSnapshot)
    (venues : Option VenueSchedulingSnapshot) : Except ValidationError (List SchedulingFinding) :=
  if ¬ CompleteManifest placements then
    .error { message := "Evaluate one complete bounded unique candidate manifest." }
  else
    match run maxConflictComparisons maxConflicts (evaluationCalls placements edition programme venues) with
    | .ok findings => .ok (sortBy SchedulingFinding.key (order.list findings.values))
    | .error .limit => .ok [evaluationLimit]
    | .error (.refused e) => .error e

end Maru.Scheduling
