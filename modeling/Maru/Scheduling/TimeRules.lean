import Maru.Framework.Except
import Maru.Framework.Sweep
import Maru.Framework.Uuid

/-!
# Scheduling time

`scheduling/time_rules.py`: half-open windows, the four boundaries of a room's work
envelope, and when two of them conflict. An instant is a number of microseconds in UTC,
from a whole minute.
-/

namespace Maru.Scheduling

open Sweep

structure ValidationError where
  field : Option String := none
  message : String
  code : Option String := none
deriving DecidableEq

structure SchedulingWindow where
  startsAt : Int
  endsAt : Int

structure SchedulingEnvelope where
  setupStartsAt : Int
  effectiveStartsAt : Int
  effectiveEndsAt : Int
  teardownEndsAt : Int

structure SchedulingHostPresence where
  hostId : Uuid
  startsAt : Int
  endsAt : Int

def minutesPerHour : Nat := 60

def maxHostsPerOccurrence : Nat := 100

/-- Of `scheduling/catalogs.py`. -/
def maxOccurrences : Nat := 2000

def microsPerMinute : Int := 60 * 1000000

/-! ## Checking what comes in -/

def normalizeSchedulingInstant (value : Int) (field : String) : Except ValidationError Int := do
  require (value % microsPerMinute = 0)
    { field, message := "Use an offset-aware, whole-minute instant.", code := "scheduling_instant_invalid" }
  return value

def normalizeSchedulingWindow (value : SchedulingWindow) : Except ValidationError SchedulingWindow := do
  let start ← normalizeSchedulingInstant value.startsAt "starts_at"
  let stop ← normalizeSchedulingInstant value.endsAt "ends_at"
  require (start < stop) { message := "The interval end must follow its start." }
  return ⟨start, stop⟩

def normalizeSchedulingEnvelope (value : SchedulingEnvelope) : Except ValidationError SchedulingEnvelope := do
  let setup ← normalizeSchedulingInstant value.setupStartsAt "setup_starts_at"
  let start ← normalizeSchedulingInstant value.effectiveStartsAt "effective_starts_at"
  let stop ← normalizeSchedulingInstant value.effectiveEndsAt "effective_ends_at"
  let teardown ← normalizeSchedulingInstant value.teardownEndsAt "teardown_ends_at"
  require (setup ≤ start ∧ start < stop ∧ stop ≤ teardown)
    { message := "Order preparation, delivery and teardown boundaries." }
  return ⟨setup, start, stop, teardown⟩

def requireSchedulingPrecision (value : Int) : Except ValidationError Int := do
  require (1 ≤ value ∧ value ≤ minutesPerHour ∧ minutesPerHour % value = 0)
    { message := "Grid minutes must be a positive divisor of 60." }
  return value

/-- One turn of the loop of `normalize_host_presences`, with the hosts seen before it. -/
def normalizeHostPresence (envelope : SchedulingEnvelope) (identifiers : List Uuid)
    (value : SchedulingHostPresence) : Except ValidationError SchedulingHostPresence := do
  require (value.hostId ∉ identifiers) { message := "Select each typed host relationship once." }
  let window ← normalizeSchedulingWindow ⟨value.startsAt, value.endsAt⟩
  require (envelope.setupStartsAt ≤ window.startsAt ∧ window.endsAt ≤ envelope.teardownEndsAt)
    { message := "Host presence must fit the work envelope." }
  return ⟨value.hostId, window.startsAt, window.endsAt⟩

def normalizePresences (envelope : SchedulingEnvelope) :
    List Uuid → List SchedulingHostPresence → Except ValidationError (List SchedulingHostPresence)
  | _, [] => return []
  | identifiers, value :: values => do
    let presence ← normalizeHostPresence envelope identifiers value
    let rest ← normalizePresences envelope (value.hostId :: identifiers) values
    return presence :: rest

def normalizeHostPresences (values : List SchedulingHostPresence) (envelope : SchedulingEnvelope) :
    Except ValidationError (List SchedulingHostPresence) := do
  let envelope ← normalizeSchedulingEnvelope envelope
  require (values.length ≤ maxHostsPerOccurrence)
    { message := "Select at most 100 explicit host relationships." }
  let result ← normalizePresences envelope [] values
  return sortBy (·.hostId.text) result

/-- The boundaries of an envelope, in their order. -/
def SchedulingEnvelope.boundaries (envelope : SchedulingEnvelope) : List Int :=
  [envelope.setupStartsAt, envelope.effectiveStartsAt, envelope.effectiveEndsAt, envelope.teardownEndsAt]

def placementFitsServiceDay (envelope : SchedulingEnvelope) (window : SchedulingWindow)
    (precisionMinutes : Int) : Except ValidationError Bool := do
  let envelope ← normalizeSchedulingEnvelope envelope
  let window ← normalizeSchedulingWindow window
  let precision ← requireSchedulingPrecision precisionMinutes
  let step := precision * microsPerMinute
  return decide (window.startsAt ≤ envelope.setupStartsAt ∧ envelope.teardownEndsAt ≤ window.endsAt ∧
    ∀ instant ∈ envelope.boundaries, (instant - window.startsAt) % step = 0)

/-! ## Comparing -/

def schedulingWindowsOverlap (left right : SchedulingWindow) : Bool :=
  left.startsAt < right.endsAt ∧ right.startsAt < left.endsAt

theorem schedulingWindowsOverlap_iff {left right : SchedulingWindow} :
    schedulingWindowsOverlap left right = true ↔ left.startsAt < right.endsAt ∧ right.startsAt < left.endsAt :=
  decide_eq_true_iff

/-- Preparation and delivery. -/
def SchedulingEnvelope.setupEffective (envelope : SchedulingEnvelope) : SchedulingWindow :=
  ⟨envelope.setupStartsAt, envelope.effectiveEndsAt⟩

/-- Delivery and teardown. -/
def SchedulingEnvelope.effectiveTeardown (envelope : SchedulingEnvelope) : SchedulingWindow :=
  ⟨envelope.effectiveStartsAt, envelope.teardownEndsAt⟩

/-- All of the room's work. -/
def SchedulingEnvelope.whole (envelope : SchedulingEnvelope) : SchedulingWindow :=
  ⟨envelope.setupStartsAt, envelope.teardownEndsAt⟩

def roomEnvelopesConflict (left right : SchedulingEnvelope) : Bool :=
  schedulingWindowsOverlap left.setupEffective right.setupEffective ∨
    schedulingWindowsOverlap left.effectiveTeardown right.effectiveTeardown

theorem roomEnvelopesConflict_iff {left right : SchedulingEnvelope} :
    roomEnvelopesConflict left right = true ↔
      schedulingWindowsOverlap left.setupEffective right.setupEffective = true ∨
        schedulingWindowsOverlap left.effectiveTeardown right.effectiveTeardown = true :=
  decide_eq_true_iff

/-- `sorted((left, right), key=lambda value: value.effective_starts_at)` -/
def byEffectiveStart (left right : SchedulingEnvelope) : SchedulingEnvelope × SchedulingEnvelope :=
  if right.effectiveStartsAt < left.effectiveStartsAt then (right, left) else (left, right)

def permittedTurnoverWindow (left right : SchedulingEnvelope) : Option SchedulingWindow :=
  if roomEnvelopesConflict left right then none
  else
    let (earlier, later) := byEffectiveStart left right
    let start := max earlier.effectiveEndsAt later.setupStartsAt
    let stop := min earlier.teardownEndsAt later.effectiveStartsAt
    if start < stop then some ⟨start, stop⟩ else none

end Maru.Scheduling
