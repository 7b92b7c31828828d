import Mathlib.Data.List.Basic
import Maru.Framework.Except
import Maru.Framework.IsoFormat
import Maru.Framework.Json
import Maru.Framework.Text
import Maru.Framework.Uuid

/-!
# Shift inputs

What the Shift commands make of the text, times and numbers they are given, and the
failures of the commands.
-/

namespace Maru.Workforce

open Calendar

/-- One entry of a `ValidationError`. -/
structure FieldError where
  field : String
  message : String
  code : String

/-- How a Shift command fails. -/
inductive ShiftError where
  | authorizationDenied (message : String)
  | unavailable
  | lifecycleConflict
  | stateConflict (message : String)
  | versionConflict
  | retryConflict
  | qualificationConflict
  | availabilityConflict (message : String)
  | capacityConflict (message : String)
  | overlapConflict
  /-- `ValidationError`. -/
  | invalid (errors : List FieldError)
  /-- `OverflowError` of a date-time. -/
  | overflow
  /-- `IntegrityError` of the named constraint. -/
  | integrity (constraint : String)

/-- What the program takes from its standard library: the SHA-256 of a canonical document,
in hexadecimal, and the name-based UUID. -/
structure Primitives where
  fingerprint : Json → String
  uuid5 : Uuid → String → Uuid

def maxShiftHeadcount : Int := 1024
def maxShiftBreakMinutes : Int := 24 * 60
def maxShiftRestMinutes : Int := 48 * 60
def maxShiftTitleLength : Nat := 160
def maxShiftLocationLength : Nat := 160
def maxShiftBriefingLength : Nat := 1000
def maxShiftSupervisionLength : Nat := 500
def maxShiftReasonLength : Nat := 240
def maxSourceChannelLength : Nat := 32

def normalizeShiftText (value field : String) (maximumLength : Nat) (required : Bool) :
    Except ShiftError String := do
  let normalized := collapseSpace value
  require (¬(required ∧ normalized = ""))
    (.invalid [⟨field, "This field is required.", "shift_text_required"⟩])
  require (normalized.length ≤ maximumLength)
    (.invalid [⟨field, s!"Use at most {maximumLength} characters.", "shift_text_too_long"⟩])
  return normalized

def normalizeShiftReason (value : String) : Except ShiftError String :=
  normalizeShiftText value "reason" maxShiftReasonLength true

/-- Start and end in UTC. `localDate` is the calendar day of an instant in the edition's zone. -/
def normalizeShiftInterval (startsAt endsAt : DateTime) (startsOn endsOn : Int)
    (localDate : Int → Int) : Except ShiftError (Int × Int) := do
  require startsAt.offset.isSome (.invalid [⟨"starts_at", "Use an aware time.", "shift_tz"⟩])
  require endsAt.offset.isSome (.invalid [⟨"ends_at", "Use an aware time.", "shift_tz"⟩])
  let normalizedStart ← getOr .overflow startsAt.toUtc
  let normalizedEnd ← getOr .overflow endsAt.toUtc
  require (normalizedStart.wall < normalizedEnd.wall)
    (.invalid [⟨"ends_at", "The Shift must end after it starts.", "shift_time_order"⟩])
  require (startsOn ≤ localDate normalizedStart.wall ∧ localDate normalizedEnd.wall ≤ endsOn)
    (.invalid [⟨"starts_at", "Keep the Shift within the edition dates.", "shift_outside_edition"⟩])
  return (normalizedStart.wall, normalizedEnd.wall)

/-- The errors of `validate_shift_numbers`; the second check of the break replaces its first. -/
def shiftNumberErrors (requiredHeadcount breakMinutes minimumRestMinutes startsAt endsAt : Int) :
    List FieldError :=
  (if 1 ≤ requiredHeadcount ∧ requiredHeadcount ≤ maxShiftHeadcount then []
    else [⟨"required_headcount", s!"Choose between 1 and {maxShiftHeadcount} people.",
      "shift_headcount_invalid"⟩]) ++
  (if minutes breakMinutes ≥ endsAt - startsAt then
      [⟨"break_minutes", "Break time must be shorter than the Shift.", "shift_break_too_long"⟩]
    else if 0 ≤ breakMinutes ∧ breakMinutes ≤ maxShiftBreakMinutes then []
    else [⟨"break_minutes", "Enter a supported break duration.", "shift_break_invalid"⟩]) ++
  (if 0 ≤ minimumRestMinutes ∧ minimumRestMinutes ≤ maxShiftRestMinutes then []
    else [⟨"minimum_rest_minutes", "Enter a supported post-shift rest duration.", "shift_rest_invalid"⟩])

def validateShiftNumbers (requiredHeadcount breakMinutes minimumRestMinutes startsAt endsAt : Int) :
    Except ShiftError Unit :=
  let errors := shiftNumberErrors requiredHeadcount breakMinutes minimumRestMinutes startsAt endsAt
  require (errors = []) (.invalid errors)

def validateExpectedVersion (value : Int) : Except ShiftError Unit :=
  require (1 ≤ value)
    (.invalid [⟨"expected_version", "Enter a Shift version of 1 or greater.", "shift_expected_version_invalid"⟩])

/-- `[a-z][a-z0-9_-]*\Z`. -/
def isSourceChannel : List Char → Bool
  | [] => false
  | c :: cs => ('a' ≤ c ∧ c ≤ 'z') ∧
      cs.all fun c => ('a' ≤ c ∧ c ≤ 'z') ∨ ('0' ≤ c ∧ c ≤ '9') ∨ c = '_' ∨ c = '-'

def validateSourceChannel (value : String) : Except ShiftError Unit :=
  require (value.length ≤ maxSourceChannelLength ∧ isSourceChannel value.toList)
    (.invalid [⟨"source_channel", "Use a registered source channel.", "shift_source_channel_invalid"⟩])

/-- A fingerprint of the command for idempotent retries. -/
def shiftCommandDigest (P : Primitives) (action : String) (payload : List (String × Json)) : String :=
  P.fingerprint (.obj [("action", .str action), ("payload", .obj payload)])

end Maru.Workforce
