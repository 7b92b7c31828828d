import Maru.Framework.Json
import Maru.Framework.Lists
import Maru.Framework.Table
import Maru.Framework.Text
import Maru.Framework.Uuid
import Mathlib.Data.Prod.Lex
import Mathlib.Data.Fin.Basic
import Mathlib.Algebra.Order.Ring.Int

/-!
# The effects outbox

The rows of `effects/models.py` with what a row is checked for when it is written: the
model's own validation (`full_clean`, which evaluates the table's constraints) and the
triggers of the database (`guardOutboxMessage`, `guardEffectReplayReceipt`). Times are
microseconds, as are spans of time.
-/

namespace Maru.Effects

def maxEffectReplayReasonLength : Nat := 240

def maxEffectReplayAdditionalAttempts : Nat := 20

def maxEffectTotalAttempts : Nat := 100

inductive EffectError
  | invalid (message code : String)
  /-- `ValidationError` of `full_clean`: the fields and constraints that do not hold. -/
  | unclean (violated : List String)
  /-- `IntegrityError` of the named constraint. -/
  | integrity (constraint : String)
  /-- The outbox trigger refuses a row. -/
  | outboxGuard (message : String)
  /-- The trigger on replay receipts refuses a row. -/
  | receiptGuard (message : String)
  | doesNotExist
  | leaseLost
  | cancellationBoundaryPassed

/-! ## Rows -/

structure DomainEvent where
  id : Uuid
  eventName : String
  schemaVersion : Nat
  organizationId : Uuid
  eventEditionId : Option Uuid
  aggregateType : String
  aggregateId : Uuid
  aggregateVersion : Nat
  payload : Json
  correlationId : Uuid
  causationId : Option Uuid
  actorKind : String
  actorId : Option Uuid

/-- `OutboxMessage.Status` -/
inductive Status
  | pending | processing | succeeded | quarantined | cancelled
deriving DecidableEq

structure OutboxMessage where
  id : Uuid
  createdAt : Int
  eventId : Uuid
  organizationId : Uuid
  destination : String
  workloadPool : String
  status : Status := .pending
  availableAt : Int
  claimedAt : Option Int := none
  leaseExpiresAt : Option Int := none
  leaseToken : Option Uuid := none
  attemptCount : Nat := 0
  maxAttempts : Nat := 8
  completedAt : Option Int := none
  lastErrorCode : String := ""
  replayCount : Nat := 0

/-- `EffectAttempt.Outcome` -/
inductive AttemptOutcome
  | succeeded | transientFailure | permanentFailure | exhausted
deriving DecidableEq

structure EffectAttempt where
  outboxMessageId : Uuid
  attemptNumber : Nat
  leaseToken : Uuid
  startedAt : Int
  finishedAt : Int
  outcome : AttemptOutcome
  errorCode : String := ""
  handlerCode : String

structure EffectReplayReceipt where
  outboxMessageId : Uuid
  organizationId : Uuid
  actorId : Uuid
  reason : String
  additionalAttempts : Nat
  previousMaxAttempts : Nat
  newMaxAttempts : Nat
  replayCount : Nat
  correlationId : Uuid

def EffectAttempt.key (a : EffectAttempt) : Uuid × Nat := (a.outboxMessageId, a.attemptNumber)

def EffectReplayReceipt.key (r : EffectReplayReceipt) : Uuid × Nat := (r.outboxMessageId, r.replayCount)

/-- The tables. Attempts and receipts are append-only, and an event is never changed. -/
structure Outbox where
  events : Table DomainEvent.id
  messages : Table OutboxMessage.id
  attempts : Table EffectAttempt.key
  receipts : Table EffectReplayReceipt.key

def Outbox.empty : Outbox := ⟨∅, ∅, ∅, ∅⟩

/-! ## Validation of a row -/

/-- `full_clean`: fail with the names of what does not hold. -/
def fullClean (checks : List (String × Bool)) : Except EffectError Unit :=
  require (checks.all (·.2)) (.unclean ((checks.filter (!·.2)).map (·.1)))

def OutboxMessage.checks (m : OutboxMessage) : List (String × Bool) := [
  ("destination", m.destination ≠ "" ∧ m.destination.length ≤ 120),
  ("workload_pool", m.workloadPool ≠ "" ∧ m.workloadPool.length ≤ 80),
  ("last_error_code", m.lastErrorCode.length ≤ 120),
  ("outbox_max_attempts_positive", 1 ≤ m.maxAttempts),
  ("outbox_max_attempts_bounded", m.maxAttempts ≤ maxEffectTotalAttempts),
  ("outbox_attempts_within_maximum", m.attemptCount ≤ m.maxAttempts),
  ("outbox_lease_matches_status",
    if m.status = .processing then
      m.claimedAt.isSome && m.leaseExpiresAt.isSome && m.leaseToken.isSome && m.completedAt.isNone
    else m.leaseExpiresAt.isNone && m.leaseToken.isNone),
  ("outbox_completion_matches_status",
    if m.status = .pending ∨ m.status = .processing then m.completedAt.isNone else m.completedAt.isSome)]

def EffectAttempt.checks (a : EffectAttempt) : List (String × Bool) := [
  ("error_code", a.errorCode.length ≤ 120),
  ("handler_code", a.handlerCode ≠ "" ∧ a.handlerCode.length ≤ 160),
  ("effect_attempt_finished_after_start", a.startedAt ≤ a.finishedAt)]

/-- The constraints of a receipt and its `clean`, which compares it with the message's row. -/
def EffectReplayReceipt.checks (r : EffectReplayReceipt) (message : OutboxMessage) : List (String × Bool) := [
  ("reason", r.reason.length ≤ maxEffectReplayReasonLength ∧ strip r.reason ≠ ""),
  ("additional_attempts", 1 ≤ r.additionalAttempts ∧ r.additionalAttempts ≤ maxEffectReplayAdditionalAttempts),
  ("organization_id", message.organizationId = r.organizationId),
  ("outbox_message", message.status = .quarantined),
  ("previous_max_attempts", message.maxAttempts = r.previousMaxAttempts),
  ("new_max_attempts", r.newMaxAttempts = r.previousMaxAttempts + r.additionalAttempts ∧
    r.newMaxAttempts ≤ maxEffectTotalAttempts),
  ("replay_count", r.replayCount = message.replayCount + 1)]

/-! ## Triggers -/

/-- `maru_guard_outbox_message` on an update. -/
def guardOutboxMessage (receipts : Table EffectReplayReceipt.key) (old new : OutboxMessage) :
    Except EffectError Unit := do
  require (new.eventId = old.eventId ∧ new.organizationId = old.organizationId ∧
      new.destination = old.destination ∧ new.workloadPool = old.workloadPool)
    (.outboxGuard "outbox routing envelope is immutable")
  require (old.status = .quarantined ∨ (new.maxAttempts = old.maxAttempts ∧ new.replayCount = old.replayCount))
    (.outboxGuard "outbox retry policy is immutable outside replay")
  if old.status = .pending ∧ (new.status = .processing ∨ new.status = .cancelled) then
    require (new.status = .processing → new.attemptCount = old.attemptCount + 1)
      (.outboxGuard "claim must increment attempt count")
    require (new.status = .cancelled → new.attemptCount = old.attemptCount)
      (.outboxGuard "cancellation cannot change attempt count")
  else
    require
      ((old.status = .processing ∧ (new.status = .pending ∨ new.status = .succeeded ∨ new.status = .quarantined) ∧
          new.attemptCount = old.attemptCount) ∨
        (old.status = .processing ∧ new.status = .processing ∧
          (∃ expires ∈ old.leaseExpiresAt, ∃ claimed ∈ new.claimedAt, expires ≤ claimed) ∧
          new.attemptCount = old.attemptCount + 1) ∨
        (old.status = .quarantined ∧ new.status = .pending ∧ new.attemptCount = old.attemptCount ∧
          old.maxAttempts < new.maxAttempts ∧ new.replayCount = old.replayCount + 1 ∧
          ∃ receipt ∈ receipts.rows, receipt.outboxMessageId = old.id ∧ receipt.organizationId = old.organizationId ∧
            receipt.previousMaxAttempts = old.maxAttempts ∧ receipt.newMaxAttempts = new.maxAttempts ∧
            receipt.replayCount = new.replayCount))
      (.outboxGuard "invalid outbox state transition")

/-- `maru_guard_effect_replay_receipt` on an insert; `accountIsActive` reads the accounts. -/
def guardEffectReplayReceipt (messages : Table OutboxMessage.id) (accountIsActive : Uuid → Bool)
    (new : EffectReplayReceipt) : Except EffectError Unit := do
  require (new.reason.toList.any (· ≠ ' ') ∧ new.reason.length ≤ 240 ∧ 1 ≤ new.additionalAttempts ∧
      new.additionalAttempts ≤ 20 ∧ new.newMaxAttempts = new.previousMaxAttempts + new.additionalAttempts ∧
      new.newMaxAttempts ≤ 100)
    (.receiptGuard "effect replay receipt is outside bounded policy")
  require (accountIsActive new.actorId) (.receiptGuard "effect replay receipt actor must be an active account")
  require (∃ message ∈ messages.rows, message.id = new.outboxMessageId ∧
      message.organizationId = new.organizationId ∧ message.status = .quarantined ∧
      message.maxAttempts = new.previousMaxAttempts ∧ message.replayCount + 1 = new.replayCount)
    (.receiptGuard "effect replay receipt must match locked quarantined work")

/-! ## Writing a row -/

namespace Outbox

/-- `OutboxMessage.objects.create`. -/
def createMessage (outbox : Outbox) (m : OutboxMessage) : Except EffectError Outbox := do
  let event ← getOr (.integrity "effects_outboxmessage_event_id_fk") (outbox.events.get? m.eventId)
  fullClean (m.checks ++ [
    ("organization_id", decide (event.organizationId = m.organizationId)),
    ("outbox_event_destination_unique",
      outbox.messages.rows.all fun other => ¬ (other.eventId = m.eventId ∧ other.destination = m.destination))])
  require (event.organizationId = m.organizationId) (.outboxGuard "outbox tenant must match its domain event")
  let messages ← getOr (.integrity "effects_outboxmessage_pkey") (outbox.messages.insert? m)
  return { outbox with messages }

/-- `message.save()`. The event, its tenant and the destination are as when the row was created. -/
def saveMessage (outbox : Outbox) (m : OutboxMessage) : Except EffectError Outbox := do
  let old ← getOr .doesNotExist (outbox.messages.get? m.id)
  fullClean m.checks
  guardOutboxMessage outbox.receipts old m
  return { outbox with messages := outbox.messages.save m }

/-- `EffectAttempt.objects.create`. -/
def createAttempt (outbox : Outbox) (a : EffectAttempt) : Except EffectError Outbox := do
  fullClean a.checks
  let attempts ← getOr (.integrity "effect_attempt_number_unique") (outbox.attempts.insert? a)
  return { outbox with attempts }

/-- `EffectReplayReceipt.objects.create`. -/
def createReceipt (outbox : Outbox) (accountIsActive : Uuid → Bool) (message : OutboxMessage)
    (r : EffectReplayReceipt) : Except EffectError Outbox := do
  fullClean (r.checks message)
  guardEffectReplayReceipt outbox.messages accountIsActive r
  let receipts ← getOr (.integrity "effect_replay_count_unique") (outbox.receipts.insert? r)
  return { outbox with receipts }

/-- `Meta.ordering`, and the order in which messages are claimed. -/
def inOrder (messages : List OutboxMessage) : List OutboxMessage :=
  sortBy (fun m => toLex (m.availableAt, toLex (m.createdAt, m.id))) messages

end Outbox

end Maru.Effects
