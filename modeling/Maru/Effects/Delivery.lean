import Maru.Effects.Outbox
import Maru.Framework.Machine

/-!
# Publishing and delivering effects

`effects/services.py`: a fact is published with a message for each destination, workers
claim messages under a lease and report what became of them, an operator cancels or
replays them. Each call is one transaction. The identifiers, lease tokens and clock
readings that a call draws are its inputs; what it asks of other owners is `Surroundings`.
-/

namespace Maru.Effects

def defaultMaxAttempts : Nat := 8

/-- 15 minutes. -/
def maxLeaseDuration : Int := 15 * 60 * 1000000

/-- One day. -/
def maxRetryDelay : Int := 24 * 60 * 60 * 1000000

def maxEffectErrorCodeLength : Nat := 120

/-! ## Inputs -/

def validateEffectAttemptBudget (value : Int) : Except EffectError Nat := do
  require (1 ≤ value ∧ value ≤ maxEffectTotalAttempts)
    (.invalid "Outbox maximum attempts must be between 1 and 100." "invalid_max_attempts")
  return value.toNat

/-- `nfc` is the normal form of the standard library. -/
def normalizeEffectReplayReason (nfc : String → String) (value : String) : Except EffectError String := do
  let normalized := collapseSpace (nfc value)
  require (normalized ≠ "") (.invalid "A replay reason is required." "reason_required")
  require (normalized.length ≤ maxEffectReplayReasonLength)
    (.invalid "A replay reason cannot exceed 240 characters." "reason_too_long")
  return normalized

/-- `[a-z][a-z0-9]*(?:[._-][a-z0-9]+)*`: the parts between the separators. -/
def isSafeEffectCode (value : String) : Bool :=
  let lower (c : Char) : Bool := 'a' ≤ c ∧ c ≤ 'z'
  let digit (c : Char) : Bool := '0' ≤ c ∧ c ≤ '9'
  let parts := value.toList.splitOnP fun c => c = '.' ∨ c = '_' ∨ c = '-'
  value.toList.head?.any lower && parts.all fun part => part ≠ [] && part.all fun c => lower c || digit c

def validateEffectErrorCode (value : String) : Except EffectError Unit :=
  require (value.length ≤ maxEffectErrorCodeLength ∧ isSafeEffectCode value)
    (.invalid "Use a stable safe effect error code." "invalid_effect_error_code")

structure ClaimedEffect where
  messageId : Uuid
  eventId : Uuid
  leaseToken : Uuid
  attemptNumber : Nat
  claimedAt : Int
  leaseExpiresAt : Int

inductive ClaimOutcome
  | succeeded | retryScheduled | quarantined
deriving DecidableEq

/-- What other owners answer during a call. -/
structure Surroundings where
  /-- The message and code with which `validate_event_payload` refuses, if it does. -/
  payloadRefusal : DomainEvent → Option (String × String)
  /-- `effect_delivery_is_allowed` -/
  effectDeliveryIsAllowed : DomainEvent → String → Bool
  accountIsActive : Uuid → Bool

def Surroundings.requireEffectDeliveryAllowed (surroundings : Surroundings) (event : DomainEvent)
    (destination : String) : Except EffectError Unit :=
  require (surroundings.effectDeliveryIsAllowed event destination)
    (.invalid "The effect route is unavailable for this scope or edition profile." "effect_profile_not_allowed")

def Surroundings.validateEventPayload (surroundings : Surroundings) (event : DomainEvent) : Except EffectError Unit :=
  match surroundings.payloadRefusal event with
  | some (message, code) => .error (.invalid message code)
  | none => .ok ()

namespace Outbox

/-! ## Publishing -/

/-- `DomainEvent.objects.create`. -/
def createEvent (outbox : Outbox) (event : DomainEvent) : Except EffectError Outbox := do
  fullClean [("domain_event_aggregate_version_unique",
    outbox.events.rows.all fun other => ¬ (other.aggregateType = event.aggregateType ∧
      other.aggregateId = event.aggregateId ∧ other.aggregateVersion = event.aggregateVersion))]
  let events ← getOr (.integrity "effects_domainevent_pkey") (outbox.events.insert? event)
  return { outbox with events }

def publishDomainEvent (outbox : Outbox) (surroundings : Surroundings) (record : DomainEvent) (messageId : Uuid)
    (destination workloadPool : String) (maxAttempts now : Int) : Except EffectError (Outbox × OutboxMessage) := do
  let maxAttempts ← validateEffectAttemptBudget maxAttempts
  surroundings.validateEventPayload record
  surroundings.requireEffectDeliveryAllowed record destination
  let recorded ← outbox.createEvent record
  let message : OutboxMessage := {
    id := messageId, createdAt := now, eventId := record.id, organizationId := record.organizationId,
    destination, workloadPool, availableAt := now, maxAttempts }
  let published ← recorded.createMessage message
  return (published, message)

def enqueueEventDelivery (outbox : Outbox) (surroundings : Surroundings) (eventId messageId : Uuid)
    (destination workloadPool : String) (maxAttempts now : Int) : Except EffectError (Outbox × OutboxMessage) := do
  let maxAttempts ← validateEffectAttemptBudget maxAttempts
  let event ← getOr (.invalid "The domain event is unavailable for delivery." "domain_event_unavailable")
    (outbox.events.get? eventId)
  surroundings.requireEffectDeliveryAllowed event destination
  let message : OutboxMessage := {
    id := messageId, createdAt := now, eventId := event.id, organizationId := event.organizationId,
    destination, workloadPool, availableAt := now, maxAttempts }
  let published ← outbox.createMessage message
  return (published, message)

/-! ## Claiming -/

/-- The messages that a worker may claim: due, or held under a lease that has expired. -/
def candidates (outbox : Outbox) (organizationId : Uuid) (workloadPool : String) (now : Int) : List OutboxMessage :=
  outbox.messages.rows.filter fun m =>
    ((m.status = .pending ∧ m.availableAt ≤ now) ∨
      (m.status = .processing ∧ ∃ expires ∈ m.leaseExpiresAt, expires ≤ now)) ∧
      m.organizationId = organizationId ∧ m.workloadPool = workloadPool ∧ m.attemptCount < m.maxAttempts

/-- The messages whose last attempt was lost with its worker. -/
def exhausted (outbox : Outbox) (organizationId : Uuid) (workloadPool : String) (now : Int) : List OutboxMessage :=
  inOrder (outbox.messages.rows.filter fun m =>
    m.organizationId = organizationId ∧ m.workloadPool = workloadPool ∧ m.status = .processing ∧
      (∃ expires ∈ m.leaseExpiresAt, expires ≤ now) ∧ m.maxAttempts ≤ m.attemptCount)

/-- The loop body of `_quarantine_exhausted`. -/
def quarantine (now : Int) (outbox : Outbox) (message : OutboxMessage) : Except EffectError Outbox :=
  match message.leaseToken, message.claimedAt with
  | some leaseToken, some startedAt => do
    let outbox ← outbox.saveMessage { message with
      status := .quarantined, completedAt := some now, leaseExpiresAt := none, leaseToken := none,
      lastErrorCode := "attempts_exhausted" }
    outbox.createAttempt {
      outboxMessageId := message.id, attemptNumber := message.attemptCount, leaseToken, startedAt,
      finishedAt := now, outcome := .exhausted, errorCode := "attempts_exhausted", handlerCode := message.destination }
  | _, _ => .ok outbox

def quarantineExhausted (outbox : Outbox) (organizationId : Uuid) (workloadPool : String)
    (now : Int) : Except EffectError Outbox :=
  (outbox.exhausted organizationId workloadPool now).foldlM (quarantine now) outbox

/-- The attempt of a worker whose lease has expired. -/
def recordExpiredLease (outbox : Outbox) (message : OutboxMessage) (now : Int) : Except EffectError Outbox :=
  match message.status, message.leaseToken, message.claimedAt with
  | .processing, some leaseToken, some startedAt =>
    outbox.createAttempt {
      outboxMessageId := message.id, attemptNumber := message.attemptCount, leaseToken, startedAt,
      finishedAt := now, outcome := .transientFailure, errorCode := "lease_expired", handlerCode := message.destination }
  | _, _, _ => .ok outbox

def claimMessage (outbox : Outbox) (message : OutboxMessage) (leaseDuration claimedAt : Int)
    (leaseToken : Uuid) : Except EffectError (Outbox × ClaimedEffect) := do
  let recorded ← outbox.recordExpiredLease message claimedAt
  let claimed ← recorded.saveMessage { message with
    status := .processing, claimedAt := some claimedAt, leaseExpiresAt := some (claimedAt + leaseDuration),
    leaseToken := some leaseToken, attemptCount := message.attemptCount + 1, completedAt := none }
  return (claimed, {
    messageId := message.id, eventId := message.eventId, leaseToken, attemptNumber := message.attemptCount + 1,
    claimedAt, leaseExpiresAt := claimedAt + leaseDuration })

def claimNextEffect (outbox : Outbox) (organizationId : Uuid) (workloadPool : String) (leaseDuration claimedAt : Int)
    (leaseToken : Uuid) : Except EffectError (Outbox × Option ClaimedEffect) := do
  require (0 < leaseDuration ∧ leaseDuration ≤ maxLeaseDuration)
    (.invalid "Lease duration must be positive and no more than 15 minutes." "invalid_lease_duration")
  match (inOrder (outbox.candidates organizationId workloadPool claimedAt)).head? with
  | none =>
    let quarantined ← outbox.quarantineExhausted organizationId workloadPool claimedAt
    return (quarantined, none)
  | some message =>
    let (claimed, claim) ← outbox.claimMessage message leaseDuration claimedAt leaseToken
    return (claimed, some claim)

/-! ## Finishing -/

/-- What `_locked_claim` looks for: the row is still in the state in which the claim left it. -/
def ClaimedBy (m : OutboxMessage) (claim : ClaimedEffect) : Prop :=
  m.id = claim.messageId ∧ m.eventId = claim.eventId ∧ m.status = .processing ∧
    m.leaseToken = some claim.leaseToken ∧ m.attemptCount = claim.attemptNumber

instance (m : OutboxMessage) (claim : ClaimedEffect) : Decidable (ClaimedBy m claim) := by
  unfold ClaimedBy
  infer_instance

def lockedClaim (outbox : Outbox) (claim : ClaimedEffect) : Except EffectError OutboxMessage :=
  getOr .leaseLost (outbox.messages.rows.find? (ClaimedBy · claim))

/-- The attempt that a worker reports. -/
def claimedAttempt (claim : ClaimedEffect) (message : OutboxMessage) (finishedAt : Int)
    (outcome : AttemptOutcome) (errorCode : String) : EffectAttempt where
  outboxMessageId := message.id
  attemptNumber := claim.attemptNumber
  leaseToken := claim.leaseToken
  startedAt := claim.claimedAt
  finishedAt
  outcome
  errorCode
  handlerCode := message.destination

def finishEffectSuccess (outbox : Outbox) (claim : ClaimedEffect) (finishedAt : Int) : Except EffectError Outbox := do
  let message ← outbox.lockedClaim claim
  let finished ← outbox.saveMessage { message with
    status := .succeeded, completedAt := some finishedAt, leaseExpiresAt := none, leaseToken := none,
    lastErrorCode := "" }
  finished.createAttempt (claimedAttempt claim message finishedAt .succeeded "")

def finishEffectTransientFailure (outbox : Outbox) (claim : ClaimedEffect) (errorCode : String)
    (retryAfter finishedAt : Int) : Except EffectError (Outbox × ClaimOutcome) := do
  validateEffectErrorCode errorCode
  require (0 ≤ retryAfter ∧ retryAfter ≤ maxRetryDelay)
    (.invalid "Retry delay must be between zero and one day." "invalid_retry_delay")
  let message ← outbox.lockedClaim claim
  let exhausted := decide (message.maxAttempts ≤ message.attemptCount)
  let finished ← outbox.saveMessage { message with
    status := if exhausted then .quarantined else .pending, availableAt := finishedAt + retryAfter,
    completedAt := if exhausted then some finishedAt else none, leaseExpiresAt := none, leaseToken := none,
    lastErrorCode := errorCode }
  let recorded ← finished.createAttempt
    (claimedAttempt claim message finishedAt (if exhausted then .exhausted else .transientFailure) errorCode)
  return (recorded, if exhausted then .quarantined else .retryScheduled)

def finishEffectPermanentFailure (outbox : Outbox) (claim : ClaimedEffect) (errorCode : String)
    (finishedAt : Int) : Except EffectError Outbox := do
  validateEffectErrorCode errorCode
  let message ← outbox.lockedClaim claim
  let finished ← outbox.saveMessage { message with
    status := .quarantined, completedAt := some finishedAt, leaseExpiresAt := none, leaseToken := none,
    lastErrorCode := errorCode }
  finished.createAttempt (claimedAttempt claim message finishedAt .permanentFailure errorCode)

/-! ## Operators -/

def cancelPendingEffect (outbox : Outbox) (messageId : Uuid) (reasonCode : String) (now : Int) :
    Except EffectError Outbox := do
  validateEffectErrorCode reasonCode
  let message ← getOr .doesNotExist (outbox.messages.get? messageId)
  require (message.status ≠ .processing) .cancellationBoundaryPassed
  if message.status ≠ .pending then
    return outbox
  else
    outbox.saveMessage { message with
      status := .cancelled, completedAt := some now, lastErrorCode := reasonCode }

def replayQuarantinedEffect (nfc : String → String) (outbox : Outbox) (surroundings : Surroundings) (messageId : Uuid)
    (additionalAttempts : Int) (actorId : Uuid) (reason : String) (correlationId : Uuid) (now : Int) :
    Except EffectError (Outbox × OutboxMessage) := do
  require (1 ≤ additionalAttempts ∧ additionalAttempts ≤ maxEffectReplayAdditionalAttempts)
    (.invalid "A replay must allow between 1 and 20 additional attempts." "invalid_replay_attempts")
  let reason ← normalizeEffectReplayReason nfc reason
  let message ← getOr .doesNotExist (outbox.messages.get? messageId)
  let event ← getOr .doesNotExist (outbox.events.get? message.eventId)
  require (message.status = .quarantined)
    (.invalid "Only quarantined effects can be replayed." "effect_not_quarantined")
  require (event.organizationId = message.organizationId)
    (.invalid "The effect route is unavailable for this scope or edition profile." "effect_profile_not_allowed")
  surroundings.requireEffectDeliveryAllowed event message.destination
  let newMaxAttempts := message.maxAttempts + additionalAttempts.toNat
  require (newMaxAttempts ≤ maxEffectTotalAttempts)
    (.invalid "Replay would exceed the total safety limit of 100 attempts." "effect_replay_attempt_limit")
  let replayCount := message.replayCount + 1
  let receipted ← outbox.createReceipt surroundings.accountIsActive message {
    outboxMessageId := message.id, organizationId := message.organizationId, actorId, reason,
    additionalAttempts := additionalAttempts.toNat, previousMaxAttempts := message.maxAttempts, newMaxAttempts,
    replayCount, correlationId }
  let replayed : OutboxMessage := { message with
    maxAttempts := newMaxAttempts, status := .pending, availableAt := now, completedAt := none, lastErrorCode := "",
    replayCount }
  let saved ← receipted.saveMessage replayed
  return (saved, replayed)

end Outbox

/-! ## The machine -/

inductive Command
  | publish (surroundings : Surroundings) (record : DomainEvent) (messageId : Uuid)
      (destination workloadPool : String) (maxAttempts now : Int)
  | enqueue (surroundings : Surroundings) (eventId messageId : Uuid)
      (destination workloadPool : String) (maxAttempts now : Int)
  | claimNext (organizationId : Uuid) (workloadPool : String) (leaseDuration claimedAt : Int) (leaseToken : Uuid)
  | finishSuccess (claim : ClaimedEffect) (finishedAt : Int)
  | finishTransientFailure (claim : ClaimedEffect) (errorCode : String) (retryAfter finishedAt : Int)
  | finishPermanentFailure (claim : ClaimedEffect) (errorCode : String) (finishedAt : Int)
  | cancelPending (messageId : Uuid) (reasonCode : String) (now : Int)
  | replayQuarantined (surroundings : Surroundings) (messageId : Uuid) (additionalAttempts : Int)
      (actorId : Uuid) (reason : String) (correlationId : Uuid) (now : Int)

inductive Answer
  | published (message : OutboxMessage)
  | claimed (claim : Option ClaimedEffect)
  | finished (outcome : ClaimOutcome)
  | cancelled
  | replayed (message : OutboxMessage)

def execEffect (nfc : String → String) (outbox : Outbox) : Command → Except EffectError (Outbox × Answer)
  | .publish surroundings record messageId destination workloadPool maxAttempts now => do
    let (outbox, message) ←
      outbox.publishDomainEvent surroundings record messageId destination workloadPool maxAttempts now
    return (outbox, .published message)
  | .enqueue surroundings eventId messageId destination workloadPool maxAttempts now => do
    let (outbox, message) ←
      outbox.enqueueEventDelivery surroundings eventId messageId destination workloadPool maxAttempts now
    return (outbox, .published message)
  | .claimNext organizationId workloadPool leaseDuration claimedAt leaseToken => do
    let (outbox, claim) ← outbox.claimNextEffect organizationId workloadPool leaseDuration claimedAt leaseToken
    return (outbox, .claimed claim)
  | .finishSuccess claim finishedAt => do
    let outbox ← outbox.finishEffectSuccess claim finishedAt
    return (outbox, .finished .succeeded)
  | .finishTransientFailure claim errorCode retryAfter finishedAt => do
    let (outbox, outcome) ← outbox.finishEffectTransientFailure claim errorCode retryAfter finishedAt
    return (outbox, .finished outcome)
  | .finishPermanentFailure claim errorCode finishedAt => do
    let outbox ← outbox.finishEffectPermanentFailure claim errorCode finishedAt
    return (outbox, .finished .quarantined)
  | .cancelPending messageId reasonCode now => do
    let outbox ← outbox.cancelPendingEffect messageId reasonCode now
    return (outbox, .cancelled)
  | .replayQuarantined surroundings messageId additionalAttempts actorId reason correlationId now => do
    let (outbox, message) ←
      outbox.replayQuarantinedEffect nfc surroundings messageId additionalAttempts actorId reason correlationId now
    return (outbox, .replayed message)

def effectMachine (nfc : String → String) : Machine Outbox Command Answer EffectError := ⟨execEffect nfc⟩

end Maru.Effects
