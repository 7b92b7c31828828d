import Maru.Framework.Machine
import Maru.Registration.Payments

/-!
# The registration machine

Every command on registrations, their money and their payments, one atomic step each, at
instants that follow one another: a call says how much time has passed since the one before.
Scheduled runs are a step for each candidate, and opening a checkout is a step on each side
of the provider's answer.
-/

namespace Maru.Registration

inductive Command
  | submit (x : Submission)
  | acceptGuardianConsent (rawToken guardianName : String)
  | extendPaymentDeadline (organizationId editionId registrationId actorId : Uuid)
      (newDeadline : Int) (reason : String)
  | waivePayment (organizationId editionId registrationId actorId : Uuid) (reason : String)
  | checkIn (organizationId editionId registrationId actorId : Uuid) (reason : String)
  | processLifecycle (registrationId : Uuid)
  | reserveTier (x : TierRequest)
  | expireTier (replacementId : Uuid)
  | adjustCapacity (x : CapacityRequest)
  | offerWaitlistBatch (x : BatchRequest)
  | propose (x : OperationRequest)
  | approve (organizationId editionId operationId actorId : Uuid) (reason : String)
  | restrict (organizationId accountId : Uuid) (editionId : Option Uuid) (actorId : Uuid)
  | createIntent (registrationId providerAccountId idempotencyKey : Uuid)
  | recordCheckout (intentId : Uuid) (providerReference : Points) (expiresAt : ProviderTime)
  | recordCheckoutFailure (intentId : Uuid) (code : String)
  | confirmDemoPayment (x : DemoPayment)
  | reconcile (d : Delivery)
  | resolveException (actorId organizationId editionId exceptionId : Uuid) (reason : String)

inductive Answer
  | done
  | registration (r : Registration)
  | transition (t : Option LifecycleTransition)
  | tier (result : TierReplacementResult)
  | expired (expired : Bool)
  | capacity (result : CapacityAdjustmentResult)
  | batch (result : WaitlistBatchResult)
  | operation (o : FinancialOperation)
  | intent (i : PaymentIntent)
  | receipt (x : PaymentWebhookReceipt)

/-- One issued command: how long after the one before, in what surroundings, and the
identifiers drawn for it. -/
structure Call where
  elapsed : Nat
  surroundings : Surroundings
  newId : Uuid
  childId : Uuid → Uuid
  correlationId : Uuid
  command : Command

/-- The store at an instant. -/
structure System where
  clock : Int
  store : Store

def Store.withAdmissions {α : Type} (s : Store) (result : Except RegistrationError (Admissions × α))
    (answer : α → Answer) : Except RegistrationError (Store × Answer) := do
  let (a, x) ← result
  return ({ s with admissions := a }, answer x)

def Store.withPayments (s : Store) (result : Except RegistrationError Payments) :
    Except RegistrationError (Store × Answer) := do
  let payments ← result
  return ({ s with payments := payments }, .done)

def answered {α : Type} (result : Except RegistrationError (Store × α)) (answer : α → Answer) :
    Except RegistrationError (Store × Answer) := do
  let (s, x) ← result
  return (s, answer x)

def execCommand (P : Primitives) (s : Store) (now : Int) (call : Call) : Except RegistrationError (Store × Answer) :=
  let w := call.surroundings
  let a := s.admissions
  match call.command with
  | .submit x => s.withAdmissions (submitRegistration a w now x call.newId call.correlationId) .registration
  | .acceptGuardianConsent rawToken guardianName =>
    s.withAdmissions (acceptGuardianConsent a w now (P.tokenDigest rawToken) guardianName) .registration
  | .extendPaymentDeadline organizationId editionId registrationId actorId newDeadline reason =>
    s.withAdmissions (extendPaymentDeadline a w now organizationId editionId registrationId actorId newDeadline
      reason call.correlationId) .registration
  | .waivePayment organizationId editionId registrationId actorId reason =>
    s.withAdmissions (waiveRegistrationPayment a w now organizationId editionId registrationId actorId reason
      call.correlationId) .registration
  | .checkIn organizationId editionId registrationId actorId reason =>
    s.withAdmissions (checkInRegistration a w now organizationId editionId registrationId actorId reason
      call.correlationId) .registration
  | .processLifecycle registrationId =>
    s.withAdmissions (processRegistrationLifecycle a w now registrationId call.correlationId) .transition
  | .reserveTier x =>
    s.withAdmissions (reserveAdmissionTierReplacement P a w now x call.newId call.correlationId) .tier
  | .expireTier replacementId =>
    s.withAdmissions (.ok (expireAdmissionTierReplacement a w now replacementId)) .expired
  | .adjustCapacity x => s.withAdmissions (adjustRegistrationCapacity P a w now x call.newId) .capacity
  | .offerWaitlistBatch x => s.withAdmissions (offerNextWaitlistBatch P a w now x call.newId) .batch
  | .propose x => answered (proposeFinancialOperation s w now x call.newId) .operation
  | .approve organizationId editionId operationId actorId reason =>
    answered (approveFinancialOperation s w now organizationId editionId operationId actorId reason
      call.correlationId) .operation
  | .restrict organizationId accountId editionId actorId => do
    let s ← applyRestrictionConsequences s w now organizationId accountId editionId actorId
      call.childId call.correlationId
    return (s, .done)
  | .createIntent registrationId providerAccountId idempotencyKey =>
    answered (createPaymentIntent s w now registrationId providerAccountId idempotencyKey call.newId) .intent
  | .recordCheckout intentId providerReference expiresAt =>
    s.withPayments (recordCheckout s.payments intentId providerReference expiresAt)
  | .recordCheckoutFailure intentId code =>
    s.withPayments (recordCheckoutFailure s.payments now intentId call.newId code)
  | .confirmDemoPayment x => do
    let s ← confirmDemoPayment s w now x call.correlationId
    return (s, .done)
  | .reconcile d => answered (reconcileVerifiedPaymentEvent P s w now d) .receipt
  | .resolveException actorId organizationId editionId exceptionId reason =>
    s.withPayments (resolvePaymentException s.payments w now actorId organizationId editionId exceptionId reason)

def exec (P : Primitives) (s : System) (call : Call) : Except RegistrationError (System × Answer) := do
  let now := s.clock + call.elapsed
  let (store, answer) ← execCommand P s.store now call
  return (⟨now, store⟩, answer)

theorem exec_eq_ok {P : Primitives} {s s' : System} {call : Call} {answer : Answer}
    (h : exec P s call = .ok (s', answer)) :
    ∃ store, s' = ⟨s.clock + call.elapsed, store⟩ ∧
      execCommand P s.store (s.clock + call.elapsed) call = .ok (store, answer) := by
  simp only [exec, bind_eq_ok, pure_eq_ok, Prod.mk.injEq] at h
  obtain ⟨⟨store, _⟩, h, rfl, rfl⟩ := h
  exact ⟨store, rfl, h⟩

def registrationMachine (P : Primitives) : Machine System Call Answer RegistrationError := ⟨exec P⟩

end Maru.Registration
