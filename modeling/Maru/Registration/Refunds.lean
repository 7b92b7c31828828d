import Maru.Registration.CapacityBound

/-!
# Refunds and what they are paid from

`Covered`: what was refunded, with the refunds that wait for their provider, is at most
what a registration paid. A refund that is approved where it fits keeps this
(`run_refunded_le`); the balance that approval checks leaves out the refunds that wait.
-/

namespace Maru.Registration

variable {P : Primitives}

def LedgerEntry.refundOf (e : LedgerEntry) (registrationId : Uuid) : Nat :=
  if e.registrationId = registrationId ∧ e.kind = .refund ∧ e.direction = .outflow then e.amountMinor else 0

/-- The sum of a registration's refund entries. -/
def Finance.refunded (f : Finance) (registrationId : Uuid) : Nat :=
  (f.ledger.rows.map (·.refundOf registrationId)).sum

def FinancialOperation.awaitingOf (o : FinancialOperation) (registrationId : Uuid) : Nat :=
  if o.registrationId = registrationId ∧ o.kind = .refund ∧ o.status = .providerPending then o.amountMinor else 0

/-- The sum of a registration's approved refunds that have no entry yet. -/
def Finance.awaitingProvider (f : Finance) (registrationId : Uuid) : Nat :=
  (f.operations.rows.map (·.awaitingOf registrationId)).sum

def Covered (f : Finance) : Prop :=
  ∀ id, f.refunded id + f.awaitingProvider id ≤ f.total id .inflow

section

variable {f f' : Finance} {provider : PaymentProviderAccount}

/-! ## The ledger -/

/-- An entry that is no refund takes nothing from what covers the refunds. -/
theorem Covered.entry (hf : Covered f) {e : LedgerEntry} (kind : e.kind ≠ .refund)
    (h : f.createEntry provider e = .ok f') : Covered f' := by
  obtain ⟨-, -, t, ht, rfl⟩ := createEntry_eq_ok.mp h
  intro id
  have refunded : Finance.refunded { f with ledger := t } id = f.refunded id + _ := Table.sum_insert? ht _
  have total : Finance.total { f with ledger := t } id .inflow = f.total id .inflow + _ := Table.sum_insert? ht _
  have none : e.refundOf id = 0 := if_neg fun h => kind h.2.1
  have covered := hf id
  show _ + f.awaitingProvider id ≤ _
  rw [refunded, total, none]
  omega

theorem Covered.payment (hf : Covered f) {r : Registration} {providerReference : String}
    {amountMinor : Nat} {currency : String} {occurredAt : Int}
    (h : recordProviderPayment f r provider providerReference amountMinor currency occurredAt = .ok f') :
    Covered f' := by
  unfold recordProviderPayment at h
  split at h
  · cases h
    exact hf
  · refine hf.entry ?_ h
    exact LedgerKind.noConfusion

/-- A completed refund moves its amount from the refunds that wait to the refunded ones. -/
theorem Covered.refund (hf : Covered f) {o : FinancialOperation} {providerReference : String} {occurredAt : Int}
    (ho : o ∈ f.operations) (kind : o.kind = .refund) (pending : o.status = .providerPending)
    (h : f.createEntry provider (o.refundEntry provider providerReference occurredAt) = .ok f') :
    Covered (f'.saveOperation (o.refunded occurredAt)) := by
  obtain ⟨-, -, t, ht, rfl⟩ := createEntry_eq_ok.mp h
  intro id
  have refunded : Finance.refunded (Finance.saveOperation { f with ledger := t } (o.refunded occurredAt)) id =
      f.refunded id + _ := Table.sum_insert? ht _
  have total : Finance.total (Finance.saveOperation { f with ledger := t } (o.refunded occurredAt))
      id .inflow = f.total id .inflow + _ := Table.sum_insert? ht _
  have awaiting : Finance.awaitingProvider (Finance.saveOperation { f with ledger := t } (o.refunded occurredAt)) id +
      _ = f.awaitingProvider id + _ := Table.sum_save (r := o.refunded occurredAt) ho rfl _
  have moved : (o.refundEntry provider providerReference occurredAt).refundOf id = o.awaitingOf id := by
    simp [FinancialOperation.refundEntry, LedgerEntry.refundOf, FinancialOperation.awaitingOf, kind, pending]
  have done : (o.refunded occurredAt).awaitingOf id = 0 := if_neg fun h => OperationStatus.noConfusion h.2.2
  have covered := hf id
  rw [moved] at refunded
  rw [done] at awaiting
  omega

/-! ## Operations -/

theorem Covered.create (hf : Covered f) {o : FinancialOperation} (proposed : o.status = .proposed)
    (h : f.createOperation o = .ok f') : Covered f' := by
  obtain ⟨t, ht, rfl⟩ := createOperation_eq_ok h
  intro id
  have awaiting : Finance.awaitingProvider { f with operations := t } id = f.awaitingProvider id + _ :=
    Table.sum_insert? ht _
  have none : o.awaitingOf id = 0 := if_neg fun h => by rw [proposed] at h; exact OperationStatus.noConfusion h.2.2
  show f.refunded id + _ ≤ f.total id .inflow
  rw [awaiting, none]
  exact hf id

/-- The operation goes on to wait for its provider only where its amount is covered. -/
theorem covered_save {o o' : FinancialOperation} (ho : o ∈ f.operations) (hid : o.id = o'.id)
    (fits : ∀ id, f.refunded id + f.awaitingProvider id + o'.awaitingOf id ≤ f.total id .inflow) :
    Covered (f.saveOperation o') := by
  intro id
  have awaiting : Finance.awaitingProvider (f.saveOperation o') id + _ = f.awaitingProvider id + _ :=
    Table.sum_save ho hid _
  have := fits id
  show f.refunded id + _ ≤ f.total id .inflow
  omega

theorem Covered.reviewRefund (hf : Covered f) {r : Registration} {actorId : Uuid} {changedAt : Int}
    {operationId : Uuid} (h : f.reviewRefund r actorId changedAt operationId = .ok f') : Covered f' := by
  simp only [Finance.reviewRefund] at h
  split at h
  · cases h
    exact hf
  · exact hf.create rfl h

end

/-! ## Commands -/

section

variable {s s' : Store} {w : Surroundings} {now : Int}

/-- The refund to be approved fits with those that wait and those that were made. -/
def ApprovalIsCovered (f : Finance) (operationId : Uuid) : Prop :=
  ∀ o ∈ f.operations, o.id = operationId → o.kind = .refund → o.status = .proposed →
    f.refunded o.registrationId + f.awaitingProvider o.registrationId + o.amountMinor ≤ f.total o.registrationId .inflow

instance (f : Finance) (operationId : Uuid) : Decidable (ApprovalIsCovered f operationId) :=
  inferInstanceAs (Decidable (∀ o ∈ f.operations.rows, o.id = operationId → o.kind = .refund → o.status = .proposed →
    f.refunded o.registrationId + f.awaitingProvider o.registrationId + o.amountMinor ≤
      f.total o.registrationId .inflow))

theorem Covered.approve (hf : Covered s.finance) {organizationId editionId operationId actorId : Uuid}
    {reason : String} {correlationId : Uuid} {o' : FinancialOperation} (fits : ApprovalIsCovered s.finance operationId)
    (h : approveFinancialOperation s w now organizationId editionId operationId actorId reason correlationId =
      .ok (s', o')) : Covered s'.finance := by
  obtain ⟨o, ho, hid, proposed, eid, er, -, ek, ea, finance, -, outcome⟩ := approveFinancialOperation_eq_ok h
  rw [finance]
  refine covered_save ho eid.symm fun id => ?_
  rcases outcome with ⟨cancel, -⟩ | ⟨refund, -, -⟩
  · rw [show o'.awaitingOf id = 0 from if_neg fun h => by rw [ek, cancel] at h; exact OperationKind.noConfusion h.2.1]
    exact hf id
  · have room := fits o ho hid refund proposed
    simp only [FinancialOperation.awaitingOf, er, ea]
    split
    · rename_i h
      rwa [← h.1]
    · exact hf id

theorem Covered.propose (hf : Covered s.finance) {x : OperationRequest} {operationId : Uuid} {o : FinancialOperation}
    (h : proposeFinancialOperation s w now x operationId = .ok (s', o)) : Covered s'.finance := by
  obtain ⟨_, -, -, -, proposed, f, hf', rfl⟩ := proposeFinancialOperation_eq_ok h
  exact hf.create proposed hf'

theorem Covered.restrictRegistration (hf : Covered s.finance) {actorId : Uuid} {r : Registration}
    {operationId correlationId : Uuid}
    (h : restrictRegistration s w now actorId r operationId correlationId = .ok s') : Covered s'.finance := by
  rcases restrictRegistration_eq_ok h with (rfl | rfl) | ⟨_, _, f, _, -, -, hf', -, hs'⟩
  · exact hf
  · exact hf
  · rw [hs']
    exact hf.reviewRefund hf'

theorem Covered.effect (hf : Covered s.finance) {provider : PaymentProviderAccount} {d : Delivery}
    {intent : PaymentIntent} {r : Registration} {replacement : Option AdmissionTierReplacement} {done : Reconciled}
    (h : Effect P s w now provider d intent r replacement done) : Covered done.store.finance := by
  cases h with
  | excepted _ finance =>
    rcases finance with rfl | ⟨e, kind, -, -, -, he⟩
    · exact hf
    · exact hf.entry kind he
  | overwritten => exact hf
  | refunded _ _ pending entered =>
    obtain ⟨mem, -, kind, status, -⟩ := pendingRefund_eq_some pending
    exact hf.refund mem kind status entered
  | applied _ _ _ _ entered => exact hf.payment entered
  | failed => exact hf

theorem Covered.reconcile (hf : Covered s.finance) {d : Delivery} {receipt : PaymentWebhookReceipt}
    (h : reconcileVerifiedPaymentEvent P s w now d = .ok (s', receipt)) : Covered s'.finance := by
  cases reconcile_delivered h with
  | replayed => exact hf
  | unknown => exact hf
  | matched _ _ _ _ reconciled _ => exact hf.effect (reconcileMatched_effect reconciled)

end

/-! ## Runs -/

/-- An approval of a refund finds it covered; nothing is asked of the other commands. -/
def ApprovesCovered (s : System) (call : Call) : Prop :=
  match call.command with
  | .approve _ _ operationId _ _ => ApprovalIsCovered s.store.finance operationId
  | _ => True

theorem Covered.exec {s s' : System} {call : Call} {answer : Answer} (hf : Covered s.store.finance)
    (fits : ApprovesCovered s call) (h : exec P s call = .ok (s', answer)) : Covered s'.store.finance := by
  replace h := exec_eq_ok h
  obtain ⟨store, rfl, h⟩ := h
  unfold ApprovesCovered at fits
  simp only [execCommand] at h
  split at h <;> rename_i command
  case h_11 => exact hf.propose (answered_eq_ok h).choose_spec
  case h_12 =>
    rw [command] at fits
    exact hf.approve fits (answered_eq_ok h).choose_spec
  case h_13 =>
    simp only [bind_eq_ok, pure_eq_ok, Prod.mk.injEq] at h
    obtain ⟨_, h, rfl, -⟩ := h
    exact restrictEach_induct (fun _ _ _ _ _ hf h => Covered.restrictRegistration hf h) _ hf h
  case h_14 =>
    obtain ⟨_, h⟩ := answered_eq_ok h
    rcases createPaymentIntent_eq_ok h with rfl | ⟨_, -, _, -, _, _, -, -, -, -, -, -, -, -, rfl⟩ <;> exact hf
  case h_17 =>
    simp only [bind_eq_ok, pure_eq_ok, Prod.mk.injEq] at h
    obtain ⟨_, h, rfl, -⟩ := h
    rcases confirmDemoPayment_eq_ok h with rfl | ⟨_, -, _, _, _, -, -, -, hs'⟩
    · exact hf
    · exact hs' ▸ hf
  case h_18 => exact hf.reconcile (answered_eq_ok h).choose_spec
  case h_15 | h_16 | h_19 => exact (withPayments_eq_ok h).2 ▸ hf
  all_goals exact (withAdmissions_eq_ok h).choose_spec.2 ▸ hf

/-- After any run from a store without money, whose refunds are approved only where they are
covered, no registration has been refunded more than was paid for it. -/
theorem run_refunded_le (P : Primitives) {s : System} (ledger : s.store.finance.ledger.rows = [])
    (operations : s.store.finance.operations.rows = []) {calls : List Call}
    (fits : (registrationMachine P).Along ApprovesCovered s calls) (registrationId : Uuid) :
    ((registrationMachine P).run s calls).store.finance.refunded registrationId ≤
      ((registrationMachine P).run s calls).store.finance.total registrationId .inflow := by
  have keep : ∀ (s : System) call s' answer, Covered s.store.finance → ApprovesCovered s call →
      (registrationMachine P).exec s call = .ok (s', answer) → Covered s'.store.finance :=
    fun _ _ _ _ hi fits h => hi.exec fits h
  have start : Covered s.store.finance := by
    intro id
    simp [Finance.refunded, Finance.awaitingProvider, ledger, operations]
  exact (Nat.le_add_right ..).trans (Machine.run_invariant_along keep start fits registrationId)

/-! ## A run -/

def fairIntent : Call :=
  fairCall 41 (.createIntent 0x34000000000000000000000000000000 6 40)

/-- Ten hours in. -/
def fairExpiry : ProviderTime := .utc 36000000000 (by decide)

def fairMoment : ProviderTime := .utc 3 (by decide)

def fairCheckout : Call := fairCall 42 (.recordCheckout 41 (.ofString "chk-1") fairExpiry)

/-- A delivery about the intent, of 50 euros. -/
def fairEvent (exceptionId : Uuid) (remoteEventId eventType : String) : Call :=
  fairCall 43 (.reconcile ⟨6, ⟨.ofString remoteEventId, .ofString "chk-1", eventType, 5000, "EUR",
    fairMoment⟩, 3, remoteEventId, 44, exceptionId⟩)

/-- Account 11 registers and pays 50 euros. -/
def fairPayment : List Call :=
  [fairRegistration, fairIntent, fairCheckout, fairEvent 45 "evt-1" "payment.succeeded"]

def fairProposal (operationId : Uuid) : Call :=
  fairCall operationId (.propose ⟨1, 2, 0x34000000000000000000000000000000, 20, .refund, 5000, "Ill", none, none⟩)

def fairApproval (operationId : Uuid) : Call := fairCall 46 (.approve 1 2 operationId 21 "Agreed")

/-- One refund of the whole payment. -/
def fairRefund : List Call :=
  fairPayment ++ [fairProposal 47, fairApproval 47, fairEvent 48 "evt-2" "payment.refunded"]

theorem fairRefund_refunded_le :
    ((registrationMachine fairPrimitives).run fair fairRefund).store.finance.refunded
        0x34000000000000000000000000000000 = 5000 ∧
      ((registrationMachine fairPrimitives).run fair fairRefund).store.finance.refunded
          0x34000000000000000000000000000000 ≤
        ((registrationMachine fairPrimitives).run fair fairRefund).store.finance.total
          0x34000000000000000000000000000000 .inflow := by
  have fits : (registrationMachine fairPrimitives).Along ApprovesCovered fair fairRefund :=
    ⟨trivial, trivial, trivial, trivial, trivial, show ApprovalIsCovered _ 47 by decide +kernel, trivial, trivial⟩
  exact ⟨by decide +kernel, run_refunded_le _ rfl rfl fits _⟩

/-- Two refunds of the whole payment are approved one after the other, and both are made. -/
theorem fairRefund_twice :
    ¬ ((registrationMachine fairPrimitives).run fair
          (fairPayment ++ [fairProposal 47, fairProposal 49, fairApproval 47, fairApproval 49,
            fairEvent 48 "evt-2" "payment.refunded", fairEvent 50 "evt-3" "payment.refunded"])).store.finance.refunded
        0x34000000000000000000000000000000 ≤
      ((registrationMachine fairPrimitives).run fair
          (fairPayment ++ [fairProposal 47, fairProposal 49, fairApproval 47, fairApproval 49,
            fairEvent 48 "evt-2" "payment.refunded", fairEvent 50 "evt-3" "payment.refunded"])).store.finance.total
        0x34000000000000000000000000000000 .inflow := by
  decide +kernel

end Maru.Registration
