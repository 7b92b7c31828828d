import Maru.Registration.Refunds

/-!
# Intents that succeeded

An intent that succeeded keeps its status in a run of deliveries none of which reaches a
branch that writes another (`run_paid`). The branches of a mismatch, a late success and a
failure do not look at the status that they overwrite (`reconcileMatched_paid_iff`).
-/

namespace Maru.Registration

variable {P : Primitives} {s s' : Store} {w : Surroundings} {now : Int} {d : Delivery} {id : Uuid}

/-- The intent has succeeded. -/
def Paid (p : Payments) (intentId : Uuid) : Prop :=
  ∃ i ∈ p.intents, i.id = intentId ∧ i.status = .succeeded

instance (p : Payments) (intentId : Uuid) : Decidable (Paid p intentId) :=
  inferInstanceAs (Decidable (∃ i ∈ p.intents.rows, i.id = intentId ∧ i.status = .succeeded))

/-! ## Writing intents -/

theorem Paid.save {p : Payments} (hp : Paid p id) {i : PaymentIntent}
    (kept : i.id = id → i.status = .succeeded) : Paid (p.saveIntent i) id := by
  obtain ⟨j, hj, hid, hstatus⟩ := hp
  by_cases h : i.id = id
  · exact ⟨i, Table.mem_save.mpr (.inr ⟨rfl, j, hj, hid.trans h.symm⟩), h, kept h⟩
  · exact ⟨j, Table.mem_save.mpr (.inl ⟨hj, fun e => h (e.symm.trans hid)⟩), hid, hstatus⟩

/-- Saving another status takes the success away. -/
theorem not_paid_save {p : Payments} {i j : PaymentIntent} (hid : i.id = j.id)
    (other : j.status ≠ .succeeded) : ¬ Paid (p.saveIntent j) i.id := by
  rintro ⟨k, hk, hkid, hstatus⟩
  rcases Table.mem_save.mp hk with ⟨-, hne⟩ | ⟨rfl, -⟩
  · exact hne (hkid.trans hid)
  · exact other hstatus

/-! ## Deliveries -/

section

variable {provider : PaymentProviderAccount} {intent : PaymentIntent} {r : Registration}
  {replacement : Option AdmissionTierReplacement} {done : Reconciled}

/-- An event that does not overwrite its intent keeps every success. -/
theorem Paid.effect (hp : Paid s.payments id)
    (kept : intent.id = id → ¬ OverwritesIntent d intent r replacement)
    (h : Effect P s w now provider d intent r replacement done) : Paid done.store.payments id := by
  cases h with
  | excepted => exact hp
  | overwritten overwrites => exact hp.save fun e => absurd overwrites (kept e)
  | refunded => exact hp
  | applied _ _ _ attempted =>
    obtain ⟨-, -, -, t, -, rfl⟩ := createAttempt_eq_ok.mp attempted
    exact Paid.save (p := { s.payments with attempts := t }) hp fun _ => rfl
  | failed overwrites _ _ attempted =>
    obtain ⟨-, -, -, t, -, rfl⟩ := createAttempt_eq_ok.mp attempted
    exact hp.save fun e => absurd overwrites (kept e)

/-- A matched event leaves the success of its intent exactly where its branch
writes no other status. -/
theorem reconcileMatched_paid_iff (hi : intent ∈ s.payments.intents) (succeeded : intent.status = .succeeded)
    (h : reconcileMatched P s w now provider d intent r replacement = .ok done) :
    Paid done.store.payments intent.id ↔ ¬ OverwritesIntent d intent r replacement := by
  refine ⟨fun paid overwrites => ?_, fun left =>
    Paid.effect ⟨intent, hi, rfl, succeeded⟩ (fun _ => left) (reconcileMatched_effect h)⟩
  cases reconcileMatched_effect h with
  | excepted left => exact left overwrites
  | overwritten _ unpaid =>
    refine not_paid_save (p := s.payments) (i := intent) ?_ ?_ paid
    · rfl
    · exact unpaid
  | refunded left => exact left overwrites
  | applied left => exact left overwrites
  | failed _ unpaid _ attempted =>
    obtain ⟨-, -, -, t, -, rfl⟩ := createAttempt_eq_ok.mp attempted
    refine not_paid_save (p := s.payments) (i := intent) ?_ ?_ paid
    · rfl
    · exact unpaid

end

/-- A delivery is a repeat, is not about the intent `id` as one that succeeded, or its branch
does not overwrite the intent. -/
def DeliveryKeeps (id : Uuid) (s : Store) (w : Surroundings) (d : Delivery) : Prop :=
  s.payments.receipts.get? (d.providerAccountId, d.remoteEventId) = none →
    ∀ intent, s.matchedIntent w d = some intent → intent.id = id → intent.status = .succeeded →
      ∀ r, s.admissions.registrations.get? intent.registrationId = some r →
        ¬ OverwritesIntent d intent r (intent.tierReplacementId.bind s.admissions.replacements.get?)

theorem Paid.reconcile (hp : Paid s.payments id) (kept : DeliveryKeeps id s w d) {receipt : PaymentWebhookReceipt}
    (h : reconcileVerifiedPaymentEvent P s w now d = .ok (s', receipt)) : Paid s'.payments id := by
  cases reconcile_delivered h with
  | replayed => exact hp
  | unknown _ _ _ received =>
    obtain ⟨-, -, t, -, rfl⟩ := createReceipt_eq_ok.mp received
    exact hp
  | @matched _ intent _ done _ _ fresh hintent hr reconciled received =>
    have after : Paid done.store.payments id := by
      refine hp.effect (fun e overwrites => ?_) (reconcileMatched_effect reconciled)
      obtain ⟨j, hj, hid, hstatus⟩ := hp
      obtain rfl := Table.eq_of_key hj (matchedIntent_eq_some hintent).1 (hid.trans e.symm)
      exact kept fresh _ hintent e hstatus _ hr overwrites
    obtain ⟨-, -, t, -, rfl⟩ := createReceipt_eq_ok.mp received
    exact after

/-! ## Runs -/

/-- No delivery overwrites the intent `id`, and its checkout is over once it has succeeded. -/
def KeepsSuccess (id : Uuid) (s : System) (call : Call) : Prop :=
  match call.command with
  | .reconcile d => DeliveryKeeps id s.store call.surroundings d
  | .recordCheckout intentId _ _ | .recordCheckoutFailure intentId _ => intentId = id → ¬ Paid s.store.payments id
  | _ => True

theorem Paid.exec {s s' : System} {call : Call} {answer : Answer} (hp : Paid s.store.payments id)
    (kept : KeepsSuccess id s call) (h : exec P s call = .ok (s', answer)) : Paid s'.store.payments id := by
  replace h := exec_eq_ok h
  obtain ⟨store, rfl, h⟩ := h
  unfold KeepsSuccess at kept
  simp only [execCommand] at h
  split at h <;> rename_i command
  case h_11 =>
    obtain ⟨_, h⟩ := answered_eq_ok h
    obtain ⟨_, -, -, -, -, _, -, rfl⟩ := proposeFinancialOperation_eq_ok h
    exact hp
  case h_12 =>
    obtain ⟨_, h⟩ := answered_eq_ok h
    obtain ⟨_, -, -, -, -, -, -, -, -, -, same, -⟩ := approveFinancialOperation_eq_ok h
    exact same ▸ hp
  case h_13 =>
    simp only [bind_eq_ok, pure_eq_ok, Prod.mk.injEq] at h
    obtain ⟨_, h, rfl, -⟩ := h
    refine restrictEach_induct (I := fun s => Paid s.payments id) (fun _ _ _ _ _ hp h => ?_) _ hp h
    rcases restrictRegistration_eq_ok h with (rfl | rfl) | ⟨_, _, _, _, -, -, -, -, hs'⟩
    · exact hp
    · exact hp
    · rw [hs']
      exact hp
  case h_14 =>
    obtain ⟨_, h⟩ := answered_eq_ok h
    rcases createPaymentIntent_eq_ok h with rfl | ⟨_, -, _, -, _, t, -, -, -, -, -, -, -, ht, rfl⟩
    · exact hp
    · obtain ⟨j, hj, hid, hstatus⟩ := hp
      exact ⟨j, (Table.mem_insert? ht).mpr (.inl hj), hid, hstatus⟩
  case h_15 =>
    rw [command] at kept
    obtain ⟨i, -, hid, -, hs'⟩ := recordCheckout_eq_ok (withPayments_eq_ok h).1
    rw [hs']
    exact hp.save fun e => absurd hp (kept (hid.symm.trans e))
  case h_16 =>
    rw [command] at kept
    obtain ⟨i, -, hid, _, t, -, hs'⟩ := recordCheckoutFailure_eq_ok (withPayments_eq_ok h).1
    rw [hs']
    exact hp.save fun e => absurd hp (kept (hid.symm.trans e))
  case h_17 =>
    simp only [bind_eq_ok, pure_eq_ok, Prod.mk.injEq] at h
    obtain ⟨_, h, rfl, -⟩ := h
    rcases confirmDemoPayment_eq_ok h with rfl | ⟨_, -, _, _, p, -, hattempt, -, hs'⟩
    · exact hp
    · obtain ⟨-, -, -, t, -, rfl⟩ := createAttempt_eq_ok.mp hattempt
      rw [hs']
      exact hp
  case h_18 =>
    rw [command] at kept
    exact hp.reconcile kept (answered_eq_ok h).choose_spec
  case h_19 =>
    obtain ⟨t, hs'⟩ := resolvePaymentException_eq_ok (withPayments_eq_ok h).1
    rw [hs']
    exact hp
  all_goals exact (withAdmissions_eq_ok h).choose_spec.2 ▸ hp

/-- An intent that has succeeded has still succeeded after any run of commands none of which
overwrites it. -/
theorem run_paid (P : Primitives) {s : System} (paid : Paid s.store.payments id) {calls : List Call}
    (kept : (registrationMachine P).Along (KeepsSuccess id) s calls) :
    Paid ((registrationMachine P).run s calls).store.payments id := by
  have keep : ∀ (s : System) call s' answer, Paid s.store.payments id → KeepsSuccess id s call →
      (registrationMachine P).exec s call = .ok (s', answer) → Paid s'.store.payments id :=
    fun _ _ _ _ hp kept h => hp.exec kept h
  exact Machine.run_invariant_along keep paid kept

/-! ## A run -/

/-- The intent of account 11 with its payment received. -/
def fairPaid : System := (registrationMachine fairPrimitives).run fair fairPayment

/-- A dispute of a payment that was received leaves its success. -/
theorem fairPaid_dispute :
    Paid ((registrationMachine fairPrimitives).run fairPaid [fairEvent 51 "evt-2" "payment.disputed"]).store.payments
      41 := by
  refine run_paid _ ?_ ⟨?_, trivial⟩
  · decide +kernel
  · intro _ _ _ _ _ _ _ overwrites
    exact absurd overwrites.1 (by decide)

/-- A failure reported behind the success takes its place. -/
theorem fairPaid_failed :
    Paid fairPaid.store.payments 41 ∧
      ¬ Paid ((registrationMachine fairPrimitives).run fairPaid
        [fairEvent 51 "evt-2" "payment.failed"]).store.payments 41 := by
  decide +kernel

end Maru.Registration
