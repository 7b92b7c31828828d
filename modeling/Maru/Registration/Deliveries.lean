import Maru.Registration.ReconciliationOutcome

/-!
# Deliveries over runs

In every reachable store a delivery that matches an intent is recorded exactly when it is
`Reconcilable`, one whose event has a receipt changes nothing, and no registration is
confirmed by a provider twice (`run_reconciles`).
-/

namespace Maru.Registration

variable {P : Primitives} {s s' : Store} {w : Surroundings} {now : Int} {d : Delivery} {intent : PaymentIntent}

/-- A delivery that matches an intent commits exactly when it is reconcilable. -/
theorem reconcile_succeeds_iff (hs : Linked s) (hm : s.matchedIntent w d = some intent) :
    (∃ s' receipt, reconcileVerifiedPaymentEvent P s w now d = .ok (s', receipt)) ↔
      Reconcilable P s w now d intent := by
  obtain ⟨hi, account, reference⟩ := matchedIntent_eq_some hm
  obtain ⟨r, hr, about, provider, hprovider, hid, -⟩ := (hs.intents intent hi).registration
  have found : s.payments.providers.get? d.providerAccountId = some provider :=
    Table.get?_eq_some.mpr ⟨hprovider, hid.trans account⟩
  have registered : s.admissions.registrations.get? intent.registrationId = some r :=
    Table.get?_eq_some.mpr ⟨hr, about⟩
  have key : provider.id = d.providerAccountId := hid.trans account
  have stored : storable d.event.providerReference := by
    rw [← storable_text, ← Delivery.providerReference, ← reference]
    exact (hs.intents intent hi).reference
  unfold Reconcilable
  cases hreceipt : s.payments.receipts.get? (d.providerAccountId, d.remoteEventId) with
  | some existing =>
    simp only [reconcileVerifiedPaymentEvent, bind_eq_ok, getOr_eq_ok, require_eq_ok, pure_eq_ok,
      found, Option.some.injEq, exists_eq_left', key, hreceipt, Prod.mk.injEq]
    constructor
    · rintro ⟨_, _, _, storable, _, digest, -⟩
      exact ⟨storable, digest⟩
    · rintro ⟨storable, digest⟩
      exact ⟨s, existing, (), storable, (), digest, rfl, rfl⟩
  | none =>
    have branch := fun written length => @reconcileMatched_succeeds_iff P s w now _ d _ _ _ hs hi hr about
      (hs.newEvent hprovider hi (account.trans key.symm) hr about (key ▸ hreceipt) written length) rfl
    simp only [reconcileVerifiedPaymentEvent, bind_eq_ok, getOr_eq_ok, require_eq_ok, pure_eq_ok,
      found, Option.some.injEq, exists_eq_left', key, hreceipt, hm, registered, Prod.mk.injEq]
    constructor
    · rintro ⟨_, _, _, storable, _, -, _, readable, done, hdone, p, hp, -⟩
      obtain ⟨written, length, -⟩ := createReceipt_eq_ok.mp hp
      refine ⟨storable, written, length, ?_⟩
      rintro _ _ rfl rfl
      exact ⟨readable, (branch written length).mp ⟨done, hdone⟩⟩
    · rintro ⟨storable, written, length, commits⟩
      obtain ⟨readable, commits⟩ := commits provider r rfl rfl
      obtain ⟨done, hdone⟩ := (branch written length).mpr commits
      obtain ⟨t, ht⟩ := Table.exists_insert?_eq_some
        (r := d.receipt now done.outcome done.code (some intent.id)).mpr hreceipt
      rw [← (reconcileMatched_effect hdone).receipts] at ht
      exact ⟨_, _, (), storable, (), stored, (), readable, done, hdone, _,
        createReceipt_eq_ok.mpr ⟨written, length, t, ht, rfl⟩, rfl, rfl⟩

/-! ## What is recorded -/

/-- What the intent is for is confirmed. -/
def Confirmed (a : Admissions) (intent : PaymentIntent) : Prop :=
  match intent.tierReplacementId with
  | none => ∃ r ∈ a.registrations, r.id = intent.registrationId ∧ r.state = .confirmed ∧
      r.confirmationBasis = some .provider
  | some id => ∃ x ∈ a.replacements, x.id = id ∧ x.status = .completed ∧ ∃ r ∈ a.registrations,
      r.id = intent.registrationId ∧ r.productId = x.targetProductId

/-- The event's money is in the ledger, and what it pays for is confirmed; a failure moves none. -/
inductive Applied (s : Store) (d : Delivery) (intent : PaymentIntent) : Prop
  | payment (reported : d.event.eventType = "payment.succeeded") (confirmed : Confirmed s.admissions intent)
      (entry : ∃ e ∈ s.finance.ledger, e.kind = .payment ∧ e.direction = .inflow ∧
        e.registrationId = intent.registrationId ∧ e.amountMinor = d.event.amountMinor ∧
        e.currency = d.event.currency ∧ e.providerReference = d.remoteEventId)
  | refund (reported : d.event.eventType = "payment.refunded")
      (entry : ∃ e ∈ s.finance.ledger, e.kind = .refund ∧ e.direction = .outflow ∧
        e.registrationId = intent.registrationId ∧ e.amountMinor = d.event.amountMinor ∧
        e.currency = d.event.currency ∧ e.providerReference = d.remoteEventId)
  | failure (reported : d.event.eventType = "payment.failed" ∨ d.event.eventType = "payment.abandoned")
      (attempt : ∃ x ∈ s.payments.attempts, x.registrationId = intent.registrationId ∧
        x.status = .failed ∧ x.providerReference = d.remoteEventId)

/-- An open exception about the intent. -/
def Excepted (s : Store) (d : Delivery) (intent : PaymentIntent) : Prop :=
  ∃ x ∈ s.payments.exceptions, x.id = d.exceptionId ∧ x.open_ ∧ x.paymentIntentId = some intent.id

/-- The receipt of a delivery: of an earlier one, which changes nothing, or of a new one, which
is applied or excepted. -/
structure Recorded (s : Store) (d : Delivery) (intent : PaymentIntent) (s' : Store)
    (receipt : PaymentWebhookReceipt) : Prop where
  committed : receipt ∈ s'.payments.receipts
  key : receipt.key = (d.providerAccountId, d.remoteEventId)
  digest : receipt.payloadDigest = d.payloadDigest
  outcome : (receipt ∈ s.payments.receipts ∧ s' = s) ∨
    (receipt.outcome = .applied ∧ Applied s' d intent) ∨ (receipt.outcome = .exception ∧ Excepted s' d intent)

theorem confirmPaid_confirmed {a a' : Admissions} {r : Registration} (hr : r ∈ a.registrations) {paidAt : Int}
    {correlationId : Uuid} (h : a.confirmPaid w now r paidAt correlationId = .ok a') :
    ∃ r' ∈ a'.registrations, r'.id = r.id ∧ r'.state = .confirmed ∧ r'.confirmationBasis = some .provider := by
  simp only [Admissions.confirmPaid, bind_eq_ok, pure_eq_ok] at h
  obtain ⟨a₁, h₁, a₂, h₂, rfl⟩ := h
  have saved := mem_saveRegistration (r := r.paid paidAt) hr rfl h₁
  refine ⟨r.paid paidAt, ?_, rfl, rfl, rfl⟩
  show _ ∈ a₂.registrations
  rw [(same_grant h₂).registrations]
  exact saved

theorem complete_confirmed {a a' : Admissions} {replacementId correlationId : Uuid} {completedAt : Int}
    (h : completeAdmissionTierReplacement a w now replacementId correlationId completedAt = .ok a') :
    ∃ x ∈ a.replacements, x.id = replacementId ∧ ∃ x' ∈ a'.replacements, x'.id = replacementId ∧
      x'.status = .completed ∧ ∃ r ∈ a'.registrations, r.id = x.registrationId ∧ r.productId = x'.targetProductId := by
  simp only [completeAdmissionTierReplacement, bind_eq_ok, getOr_eq_ok, pure_eq_ok] at h
  obtain ⟨x, hx, _, -, _, -, r, hr, _, -, _, -, source, -, a₁, h₁, a₂, h₂, rfl⟩ := h
  obtain ⟨hxm, hxid⟩ := Table.get?_eq_some.mp hx
  obtain ⟨hrm, hrid⟩ := Table.get?_eq_some.mp hr
  have moved := mem_saveRegistration (r := r.moved x) hrm rfl h₁
  obtain ⟨-, -, rfl⟩ := saveRegistration_eq_ok h₁
  have kept : a₂.registrations = a.registrations.save (r.moved x) ∧ a₂.replacements = a.replacements := by
    unfold Admissions.exchangeEntitlement at h₂
    split at h₂
    · obtain ⟨t, -, rfl⟩ := createEntitlement_eq_ok h₂
      exact ⟨rfl, rfl⟩
    · cases h₂
      exact ⟨rfl, rfl⟩
  refine ⟨x, hxm, hxid, _, Table.mem_save.mpr (.inr ⟨rfl, x, ?_, rfl⟩), hxid, rfl, r.moved x, ?_, hrid, rfl⟩
  · exact kept.2 ▸ hxm
  · show _ ∈ a₂.registrations
    rw [kept.1]
    exact moved

theorem createEntry_mem {f f' : Finance} {provider : PaymentProviderAccount} {e : LedgerEntry}
    (h : f.createEntry provider e = .ok f') : e ∈ f'.ledger := by
  obtain ⟨-, -, t, ht, rfl⟩ := createEntry_eq_ok.mp h
  exact (Table.mem_insert? ht).mpr (.inr rfl)

/-- A new event that matches an intent is applied or excepted. -/
theorem Effect.recorded (hs : Linked s) {provider : PaymentProviderAccount} {r : Registration} {done : Reconciled}
    (hi : intent ∈ s.payments.intents) (hr : r ∈ s.admissions.registrations) (about : r.id = intent.registrationId)
    (new : NewEvent s provider d r)
    (h : Effect P s w now provider d intent r (intent.tierReplacementId.bind s.admissions.replacements.get?) done) :
    (done.outcome = .applied ∧ Applied done.store d intent) ∨
      (done.outcome = .exception ∧ Excepted done.store d intent) := by
  cases h with
  | excepted _ _ opened => exact .inr ⟨rfl, _, (Table.mem_insert? opened).mpr (.inr rfl), rfl, rfl, rfl⟩
  | overwritten _ _ opened => exact .inr ⟨rfl, _, (Table.mem_insert? opened).mpr (.inr rfl), rfl, rfl, rfl⟩
  | @refunded o f _ reported pending entered =>
    obtain ⟨-, oabout, -, -, amount, currency⟩ := pendingRefund_eq_some pending
    have posted := createEntry_mem entered
    exact .inl ⟨rfl, .refund reported ⟨o.refundEntry provider d.remoteEventId d.occurredAt,
      posted, rfl, rfl, oabout.trans about, amount, currency, rfl⟩⟩
  | failed _ _ reported attempted =>
    obtain ⟨-, -, -, t, ht, rfl⟩ := createAttempt_eq_ok.mp attempted
    exact .inl ⟨rfl, .failure reported ⟨_, (Table.mem_insert? ht).mpr (.inr rfl), about, rfl, rfl⟩⟩
  | applied _ reported current _ entered completed =>
    refine .inl ⟨rfl, .payment reported ?_ ?_⟩
    · unfold Admissions.completePayment at completed
      unfold Confirmed
      split at completed
      · rename_i id hid
        obtain ⟨x, hx, rfl⟩ := Option.map_eq_some_iff.mp hid
        obtain ⟨hxm, tier, xabout⟩ := hs.replacementOf hi hx
        rw [tier]
        obtain ⟨y, hy, hyid, x', hx', hxid, status, r', hr', hrid, product⟩ := complete_confirmed completed
        obtain rfl := Table.eq_of_key hy hxm hyid
        exact ⟨x', hx', hxid, status, r', hr', hrid.trans xabout, product⟩
      · rename_i hid
        rw [Option.map_eq_none_iff] at hid
        have untiered : intent.tierReplacementId = none := by
          cases tier : intent.tierReplacementId with
          | none => rfl
          | some id =>
            obtain ⟨x, hx, hxid, -⟩ := (hs.intents intent hi).replacement id tier
            rw [tier, Option.bind_some, Table.get?_eq_none] at hid
            exact absurd hxid (hid x hx)
        rw [untiered]
        obtain ⟨r', hr', hrid, confirmed⟩ := confirmPaid_confirmed hr completed
        exact ⟨r', hr', hrid.trans about, confirmed⟩
    · unfold recordProviderPayment at entered
      rw [new.unposted .payment] at entered
      exact ⟨_, createEntry_mem entered, rfl, rfl, about, rfl, rfl, rfl⟩

/-- What commits is recorded. -/
theorem reconcile_recorded (hs : Linked s) (hm : s.matchedIntent w d = some intent)
    {receipt : PaymentWebhookReceipt} (h : reconcileVerifiedPaymentEvent P s w now d = .ok (s', receipt)) :
    Recorded s d intent s' receipt := by
  cases reconcile_delivered h with
  | replayed known key digest => exact ⟨known, key, digest, .inl ⟨known, rfl⟩⟩
  | unknown _ unmatched =>
    obtain ⟨hi, account, reference⟩ := matchedIntent_eq_some hm
    have mem : intent ∈ s.payments.intentScope d := List.mem_filter.mpr ⟨hi, by simpa using ⟨account, reference⟩⟩
    rw [unmatched] at mem
    cases mem
  | @matched provider i r done p hprovider fresh hintent hr reconciled received =>
    obtain rfl := Option.some.inj (hm.symm.trans hintent)
    obtain ⟨hi, account, -⟩ := matchedIntent_eq_some hm
    obtain ⟨hprovider, key⟩ := Table.get?_eq_some.mp hprovider
    obtain ⟨hr, about⟩ := Table.get?_eq_some.mp hr
    obtain ⟨written, length, t, ht, rfl⟩ := createReceipt_eq_ok.mp received
    have new := hs.newEvent hprovider hi (account.trans key.symm) hr about (key ▸ fresh) written length
    have recorded := (reconcileMatched_effect reconciled).recorded hs hi hr about new
    refine ⟨(Table.mem_insert? ht).mpr (.inr rfl), rfl, rfl, .inr ?_⟩
    rcases recorded with ⟨outcome, applied⟩ | ⟨outcome, x, hx, excepted⟩
    · refine .inl ⟨outcome, ?_⟩
      cases applied with
      | payment reported confirmed entry => exact .payment reported confirmed entry
      | refund reported entry => exact .refund reported entry
      | failure reported attempt => exact .failure reported attempt
    · exact .inr ⟨outcome, x, hx, excepted⟩

/-! ## Receipts stay -/

theorem receipt_reconcile {x : PaymentWebhookReceipt} (hx : x ∈ s.payments.receipts) {receipt : PaymentWebhookReceipt}
    (h : reconcileVerifiedPaymentEvent P s w now d = .ok (s', receipt)) : x ∈ s'.payments.receipts := by
  cases reconcile_delivered h with
  | replayed => exact hx
  | unknown _ _ _ received =>
    obtain ⟨-, -, t, ht, rfl⟩ := createReceipt_eq_ok.mp received
    exact (Table.mem_insert? ht).mpr (.inl hx)
  | matched _ _ _ _ reconciled received =>
    obtain ⟨-, -, t, ht, rfl⟩ := createReceipt_eq_ok.mp received
    rw [(reconcileMatched_effect reconciled).receipts] at ht
    exact (Table.mem_insert? ht).mpr (.inl hx)

theorem receipt_exec {x : PaymentWebhookReceipt} {s s' : System} {call : Call} {answer : Answer}
    (hx : x ∈ s.store.payments.receipts) (h : exec P s call = .ok (s', answer)) : x ∈ s'.store.payments.receipts := by
  replace h := exec_eq_ok h
  obtain ⟨store, rfl, h⟩ := h
  simp only [execCommand] at h
  split at h
  case h_11 =>
    obtain ⟨_, h⟩ := answered_eq_ok h
    obtain ⟨_, -, -, -, -, _, -, rfl⟩ := proposeFinancialOperation_eq_ok h
    exact hx
  case h_12 =>
    obtain ⟨_, h⟩ := answered_eq_ok h
    obtain ⟨_, -, -, -, -, -, -, -, -, -, same, -⟩ := approveFinancialOperation_eq_ok h
    exact same ▸ hx
  case h_13 =>
    simp only [bind_eq_ok, pure_eq_ok, Prod.mk.injEq] at h
    obtain ⟨_, h, rfl, -⟩ := h
    refine restrictEach_induct (I := fun s => x ∈ s.payments.receipts) (fun _ _ _ _ _ hx h => ?_) _ hx h
    rcases restrictRegistration_eq_ok h with (rfl | rfl) | ⟨_, _, _, _, -, -, -, -, hs'⟩
    · exact hx
    · exact hx
    · rw [hs']
      exact hx
  case h_14 =>
    obtain ⟨_, h⟩ := answered_eq_ok h
    rcases createPaymentIntent_eq_ok h with rfl | ⟨_, -, _, -, _, _, -, -, -, -, -, -, -, -, rfl⟩ <;> exact hx
  case h_15 =>
    obtain ⟨_, -, -, -, hs'⟩ := recordCheckout_eq_ok (withPayments_eq_ok h).1
    rw [hs']
    exact hx
  case h_16 =>
    obtain ⟨_, -, -, _, _, -, hs'⟩ := recordCheckoutFailure_eq_ok (withPayments_eq_ok h).1
    rw [hs']
    exact hx
  case h_17 =>
    simp only [bind_eq_ok, pure_eq_ok, Prod.mk.injEq] at h
    obtain ⟨_, h, rfl, -⟩ := h
    rcases confirmDemoPayment_eq_ok h with rfl | ⟨_, -, _, _, _, -, hattempt, -, hs'⟩
    · exact hx
    · obtain ⟨-, -, -, t, -, rfl⟩ := createAttempt_eq_ok.mp hattempt
      rw [hs']
      exact hx
  case h_18 => exact receipt_reconcile hx (answered_eq_ok h).choose_spec
  case h_19 =>
    obtain ⟨t, hs'⟩ := resolvePaymentException_eq_ok (withPayments_eq_ok h).1
    rw [hs']
    exact hx
  all_goals exact (withAdmissions_eq_ok h).choose_spec.2 ▸ hx

/-- A delivery of an event that has a receipt is answered by it and changes nothing. -/
theorem reconcile_repeat {x receipt : PaymentWebhookReceipt} (hx : x ∈ s.payments.receipts)
    (key : x.key = (d.providerAccountId, d.remoteEventId))
    (h : reconcileVerifiedPaymentEvent P s w now d = .ok (s', receipt)) : s' = s ∧ receipt = x := by
  have known : s.payments.receipts.get? (d.providerAccountId, d.remoteEventId) = some x :=
    Table.get?_eq_some.mpr ⟨hx, key⟩
  cases reconcile_delivered h with
  | replayed mem key' => exact ⟨rfl, Table.eq_of_key mem hx (key'.trans key.symm)⟩
  | unknown fresh => exact absurd (fresh.symm.trans known) (by simp)
  | matched _ fresh => exact absurd (fresh.symm.trans known) (by simp)

/-! ## Runs -/

/-- Nothing has been registered, paid or received. -/
structure Unopened (s : Store) : Prop where
  registrations : s.admissions.registrations.rows = []
  replacements : s.admissions.replacements.rows = []
  entitlements : s.admissions.entitlements.rows = []
  timeline : s.admissions.timeline = []
  operations : s.finance.operations.rows = []
  ledger : s.finance.ledger.rows = []
  intents : s.payments.intents.rows = []

theorem Unopened.linked (hs : Unopened s) : Linked s where
  admissions := {
    inScope := by simp [Table.mem_def, hs.registrations]
    held := by simp [Table.mem_def, hs.replacements]
    entitled := by simp [Table.mem_def, hs.entitlements]
    single := by simp [Table.mem_def, hs.replacements]
    once := by simp [Admissions.confirmations, hs.timeline]
    settled := by simp [Admissions.confirmations, hs.timeline] }
  intents := by simp [Table.mem_def, hs.intents]
  operations := by simp [Table.mem_def, hs.operations]
  received := by simp [Table.mem_def, hs.ledger]

theorem run_linked (P : Primitives) {s : System} (hs : Unopened s.store) (calls : List Call) :
    Linked ((registrationMachine P).run s calls).store := by
  have keep : ∀ (s : System) call s' answer, Linked s.store →
      (registrationMachine P).exec s call = .ok (s', answer) → Linked s'.store := fun _ _ _ _ hs h => hs.exec h
  exact Machine.run_invariant keep hs.linked calls

/-- In every reachable store a delivery that matches an intent is recorded if and only if it is
reconcilable, an event that has a receipt is answered by it for ever and changes nothing, and a
registration is confirmed by a provider at most once. -/
theorem run_reconciles (P : Primitives) {s : System} (hs : Unopened s.store) (calls : List Call) :
    (∀ w now d intent, ((registrationMachine P).run s calls).store.matchedIntent w d = some intent →
      ((∃ s' receipt, reconcileVerifiedPaymentEvent P ((registrationMachine P).run s calls).store w now d =
          .ok (s', receipt) ∧ Recorded ((registrationMachine P).run s calls).store d intent s' receipt) ↔
        Reconcilable P ((registrationMachine P).run s calls).store w now d intent)) ∧
    (∀ x ∈ ((registrationMachine P).run s calls).store.payments.receipts, ∀ more w now d s' receipt,
      x.key = (d.providerAccountId, d.remoteEventId) →
      reconcileVerifiedPaymentEvent P
        ((registrationMachine P).run s (calls ++ more)).store w now d = .ok (s', receipt) →
      s' = ((registrationMachine P).run s (calls ++ more)).store ∧ receipt = x) ∧
    ∀ registrationId, ((registrationMachine P).run s calls).store.admissions.confirmations registrationId ≤ 1 := by
  have linked := run_linked P hs calls
  refine ⟨fun w now d intent hm => ?_, fun x hx more w now d s' receipt key h => ?_, linked.admissions.once⟩
  · rw [← reconcile_succeeds_iff linked hm]
    constructor
    · rintro ⟨s', receipt, h, -⟩
      exact ⟨s', receipt, h⟩
    · rintro ⟨s', receipt, h⟩
      exact ⟨s', receipt, h, reconcile_recorded linked hm h⟩
  · have keep : ∀ (s : System) call s' answer, x ∈ s.store.payments.receipts →
        (registrationMachine P).exec s call = .ok (s', answer) → x ∈ s'.store.payments.receipts :=
      fun _ _ _ _ hx h => receipt_exec hx h
    have kept := Machine.run_invariant keep hx more
    rw [← Machine.run_append] at kept
    exact reconcile_repeat kept key h

/-! ## A run -/

/-- A dispute of the payment of account 11. -/
def fairDispute : Delivery :=
  ⟨6, ⟨.ofString "evt-2", .ofString "chk-1", "payment.disputed", 5000, "EUR", fairMoment⟩, 3, "evt-2", 44, 51⟩

/-- The dispute is recorded, once, and the payment has confirmed the registration once. -/
theorem fairDispute_recorded :
    (∃ intent s' receipt, reconcileVerifiedPaymentEvent fairPrimitives
        ((registrationMachine fairPrimitives).run fair fairPayment).store fairSurroundings 9
          fairDispute = .ok (s', receipt) ∧
      Recorded ((registrationMachine fairPrimitives).run fair fairPayment).store fairDispute intent s' receipt) ∧
    ((registrationMachine fairPrimitives).run fair fairPayment).store.admissions.confirmations
      0x34000000000000000000000000000000 ≤ 1 := by
  have reached := run_reconciles fairPrimitives (s := fair) ⟨rfl, rfl, rfl, rfl, rfl, rfl, rfl⟩ fairPayment
  have matched : (((registrationMachine fairPrimitives).run fair fairPayment).store.matchedIntent fairSurroundings
      fairDispute).any fun i => Disputes fairDispute i ∧ i.readable ∧ i.tierReplacementId = none := by decide +kernel
  have readable : ∀ r ∈ ((registrationMachine fairPrimitives).run fair fairPayment).store.admissions.registrations.rows,
      r.readable := by decide +kernel
  have fresh : ((registrationMachine fairPrimitives).run fair fairPayment).store.payments.receipts.get?
      (fairDispute.providerAccountId, fairDispute.remoteEventId) = none := by decide +kernel
  have new : ExceptionIsNew ((registrationMachine fairPrimitives).run fair fairPayment).store.payments fairDispute := by
    show _ = none
    decide +kernel
  obtain ⟨intent, hm, about⟩ := (Option.any_eq_true _ _).mp matched
  obtain ⟨disputes, intentReadable, untiered⟩ := of_decide_eq_true about
  refine ⟨⟨intent, (reached.1 fairSurroundings 9 fairDispute intent hm).mpr ⟨by decide, ?_⟩⟩, reached.2.2 _⟩
  rw [fresh]
  refine ⟨by decide, by decide, fun _ r _ hr => ⟨⟨intentReadable, readable r (Table.get?_eq_some.mp hr).1, ?_⟩, ?_⟩⟩
  · rw [untiered]
    rfl
  · unfold BranchCommits
    rw [if_neg fun h => absurd h.1 (by decide), if_pos disputes]
    exact ⟨by decide, new⟩

/-- Account 11 opens a checkout for the weekend pass, and is cancelled by staff before it pays. -/
def fairUpgrade : List Call :=
  fairPayment ++ [fairCall 52 (.reserveTier ⟨1, 2, 0x34000000000000000000000000000000, 5, 11, 2, 53⟩),
    fairCall 54 (.createIntent 0x34000000000000000000000000000000 6 55),
    fairCall 56 (.recordCheckout 54 (.ofString "chk-2") fairExpiry),
    fairCall 57 (.propose ⟨1, 2, 0x34000000000000000000000000000000, 20, .cancel, 0, "Ill", none, none⟩),
    fairApproval 57]

/-- The payment of the upgrade, made in time. -/
def fairUpgradePaid : Delivery :=
  ⟨6, ⟨.ofString "evt-2", .ofString "chk-2", "payment.succeeded", 3000, "EUR", .utc 9 (by decide)⟩, 9, "evt-2", 58, 59⟩

/-- The payment matches its intent, and neither a receipt nor an exception comes of it. -/
theorem fairUpgrade_lost :
    (((registrationMachine fairPrimitives).run fair fairUpgrade).store.matchedIntent fairSurroundings
        fairUpgradePaid).isSome ∧
      ¬ ∃ s' receipt, reconcileVerifiedPaymentEvent fairPrimitives
        ((registrationMachine fairPrimitives).run fair fairUpgrade).store fairSurroundings 10
          fairUpgradePaid = .ok (s', receipt) := by
  refine ⟨by decide +kernel, ?_⟩
  have failed : Except.failure? (reconcileVerifiedPaymentEvent fairPrimitives
      ((registrationMachine fairPrimitives).run fair fairUpgrade).store fairSurroundings 10
        fairUpgradePaid) = some (.invalid "__all__" "tier_replacement_source_changed"
          "The source admission changed before the upgrade completed.") := by decide +kernel
  rintro ⟨s', receipt, h⟩
  rw [h] at failed
  cases failed

end Maru.Registration
