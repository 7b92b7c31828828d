import Maru.Registration.CapacityInvariant

/-!
# The capacity bound

After every run that starts without registrations, places taken and held are within the
effective capacities, if every guardian's acceptance finds room (`run_withinCapacity`). An
acceptance keeps the bounds in no other case (`acceptGuardianConsent_withinCapacity_iff`).
-/

namespace Maru.Registration

variable {P : Primitives}

/-- Places taken and held are within the effective capacities. -/
structure WithinCapacity (now : Int) (a : Admissions) : Prop where
  product : ∀ p ∈ a.products,
    a.productOccupied p.id + a.pendingTargetCapacityHolds p.id now ≤ a.effectiveProductCapacity p
  configuration : ∀ c ∈ a.configurations, a.configurationOccupied c.id ≤ a.effectiveConfigurationCapacity c

instance (now : Int) (a : Admissions) : Decidable (WithinCapacity now a) :=
  decidable_of_iff ((∀ p ∈ a.products.rows,
      a.productOccupied p.id + a.pendingTargetCapacityHolds p.id now ≤ a.effectiveProductCapacity p) ∧
    ∀ c ∈ a.configurations.rows, a.configurationOccupied c.id ≤ a.effectiveConfigurationCapacity c)
    ⟨fun h => ⟨h.1, h.2⟩, fun h => ⟨h.product, h.configuration⟩⟩

theorem Sound.withinCapacity {now : Int} {a : Admissions} (h : Sound now a) : WithinCapacity now a :=
  ⟨h.product, h.configuration⟩

/-- A guardian's acceptance finds room; nothing is asked of the other commands. -/
def AcceptsWithRoom (P : Primitives) (s : System) (call : Call) : Prop :=
  match call.command with
  | .acceptGuardianConsent rawToken _ =>
    AcceptanceHasRoom s.store.admissions call.surroundings (s.clock + call.elapsed) (P.tokenDigest rawToken)
  | _ => True

/-- An acceptance that goes through leaves the bounds in place only where it finds room. -/
theorem acceptGuardianConsent_withinCapacity_iff {now : Int} {w : Surroundings} {a a' : Admissions}
    (hs : Sound now a) {tokenDigest guardianName : String} {r' : Registration}
    (h : acceptGuardianConsent a w now tokenDigest guardianName = .ok (a', r')) :
    WithinCapacity now a' ↔ AcceptanceHasRoom a w now tokenDigest := by
  refine ⟨fun bounds => ?_, fun hroom => (hs.accept hroom h).withinCapacity⟩
  obtain ⟨consent, hconsent, -, -, r, hr, hid, hstate, c, hc, hcid, p, hp, hpid, -, same⟩ :=
    acceptGuardianConsent_eq_ok h
  intro consent' hconsent' _ _ r₁ hr₁ hid₁ _ p₁ hp₁ hpid₁ c₁ hc₁ hcid₁ free
  -- The rows are the ones the acceptance read.
  obtain rfl := Option.some.inj (hconsent.symm.trans hconsent')
  obtain rfl := Table.eq_of_key hr hr₁ (hid.trans hid₁.symm)
  obtain rfl := Table.eq_of_key hp hp₁ (hpid.trans hpid₁.symm)
  obtain rfl := Table.eq_of_key hc hc₁ (hcid.trans hcid₁.symm)
  rw [free] at same
  obtain ⟨eid, ec, ep, occupied⟩ := accepted_eq r c p false now
  have product := bounds.product p (same.products ▸ hp)
  have configuration := bounds.configuration c (same.configurations ▸ hc)
  rw [productOccupied_congr same.registrations, holds_congr same.replacements,
    effectiveProductCapacity_congr same.adjustments] at product
  rw [configurationOccupied_congr same.registrations,
    effectiveConfigurationCapacity_congr same.adjustments] at configuration
  have count : Admissions.productOccupied
      { a with registrations := a.registrations.save (r.accepted c p false now) } p.id + _ =
      a.productOccupied p.id + _ := Table.countP_save hr eid.symm _
  have count' : Admissions.configurationOccupied
      { a with registrations := a.registrations.save (r.accepted c p false now) } c.id + _ =
      a.configurationOccupied c.id + _ := Table.countP_save hr eid.symm _
  have before : r.state.occupied = false := by rw [hstate]; rfl
  simp only [before, occupied.mpr rfl, ep, ec, hpid, hcid, decide_eq_true_eq, and_self, if_true,
    Bool.false_eq_true, false_and, if_false, Nat.add_zero] at count count'
  rw [← hpid] at count
  rw [← hcid] at count'
  simp only [Admissions.full, decide_eq_false_iff_not, not_or, not_le]
  have taken : a.productOccupied p.id + 1 + a.pendingTargetCapacityHolds p.id now ≤ a.effectiveProductCapacity p :=
    count ▸ product
  have taken' : a.configurationOccupied c.id + 1 ≤ a.effectiveConfigurationCapacity c := count' ▸ configuration
  omega

/-- Nothing has been registered, held or adjusted. -/
structure Unregistered (a : Admissions) : Prop where
  registrations : a.registrations.rows = []
  replacements : a.replacements.rows = []
  adjustments : a.adjustments.rows = []

theorem Unregistered.sound {now : Int} {a : Admissions} (h : Unregistered a) : Sound now a where
  product p _ := by simp [Admissions.productOccupied, Admissions.pendingTargetCapacityHolds, h.registrations,
    h.replacements]
  configuration c _ := by simp [Admissions.configurationOccupied, h.registrations]
  inScope r hr := by simp [Table.mem_def, h.registrations] at hr
  versions x hx := by simp [Table.mem_def, h.adjustments] at hx
  single x hx := by simp [Table.mem_def, h.replacements] at hx

/-- A command, issued when its acceptance finds room, keeps the bounds. -/
theorem Sound.exec {s s' : System} {call : Call} {answer : Answer} (hs : Sound s.clock s.store.admissions)
    (hroom : AcceptsWithRoom P s call) (h : exec P s call = .ok (s', answer)) :
    Sound s'.clock s'.store.admissions := by
  have hs := hs.later (Int.le_add_of_nonneg_right (Int.natCast_nonneg call.elapsed))
  replace h := exec_eq_ok h
  obtain ⟨store, rfl, h⟩ := h
  unfold AcceptsWithRoom at hroom
  simp only [execCommand] at h
  split at h <;> rename_i command
  case h_1 => exact hs.submit (withAdmissions_eq_ok h).choose_spec.1
  case h_2 =>
    rw [command] at hroom
    exact hs.accept hroom (withAdmissions_eq_ok h).choose_spec.1
  case h_3 => exact hs.extend (withAdmissions_eq_ok h).choose_spec.1
  case h_4 => exact hs.waive (withAdmissions_eq_ok h).choose_spec.1
  case h_5 => exact hs.checkIn (withAdmissions_eq_ok h).choose_spec.1
  case h_6 => exact hs.processLifecycle (withAdmissions_eq_ok h).choose_spec.1
  case h_7 => exact hs.reserve (withAdmissions_eq_ok h).choose_spec.1
  case h_8 =>
    obtain ⟨x, hx, -⟩ := withAdmissions_eq_ok h
    have expired := hs.expire (w := call.surroundings) ‹Uuid›
    rw [Except.ok.inj hx] at expired
    exact expired
  case h_9 => exact hs.adjustCapacity (withAdmissions_eq_ok h).choose_spec.1
  case h_10 => exact hs.offerBatch (withAdmissions_eq_ok h).choose_spec.1
  case h_11 =>
    obtain ⟨_, h⟩ := answered_eq_ok h
    obtain ⟨_, -, -, -, -, _, -, rfl⟩ := proposeFinancialOperation_eq_ok h
    exact hs
  case h_12 => exact hs.approve (answered_eq_ok h).choose_spec
  case h_13 =>
    simp only [bind_eq_ok, pure_eq_ok, Prod.mk.injEq] at h
    obtain ⟨_, h, rfl, -⟩ := h
    exact restrictEach_induct (fun _ _ _ _ hr hs h => Sound.restrictRegistration hs hr h) _ hs h
  case h_14 =>
    obtain ⟨_, h⟩ := answered_eq_ok h
    rcases createPaymentIntent_eq_ok h with rfl | ⟨_, -, _, -, _, _, -, -, -, -, -, -, -, -, rfl⟩ <;> exact hs
  case h_15 => exact (withPayments_eq_ok h).2 ▸ hs
  case h_16 => exact (withPayments_eq_ok h).2 ▸ hs
  case h_17 =>
    simp only [bind_eq_ok, pure_eq_ok, Prod.mk.injEq] at h
    obtain ⟨_, h, rfl, -⟩ := h
    exact hs.demo h
  case h_18 => exact hs.reconcile (answered_eq_ok h).choose_spec
  case h_19 => exact (withPayments_eq_ok h).2 ▸ hs

/-- After any run from a store without registrations, whose guardians accept only where there
is room, places taken and held are within the effective capacities. -/
theorem run_withinCapacity (P : Primitives) {s : System} (hs : Unregistered s.store.admissions)
    {calls : List Call} (hroom : (registrationMachine P).Along (AcceptsWithRoom P) s calls) :
    WithinCapacity ((registrationMachine P).run s calls).clock
      ((registrationMachine P).run s calls).store.admissions := by
  have keep : ∀ (s : System) call s' answer, Sound s.clock s.store.admissions → AcceptsWithRoom P s call →
      (registrationMachine P).exec s call = .ok (s', answer) → Sound s'.clock s'.store.admissions :=
    fun _ _ _ _ hi hroom h => hi.exec hroom h
  exact (Machine.run_invariant_along keep hs.sound hroom).withinCapacity

/-! ## A run -/

def fairConfiguration : Configuration where
  id := 3
  organizationId := 1
  editionId := 2
  currency := "EUR"
  opensAt := 0
  closesAt := Calendar.minutes 100000
  capacity := 2
  capacityCeiling := none
  defaultPaymentWindowMinutes := 600
  waitlistEnabled := true
  automaticWaitlistPromotion := true

def dayPass : AdmissionProduct where
  id := 4
  configurationId := 3
  available := true
  name := "Day pass"
  priceMinor := 5000
  capacity := 2
  capacityCeiling := none
  entitlementCode := "day"
  entitlementName := "Day admission"
  salesOpenAt := none
  salesCloseAt := none
  requiredCapacityCodes := []
  eligibilityExplanation := ""
  waitlistEnabled := true
  paymentWindowMinutes := none

def weekendPass : AdmissionProduct :=
  { dayPass with
    id := 5, name := "Weekend pass", priceMinor := 8000, entitlementCode := "weekend"
    entitlementName := "Weekend admission" }

def fairProvider : PaymentProviderAccount := ⟨6, 1, "hosted", true⟩

def fair : System where
  clock := 0
  store.admissions := ⟨⟨[fairConfiguration], by decide⟩, ⟨[dayPass, weekendPass], by decide⟩, ∅, ∅, ∅, [], ∅, ∅, ∅, ∅, ∅⟩
  store.finance := ⟨∅, ∅⟩
  store.payments := ⟨⟨[fairProvider], by decide⟩, ∅, ∅, ∅, ∅⟩

/-- Accounts 10 and 11 attend, 20 and 21 are staff. -/
def fairSurroundings : Surroundings where
  accounts := [⟨10, true, true, false⟩, ⟨11, true, true, false⟩, ⟨20, true, true, false⟩, ⟨21, true, true, false⟩]
  editions := [⟨2, 1, false, true⟩]
  activeConfigurations := [3]
  participations := [(1, 2, 10), (1, 2, 11)]
  capacities := []
  restriction _ _ _ := none
  decide _ _ _ _ := true
  demoPaymentAdapterEnabled := true

def fairCall (newId : Uuid) (command : Command) : Call := ⟨1, fairSurroundings, newId, id, newId, command⟩

def fairSubmission (accountId : Uuid) (guardian : Option GuardianRequest) : Submission where
  organizationId := 1
  editionId := 2
  actorId := accountId
  subjectAccountId := none
  productId := 4
  answers := .ok ()
  allowUnverified := false
  bypassSaleWindows := false
  staffReason := ""
  guardian := guardian

/-- The digests of the document and the token, the names of the attempts, and what is drawn for
entries of timelines, in runs at the fair. -/
def fairPrimitives : Primitives where
  canonicalDigest _ := "9dd67c9ffed639d68aa746916bbf56e835c2c774a3074b1e1cd2aeafda9750f7"
  tokenDigest _ := "2f7b"
  uuid5 _ name := if name = "00000000-0000-0000-0000-000000000006:evt-1" then 0xcd9b96ff042459b8a9e64cb2f5d1cc84
    else 0x50f6494beb32533a86908ccb03f580f1
  entryId registrationId sequence := 0 - registrationId - Fin.ofNat _ sequence

/-- A minor registers with a guardian link. -/
def fairGuardian : Call :=
  fairCall 0x30000000000000000000000000000000
    (.submit (fairSubmission 10 (some ⟨31, "2f7b", "Alex", "alex@example.org", "Parent", "1"⟩)))

def fairAdjustment : Call := fairCall 32 (.adjustCapacity ⟨1, 2, 20, 1, "Smaller hall", 1, 33, some 4⟩)

def fairRegistration : Call :=
  fairCall 0x34000000000000000000000000000000 (.submit (fairSubmission 11 none))

def fairAcceptance : Call := fairCall 35 (.acceptGuardianConsent "link" "Alex")

/-- The link is used while both places are there: the bounds hold after it. -/
theorem fair_withinCapacity :
    ((registrationMachine fairPrimitives).run fair [fairGuardian, fairAcceptance]).store.admissions.productOccupied 4 =
        1 ∧
      WithinCapacity ((registrationMachine fairPrimitives).run fair [fairGuardian, fairAcceptance]).clock
        ((registrationMachine fairPrimitives).run fair [fairGuardian, fairAcceptance]).store.admissions := by
  refine ⟨by decide +kernel, run_withinCapacity _ ⟨rfl, rfl, rfl⟩ ⟨trivial, ?_, trivial⟩⟩
  have room : ∀ p ∈ fair.store.admissions.products.rows, ∀ c ∈ fair.store.admissions.configurations.rows,
      ((registrationMachine fairPrimitives).step fair fairGuardian).store.admissions.full c p 2 = false := by
    decide +kernel
  intro _ _ _ _ _ _ _ _ p hp _ c hc _ _
  exact room p hp c hc

/-- The adjusted capacity is one and taken, the offered capacity is two: the guardian's
acceptance takes a place that is not there. -/
theorem fair_overfull :
    ¬ WithinCapacity
      ((registrationMachine fairPrimitives).run fair
        [fairGuardian, fairAdjustment, fairRegistration, fairAcceptance]).clock
      ((registrationMachine fairPrimitives).run fair
        [fairGuardian, fairAdjustment, fairRegistration, fairAcceptance]).store.admissions := by
  decide +kernel

end Maru.Registration
