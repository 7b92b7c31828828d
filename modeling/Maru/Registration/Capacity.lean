import Maru.Registration.RegistrationMachine

/-!
# Places taken and places there are

`Sound`: the occupied registrations of a product with the live holds on it fit its effective
capacity, and the occupied registrations of a configuration fit the configuration's. One
lemma for each kind of write says when the write keeps this: a registration takes a place
only where there is room, a completed replacement takes the place it held, and an adjustment
does not go below what is taken.
-/

set_option linter.dupNamespace false

namespace Maru.Registration

/-- The registration's product belongs to its configuration. -/
def Scoped (a : Admissions) (r : Registration) : Prop :=
  ∃ p ∈ a.products, p.id = r.productId ∧ p.configurationId = r.configurationId

structure Sound (now : Int) (a : Admissions) : Prop where
  product : ∀ p ∈ a.products,
    a.productOccupied p.id + a.pendingTargetCapacityHolds p.id now ≤ a.effectiveProductCapacity p
  configuration : ∀ c ∈ a.configurations, a.configurationOccupied c.id ≤ a.effectiveConfigurationCapacity c
  inScope : ∀ r ∈ a.registrations, Scoped a r
  versions : ∀ x ∈ a.adjustments, ∃ k ∈ a.controls,
    k.configurationId = x.configurationId ∧ x.controlVersion ≤ k.aggregateVersion
  single : ∀ x ∈ a.replacements, ∀ y ∈ a.replacements, x.status = .paymentPending →
    y.status = .paymentPending → x.registrationId = y.registrationId → x = y

/-- A place of the registration's product and configuration is free. -/
structure Room (now : Int) (a : Admissions) (r : Registration) : Prop where
  product : ∀ p ∈ a.products, p.id = r.productId →
    a.productOccupied p.id + a.pendingTargetCapacityHolds p.id now < a.effectiveProductCapacity p
  configuration : ∀ c ∈ a.configurations, c.id = r.configurationId →
    a.configurationOccupied c.id < a.effectiveConfigurationCapacity c

/-- Nothing the capacities depend on changes; control versions only grow. -/
structure Kept (a a' : Admissions) : Prop where
  configurations : a'.configurations = a.configurations
  products : a'.products = a.products
  registrations : a'.registrations = a.registrations
  replacements : a'.replacements = a.replacements
  adjustments : a'.adjustments = a.adjustments
  controls : ∀ k ∈ a.controls, ∃ k' ∈ a'.controls,
    k'.configurationId = k.configurationId ∧ k.aggregateVersion ≤ k'.aggregateVersion

/-- Nothing the capacities depend on changes at all. -/
structure Same (a a' : Admissions) : Prop where
  configurations : a'.configurations = a.configurations
  products : a'.products = a.products
  registrations : a'.registrations = a.registrations
  replacements : a'.replacements = a.replacements
  adjustments : a'.adjustments = a.adjustments
  controls : a'.controls = a.controls

theorem Same.refl (a : Admissions) : Same a a := ⟨rfl, rfl, rfl, rfl, rfl, rfl⟩

theorem Same.trans {a b c : Admissions} (h : Same a b) (h' : Same b c) : Same a c :=
  ⟨h'.configurations.trans h.configurations, h'.products.trans h.products, h'.registrations.trans h.registrations,
    h'.replacements.trans h.replacements, h'.adjustments.trans h.adjustments, h'.controls.trans h.controls⟩

theorem Same.kept {a a' : Admissions} (h : Same a a') : Kept a a' :=
  ⟨h.configurations, h.products, h.registrations, h.replacements, h.adjustments,
    fun k hk => ⟨k, h.controls ▸ hk, rfl, le_rfl⟩⟩

theorem Kept.trans {a b c : Admissions} (h : Kept a b) (h' : Kept b c) : Kept a c where
  configurations := h'.configurations.trans h.configurations
  products := h'.products.trans h.products
  registrations := h'.registrations.trans h.registrations
  replacements := h'.replacements.trans h.replacements
  adjustments := h'.adjustments.trans h.adjustments
  controls k hk := by
    obtain ⟨k', hk', e, le⟩ := h.controls k hk
    obtain ⟨k'', hk'', e', le'⟩ := h'.controls k' hk'
    exact ⟨k'', hk'', e'.trans e, le.trans le'⟩

/-! ## Counting -/

section

variable {now : Int} {a a' : Admissions}

theorem productOccupied_congr (h : a'.registrations = a.registrations) (id : Uuid) :
    a'.productOccupied id = a.productOccupied id := by
  unfold Admissions.productOccupied
  rw [h]

theorem configurationOccupied_congr (h : a'.registrations = a.registrations) (id : Uuid) :
    a'.configurationOccupied id = a.configurationOccupied id := by
  unfold Admissions.configurationOccupied
  rw [h]

theorem holds_congr (h : a'.replacements = a.replacements) (id : Uuid) (now : Int) :
    a'.pendingTargetCapacityHolds id now = a.pendingTargetCapacityHolds id now := by
  unfold Admissions.pendingTargetCapacityHolds
  rw [h]

theorem latestCapacity_congr (h : a'.adjustments = a.adjustments) (id : Uuid)
    (productId : Option Uuid) : a'.latestCapacity id productId = a.latestCapacity id productId := by
  unfold Admissions.latestCapacity
  rw [h]

theorem effectiveProductCapacity_congr (h : a'.adjustments = a.adjustments) (p : AdmissionProduct) :
    a'.effectiveProductCapacity p = a.effectiveProductCapacity p := by
  unfold Admissions.effectiveProductCapacity
  rw [latestCapacity_congr h]

theorem effectiveConfigurationCapacity_congr (h : a'.adjustments = a.adjustments) (c : Configuration) :
    a'.effectiveConfigurationCapacity c = a.effectiveConfigurationCapacity c := by
  unfold Admissions.effectiveConfigurationCapacity
  rw [latestCapacity_congr h]

/-- A hold that is live later is live now. -/
theorem holds_antitone {later : Int} (h : now ≤ later) (id : Uuid) :
    a.pendingTargetCapacityHolds id later ≤ a.pendingTargetCapacityHolds id now := by
  refine List.countP_mono_left fun x _ hx => ?_
  simp only [AdmissionTierReplacement.holds, decide_eq_true_eq] at hx ⊢
  exact ⟨hx.1, hx.2.1, h.trans_lt hx.2.2⟩

theorem Scoped.congr {r : Registration} (h : a'.products = a.products) (hr : Scoped a r) : Scoped a' r := by
  unfold Scoped
  rw [h]
  exact hr

/-- A product's registrations are all in its configuration, so counting there misses none. -/
theorem occupiedIn_eq (hs : ∀ r ∈ a.registrations, Scoped a r) {p : AdmissionProduct}
    (hp : p ∈ a.products) : a.occupiedIn p.configurationId p.id = a.productOccupied p.id := by
  refine List.countP_congr fun r hr => ?_
  simp only [decide_eq_true_eq]
  constructor
  · rintro ⟨⟨ho, -⟩, hid⟩
    exact ⟨ho, hid⟩
  · rintro ⟨ho, hid⟩
    obtain ⟨p', hp', hid', hc⟩ := hs r hr
    obtain rfl := Table.eq_of_key hp hp' (hid.symm.trans hid'.symm)
    exact ⟨⟨ho, hc.symm⟩, hid⟩

/-! ## Writes that keep the bounds -/

theorem Sound.later {later : Int} (hs : Sound now a) (h : now ≤ later) : Sound later a where
  product p hp := by
    have := holds_antitone (a := a) h p.id
    have := hs.product p hp
    omega
  configuration := hs.configuration
  inScope := hs.inScope
  versions := hs.versions
  single := hs.single

theorem Sound.keep (hs : Sound now a) (h : Kept a a') : Sound now a' where
  product p hp := by
    rw [productOccupied_congr h.registrations, holds_congr h.replacements, effectiveProductCapacity_congr h.adjustments]
    exact hs.product p (h.products ▸ hp)
  configuration c hc := by
    rw [configurationOccupied_congr h.registrations, effectiveConfigurationCapacity_congr h.adjustments]
    exact hs.configuration c (h.configurations ▸ hc)
  inScope r hr := (hs.inScope r (h.registrations ▸ hr)).congr h.products
  versions x hx := by
    obtain ⟨k, hk, e, le⟩ := hs.versions x (h.adjustments ▸ hx)
    obtain ⟨k', hk', e', le'⟩ := h.controls k hk
    exact ⟨k', hk', e'.trans e, le.trans le'⟩
  single := by
    rw [h.replacements]
    exact hs.single

theorem Sound.same (hs : Sound now a) (h : Same a a') : Sound now a' := hs.keep h.kept

theorem Sound.register (hs : Sound now a) {r : Registration} {t : Table Registration.id}
    (inserted : a.registrations.insert? r = some t) (inScope : Scoped a r)
    (room : r.state.occupied → Room now a r) : Sound now { a with registrations := t } := by
  refine ⟨fun p hp => ?_, fun c hc => ?_, fun r' hr' => ?_, hs.versions, hs.single⟩
  · have count : Admissions.productOccupied { a with registrations := t } p.id = a.productOccupied p.id + _ :=
      Table.countP_insert? inserted _
    have bound := hs.product p hp
    show _ + a.pendingTargetCapacityHolds p.id now ≤ a.effectiveProductCapacity p
    rw [count]
    split
    · rename_i h
      simp only [decide_eq_true_eq] at h
      have := (room h.1).product p hp h.2.symm
      omega
    · omega
  · have count : Admissions.configurationOccupied { a with registrations := t } c.id =
        a.configurationOccupied c.id + _ := Table.countP_insert? inserted _
    have bound := hs.configuration c hc
    show _ ≤ a.effectiveConfigurationCapacity c
    rw [count]
    split
    · rename_i h
      simp only [decide_eq_true_eq] at h
      exact (room h.1).configuration c hc h.2.symm
    · omega
  · rcases (Table.mem_insert? inserted).mp hr' with hr' | rfl
    · exact hs.inScope r' hr'
    · exact inScope

/-- A change that takes no place that was not taken, or one where there is room. -/
theorem Sound.change (hs : Sound now a) {r r' : Registration} (hr : r ∈ a.registrations) (hid : r.id = r'.id)
    (hc : r'.configurationId = r.configurationId) (hp : r'.productId = r.productId) (inScope : Scoped a r')
    (room : r'.state.occupied → r.state.occupied ∨ Room now a r') :
    Sound now { a with registrations := a.registrations.save r' } := by
  refine ⟨fun p hpm => ?_, fun c hcm => ?_, fun x hx => ?_, hs.versions, hs.single⟩
  · have count : Admissions.productOccupied { a with registrations := a.registrations.save r' }
        p.id + _ = a.productOccupied p.id + _ := Table.countP_save hr hid _
    have bound := hs.product p hpm
    show _ + a.pendingTargetCapacityHolds p.id now ≤ a.effectiveProductCapacity p
    simp only [decide_eq_true_eq, hp] at count
    by_cases h : r'.state.occupied ∧ r.productId = p.id
    · rcases room h.1 with ho | hroom
      · rw [if_pos ⟨ho, h.2⟩, if_pos h] at count
        omega
      · have := hroom.product p hpm (h.2.symm.trans hp.symm)
        rw [if_pos h] at count
        split at count <;> omega
    · rw [if_neg h] at count
      split at count <;> omega
  · have count : Admissions.configurationOccupied { a with registrations := a.registrations.save r' } c.id + _ =
        a.configurationOccupied c.id + _ := Table.countP_save hr hid _
    have bound := hs.configuration c hcm
    show _ ≤ a.effectiveConfigurationCapacity c
    simp only [decide_eq_true_eq, hc] at count
    by_cases h : r'.state.occupied ∧ r.configurationId = c.id
    · rcases room h.1 with ho | hroom
      · rw [if_pos ⟨ho, h.2⟩, if_pos h] at count
        omega
      · have := hroom.configuration c hcm (h.2.symm.trans hc.symm)
        rw [if_pos h] at count
        split at count <;> omega
    · rw [if_neg h] at count
      split at count <;> omega
  · rcases Table.mem_save.mp hx with ⟨hx, -⟩ | ⟨rfl, -⟩
    · exact hs.inScope x hx
    · exact inScope

/-- A new hold, where a place of its target is free. -/
theorem Sound.hold (hs : Sound now a) {x : AdmissionTierReplacement}
    {t : Table AdmissionTierReplacement.id} (inserted : a.replacements.insert? x = some t)
    (room : ∀ p ∈ a.products, p.id = x.targetProductId →
      a.productOccupied p.id + a.pendingTargetCapacityHolds p.id now < a.effectiveProductCapacity p)
    (single : ∀ y ∈ a.replacements, y.registrationId = x.registrationId → y.status ≠ .paymentPending) :
    Sound now { a with replacements := t } := by
  refine ⟨fun p hp => ?_, hs.configuration, hs.inScope, hs.versions, fun y hy z hz hyp hzp e => ?_⟩
  rotate_left
  · rcases (Table.mem_insert? inserted).mp hy with hy | rfl <;>
      rcases (Table.mem_insert? inserted).mp hz with hz | rfl
    · exact hs.single y hy z hz hyp hzp e
    · exact absurd hyp (single y hy e)
    · exact absurd hzp (single z hz e.symm)
    · rfl
  have count : Admissions.pendingTargetCapacityHolds { a with replacements := t } p.id now =
      a.pendingTargetCapacityHolds p.id now + _ := Table.countP_insert? inserted _
  have bound := hs.product p hp
  show a.productOccupied p.id + _ ≤ a.effectiveProductCapacity p
  rw [count]
  split
  · rename_i h
    simp only [AdmissionTierReplacement.holds, decide_eq_true_eq] at h
    have := room p hp h.1.symm
    omega
  · omega

theorem not_holds {x : AdmissionTierReplacement} (h : x.status ≠ .paymentPending) (id : Uuid) :
    x.holds id now = false := by
  simp [AdmissionTierReplacement.holds, h]

/-- Ending a replacement leaves the others as they were. -/
theorem single_save (hs : Sound now a) {x' : AdmissionTierReplacement} (ended : x'.status ≠ .paymentPending) :
    ∀ y ∈ a.replacements.save x', ∀ z ∈ a.replacements.save x', y.status = .paymentPending →
      z.status = .paymentPending → y.registrationId = z.registrationId → y = z := by
  intro y hy z hz hyp hzp e
  rcases Table.mem_save.mp hy with ⟨hy, -⟩ | ⟨rfl, -⟩
  · rcases Table.mem_save.mp hz with ⟨hz, -⟩ | ⟨rfl, -⟩
    · exact hs.single y hy z hz hyp hzp e
    · exact absurd hzp ended
  · exact absurd hyp ended

/-- A hold given up. -/
theorem Sound.release (hs : Sound now a) {x z : AdmissionTierReplacement} (hx : x ∈ a.replacements)
    (hid : x.id = z.id) (ended : z.status ≠ .paymentPending) :
    Sound now { a with replacements := a.replacements.save z } := by
  refine ⟨fun p hp => ?_, hs.configuration, hs.inScope, hs.versions, single_save hs ended⟩
  have count : Admissions.pendingTargetCapacityHolds { a with replacements := a.replacements.save z } p.id now + _ =
      a.pendingTargetCapacityHolds p.id now + _ := Table.countP_save hx hid _
  have bound := hs.product p hp
  show a.productOccupied p.id + _ ≤ a.effectiveProductCapacity p
  rw [not_holds ended, if_neg Bool.false_ne_true] at count
  omega

/-- A registration moves to the product its replacement holds a place of. -/
theorem Sound.upgrade (hs : Sound now a) {r r' : Registration} {x z : AdmissionTierReplacement}
    {entitlements : Table Entitlement.key} (hr : r ∈ a.registrations) (hid : r.id = r'.id) (occupied : r.state.occupied)
    (hstate : r'.state = r.state) (hc : r'.configurationId = r.configurationId) (inScope : Scoped a r')
    (hx : x ∈ a.replacements) (hxid : x.id = z.id) (held : x.holds r'.productId now)
    (ended : z.status ≠ .paymentPending) :
    Sound now { a with
      registrations := a.registrations.save r', entitlements, replacements := a.replacements.save z } := by
  refine ⟨fun p hp => ?_, fun c hcm => ?_, fun y hy => ?_, hs.versions, single_save hs ended⟩
  · have count : Admissions.productOccupied { a with registrations := a.registrations.save r' }
        p.id + _ = a.productOccupied p.id + _ := Table.countP_save hr hid _
    have holds : Admissions.pendingTargetCapacityHolds { a with replacements := a.replacements.save z } p.id now + _ =
        a.pendingTargetCapacityHolds p.id now + _ := Table.countP_save hx hxid _
    have bound := hs.product p hp
    show Admissions.productOccupied { a with registrations := a.registrations.save r' } p.id +
      Admissions.pendingTargetCapacityHolds
        { a with replacements := a.replacements.save z } p.id now ≤ a.effectiveProductCapacity p
    rw [not_holds ended, if_neg Bool.false_ne_true] at holds
    simp only [decide_eq_true_eq, hstate, occupied, true_and] at count
    by_cases h : r'.productId = p.id
    · rw [h] at held
      rw [if_pos held] at holds
      rw [if_pos h] at count
      split at count <;> omega
    · rw [if_neg h] at count
      split at count <;> omega
  · have count : Admissions.configurationOccupied { a with registrations := a.registrations.save r' } c.id + _ =
        a.configurationOccupied c.id + _ := Table.countP_save hr hid _
    have bound := hs.configuration c hcm
    show Admissions.configurationOccupied { a with registrations := a.registrations.save r' } c.id ≤
      a.effectiveConfigurationCapacity c
    rw [hstate, hc] at count
    omega
  · rcases Table.mem_save.mp hy with ⟨hy, -⟩ | ⟨rfl, -⟩
    · exact hs.inScope y hy
    · exact inScope

/-! ## Adjustments -/

/-- A new largest element is the largest. -/
theorem argmax_concat_of_lt {α β : Type*} [LinearOrder β] {f : α → β} {l : List α} {x : α}
    (h : ∀ y ∈ l, f y < f x) : (l ++ [x]).argmax f = some x := by
  rw [List.argmax_concat]
  cases hm : l.argmax f with
  | none => rfl
  | some y => simp [h y (List.argmax_mem hm)]

theorem latestCapacity_insert {x : CapacityAdjustment} {t : Table CapacityAdjustment.id}
    (inserted : a.adjustments.insert? x = some t)
    (latest : ∀ y ∈ a.adjustments, y.configurationId = x.configurationId → y.controlVersion < x.controlVersion)
    (id : Uuid) (productId : Option Uuid) :
    Admissions.latestCapacity { a with adjustments := t } id productId =
      if x.configurationId = id ∧ x.productId = productId then some x.newCapacity
      else a.latestCapacity id productId := by
  unfold Admissions.latestCapacity
  rw [(Table.insert?_eq_some.mp inserted).2, List.filter_append, List.filter_cons, List.filter_nil]
  split
  · rename_i h
    simp only [decide_eq_true_eq] at h
    rw [if_pos h, argmax_concat_of_lt]
    · rfl
    intro y hy
    obtain ⟨hy, hc⟩ := List.mem_filter.mp hy
    simp only [decide_eq_true_eq] at hc
    exact Prod.Lex.toLex_lt_toLex.mpr (.inl (latest y hy (hc.1.trans h.1.symm)))
  · rename_i h
    simp only [decide_eq_true_eq] at h
    rw [if_neg h, List.append_nil]

/-- An adjustment that leaves room for what is taken. -/
theorem Sound.adjust (hs : Sound now a) {k : CommerceControl} {x : CapacityAdjustment} {t : Table CapacityAdjustment.id}
    (hk : k ∈ a.controls) (hc : x.configurationId = k.configurationId)
    (hv : x.controlVersion = k.aggregateVersion + 1) (inserted : a.adjustments.insert? x = some t)
    (product : ∀ p ∈ a.products, x.productId = some p.id →
      a.productOccupied p.id + a.pendingTargetCapacityHolds p.id now ≤ x.newCapacity)
    (configuration : ∀ c ∈ a.configurations, c.id = x.configurationId → x.productId = none →
      a.configurationOccupied c.id ≤ x.newCapacity) :
    Sound now { a with
      controls := a.controls.save { k with aggregateVersion := k.aggregateVersion + 1 }, adjustments := t } := by
  have older : ∀ y ∈ a.adjustments, y.configurationId = x.configurationId → y.controlVersion < x.controlVersion := by
    intro y hy e
    obtain ⟨k', hk', e', le⟩ := hs.versions y hy
    obtain rfl := Table.eq_of_key hk hk' ((e'.trans (e.trans hc)).symm)
    omega
  have latest := latestCapacity_insert inserted older
  refine ⟨fun p hp => ?_, fun c hcm => ?_, hs.inScope, fun y hy => ?_, hs.single⟩
  · show a.productOccupied p.id + a.pendingTargetCapacityHolds p.id now ≤
      (Admissions.latestCapacity { a with adjustments := t } p.configurationId (some p.id)).getD p.capacity
    rw [latest]
    split
    · rename_i h
      exact product p hp h.2
    · exact hs.product p hp
  · show a.configurationOccupied c.id ≤
      (Admissions.latestCapacity { a with adjustments := t } c.id none).getD c.capacity
    rw [latest]
    split
    · rename_i h
      exact configuration c hcm h.1.symm h.2
    · exact hs.configuration c hcm
  · -- The control that covers an adjustment is the one that advanced, or is as it was.
    have old : ∃ k' ∈ a.controls, k'.configurationId = y.configurationId ∧
        (y.controlVersion ≤ k'.aggregateVersion ∨ k' = k ∧ y.controlVersion ≤ k.aggregateVersion + 1) := by
      rcases (Table.mem_insert? inserted).mp hy with hy | rfl
      · obtain ⟨k', hk', e, le⟩ := hs.versions y hy
        exact ⟨k', hk', e, .inl le⟩
      · exact ⟨k, hk, hc.symm, .inr ⟨rfl, hv.le⟩⟩
    obtain ⟨k', hk', e, le⟩ := old
    by_cases h : k'.configurationId = k.configurationId
    · refine ⟨_, Table.mem_save.mpr (.inr ⟨rfl, k, hk, rfl⟩), h.symm.trans e, ?_⟩
      obtain rfl := Table.eq_of_key hk' hk h
      show y.controlVersion ≤ k'.aggregateVersion + 1
      rcases le with le | ⟨-, le⟩ <;> omega
    · exact ⟨k', Table.mem_save.mpr (.inl ⟨hk', h⟩), e, le.resolve_right fun e' => h (by rw [e'.1])⟩

end

end Maru.Registration
