import Maru.Workforce.ShiftEffects
import Mathlib.Data.Int.ConditionallyCompleteOrder
import Mathlib.Order.CompletePartialOrder
import Mathlib.Order.Interval.Set.Disjoint

/-!
# The Shift invariant

`Accountable`: no person works or rests twice at a time, no demand is covered beyond its
headcount, coverage that is locked is confirmed and counted, demands that are not open or
locked have nobody on them, commitments record the times of their demand, and nobody
confirmed their own. Every effect of a command keeps it (`Effect.accountable`), so it holds
after every run (`shiftMachine_accountable`).
-/

namespace Maru.Workforce

open Calendar

/-- What holds of the active commitments of one demand. -/
structure Coverage (s : Shifts) (d : ShiftDemand) : Prop where
  capacity : s.activeCount d.id ≤ d.requiredHeadcount
  locked : d.status = .locked →
    (∀ c ∈ s.commitments, c.active → c.demandId = d.id → c.status = .confirmed) ∧
      d.lockedHeadcount = some (s.activeCount d.id)
  idle : d.status = .draft ∨ d.status = .completed ∨ d.status = .cancelled → s.activeCount d.id = 0

structure Accountable (s : Shifts) : Prop where
  disjoint : ∀ c₁ ∈ s.commitments, ∀ c₂ ∈ s.commitments, c₁.active → c₂.active → c₁.accountId = c₂.accountId →
    c₁.id ≠ c₂.id → Disjoint (Set.Ico c₁.startsAt c₁.restEndsAt) (Set.Ico c₂.startsAt c₂.restEndsAt)
  coverage : ∀ d ∈ s.demands, Coverage s d
  once : ∀ c₁ ∈ s.commitments, ∀ c₂ ∈ s.commitments, c₁.active → c₂.active →
    c₁.demandId = c₂.demandId → c₁.accountId = c₂.accountId → c₁ = c₂
  recorded : ∀ c ∈ s.commitments, ∃ d ∈ s.demands, d.id = c.demandId ∧
    c.startsAt = d.startsAt ∧ c.endsAt = d.endsAt ∧ c.restEndsAt = d.restEndsAt
  confirmer : ∀ c ∈ s.commitments, c.confirmedBy ≠ some c.accountId

/-! ## Counting -/

section

variable {s s' : Shifts}

theorem activeCount_congr (h : s'.commitments = s.commitments) (id : Uuid) :
    s'.activeCount id = s.activeCount id := by
  unfold Shifts.activeCount
  rw [h]

theorem activeCount_eq_zero {id : Uuid} :
    s.activeCount id = 0 ↔ ∀ c ∈ s.commitments, c.active → c.demandId ≠ id := by
  simp [Shifts.activeCount, List.countP_eq_zero, Table.mem_def]

theorem activeCount_insert {c : ShiftCommitment} (h : s.commitments.insert? c = some s'.commitments) (id : Uuid) :
    s'.activeCount id = s.activeCount id + if c.active ∧ c.demandId = id then 1 else 0 := by
  unfold Shifts.activeCount
  rw [Table.countP_insert? h]
  simp only [decide_eq_true_eq]

theorem activeCount_save {c c' : ShiftCommitment} (hc : c ∈ s.commitments)
    (same : SameCommitment c c') (h : s'.commitments = s.commitments.save c') (id : Uuid) :
    s'.activeCount id + (if c.active ∧ c.demandId = id then 1 else 0) =
      s.activeCount id + if c'.active ∧ c.demandId = id then 1 else 0 := by
  unfold Shifts.activeCount
  rw [h]
  have := Table.countP_save hc same.id.symm fun c => decide (c.active ∧ c.demandId = id)
  simpa only [decide_eq_true_eq, same.demandId] using this

theorem Coverage.congr {d : ShiftDemand} (hc : Coverage s d) (h : s'.commitments = s.commitments) :
    Coverage s' d := by
  obtain ⟨capacity, locked, idle⟩ := hc
  exact ⟨activeCount_congr h d.id ▸ capacity, fun hl => by rw [activeCount_congr h, h]; exact locked hl,
    fun hi => (activeCount_congr h d.id).trans (idle hi)⟩

theorem disjoint_of_free {a b a' b' : Int} (h : b ≤ a' ∨ b' ≤ a) : Disjoint (Set.Ico a b) (Set.Ico a' b') := by
  rw [Set.Ico_disjoint_Ico]
  omega

/-- Two rows of a table of demands with the same identifier record the same work. -/
theorem recorded_eq (hi : Accountable s) {c : ShiftCommitment} {d : ShiftDemand}
    (hc : c ∈ s.commitments) (hd : d ∈ s.demands) (hid : c.demandId = d.id) :
    c.startsAt = d.startsAt ∧ c.endsAt = d.endsAt ∧ c.restEndsAt = d.restEndsAt := by
  obtain ⟨d₀, hd₀, hid₀, h⟩ := hi.recorded c hc
  rwa [Table.eq_of_key hd₀ hd (hid₀.trans hid)] at h

theorem SameWork.restEndsAt {d d' : ShiftDemand} (h : SameWork d d') : d'.restEndsAt = d.restEndsAt := by
  unfold ShiftDemand.restEndsAt
  rw [h.endsAt, h.rest]

/-! ## Effects on demands alone -/

/-- A demand is saved and the commitments are left: what is to show is the coverage of the
saved demand, and that its commitments record its times. -/
theorem accountable_save (hi : Accountable s) {d d' : ShiftDemand} (hd : d ∈ s.demands)
    (hid : d'.id = d.id) (coverage : Coverage s d')
    (recorded : ∀ c ∈ s.commitments, c.demandId = d.id →
      c.startsAt = d'.startsAt ∧ c.endsAt = d'.endsAt ∧ c.restEndsAt = d'.restEndsAt)
    (demands : s'.demands = s.demands.save d') (commitments : s'.commitments = s.commitments) :
    Accountable s' where
  disjoint := by rw [commitments]; exact hi.disjoint
  once := by rw [commitments]; exact hi.once
  confirmer := by rw [commitments]; exact hi.confirmer
  coverage := by
    intro a ha
    rw [demands, Table.mem_save_of_mem hd hid.symm] at ha
    rcases ha with ⟨ha, -⟩ | rfl
    · exact (hi.coverage a ha).congr commitments
    · exact coverage.congr commitments
  recorded := by
    rw [commitments, demands]
    intro c hc
    by_cases h : c.demandId = d.id
    · exact ⟨d', (Table.mem_save_of_mem hd hid.symm).mpr (.inr rfl), hid.trans h.symm, recorded c hc h⟩
    · obtain ⟨d₀, hd₀, hid₀, h₀⟩ := hi.recorded c hc
      exact ⟨d₀, (Table.mem_save_of_mem hd hid.symm).mpr (.inl ⟨hd₀, fun e => h (hid₀.symm.trans (e.trans hid))⟩),
        hid₀, h₀⟩

/-- As `accountable_save`, for a demand that asks for the same work as before. -/
theorem accountable_save_same (hi : Accountable s) {d d' : ShiftDemand} (hd : d ∈ s.demands)
    (same : SameWork d d') (coverage : Coverage s d') (demands : s'.demands = s.demands.save d')
    (commitments : s'.commitments = s.commitments) : Accountable s' := by
  refine accountable_save hi hd same.id coverage (fun c hc hid => ?_) demands commitments
  rw [same.startsAt, same.endsAt, same.restEndsAt]
  exact recorded_eq hi hc hd hid

theorem accountable_create (hi : Accountable s) {d : ShiftDemand} (draft : d.status = .draft)
    (demands : s.demands.insert? d = some s'.demands) (commitments : s'.commitments = s.commitments) :
    Accountable s' := by
  have fresh := (Table.insert?_eq_some.mp demands).1
  have zero : s.activeCount d.id = 0 := by
    refine activeCount_eq_zero.mpr fun c hc _ e => ?_
    obtain ⟨d₀, hd₀, hid₀, -⟩ := hi.recorded c hc
    exact fresh d₀ hd₀ (hid₀.trans e)
  refine ⟨by rw [commitments]; exact hi.disjoint, fun a ha => ?_, by rw [commitments]; exact hi.once,
    fun c hc => ?_, by rw [commitments]; exact hi.confirmer⟩
  · rw [Table.mem_insert? demands] at ha
    rcases ha with ha | rfl
    · exact (hi.coverage a ha).congr commitments
    · have unlocked : a.status ≠ .locked := by rw [draft]; decide
      have cov : Coverage s a := ⟨by omega, fun h => absurd h unlocked, fun _ => zero⟩
      exact cov.congr commitments
  · rw [commitments] at hc
    obtain ⟨d₀, hd₀, h₀⟩ := hi.recorded c hc
    exact ⟨d₀, (Table.mem_insert? demands).mpr (.inl hd₀), h₀⟩

/-! ## Effects on commitments -/

theorem accountable_finish (hi : Accountable s) {d d' : ShiftDemand} (hd : d ∈ s.demands) (same : SameWork d d')
    (ended : d'.status = .completed ∨ d'.status = .cancelled) {end_ : ShiftCommitment → ShiftCommitment}
    (inactive : ∀ c, ¬(end_ c).active) (kept : ∀ c, SameCommitment c (end_ c))
    (confirmer : ∀ c, (end_ c).confirmedBy = c.confirmedBy) (demands : s'.demands = s.demands.save d')
    (commitments : ∀ c, c ∈ s'.commitments ↔ (c ∈ s.commitments ∧ ¬(c.active ∧ c.demandId = d.id)) ∨
      ∃ c₀ ∈ s.commitments, c₀.demandId = d.id ∧ c = end_ c₀ ∧ c₀.active)
    (others : ∀ id, id ≠ d.id → s'.activeCount id = s.activeCount id) : Accountable s' := by
  -- An active commitment after the end was there before, on another demand.
  have old : ∀ c ∈ s'.commitments, c.active → c ∈ s.commitments ∧ c.demandId ≠ d.id := by
    intro c hc ha
    rcases (commitments c).mp hc with ⟨hc, hno⟩ | ⟨c₀, -, -, rfl, -⟩
    · exact ⟨hc, fun e => hno ⟨ha, e⟩⟩
    · exact absurd ha (inactive c₀)
  have zero : s'.activeCount d.id = 0 := activeCount_eq_zero.mpr fun c hc ha => (old c hc ha).2
  refine ⟨fun c₁ h₁ c₂ h₂ a₁ a₂ => hi.disjoint c₁ (old c₁ h₁ a₁).1 c₂ (old c₂ h₂ a₂).1 a₁ a₂, fun a ha => ?_,
    fun c₁ h₁ c₂ h₂ a₁ a₂ => hi.once c₁ (old c₁ h₁ a₁).1 c₂ (old c₂ h₂ a₂).1 a₁ a₂, fun c hc => ?_,
    fun c hc => ?_⟩
  · rw [demands, Table.mem_save_of_mem hd same.id.symm] at ha
    rcases ha with ⟨ha, hne⟩ | rfl
    · obtain ⟨capacity, locked, idle⟩ := hi.coverage a ha
      have count := others a.id (same.id ▸ hne)
      refine ⟨count ▸ capacity, fun hl => ⟨fun c hc hact hid => ?_, count ▸ (locked hl).2⟩,
        fun h => count.trans (idle h)⟩
      exact (locked hl).1 c (old c hc hact).1 hact hid
    · refine ⟨by rw [same.id, zero]; omega, fun h => ?_, fun _ => by rw [same.id, zero]⟩
      rcases ended with e | e <;> rw [e] at h <;> cases h
  · have before : ∃ c₀ ∈ s.commitments, SameCommitment c₀ c := by
      rcases (commitments c).mp hc with ⟨hc, -⟩ | ⟨c₀, hc₀, -, rfl, -⟩
      · exact ⟨c, hc, ⟨rfl, rfl, rfl, rfl, rfl, rfl⟩⟩
      · exact ⟨c₀, hc₀, kept c₀⟩
    obtain ⟨c₀, hc₀, hsame⟩ := before
    obtain ⟨d₀, hd₀, hid₀, h₀⟩ := hi.recorded c₀ hc₀
    rw [hsame.demandId, hsame.startsAt, hsame.endsAt, hsame.restEndsAt, demands]
    by_cases h : d₀.id = d.id
    · rw [Table.eq_of_key hd₀ hd h] at hid₀ h₀
      refine ⟨d', (Table.mem_save_of_mem hd same.id.symm).mpr (.inr rfl), same.id.trans hid₀, ?_⟩
      rw [same.startsAt, same.endsAt, same.restEndsAt]
      exact h₀
    · exact ⟨d₀, (Table.mem_save_of_mem hd same.id.symm).mpr (.inl ⟨hd₀, fun e => h (e.trans same.id)⟩), hid₀, h₀⟩
  · rcases (commitments c).mp hc with ⟨hc, -⟩ | ⟨c₀, hc₀, -, rfl, -⟩
    · exact hi.confirmer c hc
    · rw [confirmer c₀, (kept c₀).accountId]
      exact hi.confirmer c₀ hc₀

theorem accountable_claim (hi : Accountable s) {d : ShiftDemand} {c : ShiftCommitment} (hd : d ∈ s.demands)
    (opened : d.status = .openForClaims) (demandId : c.demandId = d.id) (startsAt : c.startsAt = d.startsAt)
    (endsAt : c.endsAt = d.endsAt) (restEndsAt : c.restEndsAt = d.restEndsAt) (unconfirmed : c.confirmedBy = none)
    (room : s.activeCount d.id < d.requiredHeadcount)
    (once : ∀ c₀ ∈ s.commitments, c₀.active → c₀.demandId = d.id → c₀.accountId ≠ c.accountId)
    (free : Free s c.accountId d none) (demands : s'.demands = s.demands)
    (commitments : s.commitments.insert? c = some s'.commitments) : Accountable s' := by
  have mem {a : ShiftCommitment} : a ∈ s'.commitments ↔ a ∈ s.commitments ∨ a = c := Table.mem_insert? commitments
  have clear : ∀ a ∈ s.commitments, a.accountId = c.accountId → a.active →
      a.restEndsAt ≤ c.startsAt ∨ c.restEndsAt ≤ a.startsAt := fun a ha hacc hact => by
    rw [startsAt, restEndsAt]
    exact free a ha hacc hact (by simp)
  refine ⟨fun c₁ h₁ c₂ h₂ a₁ a₂ hacc hne => ?_, fun a ha => ?_, fun c₁ h₁ c₂ h₂ a₁ a₂ hdem hacc =>
    ?_, fun a ha => ?_, fun a ha => ?_⟩
  · rcases mem.mp h₁ with h₁ | rfl <;> rcases mem.mp h₂ with h₂ | rfl
    · exact hi.disjoint c₁ h₁ c₂ h₂ a₁ a₂ hacc hne
    · exact disjoint_of_free (clear c₁ h₁ hacc a₁)
    · exact disjoint_of_free (clear c₂ h₂ hacc.symm a₂).symm
    · exact absurd rfl hne
  · rw [demands] at ha
    obtain ⟨capacity, locked, idle⟩ := hi.coverage a ha
    by_cases h : a.id = d.id
    · obtain rfl := Table.eq_of_key ha hd h
      refine ⟨?_, fun hl => ?_, fun hidle => ?_⟩
      · rw [activeCount_insert commitments]
        split <;> omega
      · rw [opened] at hl; cases hl
      · rw [opened] at hidle; simp at hidle
    · have count : s'.activeCount a.id = s.activeCount a.id := by
        rw [activeCount_insert commitments, if_neg fun e => h (e.2.symm.trans demandId), Nat.add_zero]
      refine ⟨count ▸ capacity, fun hl => ⟨fun c₀ hc₀ hact hid => ?_, count ▸ (locked hl).2⟩,
        fun hidle => count.trans (idle hidle)⟩
      rcases mem.mp hc₀ with hc₀ | rfl
      · exact (locked hl).1 c₀ hc₀ hact hid
      · exact absurd (hid.symm.trans demandId) h
  · rcases mem.mp h₁ with h₁ | rfl <;> rcases mem.mp h₂ with h₂ | rfl
    · exact hi.once c₁ h₁ c₂ h₂ a₁ a₂ hdem hacc
    · exact absurd hacc (once c₁ h₁ a₁ (hdem.trans demandId))
    · exact absurd hacc.symm (once c₂ h₂ a₂ (hdem.symm.trans demandId))
    · rfl
  · rw [demands]
    rcases mem.mp ha with ha | rfl
    · exact hi.recorded a ha
    · exact ⟨d, hd, demandId.symm, startsAt, endsAt, restEndsAt⟩
  · rcases mem.mp ha with ha | rfl
    · exact hi.confirmer a ha
    · rw [unconfirmed]; simp

theorem accountable_change (hi : Accountable s) {d : ShiftDemand} {c c' : ShiftCommitment} (hd : d ∈ s.demands)
    (opened : d.status = .openForClaims) (hc : c ∈ s.commitments) (demandId : c.demandId = d.id)
    (active : c.active) (kept : SameCommitment c c')
    (confirmer : c'.confirmedBy = c.confirmedBy ∨ ∃ a, c'.confirmedBy = some a ∧ a ≠ c.accountId)
    (demands : s'.demands = s.demands) (commitments : s'.commitments = s.commitments.save c') :
    Accountable s' := by
  have mem {a : ShiftCommitment} : a ∈ s'.commitments ↔ (a ∈ s.commitments ∧ a.id ≠ c'.id) ∨ a = c' := by
    rw [commitments, Table.mem_save_of_mem hc kept.id.symm]
  -- Every row afterwards is the same commitment as a row before, active if it is.
  have before : ∀ a ∈ s'.commitments, a.active → ∃ b ∈ s.commitments, b.active ∧ SameCommitment b a := by
    intro a ha hact
    rcases mem.mp ha with ⟨ha, -⟩ | rfl
    · exact ⟨a, ha, hact, ⟨rfl, rfl, rfl, rfl, rfl, rfl⟩⟩
    · exact ⟨c, hc, active, kept⟩
  refine ⟨fun c₁ h₁ c₂ h₂ a₁ a₂ hacc hne => ?_, fun a ha => ?_, fun c₁ h₁ c₂ h₂ a₁ a₂ hdem hacc =>
    ?_, fun a ha => ?_, fun a ha => ?_⟩
  · obtain ⟨b₁, hb₁, act₁, same₁⟩ := before c₁ h₁ a₁
    obtain ⟨b₂, hb₂, act₂, same₂⟩ := before c₂ h₂ a₂
    rw [same₁.startsAt, same₁.restEndsAt, same₂.startsAt, same₂.restEndsAt]
    refine hi.disjoint b₁ hb₁ b₂ hb₂ act₁ act₂ ?_ ?_
    · rw [← same₁.accountId, ← same₂.accountId, hacc]
    · rwa [← same₁.id, ← same₂.id]
  · rw [demands] at ha
    obtain ⟨capacity, locked, idle⟩ := hi.coverage a ha
    have count := activeCount_save hc kept commitments a.id
    by_cases h : a.id = d.id
    · obtain rfl := Table.eq_of_key ha hd h
      refine ⟨?_, fun hl => ?_, fun hidle => ?_⟩
      · rw [if_pos ⟨active, demandId⟩] at count
        split at count <;> omega
      · rw [opened] at hl; cases hl
      · rw [opened] at hidle; simp at hidle
    · have hne : c.demandId ≠ a.id := fun e => h (e.symm.trans demandId)
      simp only [hne, and_false, if_false, Nat.add_zero] at count
      refine ⟨count ▸ capacity, fun hl => ⟨fun c₀ hc₀ hact hid => ?_, count ▸ (locked hl).2⟩,
        fun hidle => count.trans (idle hidle)⟩
      rcases mem.mp hc₀ with ⟨hc₀, -⟩ | rfl
      · exact (locked hl).1 c₀ hc₀ hact hid
      · exact absurd (kept.demandId.symm.trans hid) hne
  · obtain ⟨b₁, hb₁, act₁, same₁⟩ := before c₁ h₁ a₁
    obtain ⟨b₂, hb₂, act₂, same₂⟩ := before c₂ h₂ a₂
    have heq : b₁ = b₂ := hi.once b₁ hb₁ b₂ hb₂ act₁ act₂ (by rw [← same₁.demandId, ← same₂.demandId, hdem])
      (by rw [← same₁.accountId, ← same₂.accountId, hacc])
    exact Table.eq_of_key h₁ h₂ (by rw [same₁.id, same₂.id, heq])
  · rw [demands]
    rcases mem.mp ha with ⟨ha, -⟩ | rfl
    · exact hi.recorded a ha
    · rw [kept.demandId, kept.startsAt, kept.endsAt, kept.restEndsAt]
      exact hi.recorded c hc
  · rcases mem.mp ha with ⟨ha, -⟩ | rfl
    · exact hi.confirmer a ha
    · rw [kept.accountId]
      rcases confirmer with e | ⟨x, e, hx⟩
      · rw [e]; exact hi.confirmer c hc
      · rw [e]; exact fun e' => hx (Option.some.inj e')

end

/-! ## Every run -/

theorem Effect.accountable {s s' : Shifts} (h : Effect s s') (hi : Accountable s) : Accountable s' := by
  cases h with
  | keep demands commitments =>
    refine ⟨?_, fun d hd => ?_, ?_, ?_, ?_⟩
    · rw [commitments]; exact hi.disjoint
    · exact (hi.coverage d (demands ▸ hd)).congr commitments
    · rw [commitments]; exact hi.once
    · rw [commitments, demands]; exact hi.recorded
    · rw [commitments]; exact hi.confirmer
  | create d draft demands commitments => exact accountable_create hi draft demands commitments
  | redraft d d' mem id draft unused demands commitments =>
    have zero : s.activeCount d'.id = 0 := activeCount_eq_zero.mpr fun c hc _ => id ▸ unused c hc
    refine accountable_save hi mem id ⟨by omega, fun h => ?_, fun _ => zero⟩
      (fun c hc hid => absurd hid (unused c hc)) demands commitments
    rw [draft] at h; cases h
  | release d d' mem same opened demands commitments =>
    refine accountable_save_same hi mem same ⟨?_, fun h => ?_, fun h => ?_⟩ demands commitments
    · rw [same.id, same.headcount]; exact (hi.coverage d mem).capacity
    · rw [opened] at h; cases h
    · rw [opened] at h; simp at h
  | lock d d' mem same locked confirmed count demands commitments =>
    refine accountable_save_same hi mem same ⟨?_, fun _ => ?_, fun h => ?_⟩ demands commitments
    · rw [same.id, same.headcount]; exact (hi.coverage d mem).capacity
    · rw [same.id]; exact ⟨confirmed, count⟩
    · rw [locked] at h; simp at h
  | finish d d' mem same ended end_ inactive kept confirmer demands commitments others =>
    exact accountable_finish hi mem same ended inactive kept confirmer demands commitments others
  | claim d c mem opened demandId startsAt endsAt restEndsAt unconfirmed room once free demands commitments =>
    exact accountable_claim hi mem opened demandId startsAt endsAt restEndsAt unconfirmed room
      once free demands commitments
  | change d c c' mem opened memC demandId active kept confirmer free demands commitments =>
    exact accountable_change hi mem opened memC demandId active kept confirmer demands commitments

/-- Before any commitment: whatever coverage was locked counted nobody. -/
structure Uncommitted (s : Shifts) : Prop where
  commitments : s.commitments.rows = []
  locked : ∀ d ∈ s.demands, d.status = .locked → d.lockedHeadcount = some 0

theorem Uncommitted.accountable {s : Shifts} (h : Uncommitted s) : Accountable s := by
  have none : ∀ c, ¬ c ∈ s.commitments := fun c hc => by
    rw [Table.mem_def, h.commitments] at hc
    cases hc
  have zero : ∀ id, s.activeCount id = 0 := fun id => activeCount_eq_zero.mpr fun c hc => absurd hc (none c)
  refine ⟨fun c hc => absurd hc (none c), fun d hd => ⟨?_, fun hl => ⟨fun c hc => absurd hc (none c), ?_⟩, ?_⟩,
    fun c hc => absurd hc (none c), fun c hc => absurd hc (none c), fun c hc => absurd hc (none c)⟩
  · rw [zero]; omega
  · rw [zero]; exact h.locked d hd hl
  · exact fun _ => zero d.id

/-- After any run of Shift commands from a state without commitments, whoever issues them
in whatever surroundings, the Shifts are accountable. -/
theorem shiftMachine_accountable (P : Primitives) {s : Shifts} (hs : Uncommitted s)
    (calls : List ShiftCall) : Accountable ((shiftMachine P).run s calls) := by
  have keep : ∀ s call s' result, Accountable s → (shiftMachine P).exec s call = .ok (s', result) →
      Accountable s' := fun _ _ _ _ hi h => (execShift_effect h).accountable hi
  exact Machine.run_invariant keep hs.accountable calls

/-! ## A run -/

/-- One open demand for one person, from hour 10 to hour 12 with an hour of rest. -/
def nightDesk : ShiftDemand :=
  { id := 7, organizationId := 1, editionId := 2, positionId := 4, title := "Night desk", locationLabel := "Lobby",
    briefing := "Keep the desk.", supervisionNote := "", startsAt := minutes 600, endsAt := minutes 720,
    requiredHeadcount := 1, breakMinutes := 0, minimumRestMinutes := 60, status := .openForClaims,
    commandVersion := 2, createdBy := 8, publishedAt := some 0, publishedBy := some 8, lockedAt := none,
    lockedBy := none, lockedHeadcount := none, lockReason := "", completedAt := none, completedBy := none,
    completionReason := "", cancelledAt := none, cancelledBy := none, cancellationReason := "" }

def nightDeskShifts : Shifts := ⟨⟨[nightDesk], by simp⟩, ∅, ∅, ∅⟩

/-- Account 9 is assigned to the demand's position and available all day. -/
def nightDeskSurroundings : Surroundings where
  now := 0
  accounts := [⟨9, true, true⟩]
  editions := [⟨2, 1, 3, .preparing, .active, 0, 1, fun _ => 0, true⟩]
  departments := [⟨5, 1, 2, none⟩]
  positions := [⟨4, 1, 2, 5, .openForWork⟩]
  assignments := [⟨6, 1, 2, 4, 9, .active, 0, none⟩]
  plans := [⟨11, 1, 2, 9, .submitted, 1⟩]
  windows := [⟨11, 1, 0, minutes 1440⟩]
  viewShifts _ _ _ _ := false
  manageShifts _ _ _ _ := false
  manageSelfShifts _ _ _ _ := true
  publishedPersonConflict _ _ _ _ := some ⟨false, false⟩

def nightDeskClaim : ShiftCall where
  surroundings := nightDeskSurroundings
  request := ⟨9, 1, 3, 2, 20, 21, "service", 22, 23, id⟩
  command := .claim 7 2

/-- A claim that succeeds, and the invariant after it. -/
theorem nightDesk_accountable :
    ((shiftMachine ⟨fun _ => "", fun _ _ => 0⟩).run nightDeskShifts [nightDeskClaim]).activeCount 7 = 1 ∧
      Accountable ((shiftMachine ⟨fun _ => "", fun _ _ => 0⟩).run nightDeskShifts [nightDeskClaim]) :=
  ⟨by decide +kernel, shiftMachine_accountable _ ⟨rfl, by simp [nightDeskShifts, Table.mem_def, nightDesk]⟩ _⟩

end Maru.Workforce
