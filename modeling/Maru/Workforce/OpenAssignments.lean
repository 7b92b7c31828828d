import Maru.Workforce.AssignmentHistory

/-!
# The open assignments of a position

A proposal is made only where there is room for one more open assignment, and a new
headcount leaves room for those there are, so a position never has more open assignments
than its headcount (`run_orderly`), nor two for one account. A position is closed only
without open assignments, and since the ending of an assignment recomputes the status of
its position, it is for that reason alone that a closed position is never opened again.
-/

namespace Maru.Workforce.Staffing

open Table

/-- The open assignments of every position. -/
structure Orderly (s : StaffingTables) : Prop where
  located : ∀ a ∈ s.assignments, ∀ p ∈ s.positions, p.id = a.positionId →
    a.organizationId = p.organizationId ∧ a.editionId = p.editionId
  headcount : ∀ p ∈ s.positions, (s.openAssignments p.id).length ≤ p.headcount
  single : ∀ a ∈ s.assignments, ∀ b ∈ s.assignments, a.isOpen → b.isOpen →
    a.positionId = b.positionId → a.accountId = b.accountId → a = b
  closed : ∀ p ∈ s.positions, p.status = .closed → s.openAssignments p.id = []

section

variable {s s' : StaffingTables} {r : Request}

theorem mem_openAssignments {id : Uuid} {a : PositionAssignment} :
    a ∈ s.openAssignments id ↔ a ∈ s.assignments ∧ a.positionId = id ∧ a.isOpen = true := by
  unfold StaffingTables.openAssignments
  rw [List.mem_insertionSort, List.mem_filter, decide_eq_true_eq, mem_def]

theorem length_openAssignments (id : Uuid) :
    (s.openAssignments id).length = s.assignments.rows.countP fun a => a.positionId = id ∧ a.isOpen := by
  unfold StaffingTables.openAssignments
  rw [List.length_insertionSort, List.countP_eq_length_filter]

theorem openAssignments_congr (h : s'.assignments = s.assignments) (id : Uuid) :
    s'.openAssignments id = s.openAssignments id := by
  unfold StaffingTables.openAssignments
  rw [h]

/-- No open assignment of a position is left out where they are looked at by edition. -/
theorem Orderly.ownOpenAssignments (h : Orderly s) {p : Position} (hp : p ∈ s.positions) :
    s.ownOpenAssignments p = s.openAssignments p.id := by
  refine List.filter_eq_self.mpr fun a ha => decide_eq_true ?_
  obtain ⟨mem, at_, -⟩ := mem_openAssignments.mp ha
  exact h.located a mem p hp at_.symm

/-- An assignment that is decided or ended was open, and opens nothing. -/
theorem Decides.opens {p : Position} {a a' : PositionAssignment} {version : Nat} {reason : String}
    {action : AssignmentAction} (h : Decides s r p a version reason action a') : a.isOpen = true := by
  cases h with
  | approved now role was independent room opened => simp [PositionAssignment.isOpen, was]
  | rejected now was independent => simp [PositionAssignment.isOpen, was]
  | ended now was => simp [PositionAssignment.isOpen, was]

theorem Decides.length_openAssignments_le {p : Position} {a a' : PositionAssignment} {version : Nat} {reason : String}
    {action : AssignmentAction} (h : Decides s r p a version reason action a') (ha : a ∈ s.assignments)
    (saved : s'.assignments = s.assignments.save a') (id : Uuid) :
    (s'.openAssignments id).length ≤ (s.openAssignments id).length := by
  obtain ⟨same, position, -⟩ := h.id
  have count := countP_save (b := a) (r := a') ha same.symm fun x => x.positionId = id ∧ x.isOpen
  have was := h.opens
  rw [length_openAssignments, length_openAssignments, saved]
  simp only [position, was, and_true, decide_eq_true_eq] at count
  by_cases own : a.positionId = id
  · simp only [own, true_and, if_true] at count
    split at count <;> omega
  · simp only [own, false_and, if_false] at count
    omega

theorem PositionStep.orderly {p q : Position} (step : PositionStep s s' p q) (h : Orderly s) : Orderly s' := by
  have mem {x : Position} : x ∈ s'.positions ↔ (x ∈ s.positions ∧ x.id ≠ q.id) ∨ x = q := by
    rw [step.saved, mem_save_of_mem step.mem step.id.symm]
  have own := h.ownOpenAssignments step.mem
  refine ⟨fun a ha x hx at_ => ?_, fun x hx => ?_, ?_, fun x hx closed => ?_⟩
  · rw [step.assignments] at ha
    rcases mem.mp hx with ⟨hx, -⟩ | rfl
    · exact h.located a ha x hx at_
    · rw [step.organization, step.edition]
      exact h.located a ha p step.mem (step.id.symm.trans at_)
  · rw [openAssignments_congr step.assignments]
    rcases mem.mp hx with ⟨hx, -⟩ | rfl
    · exact h.headcount x hx
    · rw [step.id, ← own]
      rcases step.change with ⟨-, enough⟩ | ⟨-, none⟩
      · exact enough
      · rw [none]
        exact Nat.zero_le _
  · rw [step.assignments]
    exact h.single
  · rw [openAssignments_congr step.assignments]
    rcases mem.mp hx with ⟨hx, -⟩ | rfl
    · exact h.closed x hx closed
    · rw [step.id, ← own]
      rcases step.change with ⟨same, -⟩ | ⟨-, none⟩
      · exact absurd (same.symm.trans closed) step.opened
      · exact none

/-- A position is among those before a step that restates one, but for its status. -/
theorem Restates.mem {p x : Position} (h : Restates s s' p) (hp : p ∈ s.positions) (hx : x ∈ s'.positions) :
    ∃ y ∈ s.positions, x.id = y.id ∧ x.organizationId = y.organizationId ∧ x.editionId = y.editionId ∧
      x.headcount = y.headcount ∧ (x.status = y.status ∨ y = p ∧ x.status ≠ .closed) := by
  rcases h with same | ⟨status, opened, saved⟩
  · rw [same] at hx
    exact ⟨x, hx, rfl, rfl, rfl, rfl, .inl rfl⟩
  · rw [saved, mem_save_of_mem (b := p) hp (by rfl)] at hx
    rcases hx with ⟨hx, -⟩ | rfl
    · exact ⟨x, hx, rfl, rfl, rfl, rfl, .inl rfl⟩
    · exact ⟨p, hp, rfl, rfl, rfl, rfl, .inr ⟨rfl, opened⟩⟩

/-- A position with an open assignment is not closed. -/
theorem Orderly.opened (h : Orderly s) {p : Position} (hp : p ∈ s.positions) {a : PositionAssignment}
    (ha : a ∈ s.assignments) (at_ : p.id = a.positionId) (opens : a.isOpen = true) : p.status ≠ .closed := by
  intro closed
  have mem := mem_openAssignments.mpr ⟨ha, at_.symm, opens⟩
  rw [h.closed p hp closed] at mem
  cases mem

/-- A new proposal where there is room for it. -/
theorem orderly_proposed {p : Position} (h : Orderly s) (hp : p ∈ s.positions) (opened : p.status ≠ .closed)
    {a : PositionAssignment} (at_ : a.positionId = p.id) (organization : a.organizationId = p.organizationId)
    (edition : a.editionId = p.editionId) (room : (s.openAssignments p.id).length < p.headcount)
    (alone : ∀ b ∈ s.openAssignments p.id, b.accountId ≠ a.accountId)
    (inserted : s.assignments.insert? a = some s'.assignments)
      (positions : s'.positions = s.positions) : Orderly s' := by
  have here {x : Position} (hx : x ∈ s.positions) (same : x.id = p.id) : x = p := eq_of_key hx hp same
  have counted (id : Uuid) : (s'.openAssignments id).length =
      (s.openAssignments id).length + if a.positionId = id ∧ a.isOpen then 1 else 0 := by
    rw [length_openAssignments, length_openAssignments, countP_insert? inserted]
    simp only [decide_eq_true_eq]
  refine ⟨fun b hb x hx same => ?_, fun x hx => ?_,
    fun b hb c hc openB openC position account => ?_, fun x hx closed => ?_⟩
  · rw [positions] at hx
    rcases (mem_insert? inserted).mp hb with hb | rfl
    · exact h.located b hb x hx same
    · rw [here hx (same.trans at_)]
      exact ⟨organization, edition⟩
  · rw [positions] at hx
    rw [counted]
    split
    · rename_i own
      rw [here hx (own.1.symm.trans at_)]
      exact room
    · exact h.headcount x hx
  · have other {b : PositionAssignment} (hb : b ∈ s.assignments) (opens : b.isOpen = true)
        (position : b.positionId = a.positionId) : b.accountId ≠ a.accountId :=
      alone b (mem_openAssignments.mpr ⟨hb, position.trans at_, opens⟩)
    rcases (mem_insert? inserted).mp hb with hb | rfl
    · rcases (mem_insert? inserted).mp hc with hc | rfl
      · exact h.single b hb c hc openB openC position account
      · exact absurd account (other hb openB position)
    · rcases (mem_insert? inserted).mp hc with hc | rfl
      · exact absurd account.symm (other hc openC position.symm)
      · rfl
  · rw [positions] at hx
    refine List.eq_nil_of_length_eq_zero ?_
    rw [counted, h.closed x hx closed, if_neg]
    · rfl
    · rintro ⟨same, -⟩
      exact opened (here hx (same.symm.trans at_) ▸ closed)

/-- An open assignment that is decided or ended. -/
theorem orderly_decided {p : Position} (h : Orderly s) (hp : p ∈ s.positions) {a a' : PositionAssignment} {version : Nat}
    {reason : String} {action : AssignmentAction} (ha : a ∈ s.assignments)
    (decides : Decides s r p a version reason action a') (saved : s'.assignments = s.assignments.save a')
    (positions : Restates s s' p) : Orderly s' := by
  obtain ⟨id, position, organization, edition, account⟩ := decides.id
  have was {x : PositionAssignment} (hx : x ∈ s'.assignments) : ∃ y ∈ s.assignments, x.id = y.id ∧
      x.positionId = y.positionId ∧ x.organizationId = y.organizationId ∧ x.editionId = y.editionId ∧
      x.accountId = y.accountId ∧ (x.isOpen → y.isOpen) := by
    rw [saved, mem_save_of_mem ha id.symm] at hx
    rcases hx with ⟨hx, -⟩ | rfl
    · exact ⟨x, hx, rfl, rfl, rfl, rfl, rfl, fun h => h⟩
    · exact ⟨a, ha, id, position, organization, edition, account, fun _ => decides.opens⟩
  have fewer := decides.length_openAssignments_le ha saved
  refine ⟨fun b hb x hx same => ?_, fun x hx => ?_,
    fun b hb c hc openB openC positions account => ?_, fun x hx closed => ?_⟩
  · obtain ⟨y, hy, yid, yorganization, yedition, -⟩ := positions.mem hp hx
    obtain ⟨z, hz, -, zposition, zorganization, zedition, -⟩ := was hb
    rw [yorganization, yedition, zorganization, zedition]
    exact h.located z hz y hy (yid.symm.trans (same.trans zposition))
  · obtain ⟨y, hy, yid, -, -, yheadcount, -⟩ := positions.mem hp hx
    rw [yid, yheadcount]
    exact (fewer y.id).trans (h.headcount y hy)
  · obtain ⟨b₀, hb₀, bid, bposition, -, -, baccount, bopen⟩ := was hb
    obtain ⟨c₀, hc₀, cid, cposition, -, -, caccount, copen⟩ := was hc
    have same := h.single b₀ hb₀ c₀ hc₀ (bopen openB) (copen openC) (bposition.symm.trans (positions.trans cposition))
      (baccount.symm.trans (account.trans caccount))
    exact eq_of_key hb hc (bid.trans (same ▸ cid.symm))
  · obtain ⟨y, hy, yid, -, -, -, status⟩ := positions.mem hp hx
    rcases status with status | ⟨-, opened⟩
    · have none_ := fewer y.id
      rw [h.closed y hy (status.symm.trans closed)] at none_
      rw [yid]
      exact List.eq_nil_of_length_eq_zero (Nat.le_zero.mp none_)
    · exact absurd closed opened

theorem AssignmentStep.orderly (step : AssignmentStep s s' r) (h : Orderly s) : Orderly s' := by
  cases step with
  | unchanged same =>
    rw [same]
    exact h
  | saved p q step lines => exact step.orderly h
  | proposed p hp opened accountId effectiveFrom expiresAt reason digest room alone inserted positions received =>
    exact orderly_proposed h hp opened (by rfl) (by rfl) (by rfl) room alone inserted positions
  | decided p hp a a' ha at_ action version reason digest current decides saved positions received =>
    exact orderly_decided h hp ha decides saved positions

/-- A closed position stays closed. -/
theorem AssignmentStep.closed (step : AssignmentStep s s' r) (h : Orderly s) {id : Uuid} :
    (∃ p ∈ s.positions, p.id = id ∧ p.status = .closed) → ∃ p ∈ s'.positions, p.id = id ∧ p.status = .closed := by
  rintro ⟨x, hx, own, closed⟩
  cases step with
  | unchanged same =>
    rw [same]
    exact ⟨x, hx, own, closed⟩
  | saved p q step lines =>
    refine ⟨x, ?_, own, closed⟩
    rw [step.saved, mem_save_of_mem step.mem step.id.symm]
    refine .inl ⟨hx, fun same => step.opened ?_⟩
    rw [← eq_of_key hx step.mem (same.trans step.id)]
    exact closed
  | proposed p hp opened accountId effectiveFrom expiresAt reason digest room alone inserted positions received =>
    rw [positions]
    exact ⟨x, hx, own, closed⟩
  | decided p hp a a' ha at_ action version reason digest current decides saved positions received =>
    rcases positions with positions | ⟨status, -, positions⟩
    · rw [positions]
      exact ⟨x, hx, own, closed⟩
    · refine ⟨x, ?_, own, closed⟩
      rw [positions, mem_save_of_mem (b := p) hp (by rfl)]
      refine .inl ⟨hx, fun same => h.opened hp ha at_ decides.opens ?_⟩
      rw [← eq_of_key hx hp same]
      exact closed

end

/-! ## Runs -/

theorem orderly_of_unassigned {s : StaffingTables} (unassigned : s.assignments.rows = []) : Orderly s := by
  have none_ (id : Uuid) : s.openAssignments id = [] := by
    refine List.eq_nil_iff_forall_not_mem.mpr fun a ha => ?_
    have mem := (mem_openAssignments.mp ha).1
    rw [mem_def, unassigned] at mem
    cases mem
  refine ⟨fun a ha => ?_, fun p _ => ?_, fun a ha => ?_, fun p _ _ => none_ p.id⟩
  · rw [mem_def, unassigned] at ha
    cases ha
  · rw [none_]
    exact Nat.zero_le _
  · rw [mem_def, unassigned] at ha
    cases ha

/-- From tables without assignments, a position never has more open assignments than its headcount,
or two for one account, or one when it is closed; and it is closed for good. -/
theorem run_orderly (lib : Library) (s : StaffingTables) (unassigned : s.assignments.rows = [])
    (calls : List StaffingCall) :
    Orderly ((staffingMachine lib).run s calls) ∧
      ∀ p ∈ ((staffingMachine lib).run s calls).positions, p.status = .closed → ∀ later,
        ∃ q ∈ ((staffingMachine lib).run s (calls ++ later)).positions, q.id = p.id ∧ q.status = .closed := by
  have orderly := Machine.run_invariant (M := staffingMachine lib) (fun _ _ _ _ orderly h =>
    (exec_step h).orderly orderly) (orderly_of_unassigned unassigned) calls
  refine ⟨orderly, fun p hp closed later => ?_⟩
  rw [Machine.run_append]
  refine (Machine.run_invariant (M := staffingMachine lib) (I :=
    fun s => Orderly s ∧ ∃ q ∈ s.positions, q.id = p.id ∧ q.status = .closed)
    (fun _ _ _ _ both h => ?_) ⟨orderly, p, hp, rfl, closed⟩ later).2
  exact ⟨(exec_step h).orderly both.1, (exec_step h).closed both.1 both.2⟩

theorem desk_orderly : Orderly ((staffingMachine deskLibrary).run deskTables deskCalls) :=
  (run_orderly deskLibrary deskTables rfl deskCalls).1

end Maru.Workforce.Staffing
