import Maru.Workforce.Positions

/-!
# The status of a staffed position

The status of a position is recomputed when an assignment is activated (`approve_change`)
and when one ends (`end_change`), and is left alone when the headcount is changed
(`update_change`). `exec_change` says what one command does to each position; a run in
which every headcount change is on the same side of the active assignments as the
headcount before keeps every staffed position `filled` or `open` as it should be.
-/

namespace Maru.Workforce.Staffing

open Table

/-! ## Assignments -/

/-- The assignment has been activated. -/
def PositionAssignment.Activated (a : PositionAssignment) : Prop := a.status = .active ∨ a.status = .ended

instance (a : PositionAssignment) : Decidable a.Activated := inferInstanceAs (Decidable (_ ∨ _))

/-- An assignment of the position has been activated. -/
def StaffingTables.Staffed (s : StaffingTables) (positionId : Uuid) : Prop :=
  ∃ a ∈ s.assignments, a.positionId = positionId ∧ a.Activated

section

variable {s s' : StaffingTables} {a a' : PositionAssignment}

theorem activeCount_congr (h : s'.assignments = s.assignments) (id : Uuid) : s'.activeCount id = s.activeCount id := by
  unfold StaffingTables.activeCount
  rw [h]

theorem activeCount_save (ha : a ∈ s.assignments) (same : a'.id = a.id) (position : a'.positionId = a.positionId)
    (h : s'.assignments = s.assignments.save a') (id : Uuid) :
    s'.activeCount id + (if a.positionId = id ∧ a.status = .active then 1 else 0) =
      s.activeCount id + if a.positionId = id ∧ a'.status = .active then 1 else 0 := by
  unfold StaffingTables.activeCount
  have count := countP_save (b := a) (r := a') ha same.symm fun x => x.positionId = id ∧ x.status = .active
  rw [h]
  simpa [position] using count

theorem staffed_congr (h : s'.assignments = s.assignments) (id : Uuid) : s'.Staffed id ↔ s.Staffed id := by
  unfold StaffingTables.Staffed
  rw [h]

/-- A saved assignment that is not activated staffs nothing. -/
theorem staffed_of_save (not : ¬ a'.Activated) (h : s'.assignments = s.assignments.save a')
    {id : Uuid} (staffed : s'.Staffed id) : s.Staffed id := by
  obtain ⟨x, hx, at_, activated⟩ := staffed
  rw [h, mem_save] at hx
  rcases hx with ⟨hx, -⟩ | ⟨rfl, -⟩
  · exact ⟨x, hx, at_, activated⟩
  · exact absurd activated not

/-- Staffing elsewhere is as before. -/
theorem staffed_of_save_ne (h : s'.assignments = s.assignments.save a') {id : Uuid}
    (ne : a'.positionId ≠ id) (staffed : s'.Staffed id) : s.Staffed id := by
  obtain ⟨x, hx, at_, activated⟩ := staffed
  rw [h, mem_save] at hx
  rcases hx with ⟨hx, -⟩ | ⟨rfl, -⟩
  · exact ⟨x, hx, at_, activated⟩
  · exact absurd at_ ne

end

/-! ## What a command does to a position -/

/-- How a position of the new state comes about. -/
inductive PositionChange (s s' : StaffingTables) (command : StaffingCommand) (p' : Position) : Prop
  | kept (mem : p' ∈ s.positions) (count : s'.activeCount p'.id = s.activeCount p'.id)
      (staffed : s'.Staffed p'.id → s.Staffed p'.id)
  | recomputed (status : p'.status = staffedStatus p'.headcount (s'.activeCount p'.id))
  | edited (p : Position) (mem : p ∈ s.positions) (id : p'.id = p.id) (status : p'.status = p.status)
      (assignments : s'.assignments = s.assignments) (reportsToId : Option Uuid) (title description : String)
      (headcount : Int) (version : Nat) (reason : String)
      (updated : command = .update p.id reportsToId title description headcount version reason)
      (replaced : (p'.headcount : Int) = headcount)
  | closed (status : p'.status = .closed)

/-- A command that writes neither positions nor assignments. -/
theorem PositionChange.unchanged {s s' : StaffingTables} {command : StaffingCommand} {p' : Position}
    (positions : s'.positions = s.positions) (assignments : s'.assignments = s.assignments) (h : p' ∈ s'.positions) :
    PositionChange s s' command p' :=
  .kept (positions ▸ h) (activeCount_congr assignments _) (staffed_congr assignments _).mp

section

variable {lib : Library} {s s' : StaffingTables} {w : Surroundings} {r : Request} {scope : AssignmentScope}

theorem createReceipt_eq_ok {a : PositionAssignment} {action : AssignmentAction} {version : Nat}
    {reason digest : String} {result : AssignmentResult}
    (h : createReceipt s r a action version reason digest = .ok (s', result)) :
    s'.positions = s.positions ∧ s'.assignments = s.assignments := by
  simp only [createReceipt, bind_eq_ok, pure_eq_ok, Prod.mk.injEq] at h
  obtain ⟨_, -, _, -, _, -, rfl, -⟩ := h
  exact ⟨rfl, rfl⟩

theorem lockPosition_eq_ok {positionId : Uuid} {p : Position}
    (h : lockPosition s w scope positionId = .ok p) : p ∈ s.positions ∧ p.id = positionId := by
  simp only [lockPosition, bind_eq_ok, pure_eq_ok, getOr_eq_ok] at h
  obtain ⟨_, found, _, -, _, -, rfl⟩ := h
  exact get?_eq_some.mp found

theorem lockAssignmentForDecision_eq_ok {assignmentId : Uuid} {a : PositionAssignment}
    {p : Position} (h : lockAssignmentForDecision s w scope assignmentId = .ok (a, p)) :
    a ∈ s.assignments ∧ p ∈ s.positions ∧ p.id = a.positionId := by
  simp only [lockAssignmentForDecision, bind_eq_ok, pure_eq_ok, getOr_eq_ok, Prod.mk.injEq] at h
  obtain ⟨_, found, _, -, _, position, _, -, rfl, rfl⟩ := h
  obtain ⟨mem, id⟩ := lockPosition_eq_ok position
  exact ⟨(get?_eq_some.mp found).1, mem, id⟩

theorem propose_change {positionId accountId : Uuid} {effectiveFrom : Int} {expiresAt : Option Int}
    {reason : String} {result : AssignmentResult} {command : StaffingCommand}
    (h : proposePositionAssignment lib s w r positionId accountId effectiveFrom expiresAt reason = .ok (s', result))
    {p' : Position} (hp : p' ∈ s'.positions) : PositionChange s s' command p' := by
  simp only [proposePositionAssignment, bind_eq_ok] at h
  obtain ⟨_, -, _, -, _, -, _, -, scope, -, _, -, h⟩ := h
  split at h
  · obtain rfl := store_of_answer h
    exact .unchanged rfl rfl hp
  · simp only [bind_eq_ok, getOr_eq_ok] at h
    obtain ⟨_, -, _, -, _, -, _, -, _, -, _, -, _, -, _, -, _, -, assignments, inserted, recorded⟩ := h
    obtain ⟨positions, same⟩ := createReceipt_eq_ok recorded
    -- The new assignment is a proposal: nobody is active who was not, and nothing is staffed that was not.
    refine .kept (positions ▸ hp) ?_ ?_
    · unfold StaffingTables.activeCount
      rw [same, countP_insert? inserted]
      simp
    · rintro ⟨a, ha, at_, activated⟩
      rw [same, mem_insert? inserted] at ha
      rcases ha with ha | rfl
      · exact ⟨a, ha, at_, activated⟩
      · simp [PositionAssignment.Activated] at activated

theorem activatePositionAssignment_eq_ok {edition : Edition} {positionId actorId approverId : Uuid}
    {proposal activated : PositionAssignment} {effectiveFrom : Int} {expiresAt : Option Int} {reason : String}
    {version : Nat}
    (h : activatePositionAssignment s w edition positionId proposal actorId approverId effectiveFrom expiresAt reason
      version = .ok (s', activated)) :
    ∃ a ∈ s.assignments, a.status = .proposed ∧ activated.id = a.id ∧ activated.positionId =
      a.positionId ∧ activated.status = .active ∧ ∃ p ∈ s.positions, p.id = a.positionId ∧
        s'.assignments = s.assignments.save activated ∧
        s'.positions =
          s.positions.save { p with status := staffedStatus p.headcount (s.activeCount p.id + 1) } := by
  simp only [activatePositionAssignment, bind_eq_ok, pure_eq_ok, getOr_eq_ok, require_eq_ok,
    Prod.mk.injEq] at h
  obtain ⟨_, -, p, position, _, -, _, -, _, -, _, -, _, -, a, found, _, ⟨at_, -, -, -, proposed⟩, _, -, _, -, role, -,
    rfl, rfl⟩ := h
  exact ⟨a, (get?_eq_some.mp found).1, proposed, rfl, rfl, rfl, p, (get?_eq_some.mp position).1, at_.symm, rfl, rfl⟩

/-- A change of one assignment after which the status of its position is saved as it should be. -/
theorem recomputed_change {a a' : PositionAssignment} (ha : a ∈ s.assignments) (id : a'.id = a.id)
    (position : a'.positionId = a.positionId) (assignments : s'.assignments = s.assignments.save a') {p q : Position}
    (hp : p ∈ s.positions) (at_ : p.id = a.positionId) (same : q.id = p.id)
    (status : q.status = staffedStatus q.headcount (s'.activeCount p.id))
    {command : StaffingCommand} {p' : Position} (hp' : p' ∈ s.positions.save q) : PositionChange s s' command p' := by
  rw [mem_save_of_mem hp same.symm] at hp'
  rcases hp' with ⟨hp', ne⟩ | rfl
  · have elsewhere : a.positionId ≠ p'.id := fun e => ne (e.symm.trans (at_.symm.trans same.symm))
    have count := activeCount_save ha id position assignments p'.id
    refine .kept hp' ?_ (staffed_of_save_ne assignments (position ▸ elsewhere))
    simpa [elsewhere] using count
  · exact .recomputed (same ▸ status)

theorem approve_change {assignmentId : Uuid} {expectedVersion : Nat} {reason : String}
    {result : AssignmentResult} {command : StaffingCommand}
    (h : approvePositionAssignment lib s w r assignmentId expectedVersion reason = .ok (s', result))
    {p' : Position} (hp' : p' ∈ s'.positions) : PositionChange s s' command p' := by
  simp only [approvePositionAssignment, bind_eq_ok] at h
  obtain ⟨_, -, _, -, _, -, _, -, scope, -, _, -, h⟩ := h
  split at h
  · obtain rfl := store_of_answer h
    exact .unchanged rfl rfl hp'
  · simp only [bind_eq_ok, mapError_eq_ok] at h
    obtain ⟨⟨_, _⟩, -, _, -, _, -, _, -, _, -, _, -, ⟨s₁, activated⟩, activation, recorded⟩ := h
    obtain ⟨positions, assignments⟩ := createReceipt_eq_ok recorded
    obtain ⟨a, ha, before, id, position, after, p, hp, at_, saved, status⟩ :=
      activatePositionAssignment_eq_ok activation
    replace saved := assignments.trans saved
    replace status := positions.trans status
    have count := activeCount_save ha id position saved p.id
    simp only [at_, before, after, true_and, and_true, if_true, reduceCtorEq, if_false, Nat.add_zero] at count
    rw [status] at hp'
    refine recomputed_change ha id position saved hp at_ (by rfl) ?_ hp'
    rw [at_, count]

theorem reject_change {assignmentId : Uuid} {expectedVersion : Nat} {reason : String}
    {result : AssignmentResult} {command : StaffingCommand}
    (h : rejectPositionAssignment lib s w r assignmentId expectedVersion reason = .ok (s', result))
    {p' : Position} (hp' : p' ∈ s'.positions) : PositionChange s s' command p' := by
  simp only [rejectPositionAssignment, bind_eq_ok] at h
  obtain ⟨_, -, _, -, _, -, _, -, scope, -, _, -, h⟩ := h
  split at h
  · obtain rfl := store_of_answer h
    exact .unchanged rfl rfl hp'
  · simp only [bind_eq_ok, require_eq_ok] at h
    obtain ⟨⟨a, p⟩, locked, _, -, _, proposed, _, -, recorded⟩ := h
    dsimp only at proposed recorded
    obtain ⟨ha, -, -⟩ := lockAssignmentForDecision_eq_ok locked
    obtain ⟨positions, assignments⟩ := createReceipt_eq_ok recorded
    refine .kept (positions ▸ hp') ?_ (staffed_of_save ?_ assignments)
    · have count := activeCount_save ha (by rfl) (by rfl) assignments p'.id
      simpa [proposed, PositionAssignment.rejected] using count
    · simp [PositionAssignment.Activated, PositionAssignment.rejected]

@[simp] theorem refreshStatus_assignments (s : StaffingTables) (p : Position) :
    (refreshStatus s p).assignments = s.assignments := by
  unfold refreshStatus
  dsimp only
  split <;> rfl

/-- A status that need not be saved is that of the position. -/
theorem mem_refreshStatus {p p' : Position} (hp : p ∈ s.positions) (hp' : p' ∈ (refreshStatus s p).positions) :
    p' ∈ s.positions.save { p with status := staffedStatus p.headcount (s.activeCount p.id) } := by
  unfold refreshStatus at hp'
  dsimp only at hp'
  split at hp'
  · exact hp'
  · rename_i same
    rw [mem_save_of_mem (b := p) hp (by rfl)]
    by_cases here : p'.id = p.id
    · obtain rfl := eq_of_key hp' hp here
      right
      rw [← not_not.mp same]
    · exact .inl ⟨hp', here⟩

theorem end_change {assignmentId : Uuid} {expectedVersion : Nat} {reason : String}
    {result : AssignmentResult} {command : StaffingCommand}
    (h : endPositionAssignment lib s w r assignmentId expectedVersion reason = .ok (s', result))
    {p' : Position} (hp' : p' ∈ s'.positions) : PositionChange s s' command p' := by
  simp only [endPositionAssignment, bind_eq_ok] at h
  obtain ⟨_, -, _, -, _, -, _, -, scope, -, _, -, h⟩ := h
  split at h
  · obtain rfl := store_of_answer h
    exact .unchanged rfl rfl hp'
  · simp only [bind_eq_ok, require_eq_ok, getOr_eq_ok] at h
    obtain ⟨⟨a, p⟩, locked, _, -, _, -, role, -, _, -, recorded⟩ := h
    obtain ⟨ha, hp, at_⟩ := lockAssignmentForDecision_eq_ok locked
    obtain ⟨positions, assignments⟩ := createReceipt_eq_ok recorded
    rw [refreshStatus_assignments] at assignments
    rw [positions] at hp'
    have mem := mem_refreshStatus (by exact hp) hp'
    refine recomputed_change ha (by rfl) (by rfl) assignments hp at_ (by rfl) ?_ mem
    rw [activeCount_congr assignments]

theorem newOrAdvancedControl_eq_ok {scope : StructureScope} {version : Nat}
    (h : newOrAdvancedControl s scope r version = .ok s') :
    s'.positions = s.positions ∧ s'.assignments = s.assignments := by
  unfold newOrAdvancedControl at h
  split at h
  · simp only [bind_eq_ok, pure_eq_ok] at h
    obtain ⟨_, -, rfl⟩ := h
    exact ⟨rfl, rfl⟩
  · cases h
    exact ⟨rfl, rfl⟩

theorem lockScope_positions {scope : StructureScope} (h : lockScope s w r = .ok scope)
    {p : Position} (hp : p ∈ scope.positions) : p ∈ s.positions := by
  simp only [lockScope, bind_eq_ok, pure_eq_ok] at h
  obtain ⟨_, -, _, -, _, -, _, -, _, -, rfl⟩ := h
  exact List.mem_of_mem_filter ((List.mem_insertionSort _).mp hp)

theorem positionById_eq_ok {scope : StructureScope} {positionId : Uuid} {p : Position}
    (h : positionById scope positionId = .ok p) : p ∈ scope.positions ∧ p.id = positionId := by
  rw [positionById, getOr_eq_ok] at h
  exact ⟨List.mem_of_find?_eq_some h, by simpa using List.find?_some h⟩

theorem validatePositionHeadcount_eq_ok {headcount : Int} {n : Nat}
    (h : validatePositionHeadcount headcount = .ok n) : (n : Int) = headcount := by
  simp only [validatePositionHeadcount, bind_eq_ok, pure_eq_ok, require_eq_ok] at h
  obtain ⟨_, bounds, rfl⟩ := h
  omega

/-- An update that is committed: its position, and what is left as it was or saved. -/
theorem updatePosition_eq_ok {positionId : Uuid} {reportsToId : Option Uuid} {title description : String}
    {headcount : Int} {expectedVersion : Nat} {reason : String} {result : PositionResult}
    (h : updatePosition lib s w r positionId reportsToId title description headcount expectedVersion reason =
      .ok (s', result)) :
    s'.assignments = s.assignments ∧ ∃ p ∈ s.positions, p.id = positionId ∧ p.status ≠ .closed ∧
      ((s'.positions = s.positions ∧ (p.headcount : Int) = headcount) ∨
        ∃ q : Position, q.id = p.id ∧ q.status = p.status ∧ (q.headcount : Int) = headcount ∧
          s'.positions = s.positions.save q) := by
  simp only [updatePosition, bind_eq_ok, require_eq_ok] at h
  obtain ⟨title', -, description', -, n, counted, _, -, _, -, _, -, scope, locked, _, -, version,
    -, p, found, _, opened, _, -, _, -, h⟩ := h
  obtain ⟨mem, id⟩ := positionById_eq_ok found
  have mem := lockScope_positions locked mem
  have counted := validatePositionHeadcount_eq_ok counted
  split at h
  · rename_i unchanged
    obtain rfl := store_of_answer h
    have same : p.headcount = n := by
      by_contra differs
      simp [changedFields, differs] at unchanged
    exact ⟨rfl, p, mem, id, opened, .inl ⟨rfl, by rw [same, counted]⟩⟩
  · simp only [bind_eq_ok, pure_eq_ok, Prod.mk.injEq] at h
    obtain ⟨_, -, s₁, control, rfl, -⟩ := h
    obtain ⟨positions, assignments⟩ := newOrAdvancedControl_eq_ok control
    refine ⟨assignments, p, mem, id, opened, .inr ⟨{ p with
      title := title', description := description', headcount := n, reportsToId,
      lastChangedInStructureVersion := some (version + 1) }, rfl, rfl, counted, ?_⟩⟩
    dsimp only
    rw [positions]

theorem update_change {positionId : Uuid} {reportsToId : Option Uuid} {title description : String}
    {headcount : Int} {expectedVersion : Nat} {reason : String} {result : PositionResult}
    (h : updatePosition lib s w r positionId reportsToId title description headcount expectedVersion reason =
      .ok (s', result)) {p' : Position} (hp' : p' ∈ s'.positions) :
    PositionChange s s' (.update positionId reportsToId title description headcount expectedVersion reason) p' := by
  obtain ⟨assignments, p, hp, rfl, -, change⟩ := updatePosition_eq_ok h
  rcases change with ⟨positions, -⟩ | ⟨q, id, status, replaced, positions⟩
  · exact .unchanged positions assignments hp'
  · rw [positions, mem_save_of_mem hp id.symm] at hp'
    rcases hp' with ⟨hp', -⟩ | rfl
    · exact .kept hp' (activeCount_congr assignments _) (staffed_congr assignments _).mp
    · exact .edited p hp id status assignments reportsToId title description headcount
        expectedVersion reason rfl replaced

theorem close_change {positionId : Uuid} {expectedVersion : Nat} {confirmationName reason : String}
    {result : PositionResult} {command : StaffingCommand}
    (h : closePosition lib s w r positionId expectedVersion confirmationName reason = .ok (s', result))
    {p' : Position} (hp' : p' ∈ s'.positions) : PositionChange s s' command p' := by
  simp only [closePosition, bind_eq_ok, pure_eq_ok, Prod.mk.injEq] at h
  obtain ⟨_, -, _, -, _, -, scope, -, _, -, _, -, p, -, _, -, _, -, _, -, _, -, s₁, control, rfl, -⟩ := h
  obtain ⟨positions, assignments⟩ := newOrAdvancedControl_eq_ok control
  rcases mem_save.mp hp' with ⟨hp', -⟩ | ⟨rfl, -⟩
  · exact .kept (positions ▸ hp') (activeCount_congr assignments _) (staffed_congr assignments _).mp
  · exact .closed rfl

/-- What one command does to each position. -/
theorem exec_change {call : StaffingCall} {result : StaffingResult} (h : execStaffing lib s call = .ok (s', result))
    {p' : Position} (hp' : p' ∈ s'.positions) : PositionChange s s' call.command p' := by
  obtain ⟨w, r, command⟩ := call
  cases command with
  | propose positionId accountId effectiveFrom expiresAt reason =>
    obtain ⟨⟨_, _⟩, ok, e⟩ := map_eq_ok.mp h
    cases e
    exact propose_change ok hp'
  | approve assignmentId expectedVersion reason =>
    obtain ⟨⟨_, _⟩, ok, e⟩ := map_eq_ok.mp h
    cases e
    exact approve_change ok hp'
  | reject assignmentId expectedVersion reason =>
    obtain ⟨⟨_, _⟩, ok, e⟩ := map_eq_ok.mp h
    cases e
    exact reject_change ok hp'
  | finish assignmentId expectedVersion reason =>
    obtain ⟨⟨_, _⟩, ok, e⟩ := map_eq_ok.mp h
    cases e
    exact end_change ok hp'
  | update positionId reportsToId title description headcount expectedVersion reason =>
    obtain ⟨⟨_, _⟩, ok, e⟩ := map_eq_ok.mp h
    cases e
    exact update_change ok hp'
  | close positionId expectedVersion confirmationName reason =>
    obtain ⟨⟨_, _⟩, ok, e⟩ := map_eq_ok.mp h
    cases e
    exact close_change ok hp'

end

/-! ## Runs -/

/-- Every staffed position that is not closed is `filled` if its active assignments reach its
headcount, and `open` otherwise. -/
def Lawful (s : StaffingTables) : Prop :=
  ∀ p ∈ s.positions, p.status ≠ .closed → s.Staffed p.id →
    (p.status = .filled ↔ p.headcount ≤ s.activeCount p.id) ∧ (p.status ≠ .filled → p.status = .openForWork)

instance (s : StaffingTables) (positionId : Uuid) : Decidable (s.Staffed positionId) :=
  inferInstanceAs (Decidable (∃ a ∈ s.assignments.rows, _))

instance (s : StaffingTables) : Decidable (Lawful s) := inferInstanceAs (Decidable (∀ p ∈ s.positions.rows, _))

/-- A new headcount is on the same side of the active assignments as that of the
staffed position it is for. -/
def Steady (s : StaffingTables) (call : StaffingCall) : Prop :=
  match call.command with
  | .update positionId _ _ _ headcount _ _ => ∀ p ∈ s.positions, p.id = positionId →
      s.Staffed p.id → (headcount ≤ s.activeCount p.id ↔ p.headcount ≤ s.activeCount p.id)
  | _ => True

theorem staffedStatus_lawful (headcount active : Nat) :
    (staffedStatus headcount active = .filled ↔ headcount ≤ active) ∧
      (staffedStatus headcount active ≠ .filled → staffedStatus headcount active = .openForWork) := by
  unfold staffedStatus
  split <;> simp_all

variable {lib : Library} {s s' : StaffingTables} {call : StaffingCall} {result : StaffingResult}

theorem lawful_step (lawful : Lawful s) (steady : Steady s call)
    (h : execStaffing lib s call = .ok (s', result)) : Lawful s' := by
  intro p' hp' opened staffed
  cases exec_change h hp' with
  | kept mem count was =>
    rw [count]
    exact lawful p' mem opened (was staffed)
  | recomputed status =>
    rw [status]
    exact staffedStatus_lawful _ _
  | edited p mem id status assignments reportsToId title description headcount version reason updated replaced =>
    have was : s.Staffed p.id := (staffed_congr assignments _).mp (id ▸ staffed)
    rw [Steady, updated] at steady
    have side := steady p mem rfl was
    have before := lawful p mem (status ▸ opened) was
    rw [activeCount_congr assignments, id, status]
    rw [← replaced] at side
    exact ⟨before.1.trans (by omega), before.2⟩
  | closed status => exact absurd status opened

/-- A headcount change to the other side of the active assignments leaves a staffed position with a
status that it should not have. -/
theorem steady_of_lawful_step (lawful : Lawful s) (h : execStaffing lib s call = .ok (s', result))
    (after : Lawful s') : Steady s call := by
  obtain ⟨w, r, command⟩ := call
  cases command with
  | update positionId reportsToId title description headcount expectedVersion reason =>
    obtain ⟨⟨s₁, _⟩, ok, e⟩ := map_eq_ok.mp h
    cases e
    replace after : Lawful s₁ := after
    obtain ⟨assignments, p, hp, rfl, opened, change⟩ := updatePosition_eq_ok ok
    intro p₀ hp₀ same staffed
    obtain rfl := eq_of_key hp₀ hp same
    rcases change with ⟨-, unchanged⟩ | ⟨q, id, status, replaced, positions⟩
    · omega
    · have hq : q ∈ s₁.positions := by
        rw [positions, mem_save_of_mem hp id.symm]
        exact .inr rfl
      have now := (after q hq (status ▸ opened) ((staffed_congr assignments _).mpr (id ▸ staffed))).1
      have before := (lawful p₀ hp opened staffed).1
      rw [activeCount_congr assignments, id, status] at now
      have side := now.symm.trans before
      omega
  | propose | approve | reject | finish | close => trivial

/-- From positions that are as they should be, a run whose headcount changes all stay on the side of
the active assignments keeps them so, and only such a headcount change does. -/
theorem run_positionStatus (lib : Library) :
    (∀ s calls, Lawful s → (staffingMachine lib).Along Steady s calls →
      Lawful ((staffingMachine lib).run s calls)) ∧ ∀ s call s' result, Lawful s →
        (staffingMachine lib).exec s call = .ok (s', result) → (Lawful s' ↔ Steady s call) := by
  refine ⟨fun s calls lawful along => ?_, fun s call s' result lawful h => ?_⟩
  · have keep : ∀ s call s' result, Lawful s → Steady s call → (staffingMachine lib).exec s call =
        .ok (s', result) → Lawful s' := fun _ _ _ _ lawful steady h => lawful_step lawful steady h
    exact Machine.run_invariant_along keep lawful along
  · exact ⟨fun after => steady_of_lawful_step lawful h after, fun steady => lawful_step lawful steady h⟩

/-! ## A run -/

/-- A position for one person, before anybody is assigned. -/
def deskPosition : Position :=
  { id := 4, organizationId := 1, editionId := 2, departmentId := 5, roleBundleId := 6, reportsToId := none,
    title := "Desk", description := "Keep it.", headcount := 1, status := .openForWork,
    lastChangedInStructureVersion := some 1, closedAt := none, closedBy := none }

def deskTables : StaffingTables := ⟨⟨[deskPosition], by simp⟩, ∅, ∅, ⟨[⟨7, 1, 2, 1⟩], by simp⟩⟩

def deskLibrary : Library := ⟨id, fun _ => false, fun _ => ""⟩

/-- Accounts 8 and 10 may do everything, and account 9 is a candidate. -/
def deskSurroundings : Surroundings where
  now := 0
  accounts := [⟨8, true, true⟩, ⟨9, true, true⟩, ⟨10, true, true⟩]
  editions := [⟨2, 1, 3, .preparing, .active, 0, 1, fun _ => 0, true⟩]
  departments := [⟨5, 1, 2, none⟩]
  allows _ actor _ _ _ := actor ≠ 9
  candidates _ := some [9]
  ready _ _ := true
  documentsApproved _ _ := true
  controlHorizon _ _ _ := .ok ()
  assignRole _ _ _ _ _ _ := .ok 11
  roleRevoked _ := false
  revokeRole _ _ := .ok ()
  unfinishedShiftDemands _ := false
  positionAuthorityOpen _ := false
  otherStructureContent _ := false

def deskCall (actor key : Uuid) (command : StaffingCommand) : StaffingCall :=
  ⟨deskSurroundings, ⟨actor, 1, 3, 2, "service", key, key, key⟩, command⟩

/-- Account 9 is proposed by one controller and approved by another. -/
def deskCalls : List StaffingCall :=
  [deskCall 8 20 (.propose 4 9 0 none "Known."), deskCall 10 21 (.approve 20 1 "Agreed.")]

/-- The headcount of the position is changed. -/
def deskHeadcount (key : Uuid) (headcount : Int) (version : Nat) : StaffingCall :=
  deskCall 8 key (.update 4 none "Desk" "Keep it." headcount version "Planned.")

/-- Three people are wanted, then, with one there, two. -/
def resizedCalls : List StaffingCall := deskHeadcount 22 3 1 :: (deskCalls ++ [deskHeadcount 23 2 2])

theorem desk_positionStatus :
    Lawful ((staffingMachine deskLibrary).run deskTables resizedCalls) ∧
      ((staffingMachine deskLibrary).run deskTables resizedCalls).positions.rows.map
        (fun p => (p.headcount, p.status)) = [(2, .openForWork)] := by
  refine ⟨(run_positionStatus deskLibrary).1 deskTables resizedCalls (by decide) ?_, by decide +kernel⟩
  refine ⟨?_, trivial, trivial, ?_, trivial⟩
  · simp only [Steady, deskHeadcount, deskCall, Table.mem_def]
    decide +kernel
  · simp only [Steady, deskHeadcount, deskCall, Table.mem_def]
    decide +kernel

/-- With the headcount raised to two the position is still `filled`, by one person. -/
theorem raisedHeadcount_filled :
    ¬ ∀ lib s calls, s.assignments.rows = [] → Lawful ((staffingMachine lib).run s calls) := by
  intro lawful
  have raised := lawful deskLibrary deskTables (deskCalls ++ [deskHeadcount 22 2 1]) rfl
  revert raised
  decide +kernel

end Maru.Workforce.Staffing
