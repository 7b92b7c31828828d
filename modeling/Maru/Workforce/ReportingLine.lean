import Maru.Framework.Forest
import Maru.Workforce.PositionStatus

/-!
# Reporting lines

An update of a position walks the reporting line of every position of its edition, with
the new superior in place. What the walks establish is that each line ends within the
depth of a structure (`validate_lines`), so no position is above itself, and since a line
stays within one edition the lines elsewhere are as they were. A superior is not closed
while a position that reports to it is not. `Relined` is what a command that saves a
position has established of it.
-/

namespace Maru.Workforce.Staffing

open Table Forest

/-- The position that a position reports to. -/
def StaffingTables.managerOf (s : StaffingTables) (id : Uuid) : Option Uuid :=
  (s.positions.get? id).bind Position.reportsToId

/-- Two positions of one edition. -/
def Position.Beside (p q : Position) : Prop := q.organizationId = p.organizationId ∧ q.editionId = p.editionId

/-- Every reporting line ends within the depth of a structure and stays in its edition, and no
position that is not closed reports to one that is. -/
structure Reporting (s : StaffingTables) : Prop where
  line : ∀ p ∈ s.positions, ∃ l, Lineage s.managerOf (some p.id) l ∧ l.length ≤ maxStructureDepth ∧
    ∀ id ∈ l, ∃ q ∈ s.positions, q.id = id ∧ p.Beside q
  managed : ∀ p ∈ s.positions, p.status ≠ .closed → ∀ id, p.reportsToId = some id →
    ∃ q ∈ s.positions, q.id = id ∧ q.status ≠ .closed

/-- The position `p` is to be saved as `q`: under a superior that is not closed, with every line of
the edition as it would be then, or closed, with nothing reporting to it but what is closed. -/
inductive Relined (s : StaffingTables) (p q : Position) : Prop
  | moved (status : q.status = p.status)
      (superior : ∀ id, q.reportsToId = some id → ∃ m ∈ s.positions, m.id = id ∧ m.status ≠ .closed)
      (lines : ∀ x ∈ s.positions, p.Beside x → ∃ l, Lineage (Function.update s.managerOf p.id q.reportsToId)
        (some x.id) l ∧ l.length ≤ maxStructureDepth ∧ ∀ id ∈ l, ∃ y ∈ s.positions, y.id = id ∧ p.Beside y)
  | closed (status : q.status = .closed) (same : q.reportsToId = p.reportsToId)
      (free : ∀ x ∈ s.positions, p.Beside x → x.status ≠ .closed → x.reportsToId ≠ some p.id)

section

variable {lib : Library} {s s' : StaffingTables} {w : Surroundings} {r : Request}

theorem managerOf_of_mem {p : Position} (hp : p ∈ s.positions) : s.managerOf p.id = p.reportsToId := by
  unfold StaffingTables.managerOf
  rw [get?_eq_some.mpr ⟨hp, rfl⟩, Option.bind_some]

theorem managerOf_save {p q : Position} (hp : p ∈ s.positions) (id : q.id = p.id)
    (saved : s'.positions = s.positions.save q) : s'.managerOf = Function.update s.managerOf p.id q.reportsToId := by
  funext a
  unfold StaffingTables.managerOf
  rw [saved]
  by_cases own : a = p.id
  · rw [own, Function.update_self, ← id, get?_save_self (b := p) (by rw [id]; exact get?_eq_some.mpr ⟨hp, rfl⟩),
      Option.bind_some]
  · rw [Function.update_of_ne own, get?_save_of_ne (by rwa [id])]

theorem managerOf_congr {p q : Position} (hp : p ∈ s.positions) (id : q.id = p.id) (same : q.reportsToId = p.reportsToId)
    (saved : s'.positions = s.positions.save q) : s'.managerOf = s.managerOf := by
  rw [managerOf_save hp id saved, same, ← managerOf_of_mem hp, Function.update_eq_self]

/-- The superior of a position in its line is a position of its edition. -/
theorem Reporting.superior (h : Reporting s) {p : Position} (hp : p ∈ s.positions) {id : Uuid}
    (reports : p.reportsToId = some id) : ∃ q ∈ s.positions, q.id = id ∧ p.Beside q := by
  obtain ⟨l, lineage, -, located⟩ := h.line p hp
  cases lineage with
  | step up =>
    rw [managerOf_of_mem hp, reports] at up
    cases up
    exact located id (by simp)

/-! ## The walks of an update -/

theorem walkReportingLine_eq_climb (parent : Uuid → Option (Option Uuid)) (n : Nat)
    (seen : List Uuid) (c : Option Uuid) : walkReportingLine parent n seen c =
      climb parent (invalidField "reports_to_id" "The Position reporting line cannot contain a cycle."
        "structure_position_reporting_cycle") (.structural .stateConflict "The Position reporting graph is incomplete.")
        (.structural .limitConflict) n seen c := by
  induction n generalizing seen c with
  | zero =>
    cases c with
    | none => rfl
    | some a =>
      unfold walkReportingLine climb
      cases parent a <;> rfl
  | succ n ih =>
    cases c with
    | none => rfl
    | some a =>
      unfold walkReportingLine climb
      split
      · rfl
      · cases parent a with
        | none => rfl
        | some up => exact ih (a :: seen) up

theorem lockScope_mem {scope : StructureScope} (h : lockScope s w r = .ok scope) {p : Position} :
    p ∈ scope.positions ↔ p ∈ s.positions ∧ p.organizationId = scope.edition.organizationId ∧
      p.editionId = scope.edition.id := by
  simp only [lockScope, bind_eq_ok, pure_eq_ok] at h
  obtain ⟨_, -, _, -, _, -, _, -, _, -, rfl⟩ := h
  rw [List.mem_insertionSort, List.mem_filter, decide_eq_true_eq, mem_def]

/-- Every line of the edition, with the new superior of `p` in place. -/
theorem validate_lines {scope : StructureScope} {p : Position} {reportsToId : Option Uuid}
    (locked : lockScope s w r = .ok scope) (hp : p ∈ scope.positions)
    (h : validatePositionReportingGraph scope.positions p.id reportsToId = .ok ()) :
    ∀ x ∈ s.positions, p.Beside x → ∃ l, Lineage (Function.update s.managerOf p.id reportsToId) (some x.id) l ∧
      l.length ≤ maxStructureDepth ∧ ∀ id ∈ l, ∃ y ∈ s.positions, y.id = id ∧ p.Beside y := by
  intro x hx beside
  obtain ⟨-, organization, edition⟩ := (lockScope_mem locked).mp hp
  have walked := forM_eq_ok.mp h x
    ((lockScope_mem locked).mpr ⟨hx, beside.1.trans organization, beside.2.trans edition⟩)
  rw [walkReportingLine_eq_climb] at walked
  obtain ⟨l, lineage, short, known⟩ := climb_eq_ok walked
  have found : ∀ id ∈ l, ∃ y ∈ scope.positions, y.id = id ∧
      (changedParent scope.positions p.id reportsToId id).join = Function.update s.managerOf p.id reportsToId id := by
    intro id hid
    have known := known id hid
    unfold changedParent at known ⊢
    rw [Option.isSome_map] at known
    obtain ⟨y, hy⟩ := Option.isSome_iff_exists.mp known
    have mem := List.mem_of_find?_eq_some hy
    have same : y.id = id := by simpa using List.find?_some hy
    refine ⟨y, mem, same, ?_⟩
    rw [hy, Option.map_some, Option.join_some]
    split
    · rename_i own
      rw [own, Function.update_self]
    · rename_i other
      rw [Function.update_of_ne other, ← same, managerOf_of_mem ((lockScope_mem locked).mp mem).1]
  refine ⟨l, lineage.congr fun id hid => ?_, short, fun id hid => ?_⟩
  · obtain ⟨-, -, -, same⟩ := found id hid
    exact same.symm
  · obtain ⟨y, hy, same, -⟩ := found id hid
    obtain ⟨hy, yorganization, yedition⟩ := (lockScope_mem locked).mp hy
    exact ⟨y, hy, same, yorganization.trans organization.symm, yedition.trans edition.symm⟩

theorem reportingPosition_eq_ok {scope : StructureScope} {reportsToId : Option Uuid} {current id : Uuid}
    (locked : lockScope s w r = .ok scope) (h : reportingPosition scope reportsToId current = .ok ())
    (reports : reportsToId = some id) : ∃ m ∈ s.positions, m.id = id ∧ m.status ≠ .closed := by
  subst reports
  simp only [reportingPosition, bind_eq_ok, require_eq_ok] at h
  obtain ⟨_, -, m, found, opened⟩ := h
  obtain ⟨mem, same⟩ := positionById_eq_ok found
  exact ⟨m, ((lockScope_mem locked).mp mem).1, same, opened⟩

/-- A closed position is looked up among its reports by edition. -/
theorem free_of_closing {scope : StructureScope} {p : Position}
    (locked : lockScope s w r = .ok scope) (hp : p ∈ scope.positions)
    (free : (scope.positions.any fun x => x.reportsToId = some p.id ∧ x.status ≠ .closed) = false) :
    ∀ x ∈ s.positions, p.Beside x → x.status ≠ .closed → x.reportsToId ≠ some p.id := by
  intro x hx beside opened reports
  obtain ⟨-, organization, edition⟩ := (lockScope_mem locked).mp hp
  have mem := (lockScope_mem locked).mpr ⟨hx, beside.1.trans organization, beside.2.trans edition⟩
  have not := List.any_eq_false.mp free x mem
  rw [decide_eq_true_eq] at not
  exact not ⟨reports, opened⟩

end

end Maru.Workforce.Staffing
