import Maru.Workforce.OpenAssignments

/-!
# Reporting lines over runs

Every command keeps the reporting lines of all editions (`AssignmentStep.reporting`). The
status of a position is restated without regard to its superior, and it is by its open
assignments that it was not closed before; so the lines stand on the open assignments
being in order.
-/

namespace Maru.Workforce.Staffing

open Table Forest

section

variable {s s' : StaffingTables} {r : Request}

/-- A position is still there after a step that restates one, and is closed only if it was. -/
theorem Restates.keeps {p x : Position} (h : Restates s s' p) (hp : p ∈ s.positions) (hx : x ∈ s.positions) :
    ∃ y ∈ s'.positions, y.id = x.id ∧ y.organizationId = x.organizationId ∧ y.editionId =
      x.editionId ∧ y.reportsToId = x.reportsToId ∧ (y.status = .closed → x.status = .closed) := by
  rcases h with same | ⟨status, opened, saved⟩
  · rw [same]
    exact ⟨x, hx, rfl, rfl, rfl, rfl, fun closed => closed⟩
  · by_cases own : x.id = p.id
    · obtain rfl := eq_of_key hx hp own
      refine ⟨{ x with status }, ?_, rfl, rfl, rfl, rfl, fun closed => absurd closed opened⟩
      rw [saved, mem_save_of_mem (b := x) hx (by rfl)]
      exact .inr rfl
    · refine ⟨x, ?_, rfl, rfl, rfl, rfl, fun closed => closed⟩
      rw [saved, mem_save_of_mem (b := p) hp (by rfl)]
      exact .inl ⟨hx, own⟩

theorem Restates.managerOf {p : Position} (h : Restates s s' p) (hp : p ∈ s.positions) : s'.managerOf = s.managerOf := by
  rcases h with same | ⟨status, -, saved⟩
  · unfold StaffingTables.managerOf
    rw [same]
  · exact managerOf_congr hp (q := { p with status }) (by rfl) (by rfl) saved

/-- The status of a position with an open assignment is restated. -/
theorem Reporting.restated (h : Reporting s) {p : Position} (hp : p ∈ s.positions)
    (opened : p.status ≠ .closed) (positions : Restates s s' p) : Reporting s' := by
  have before {x : Position} (hx : x ∈ s'.positions) : ∃ y ∈ s.positions, x.id = y.id ∧ y.Beside x ∧
      x.reportsToId = y.reportsToId ∧ (x.status ≠ .closed → y.status ≠ .closed) := by
    rcases positions with same | ⟨status, -, saved⟩
    · rw [same] at hx
      exact ⟨x, hx, rfl, ⟨rfl, rfl⟩, rfl, fun opened => opened⟩
    · rw [saved, mem_save_of_mem (b := p) hp (by rfl)] at hx
      rcases hx with ⟨hx, -⟩ | rfl
      · exact ⟨x, hx, rfl, ⟨rfl, rfl⟩, rfl, fun opened => opened⟩
      · exact ⟨p, hp, rfl, ⟨rfl, rfl⟩, rfl, fun _ => opened⟩
  refine ⟨fun x hx => ?_, fun x hx openX id reports => ?_⟩
  · obtain ⟨y, hy, same, beside, -, -⟩ := before hx
    obtain ⟨l, lineage, short, located⟩ := h.line y hy
    rw [positions.managerOf hp, same]
    refine ⟨l, lineage, short, fun id hid => ?_⟩
    obtain ⟨m, hm, own, near⟩ := located id hid
    obtain ⟨m', hm', id', organization', edition', -, -⟩ := positions.keeps hp hm
    exact ⟨m', hm', id'.trans own, organization'.trans (near.1.trans beside.1.symm),
      edition'.trans (near.2.trans beside.2.symm)⟩
  · obtain ⟨y, hy, -, -, same, openY⟩ := before hx
    obtain ⟨m, hm, own, openM⟩ := h.managed y hy (openY openX) id (same.symm.trans reports)
    obtain ⟨m', hm', id', -, -, -, closed⟩ := positions.keeps hp hm
    exact ⟨m', hm', id'.trans own, fun closed' => openM (closed closed')⟩

/-- A position is saved under another superior, or closed. -/
theorem Reporting.relined (h : Reporting s) {p q : Position} (step : PositionStep s s' p q)
    (lines : Relined s p q) : Reporting s' := by
  have mem {x : Position} : x ∈ s'.positions ↔ (x ∈ s.positions ∧ x.id ≠ q.id) ∨ x = q := by
    rw [step.saved, mem_save_of_mem step.mem step.id.symm]
  -- Where a position is does not change.
  have keeps {x : Position} (hx : x ∈ s.positions) : ∃ y ∈ s'.positions, y.id = x.id ∧ x.Beside y ∧
      (x.id ≠ p.id → y = x) := by
    by_cases own : x.id = p.id
    · obtain rfl := eq_of_key hx step.mem own
      exact ⟨q, mem.mpr (.inr rfl), step.id, ⟨step.organization, step.edition⟩, fun other => absurd rfl other⟩
    · exact ⟨x, mem.mpr (.inl ⟨hx, fun same => own (same.trans step.id)⟩), rfl, ⟨rfl, rfl⟩, fun _ => rfl⟩
  have managers := managerOf_save step.mem step.id step.saved
  have located {x y : Position} (beside : y.Beside x) {l : List Uuid}
      (known : ∀ id ∈ l, ∃ m ∈ s.positions, m.id = id ∧ y.Beside m) : ∀ id ∈ l, ∃ m ∈ s'.positions,
        m.id = id ∧ x.Beside m := by
    intro id hid
    obtain ⟨m, hm, own, near⟩ := known id hid
    obtain ⟨m', hm', id', near', -⟩ := keeps hm
    exact ⟨m', hm', id'.trans own, near'.1.trans (near.1.trans beside.1.symm),
      near'.2.trans (near.2.trans beside.2.symm)⟩
  have before {x : Position} (hx : x ∈ s'.positions) : ∃ y ∈ s.positions, x.id = y.id ∧ y.Beside x := by
    rcases mem.mp hx with ⟨hx, -⟩ | rfl
    · exact ⟨x, hx, rfl, rfl, rfl⟩
    · exact ⟨p, step.mem, step.id, step.organization, step.edition⟩
  cases lines with
  | moved status superior lines =>
    refine ⟨fun x hx => ?_, fun x hx opened id reports => ?_⟩
    · obtain ⟨y, hy, same, beside⟩ := before hx
      rw [managers, same]
      by_cases here : p.Beside y
      · obtain ⟨l, lineage, short, known⟩ := lines y hy here
        refine ⟨l, lineage, short, located ⟨beside.1.trans here.1, beside.2.trans here.2⟩ known⟩
      · -- The lines of another edition do not meet `p`.
        obtain ⟨l, lineage, short, known⟩ := h.line y hy
        refine ⟨l, lineage.update fun hpl => here ?_, short, located beside known⟩
        obtain ⟨m, hm, own, near⟩ := known _ hpl
        obtain rfl := eq_of_key hm step.mem own
        exact ⟨near.1.symm, near.2.symm⟩
    · have above : ∃ m ∈ s.positions, m.id = id ∧ m.status ≠ .closed := by
        rcases mem.mp hx with ⟨hx, -⟩ | rfl
        · exact h.managed x hx opened id reports
        · exact superior id reports
      obtain ⟨m, hm, own, openM⟩ := above
      by_cases same : m.id = p.id
      · refine ⟨q, mem.mpr (.inr rfl), step.id.trans (same.symm.trans own), ?_⟩
        rw [status]
        exact step.opened
      · exact ⟨m, mem.mpr (.inl ⟨hm, fun e => same (e.trans step.id)⟩), own, openM⟩
  | closed status same free =>
    have unmoved : s'.managerOf = s.managerOf := managerOf_congr step.mem step.id same step.saved
    refine ⟨fun x hx => ?_, fun x hx opened id reports => ?_⟩
    · obtain ⟨y, hy, same, beside⟩ := before hx
      obtain ⟨l, lineage, short, known⟩ := h.line y hy
      rw [unmoved, same]
      exact ⟨l, lineage, short, located beside known⟩
    · rcases mem.mp hx with ⟨hx, -⟩ | rfl
      · obtain ⟨m, hm, own, openM⟩ := h.managed x hx opened id reports
        have other : m.id ≠ p.id := by
          intro same
          obtain ⟨n, hn, own', near⟩ := h.superior hx reports
          obtain rfl := eq_of_key hn step.mem (own'.trans (own.symm.trans same))
          exact free x hx ⟨near.1.symm, near.2.symm⟩ opened (reports.trans (congrArg some own'.symm))
        exact ⟨m, mem.mpr (.inl ⟨hm, fun e => other (e.trans step.id)⟩), own, openM⟩
      · exact absurd status opened

theorem AssignmentStep.reporting (step : AssignmentStep s s' r) (orderly : Orderly s)
    (h : Reporting s) : Reporting s' := by
  cases step with
  | unchanged same =>
    rw [same]
    exact h
  | saved p q step lines => exact h.relined step lines
  | proposed p hp opened accountId effectiveFrom expiresAt reason digest room alone inserted positions received =>
    exact h.restated hp opened (.inl positions)
  | decided p hp a a' ha at_ action version reason digest current decides saved positions received =>
    exact h.restated hp (orderly.opened hp ha at_ decides.opens) positions

/-- Nothing reports to itself, however indirectly. -/
theorem Reporting.acyclic (h : Reporting s) {p : Position} (hp : p ∈ s.positions) :
    ¬ Relation.TransGen (fun x y => s.managerOf x = some y) p.id p.id := by
  intro cycle
  obtain ⟨l, lineage, -⟩ := h.line p hp
  cases lineage with
  | step up => exact (Lineage.step up).not_mem (Lineage.mem_of_transGen cycle up)

end

/-! ## Runs -/

/-- From tables whose reporting lines end within the depth of a structure, and with no assignments
yet, every run keeps them so: no position comes to report to itself, none reports into another
edition, and none that is not closed reports to one that is. -/
theorem run_reporting (lib : Library) (s : StaffingTables) (unassigned : s.assignments.rows = [])
    (h : Reporting s) (calls : List StaffingCall) :
    Reporting ((staffingMachine lib).run s calls) ∧ ∀ p ∈ ((staffingMachine lib).run s calls).positions,
      ¬ Relation.TransGen (fun x y => ((staffingMachine lib).run s calls).managerOf x = some y) p.id p.id := by
  have both := Machine.run_invariant (M := staffingMachine lib) (I := fun s => Orderly s ∧ Reporting s)
    (fun _ _ _ _ both h => ⟨(exec_step h).orderly both.1, (exec_step h).reporting both.1 both.2⟩)
    ⟨orderly_of_unassigned unassigned, h⟩ calls
  exact ⟨both.2, fun p hp => both.2.acyclic hp⟩

/-- A desk whose position reports to another. -/
def leadTables : StaffingTables :=
  ⟨⟨[{ deskPosition with reportsToId := some 5 }, { deskPosition with id := 5 }], by decide⟩, ∅, ∅,
    ⟨[⟨7, 1, 2, 1⟩], List.nodup_singleton _⟩⟩

theorem leadTables_reporting : Reporting leadTables := by
  have desk : Lineage leadTables.managerOf (some 4) [4, 5] := .step (.step .root)
  have lead : Lineage leadTables.managerOf (some 5) [5] := .step .root
  have located : ∀ id ∈ [(4 : Uuid), 5], ∃ q ∈ leadTables.positions, q.id = id ∧
      q.organizationId = 1 ∧ q.editionId = 2 := by
    intro id hid
    rcases List.mem_cons.mp hid with rfl | hid
    · exact ⟨_, List.mem_cons_self, rfl, rfl, rfl⟩
    · rw [List.mem_singleton.mp hid]
      exact ⟨_, List.mem_cons_of_mem _ List.mem_cons_self, rfl, rfl, rfl⟩
  refine ⟨fun p hp => ?_, fun p hp opened id reports => ?_⟩
  · rcases List.mem_cons.mp hp with rfl | hp
    · exact ⟨[4, 5], desk, by decide, located⟩
    · rw [List.mem_singleton.mp hp]
      exact ⟨[5], lead, by decide, fun id hid => located id (List.mem_cons_of_mem _ hid)⟩
  · rcases List.mem_cons.mp hp with rfl | hp
    · obtain rfl : 5 = id := Option.some.inj reports
      exact ⟨{ deskPosition with id := 5 }, List.mem_cons_of_mem _ List.mem_cons_self, rfl, by decide⟩
    · rw [List.mem_singleton.mp hp] at reports
      cases reports

/-- Nor does the lead come to report to the desk. -/
theorem lead_reporting : Reporting ((staffingMachine deskLibrary).run leadTables
    (deskCalls ++ [deskCall 8 22 (.update 5 (some 4) "Lead" "Leads." 1 1 "Other line.")])) :=
  (run_reporting deskLibrary leadTables rfl leadTables_reporting _).1

end Maru.Workforce.Staffing
