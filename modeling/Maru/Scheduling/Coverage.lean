import Maru.Scheduling.Conflicts

/-!
# Shared calendars cover a presence

`_covered` in `scheduling/conflicts.py` walks the periods by their start and keeps how far
they have covered the window. It accepts exactly the windows of which every instant lies in
some period, so a presence is inside a shared calendar when no instant of it is outside
(`calendar_covers_presence`).
-/

namespace Maru.Scheduling

/-- The instant lies in the half-open window. -/
def SchedulingWindow.Contains (window : SchedulingWindow) (instant : Int) : Prop :=
  window.startsAt ≤ instant ∧ instant < window.endsAt

/-- Every instant of the window lies in some period. -/
def SchedulingWindow.CoveredBy (window : SchedulingWindow) (periods : List SchedulingWindow) : Prop :=
  ∀ instant, window.Contains instant → ∃ period ∈ periods, period.Contains instant

/-- A period that has ended by the start covers nothing of the window. -/
theorem coveredBy_cons_ended {period window : SchedulingWindow} (periods : List SchedulingWindow)
    (ended : period.endsAt ≤ window.startsAt) :
    window.CoveredBy (period :: periods) ↔ window.CoveredBy periods := by
  constructor
  · intro h instant inside
    have after := inside.1
    obtain ⟨p, hp, hin⟩ := h instant inside
    rcases List.mem_cons.mp hp with rfl | hp
    · have := hin.2
      omega
    · exact ⟨p, hp, hin⟩
  · intro h instant inside
    obtain ⟨p, hp, hin⟩ := h instant inside
    exact ⟨p, List.mem_cons_of_mem _ hp, hin⟩

/-- Periods that all start behind the start of the window leave its first instant out. -/
theorem not_coveredBy_of_late {window : SchedulingWindow} {periods : List SchedulingWindow}
    (positive : window.startsAt < window.endsAt) (late : ∀ p ∈ periods, window.startsAt < p.startsAt) :
    ¬ window.CoveredBy periods := by
  intro h
  obtain ⟨p, hp, hin⟩ := h window.startsAt ⟨le_rfl, positive⟩
  have := late p hp
  have := hin.1
  omega

/-- A period around the start covers the window up to its end; the rest is left to the others. -/
theorem coveredBy_cons_around {period window : SchedulingWindow} (periods : List SchedulingWindow)
    (started : period.startsAt ≤ window.startsAt) (open' : window.startsAt < period.endsAt) :
    window.CoveredBy (period :: periods) ↔
      SchedulingWindow.CoveredBy ⟨period.endsAt, window.endsAt⟩ periods := by
  constructor
  · intro h instant rest
    have after : period.endsAt ≤ instant := rest.1
    have inside : window.Contains instant := ⟨by omega, rest.2⟩
    obtain ⟨p, hp, hin⟩ := h instant inside
    rcases List.mem_cons.mp hp with rfl | hp
    · have := hin.2
      omega
    · exact ⟨p, hp, hin⟩
  · intro h instant inside
    have after := inside.1
    by_cases early : instant < period.endsAt
    · exact ⟨period, List.mem_cons_self, by omega, early⟩
    · obtain ⟨p, hp, hin⟩ := h instant ⟨Int.not_lt.mp early, inside.2⟩
      exact ⟨p, List.mem_cons_of_mem _ hp, hin⟩

/-- What the loop answers behind a cursor is about the part of the window that is left. -/
theorem coveredFrom_iff {endsAt cursor : Int} {periods : List SchedulingWindow}
    (left : cursor < endsAt) (sorted : periods.Pairwise (·.startsAt ≤ ·.startsAt)) :
    coveredFrom endsAt cursor periods = true ↔ SchedulingWindow.CoveredBy ⟨cursor, endsAt⟩ periods := by
  induction periods generalizing cursor with
  | nil =>
    have bare : ¬ SchedulingWindow.CoveredBy ⟨cursor, endsAt⟩ [] :=
      not_coveredBy_of_late left (List.forall_mem_nil _)
    simp only [coveredFrom, Bool.false_eq_true, bare]
  | cons period periods ih =>
    obtain ⟨first, sorted⟩ := List.pairwise_cons.mp sorted
    rw [coveredFrom]
    split
    · rename_i ended
      rw [ih left sorted]
      exact (coveredBy_cons_ended periods ended).symm
    · rename_i running
      split
      · -- A gap: the periods are sorted, so the others start no earlier.
        rename_i gap
        have late : ∀ p ∈ period :: periods, cursor < p.startsAt := by
          intro p hp
          rcases List.mem_cons.mp hp with rfl | hp
          · exact gap
          · have := first p hp
            omega
        have bare : ¬ SchedulingWindow.CoveredBy ⟨cursor, endsAt⟩ (period :: periods) :=
          not_coveredBy_of_late left late
        simp only [Bool.false_eq_true, bare]
      · rename_i joined
        have around := @coveredBy_cons_around period ⟨cursor, endsAt⟩ periods (Int.not_lt.mp joined)
          (Int.not_le.mp running)
        rw [around]
        split
        · rename_i reached
          have nothing : SchedulingWindow.CoveredBy ⟨period.endsAt, endsAt⟩ periods := by
            intro instant inside
            have after : period.endsAt ≤ instant := inside.1
            have before : instant < endsAt := inside.2
            omega
          simp only [nothing]
        · rename_i short
          exact ih (Int.not_le.mp short) sorted

theorem covered_iff (window : SchedulingWindow) (periods : List SchedulingWindow)
    (positive : window.startsAt < window.endsAt) : covered window periods = true ↔ window.CoveredBy periods := by
  have sorted := sortBy_perm SchedulingWindow.startsAt periods
  rw [covered, coveredFrom_iff positive (sortBy_sorted _ _)]
  simp only [SchedulingWindow.CoveredBy, sorted.mem_iff]

/-! ## The callers -/

section

variable {occurrence : Uuid} {required : SchedulingWindow}
  {periods : List ProgrammeHostAvailabilityPeriod} (positive : required.startsAt < required.endsAt)

include positive

/-- A shared calendar blocks a presence when some instant of it lies in none of its periods. -/
theorem outside_iff :
    add programmeSchedulingConflictSource .hostOutsideAvailability .blocker occurrence ∈
      sharedFindings occurrence required periods ↔ ¬ required.CoveredBy (periods.map (·.window)) := by
  rw [← covered_iff _ _ positive, sharedFindings]
  split
  · rename_i outside
    simp [outside]
  · rename_i inside
    have inside : covered required (periods.map (·.window)) = true := Bool.eq_true_of_not_eq_false inside
    dsimp only [onlyIf]
    split <;> simp [inside, add]

/-- A preference is missed when there is one and some instant lies in no preferred period. -/
theorem preferred_iff :
    add programmeSchedulingConflictSource .hostOutsidePreference .warning occurrence ∈
      sharedFindings occurrence required periods ↔
        required.CoveredBy (periods.map (·.window)) ∧ (∃ period ∈ periods, period.kind = .preferred) ∧
          ¬ required.CoveredBy ((periods.filter (·.kind = .preferred)).map (·.window)) := by
  rw [← covered_iff _ _ positive, ← covered_iff _ _ positive, sharedFindings]
  have some_preferred : (periods.filter (·.kind = .preferred)).map (·.window) ≠ [] ↔
      ∃ period ∈ periods, period.kind = .preferred := by
    simp
  split
  · rename_i outside
    simp [outside, add]
  · rename_i inside
    have inside : covered required (periods.map (·.window)) = true := Bool.eq_true_of_not_eq_false inside
    rw [← some_preferred, Bool.not_eq_true]
    dsimp only [onlyIf]
    split
    · rename_i missed
      exact iff_of_true (List.mem_singleton_self _) ⟨inside, missed⟩
    · rename_i met
      exact iff_of_false List.not_mem_nil fun h => met h.2

end

/-- A window is covered when each of its instants lies in some period, and a required presence is
reported as outside a shared calendar, or as outside its preferred part, when one does not. -/
theorem calendar_covers_presence (required : SchedulingWindow) (positive : required.startsAt < required.endsAt) :
    (∀ periods, covered required periods = true ↔ required.CoveredBy periods) ∧
    ∀ occurrence periods,
      (add programmeSchedulingConflictSource .hostOutsideAvailability .blocker occurrence ∈
        sharedFindings occurrence required periods ↔ ¬ required.CoveredBy (periods.map (·.window))) ∧
      (add programmeSchedulingConflictSource .hostOutsidePreference .warning occurrence ∈
        sharedFindings occurrence required periods ↔
          required.CoveredBy (periods.map (·.window)) ∧ (∃ period ∈ periods, period.kind = .preferred) ∧
            ¬ required.CoveredBy ((periods.filter (·.kind = .preferred)).map (·.window))) :=
  ⟨fun periods => covered_iff required periods positive, fun _ _ => ⟨outside_iff positive, preferred_iff positive⟩⟩

/-- An evening of two overlapping shifts, one of which holds a third, and a
later one with no gap. -/
theorem evening_covered : (0 : Int) < 30 ∧ covered ⟨0, 30⟩ [⟨20, 40⟩, ⟨-5, 15⟩, ⟨2, 5⟩, ⟨10, 20⟩] =
    true ∧ SchedulingWindow.CoveredBy ⟨0, 30⟩ [⟨20, 40⟩, ⟨-5, 15⟩, ⟨2, 5⟩, ⟨10, 20⟩] := by
  have accepted : covered ⟨0, 30⟩ [⟨20, 40⟩, ⟨-5, 15⟩, ⟨2, 5⟩, ⟨10, 20⟩] = true := by decide
  exact ⟨by decide, accepted, ((calendar_covers_presence ⟨0, 30⟩ (by decide)).1 _).mp accepted⟩

end Maru.Scheduling
