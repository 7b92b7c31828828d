import Maru.Framework.Except
import Maru.Framework.Uuid
import Mathlib.Order.Interval.Finset.Nat
import Mathlib.Data.Int.Interval
import Mathlib.Data.List.Dedup

/-!
# What a source's changes mean for a release

`scheduling/release_dependency_rules.py`. The rule sees four numbers about the changes of a source:
how many there are, the first and the last generation and the earliest time. Where these are taken
from a journal without repetitions, they say whether the journal is whole
(`evaluateReleaseDependency_journal`): a whole journal has as many changes as generations have
passed, and one that lacks a change has fewer. Times are instants in microseconds.
-/

namespace Maru.Scheduling

inductive ReleaseDependencyHorizon
  | approvalOnly
  | operational
  | disclosure
deriving DecidableEq

inductive ReleaseDependencyUse
  | approval
  | serving
deriving DecidableEq

inductive ReleaseDependencyConsequence
  | current
  | stale
  | invalidated
  | unavailable
deriving DecidableEq

structure ReleaseDependencyChangeWindow where
  count : Int
  firstGeneration : Option Int
  lastGeneration : Option Int
  earliestChangedAt : Option Int
deriving DecidableEq

/-- `ReleaseDependencyEvidenceInvalidError` -/
inductive ReleaseDependencyError
  | evidenceInvalid
deriving DecidableEq

def ReleaseDependencyError.message : ReleaseDependencyError → String
  | .evidenceInvalid => "Exact complete release dependency evidence is required."

def ReleaseDependencyError.code : ReleaseDependencyError → String
  | .evidenceInvalid => "scheduling_release_dependency_invalid"

/-- `1 <= value < 2**63 - 1` -/
def IsGeneration (value : Int) : Prop := 1 ≤ value ∧ value < 2 ^ 63 - 1

instance : DecidablePred IsGeneration := fun _ => inferInstanceAs (Decidable (_ ∧ _))

section

variable (capturedGeneration currentGeneration : Int) (horizon : ReleaseDependencyHorizon)
  (use : ReleaseDependencyUse) (operationalEndsAt : Option Int)

/-- The decisions of `evaluate_release_dependency`, after its checks. -/
def releaseDependencyConsequence (changes : ReleaseDependencyChangeWindow) : ReleaseDependencyConsequence :=
  let gap := currentGeneration - capturedGeneration
  if gap < 0 ∨ changes.count ≠ gap then .unavailable
  else if gap = 0 then
    if changes.firstGeneration = none ∧ changes.lastGeneration = none ∧ changes.earliestChangedAt = none then .current
    else .unavailable
  else if changes.firstGeneration ≠ some (capturedGeneration + 1) ∨ changes.lastGeneration ≠ some
      currentGeneration ∨ changes.earliestChangedAt = none then .unavailable
  else if use = .approval then .stale
  else if horizon = .disclosure ∨ (horizon = .operational ∧
      operationalEndsAt.any fun endsAt => changes.earliestChangedAt.any fun changedAt =>
        changedAt < endsAt) then .invalidated
  else .current

/-- `evaluate_release_dependency` -/
def evaluateReleaseDependency (changes : ReleaseDependencyChangeWindow) :
    Except ReleaseDependencyError ReleaseDependencyConsequence := do
  require (IsGeneration capturedGeneration ∧ IsGeneration currentGeneration) .evidenceInvalid
  require (horizon = .operational ↔ operationalEndsAt.isSome) .evidenceInvalid
  require (0 ≤ changes.count ∧ changes.count < 2 ^ 63 - 1) .evidenceInvalid
  require (changes.firstGeneration.all (decide <| IsGeneration ·) ∧
    changes.lastGeneration.all (decide <| IsGeneration ·)) .evidenceInvalid
  return releaseDependencyConsequence capturedGeneration currentGeneration horizon use operationalEndsAt changes

/-! ## Journals -/

structure SchedulingReleaseDependencyChange where
  generation : Int
  sourceAuditId : Uuid
  recordedAt : Int
deriving DecidableEq

/-- The changes after the captured generation, up to the current one. -/
def changesSince (rows : List SchedulingReleaseDependencyChange) : List SchedulingReleaseDependencyChange :=
  rows.filter fun row => capturedGeneration < row.generation ∧ row.generation ≤ currentGeneration

/-- The aggregates of `_dependency_state`: `Count`, `Min` and `Max` of these changes. -/
def changeWindow (rows : List SchedulingReleaseDependencyChange) : ReleaseDependencyChangeWindow where
  count := (changesSince capturedGeneration currentGeneration rows).length
  firstGeneration := ((changesSince capturedGeneration currentGeneration rows).map (·.generation)).min?
  lastGeneration := ((changesSince capturedGeneration currentGeneration rows).map (·.generation)).max?
  earliestChangedAt := ((changesSince capturedGeneration currentGeneration rows).map (·.recordedAt)).min?

/-- The journal has each generation that has passed. -/
def CompleteSince (rows : List SchedulingReleaseDependencyChange) : Prop :=
  capturedGeneration ≤ currentGeneration ∧ ∀ generation, capturedGeneration < generation →
    generation ≤ currentGeneration → generation ∈ rows.map (·.generation)

/-- The dependency is one of disclosure, or one of its changes was recorded before its end. -/
def Governs (rows : List SchedulingReleaseDependencyChange) : Prop :=
  horizon = .disclosure ∨ horizon = .operational ∧ ∃ endsAt ∈ operationalEndsAt,
    ∃ row ∈ changesSince capturedGeneration currentGeneration rows, row.recordedAt < endsAt

end

section

variable {capturedGeneration currentGeneration : Int} {rows : List SchedulingReleaseDependencyChange}

theorem mem_changesSince {row : SchedulingReleaseDependencyChange} :
    row ∈ changesSince capturedGeneration currentGeneration rows ↔
      row ∈ rows ∧ capturedGeneration < row.generation ∧ row.generation ≤ currentGeneration := by
  rw [changesSince, List.mem_filter, decide_eq_true_eq]

theorem mem_generations {generation : Int} :
    generation ∈ (changesSince capturedGeneration currentGeneration rows).map (·.generation) ↔
      generation ∈ rows.map (·.generation) ∧ capturedGeneration < generation ∧ generation ≤ currentGeneration := by
  simp only [List.mem_map, mem_changesSince]
  constructor
  · rintro ⟨row, ⟨hr, since⟩, rfl⟩
    exact ⟨⟨row, hr, rfl⟩, since⟩
  · rintro ⟨⟨row, hr, rfl⟩, since⟩
    exact ⟨row, ⟨hr, since⟩, rfl⟩

variable (unique : (rows.map (·.generation)).Nodup)

include unique

/-- The generations since are distinct, so there are at most as many as have passed. -/
theorem length_changesSince_le (ordered : capturedGeneration ≤ currentGeneration) :
    ((changesSince capturedGeneration currentGeneration rows).length : Int) ≤ currentGeneration - capturedGeneration ∧
      (((changesSince capturedGeneration currentGeneration rows).length : Int) = currentGeneration - capturedGeneration ↔
        CompleteSince capturedGeneration currentGeneration rows) := by
  obtain ⟨generations, hg⟩ : ∃ generations,
    generations = (changesSince capturedGeneration currentGeneration rows).map (·.generation) := ⟨_, rfl⟩
  have nodup : generations.Nodup := hg ▸ (List.filter_sublist.map _).nodup unique
  have within : generations.toFinset ⊆ Finset.Ioc capturedGeneration currentGeneration := by
    intro generation hm
    rw [List.mem_toFinset, hg, mem_generations] at hm
    exact Finset.mem_Ioc.mpr hm.2
  have card : generations.toFinset.card = (changesSince capturedGeneration currentGeneration rows).length := by
    rw [List.toFinset_card_of_nodup nodup, hg, List.length_map]
  have all : (Finset.Ioc capturedGeneration currentGeneration).card = (currentGeneration - capturedGeneration).toNat :=
    Int.card_Ioc ..
  have le := Finset.card_le_card within
  refine ⟨by omega, ?_, ?_⟩
  · intro whole
    refine ⟨ordered, fun generation after upto => ?_⟩
    have same := Finset.eq_of_subset_of_card_le within (by omega)
    have hm : generation ∈ generations.toFinset := same ▸ Finset.mem_Ioc.mpr ⟨after, upto⟩
    rw [List.mem_toFinset, hg, mem_generations] at hm
    exact hm.1
  · intro whole
    have same : generations.toFinset = Finset.Ioc capturedGeneration currentGeneration := by
      refine within.antisymm fun generation hm => ?_
      obtain ⟨after, upto⟩ := Finset.mem_Ioc.mp hm
      rw [List.mem_toFinset, hg, mem_generations]
      exact ⟨whole.2 generation after upto, after, upto⟩
    rw [same] at card
    omega

end

/-! ## The rule on a journal -/

section

variable {capturedGeneration currentGeneration : Int} {horizon : ReleaseDependencyHorizon} {use : ReleaseDependencyUse}
  {operationalEndsAt : Option Int} {rows : List SchedulingReleaseDependencyChange}

/-- The generations and the purpose that the rule accepts. -/
structure ReleaseDependencyAccepted (capturedGeneration currentGeneration : Int)
    (horizon : ReleaseDependencyHorizon) (operationalEndsAt : Option Int) : Prop where
  captured : IsGeneration capturedGeneration
  current : IsGeneration currentGeneration
  purpose : horizon = .operational ↔ operationalEndsAt.isSome

/-- A whole journal's first and last generation. -/
theorem firstGeneration_complete (whole : CompleteSince capturedGeneration currentGeneration rows)
    (passed : capturedGeneration < currentGeneration) :
    (changeWindow capturedGeneration currentGeneration rows).firstGeneration = some (capturedGeneration + 1) ∧
      (changeWindow capturedGeneration currentGeneration rows).lastGeneration = some currentGeneration := by
  constructor
  · refine List.min?_eq_some_iff.mpr ⟨mem_generations.mpr ?_, fun generation hm => ?_⟩
    · exact ⟨whole.2 _ (by omega) (by omega), by omega, by omega⟩
    · have := (mem_generations.mp hm).2.1
      omega
  · refine List.max?_eq_some_iff.mpr ⟨mem_generations.mpr ?_, fun generation hm => (mem_generations.mp hm).2.2⟩
    exact ⟨whole.2 _ passed (le_refl _), passed, le_refl _⟩

/-- The earliest change is before a time where some change is. -/
theorem earliestChangedAt_any {endsAt : Int} :
    ((changeWindow capturedGeneration currentGeneration rows).earliestChangedAt.any fun changedAt =>
      changedAt < endsAt) ↔
      ∃ row ∈ changesSince capturedGeneration currentGeneration rows, row.recordedAt < endsAt := by
  simp only [changeWindow, Option.any_eq_true, decide_eq_true_eq]
  constructor
  · rintro ⟨changedAt, earliest, before⟩
    obtain ⟨row, hr, rfl⟩ := List.mem_map.mp (List.min?_eq_some_iff.mp earliest).1
    exact ⟨row, hr, before⟩
  · rintro ⟨row, hr, before⟩
    have hm : row.recordedAt ∈ (changesSince capturedGeneration currentGeneration rows).map (·.recordedAt) :=
      List.mem_map_of_mem hr
    obtain ⟨earliest, he⟩ := Option.isSome_iff_exists.mp (List.isSome_min?_of_mem hm)
    exact ⟨earliest, he, lt_of_le_of_lt ((List.min?_eq_some_iff.mp he).2 _ hm) before⟩

theorem isGeneration_of_mem_changesSince (captured : IsGeneration capturedGeneration)
    (current : IsGeneration currentGeneration)
    {generation : Int} (h : generation ∈ (changesSince capturedGeneration currentGeneration rows).map (·.generation)) :
    IsGeneration generation := by
  obtain ⟨_, after, upto⟩ := mem_generations.mp h
  unfold IsGeneration at captured current ⊢
  omega

theorem changesSince_nil_of_le (passed : currentGeneration ≤ capturedGeneration) :
    changesSince capturedGeneration currentGeneration rows = [] := by
  refine List.eq_nil_iff_forall_not_mem.mpr fun row hr => ?_
  have := (mem_changesSince.mp hr).2
  omega

/-- Where no generation has passed. -/
theorem releaseDependencyConsequence_unchanged :
    releaseDependencyConsequence capturedGeneration capturedGeneration horizon use operationalEndsAt
      (changeWindow capturedGeneration capturedGeneration rows) = .current := by
  have empty : changesSince capturedGeneration capturedGeneration rows = [] := changesSince_nil_of_le (le_refl _)
  simp [releaseDependencyConsequence, changeWindow, empty]

variable (unique : (rows.map (·.generation)).Nodup)

include unique

/-- The aggregates of a journal are never malformed. -/
theorem evaluateReleaseDependency_eq_ok {consequence : ReleaseDependencyConsequence} :
    evaluateReleaseDependency capturedGeneration currentGeneration horizon use operationalEndsAt
        (changeWindow capturedGeneration currentGeneration rows) = .ok consequence ↔
      ReleaseDependencyAccepted capturedGeneration currentGeneration horizon operationalEndsAt ∧
        consequence = releaseDependencyConsequence capturedGeneration currentGeneration horizon
          use operationalEndsAt (changeWindow capturedGeneration currentGeneration rows) := by
  simp only [evaluateReleaseDependency, bind_eq_ok, require_eq_ok, pure_eq_ok, exists_and_left, exists_const]
  constructor
  · rintro ⟨⟨captured, current⟩, purpose, _, _, rfl⟩
    exact ⟨⟨captured, current, purpose⟩, rfl⟩
  · rintro ⟨⟨captured, current, purpose⟩, rfl⟩
    refine ⟨⟨captured, current⟩, purpose, ⟨Int.natCast_nonneg _, ?_⟩, ⟨?_, ?_⟩, rfl⟩
    · have count : (changeWindow capturedGeneration currentGeneration rows).count =
        (changesSince capturedGeneration currentGeneration rows).length := rfl
      obtain ordered | passed := le_or_gt capturedGeneration currentGeneration
      · have := (length_changesSince_le unique ordered).1
        unfold IsGeneration at captured current
        omega
      · rw [count, changesSince_nil_of_le passed.le]
        decide
    · refine (Option.all_eq_true _ _).mpr fun generation first => decide_eq_true ?_
      exact isGeneration_of_mem_changesSince captured current (List.min?_eq_some_iff.mp first).1
    · refine (Option.all_eq_true _ _).mpr fun generation last => decide_eq_true ?_
      exact isGeneration_of_mem_changesSince captured current (List.max?_eq_some_iff.mp last).1

/-- A journal that lacks a change proves nothing. -/
theorem releaseDependencyConsequence_incomplete (lacking : ¬ CompleteSince capturedGeneration currentGeneration rows) :
    releaseDependencyConsequence capturedGeneration currentGeneration horizon use operationalEndsAt
      (changeWindow capturedGeneration currentGeneration rows) = .unavailable := by
  have short : currentGeneration - capturedGeneration < 0 ∨
      (changeWindow capturedGeneration currentGeneration rows).count ≠ currentGeneration - capturedGeneration := by
    by_contra whole
    obtain ⟨ordered, count⟩ := not_or.mp whole
    exact lacking ((length_changesSince_le unique (by omega)).2.mp (not_not.mp count))
  rw [releaseDependencyConsequence]
  exact if_pos short

/-- A whole journal of changes. -/
theorem releaseDependencyConsequence_changed (whole : CompleteSince capturedGeneration currentGeneration rows)
    (passed : capturedGeneration < currentGeneration) :
    releaseDependencyConsequence capturedGeneration currentGeneration horizon use operationalEndsAt
        (changeWindow capturedGeneration currentGeneration rows) =
      if use = .approval then .stale
      else if horizon = .disclosure ∨ (horizon = .operational ∧ operationalEndsAt.any fun endsAt =>
        (changeWindow capturedGeneration currentGeneration rows).earliestChangedAt.any fun changedAt =>
          changedAt < endsAt)
      then .invalidated else .current := by
  have count : (changeWindow capturedGeneration currentGeneration rows).count = currentGeneration - capturedGeneration :=
    (length_changesSince_le unique whole.1).2.mpr whole
  obtain ⟨first, last⟩ := firstGeneration_complete whole passed
  have gap : ¬ (currentGeneration - capturedGeneration < 0 ∨
      (changeWindow capturedGeneration currentGeneration rows).count ≠ currentGeneration - capturedGeneration) := by
    omega
  have changed : ¬ currentGeneration - capturedGeneration = 0 := by omega
  have earliest : (changeWindow capturedGeneration currentGeneration rows).earliestChangedAt ≠ none := by
    obtain ⟨row, hr, _⟩ := List.mem_map.mp (List.min?_eq_some_iff.mp first).1
    exact Option.isSome_iff_ne_none.mp (List.isSome_min?_of_mem (List.mem_map_of_mem hr))
  have ends : ¬ ((changeWindow capturedGeneration currentGeneration rows).firstGeneration ≠
    some (capturedGeneration + 1) ∨
      (changeWindow capturedGeneration currentGeneration rows).lastGeneration ≠ some currentGeneration ∨
      (changeWindow capturedGeneration currentGeneration rows).earliestChangedAt = none) := by
    simp only [first, last, earliest, ne_eq, not_true_eq_false, or_self, not_false_eq_true]
  rw [releaseDependencyConsequence]
  simp only [if_neg gap, if_neg changed, if_neg ends]

/-- What the rule says of the aggregates of a journal. -/
theorem evaluateReleaseDependency_journal {consequence : ReleaseDependencyConsequence}
    (evaluated : evaluateReleaseDependency capturedGeneration currentGeneration horizon use operationalEndsAt
      (changeWindow capturedGeneration currentGeneration rows) = .ok consequence) :
    (consequence ≠ .unavailable ↔ CompleteSince capturedGeneration currentGeneration rows) ∧
      (consequence = .invalidated ↔ CompleteSince capturedGeneration currentGeneration rows ∧
        capturedGeneration < currentGeneration ∧ use = .serving ∧
        Governs capturedGeneration currentGeneration horizon operationalEndsAt rows) := by
  obtain ⟨_, rfl⟩ := (evaluateReleaseDependency_eq_ok unique).mp evaluated
  by_cases whole : CompleteSince capturedGeneration currentGeneration rows
  · obtain passed | same := whole.1.lt_or_eq
    · have governs : (horizon = .disclosure ∨ (horizon = .operational ∧ operationalEndsAt.any fun endsAt =>
          (changeWindow capturedGeneration currentGeneration rows).earliestChangedAt.any fun changedAt =>
            changedAt < endsAt)) ↔
          Governs capturedGeneration currentGeneration horizon operationalEndsAt rows := by
        simp only [Governs, Option.any_eq_true (x := operationalEndsAt), earliestChangedAt_any, Option.mem_def]
      rw [releaseDependencyConsequence_changed unique whole passed]
      cases use with
      | approval => simp [whole]
      | serving =>
        rw [if_neg (by decide)]
        split
        · rename_i invalid
          simp [whole, passed, governs.mp invalid]
        · rename_i valid
          have spared : ¬ Governs capturedGeneration currentGeneration horizon operationalEndsAt rows := fun g =>
            valid (governs.mpr g)
          simp [whole, spared]
    · subst same
      rw [releaseDependencyConsequence_unchanged]
      simp [whole]
  · rw [releaseDependencyConsequence_incomplete unique whole]
    simp [whole]

end

/-! ## Journals that grow -/

/-- A later journal has what the earlier one had up to its generation. -/
structure JournalExtends (currentGeneration : Int) (rows : List SchedulingReleaseDependencyChange)
    (currentGeneration' : Int) (rows' : List SchedulingReleaseDependencyChange) : Prop where
  later : currentGeneration ≤ currentGeneration'
  kept : ∀ row ∈ rows, row.generation ≤ currentGeneration → row ∈ rows'

section

variable {capturedGeneration currentGeneration currentGeneration' : Int} {horizon : ReleaseDependencyHorizon}
  {use : ReleaseDependencyUse} {operationalEndsAt : Option Int} {rows rows' : List SchedulingReleaseDependencyChange}

theorem Governs.extends (h : Governs capturedGeneration currentGeneration horizon operationalEndsAt rows)
    (extended : JournalExtends currentGeneration rows currentGeneration' rows') :
    Governs capturedGeneration currentGeneration' horizon operationalEndsAt rows' := by
  refine h.imp_right fun ⟨operational, endsAt, he, row, hr, before⟩ => ⟨operational, endsAt, he, row, ?_, before⟩
  obtain ⟨hr, after, upto⟩ := mem_changesSince.mp hr
  exact mem_changesSince.mpr ⟨extended.kept row hr upto, after, upto.trans extended.later⟩

/-- What is invalidated stays so under every journal that goes on, as long as it is whole. -/
theorem evaluateReleaseDependency_extends (unique : (rows.map (·.generation)).Nodup)
    (unique' : (rows'.map (·.generation)).Nodup) (generation : IsGeneration currentGeneration')
    (extended : JournalExtends currentGeneration rows currentGeneration' rows')
    (whole : CompleteSince capturedGeneration currentGeneration' rows')
    (invalidated : evaluateReleaseDependency capturedGeneration currentGeneration horizon use operationalEndsAt
      (changeWindow capturedGeneration currentGeneration rows) = .ok .invalidated) :
    evaluateReleaseDependency capturedGeneration currentGeneration' horizon use operationalEndsAt
      (changeWindow capturedGeneration currentGeneration' rows') = .ok .invalidated := by
  obtain ⟨accepted, _⟩ := (evaluateReleaseDependency_eq_ok unique).mp invalidated
  obtain ⟨_, passed, serving, governs⟩ := (evaluateReleaseDependency_journal unique invalidated).2.mp rfl
  have evaluated := (@evaluateReleaseDependency_eq_ok _ _ _ use _ _ unique' _).mpr
    ⟨⟨accepted.captured, generation, accepted.purpose⟩, rfl⟩
  rw [evaluated]
  refine congrArg _ ((evaluateReleaseDependency_journal unique' evaluated).2.mpr ?_)
  exact ⟨whole, lt_of_lt_of_le passed extended.later, serving, governs.extends extended⟩

/-- Changes at or after the end of an operational dependency do not govern it. -/
theorem not_governs_of_ended (operational : horizon = .operational)
    (ended : ∀ endsAt ∈ operationalEndsAt,
      ∀ row ∈ changesSince capturedGeneration currentGeneration rows, endsAt ≤ row.recordedAt) :
    ¬ Governs capturedGeneration currentGeneration horizon operationalEndsAt rows := by
  rintro (disclosure | ⟨_, endsAt, he, row, hr, before⟩)
  · rw [operational] at disclosure
    cases disclosure
  · have := ended endsAt he row hr
    omega

end

end Maru.Scheduling
