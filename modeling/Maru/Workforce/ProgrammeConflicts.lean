import Mathlib.Data.Int.ConditionallyCompleteOrder
import Mathlib.Order.Interval.Set.Basic
import Maru.Framework.Sweep
import Maru.Scheduling.Conflicts
import Maru.Workforce.ShiftCommands

/-!
# Conflicts between the duties of one person

`workforce/programme_person_conflicts.py`: the presence of hosts and the commitments of
volunteers, compared pair by pair for each person. A pair is reported as `overlap` or
`rest` at the occurrences it belongs to; `evaluate_reports` says when, in terms of the
intervals from the start of work to the end of rest, which is also what a claim is
refused for (`requireNoOverlap_eq_ok`).
-/

namespace Maru.Workforce

open Budget Sweep Scheduling Calendar

inductive ObligationKind
  | host | work
deriving DecidableEq

structure ProgrammePersonObligation where
  personKey : Uuid
  occurrenceId : Option Uuid
  obligationId : Uuid
  kind : ObligationKind
  startsAt : Int
  endsAt : Int
  restEndsAt : Int
deriving DecidableEq

inductive PersonConflictCode
  | overlap | rest
deriving DecidableEq

def PersonConflictCode.value : PersonConflictCode → String
  | .overlap => "overlap"
  | .rest => "rest"

structure ProgrammePersonConsequence where
  occurrenceId : Uuid
  personKey : Uuid
  code : PersonConflictCode
deriving DecidableEq

/-- The sort key of a consequence. -/
def ProgrammePersonConsequence.key (c : ProgrammePersonConsequence) : String ×ₗ String ×ₗ String :=
  toLex (c.occurrenceId.text, toLex (c.personKey.text, c.code.value))

inductive PersonConflictError
  | obligations | intervals | comparison | consequences
deriving DecidableEq

def PersonConflictError.message : PersonConflictError → String
  | .obligations => "Complete bounded person obligations are required."
  | .intervals => "Use exact positive aware work and rest intervals."
  | .comparison => "Complete person comparison is unavailable."
  | .consequences => "Complete person consequences are unavailable."

/-- A limit of the comparison was hit. -/
def PersonConflictError.IsLimit (e : PersonConflictError) : Prop := e = .comparison ∨ e = .consequences

namespace ProgrammePersonObligation

variable (left right : ProgrammePersonObligation)

/-- Work before its end, its end not after that of its rest; hosts have no rest. -/
def Exact (row : ProgrammePersonObligation) : Prop :=
  row.startsAt < row.endsAt ∧ row.endsAt ≤ row.restEndsAt ∧ ¬(row.kind = .host ∧ row.restEndsAt ≠ row.endsAt)

instance (row : ProgrammePersonObligation) : Decidable row.Exact := inferInstanceAs (Decidable (_ ∧ _))

/-- The pairs that are not compared: neither is selected, one commitment twice, or a person's
roles in one occurrence. -/
def Skipped : Prop :=
  (left.occurrenceId = none ∧ right.occurrenceId = none) ∨
    (left.kind = right.kind ∧ right.kind = .work ∧ left.obligationId = right.obligationId) ∨
    (left.kind = right.kind ∧ right.kind = .host ∧ left.occurrenceId = right.occurrenceId)

instance : Decidable (Skipped left right) := inferInstanceAs (Decidable (_ ∨ _))

def overlap : Bool := left.startsAt < right.endsAt ∧ right.startsAt < left.endsAt

def rest : Bool :=
  (left.endsAt ≤ right.startsAt ∧ right.startsAt < left.restEndsAt) ∨
    (right.endsAt ≤ left.startsAt ∧ left.startsAt < right.restEndsAt)

/-- What one row of a compared pair adds. -/
def consequences (row : ProgrammePersonObligation) (overlap rest : Bool) : List ProgrammePersonConsequence :=
  match row.occurrenceId with
  | none => []
  | some id =>
    (if overlap then [⟨id, row.personKey, .overlap⟩] else []) ++ if rest then [⟨id, row.personKey, .rest⟩] else []

/-- What a pair adds. -/
def pairConsequences (pair : ProgrammePersonObligation × ProgrammePersonObligation) :
    List ProgrammePersonConsequence :=
  let (left, right) := pair
  if Skipped left right then []
  else [left, right].flatMap fun row => row.consequences (overlap left right) (rest left right)

end ProgrammePersonObligation

open ProgrammePersonObligation

/-- One turn of the loop over the pairs. -/
def comparePair (c : Collection ProgrammePersonConsequence)
    (pair : ProgrammePersonObligation × ProgrammePersonObligation) :
    Except PersonConflictError (Collection ProgrammePersonConsequence) :=
  let comparisons := c.comparisons + 1
  if maxConflictComparisons < comparisons then .error .comparison
  else if Skipped pair.1 pair.2 then .ok { c with comparisons }
  else
    let values := c.values ∪ (pairConsequences pair).toFinset
    if maxConflicts < values.card then .error .consequences else .ok { values, comparisons }

/-- `combinations(rows, 2)` for the rows of each person. -/
def personPairs (obligations : List ProgrammePersonObligation) :
    List (ProgrammePersonObligation × ProgrammePersonObligation) :=
  (Dict.groups (obligations.map fun row => (row.personKey, row))).flatMap fun person => pairs person.2

/-- The order is that in which the set of consequences is walked. -/
def evaluateProgrammePersonConflicts (order : SetOrder ProgrammePersonConsequence)
    (obligations : List ProgrammePersonObligation) :
    Except PersonConflictError (List ProgrammePersonConsequence) := do
  require (obligations.length ≤ maxConflicts) .obligations
  require (∀ row ∈ obligations, row.Exact) .intervals
  let found ← (personPairs obligations).foldlM comparePair {}
  return sortBy ProgrammePersonConsequence.key (order.list found.values)

/-! ## One pair -/

namespace ProgrammePersonObligation

variable {left right : ProgrammePersonObligation}

theorem Skipped.symm (h : Skipped left right) : Skipped right left := by
  rcases h with ⟨hl, hr⟩ | ⟨hk, hr, same⟩ | ⟨hk, hr, same⟩
  · exact .inl ⟨hr, hl⟩
  · exact .inr (.inl ⟨hk.symm, hk.trans hr, same.symm⟩)
  · exact .inr (.inr ⟨hk.symm, hk.trans hr, same.symm⟩)

/-- A row is never compared with itself. -/
theorem skipped_self (row : ProgrammePersonObligation) : Skipped row row := by
  cases hk : row.kind with
  | host => exact .inr (.inr ⟨rfl, hk, rfl⟩)
  | work => exact .inr (.inl ⟨rfl, hk, rfl⟩)

theorem overlap_comm : overlap left right = overlap right left := by
  simp only [overlap, and_comm]

theorem rest_comm : rest left right = rest right left := by
  simp only [rest, or_comm]

/-- The two half-open intervals from the start of work to the end of rest have an instant in common.
-/
def Meets (left right : ProgrammePersonObligation) : Prop :=
  (Set.Ico left.startsAt left.restEndsAt ∩ Set.Ico right.startsAt right.restEndsAt).Nonempty

theorem meets_iff (hl : left.startsAt < left.restEndsAt) (hr : right.startsAt < right.restEndsAt) :
    Meets left right ↔ left.startsAt < right.restEndsAt ∧ right.startsAt < left.restEndsAt := by
  rw [Meets, Set.Ico_inter_Ico, Set.nonempty_Ico]
  simp only [sup_lt_iff, lt_inf_iff]
  omega

/-- Overlap and rest together are the intersection of the intervals, whichever comes first and
whether they touch or are nested. -/
theorem overlap_or_rest_iff (hl : left.Exact) (hr : right.Exact) :
    (overlap left right ∨ rest left right) ↔ Meets left right := by
  obtain ⟨workL, restL, -⟩ := hl
  obtain ⟨workR, restR, -⟩ := hr
  rw [meets_iff (by omega) (by omega)]
  simp only [overlap, rest, decide_eq_true_eq]
  omega

theorem mem_consequences {row : ProgrammePersonObligation} {overlap rest : Bool}
    {c : ProgrammePersonConsequence} : c ∈ row.consequences overlap rest ↔
      row.occurrenceId = some c.occurrenceId ∧ row.personKey = c.personKey ∧
        ((overlap ∧ c.code = .overlap) ∨ (rest ∧ c.code = .rest)) := by
  obtain ⟨id, person, code⟩ := c
  unfold consequences
  cases row.occurrenceId with
  | none => simp
  | some o =>
    cases overlap <;> cases rest <;> simp [eq_comm, ← and_or_left]

theorem mem_pairConsequences {c : ProgrammePersonConsequence} :
    c ∈ pairConsequences (left, right) ↔
      ¬ Skipped left right ∧ (c ∈ left.consequences (overlap left right) (rest left right) ∨
        c ∈ right.consequences (overlap left right) (rest left right)) := by
  unfold pairConsequences
  by_cases skipped : Skipped left right <;> simp [skipped]

theorem pairConsequences_swap : (pairConsequences (left, right)).Perm (pairConsequences (right, left)) := by
  unfold pairConsequences
  by_cases skipped : Skipped left right
  · have skipped' := skipped.symm
    simp only [skipped, skipped', if_true, List.Perm.refl]
  · have compared : ¬ Skipped right left := fun h => skipped h.symm
    simp only [skipped, compared, if_false]
    rw [overlap_comm, rest_comm]
    exact (List.Perm.swap right left []).flatMap_right _

end ProgrammePersonObligation

/-! ## All pairs -/

section

variable {obligations obligations' : List ProgrammePersonObligation}

theorem entriesOf_personKey (key : Uuid) (l : List ProgrammePersonObligation) :
    Dict.entriesOf key (l.map fun row => (row.personKey, row)) = l.filter (·.personKey = key) := by
  rw [Dict.entriesOf, List.filter_map, List.map_map]
  exact List.map_id _

/-- A property of unordered pairs that nobody has with himself is one of the pairs compared. -/
theorem exists_personPair_iff {Q : ProgrammePersonObligation → ProgrammePersonObligation → Prop}
    (symm : ∀ a b, Q a b → Q b a) (irrefl : ∀ a, ¬ Q a a) :
    (∃ pair ∈ personPairs obligations, Q pair.1 pair.2) ↔
      ∃ a ∈ obligations, ∃ b ∈ obligations, a.personKey = b.personKey ∧ Q a b := by
  constructor
  · rintro ⟨pair, hp, hq⟩
    obtain ⟨⟨key, group⟩, hg, hp⟩ := List.mem_flatMap.mp hp
    obtain ⟨-, rfl⟩ := Dict.mem_groups.mp hg
    obtain ⟨hl, hr⟩ := mem_of_mem_pairs hp
    rw [entriesOf_personKey, List.mem_filter, decide_eq_true_eq] at hl hr
    exact ⟨pair.1, hl.1, pair.2, hr.1, hl.2.trans hr.2.symm, hq⟩
  · rintro ⟨a, ha, b, hb, same, hq⟩
    have group : (a.personKey, obligations.filter (·.personKey = a.personKey)) ∈
        Dict.groups (obligations.map fun row => (row.personKey, row)) :=
      Dict.mem_groups.mpr ⟨⟨a, List.mem_map.mpr ⟨a, ha, rfl⟩⟩, entriesOf_personKey ..⟩
    have ha' : a ∈ obligations.filter (·.personKey = a.personKey) := by simp [ha]
    have hb' : b ∈ obligations.filter (·.personKey = a.personKey) := by simp [hb, same]
    obtain ⟨pair, hp, hq⟩ := (exists_pair_iff (fun a _ b _ => symm a b) irrefl).mpr ⟨a, ha', b, hb', hq⟩
    exact ⟨pair, List.mem_flatMap.mpr ⟨_, group, hp⟩, hq⟩

/-- What does not depend on the order of a pair does not depend on that of the obligations. -/
theorem personPairs_perm {β : Type*} {g : ProgrammePersonObligation × ProgrammePersonObligation →
    List β} (symm : ∀ a b, (g (a, b)).Perm (g (b, a))) (h : obligations.Perm obligations') :
    ((personPairs obligations).flatMap g).Perm ((personPairs obligations').flatMap g) := by
  rw [personPairs, personPairs, List.flatMap_assoc, List.flatMap_assoc]
  have entries := h.map fun row => (row.personKey, row)
  exact Dict.groups_flatMap_perm (g := fun rows => (pairs rows).flatMap g) entries fun key =>
    pairs_perm (fun a _ b _ => symm a b) (Dict.entriesOf_perm entries)

theorem length_personPairs_perm (h : obligations.Perm obligations') :
    (personPairs obligations).length = (personPairs obligations').length := by
  have units := (personPairs_perm (g := fun _ => [()]) (fun _ _ => .refl _) h).length_eq
  simpa using units

/-- Every consequence of a pair. -/
def allConsequences (obligations : List ProgrammePersonObligation) : Finset ProgrammePersonConsequence :=
  ((personPairs obligations).flatMap pairConsequences).toFinset

theorem mem_allConsequences {c : ProgrammePersonConsequence} :
    c ∈ allConsequences obligations ↔ ∃ pair ∈ personPairs obligations, c ∈ pairConsequences pair := by
  rw [allConsequences, List.mem_toFinset, List.mem_flatMap]

theorem allConsequences_perm (h : obligations.Perm obligations') :
    allConsequences obligations = allConsequences obligations' := by
  ext c
  rw [allConsequences, allConsequences, List.mem_toFinset, List.mem_toFinset]
  exact (personPairs_perm (fun _ _ => pairConsequences_swap) h).mem_iff

/-- One turn counts its pair and adds what the pair adds, or a limit is hit. -/
theorem comparePair_turn (c : Collection ProgrammePersonConsequence)
    (pair : ProgrammePersonObligation × ProgrammePersonObligation) (h : c.values.card ≤ maxConflicts) :
    if c.comparisons + 1 ≤ maxConflictComparisons ∧ (c.values ∪ (pairConsequences pair).toFinset).card ≤ maxConflicts
    then comparePair c pair =
      .ok { values := c.values ∪ (pairConsequences pair).toFinset, comparisons := c.comparisons + 1 }
    else ∃ e, comparePair c pair = .error e ∧ e.IsLimit := by
  obtain ⟨left, right⟩ := pair
  unfold comparePair
  by_cases within : c.comparisons + 1 ≤ maxConflictComparisons
  · rw [if_neg (show ¬ maxConflictComparisons < c.comparisons + 1 by omega)]
    by_cases skipped : Skipped left right
    · have none : (pairConsequences (left, right)).toFinset = ∅ := by
        simp [pairConsequences, skipped]
      rw [none, Finset.union_empty, if_pos ⟨within, h⟩, if_pos skipped]
    · rw [if_neg skipped]
      by_cases room : (c.values ∪ (pairConsequences (left, right)).toFinset).card ≤ maxConflicts
      · rw [if_pos ⟨within, room⟩, if_neg (by omega)]
      · rw [if_neg fun h => room h.2, if_pos (by omega)]
        exact ⟨_, rfl, .inr rfl⟩
  · rw [if_neg fun h => within h.1, if_pos (by omega)]
    exact ⟨_, rfl, .inl rfl⟩

/-- The obligations are complete and exact. -/
def Evaluable (obligations : List ProgrammePersonObligation) : Prop :=
  obligations.length ≤ maxConflicts ∧ ∀ row ∈ obligations, row.Exact

/-- The pairs and their consequences are within the limits. -/
def Bounded (obligations : List ProgrammePersonObligation) : Prop :=
  (personPairs obligations).length ≤ maxConflictComparisons ∧ (allConsequences obligations).card ≤ maxConflicts

instance : Decidable (Evaluable obligations) := inferInstanceAs (Decidable (_ ∧ _))

instance : Decidable (Bounded obligations) := inferInstanceAs (Decidable (_ ∧ _))

/-- Complete exact obligations within the limits are evaluated, and all others are refused. -/
theorem evaluate_of_bounded (order : SetOrder ProgrammePersonConsequence) (complete : Evaluable obligations) :
    if Bounded obligations then
      evaluateProgrammePersonConflicts order obligations =
        .ok (sortBy ProgrammePersonConsequence.key (order.list (allConsequences obligations)))
    else ∃ e, evaluateProgrammePersonConflicts order obligations = .error e ∧ e.IsLimit := by
  have loop := foldlM_turns comparePair_turn (personPairs obligations) (c := {}) ⟨Nat.zero_le _,
    Nat.zero_le _⟩ (allConsequences obligations) fun c => by simp [mem_allConsequences]
  rw [Nat.zero_add] at loop
  have lengths : require (obligations.length ≤ maxConflicts) PersonConflictError.obligations = .ok () :=
    if_pos complete.1
  have exact : require (∀ row ∈ obligations, row.Exact) PersonConflictError.intervals = .ok () := if_pos complete.2
  simp only [evaluateProgrammePersonConflicts, lengths, exact, ok_bind]
  by_cases bounded : Bounded obligations
  · replace loop := (if_pos bounded).mp loop
    rw [if_pos bounded, loop]
    rfl
  · obtain ⟨e, failed, limit⟩ := (if_neg bounded).mp loop
    rw [if_neg bounded, failed]
    exact ⟨e, rfl, limit⟩

theorem evaluate_of_not_evaluable (order : SetOrder ProgrammePersonConsequence)
    (h : ¬ Evaluable obligations) : evaluateProgrammePersonConflicts order obligations =
      .error (if obligations.length ≤ maxConflicts then .intervals else .obligations) := by
  unfold evaluateProgrammePersonConflicts
  by_cases short : obligations.length ≤ maxConflicts
  · have inexact : ¬ ∀ row ∈ obligations, row.Exact := fun exact => h ⟨short, exact⟩
    simp only [require, short, inexact, if_true, if_false, ok_bind]
    rfl
  · simp only [require, short, if_false]
    rfl

theorem evaluate_eq_ok {order : SetOrder ProgrammePersonConsequence} {result : List ProgrammePersonConsequence} :
    evaluateProgrammePersonConflicts order obligations = .ok result ↔
      Evaluable obligations ∧ Bounded obligations ∧
        result = sortBy ProgrammePersonConsequence.key (order.list (allConsequences obligations)) := by
  by_cases complete : Evaluable obligations
  · have outcome := evaluate_of_bounded order complete
    by_cases bounded : Bounded obligations
    · rw [if_pos bounded] at outcome
      simp [outcome, complete, bounded, eq_comm]
    · rw [if_neg bounded] at outcome
      obtain ⟨e, failed, -⟩ := outcome
      simp [failed, bounded]
  · simp [evaluate_of_not_evaluable order complete, complete]

/-! ## What is reported -/

/-- A consequence is of two duties of its person, one of them at its
occurrence, that are compared. -/
theorem mem_allConsequences_iff {c : ProgrammePersonConsequence} :
    c ∈ allConsequences obligations ↔
      ∃ a ∈ obligations, ∃ b ∈ obligations, a.personKey = c.personKey ∧ b.personKey = c.personKey ∧
        ¬ Skipped a b ∧ a.occurrenceId = some c.occurrenceId ∧
        ((overlap a b ∧ c.code = .overlap) ∨ (rest a b ∧ c.code = .rest)) := by
  have paired := @exists_personPair_iff obligations (fun a b => c ∈ pairConsequences (a, b))
    (fun a b h => pairConsequences_swap.mem_iff.mp h)
    (fun a h => (mem_pairConsequences.mp h).1 (skipped_self a))
  rw [mem_allConsequences, paired]
  constructor
  · rintro ⟨a, ha, b, hb, same, hc⟩
    obtain ⟨compared, hc⟩ := mem_pairConsequences.mp hc
    rcases hc with hc | hc
    · obtain ⟨selected, person, code⟩ := mem_consequences.mp hc
      exact ⟨a, ha, b, hb, person, same.symm.trans person, compared, selected, code⟩
    · obtain ⟨selected, person, code⟩ := mem_consequences.mp hc
      rw [overlap_comm, rest_comm] at code
      exact ⟨b, hb, a, ha, person, same.trans person, fun h => compared h.symm, selected, code⟩
  · rintro ⟨a, ha, b, hb, person, person', compared, selected, code⟩
    exact ⟨a, ha, b, hb, person.trans person'.symm,
      mem_pairConsequences.mpr ⟨compared, .inl (mem_consequences.mpr ⟨selected, person, code⟩)⟩⟩

variable {order order' : SetOrder ProgrammePersonConsequence} {result : List ProgrammePersonConsequence}

/-- A conflict of a person is reported at an occurrence exactly if one duty of his there is compared
with another whose interval it meets. -/
theorem evaluate_reports (h : evaluateProgrammePersonConflicts order obligations = .ok result)
    (occurrence person : Uuid) :
    (∃ code, ⟨occurrence, person, code⟩ ∈ result) ↔
      ∃ a ∈ obligations, ∃ b ∈ obligations, a.personKey = person ∧ b.personKey = person ∧
        a.occurrenceId = some occurrence ∧ ¬ Skipped a b ∧ Meets a b := by
  obtain ⟨⟨-, exact⟩, -, rfl⟩ := evaluate_eq_ok.mp h
  simp only [(sortBy_perm _ _).mem_iff, order.mem_list, mem_allConsequences_iff]
  constructor
  · rintro ⟨code, a, ha, b, hb, hperson, hperson', compared, selected, found⟩
    have conflict : overlap a b ∨ rest a b := found.imp And.left And.left
    exact ⟨a, ha, b, hb, hperson, hperson', selected, compared,
      (overlap_or_rest_iff (exact a ha) (exact b hb)).mp conflict⟩
  · rintro ⟨a, ha, b, hb, hperson, hperson', selected, compared, meets⟩
    rcases (overlap_or_rest_iff (exact a ha) (exact b hb)).mpr meets with found | found
    · exact ⟨.overlap, a, ha, b, hb, hperson, hperson', compared, selected, .inl ⟨found, rfl⟩⟩
    · exact ⟨.rest, a, ha, b, hb, hperson, hperson', compared, selected, .inr ⟨found, rfl⟩⟩

/-- However the set is walked, its consequences are sorted the same. -/
theorem sorted_consequences (order order' : SetOrder ProgrammePersonConsequence)
    (values : Finset ProgrammePersonConsequence) :
    sortBy ProgrammePersonConsequence.key (order.list values) =
      sortBy ProgrammePersonConsequence.key (order'.list values) := by
  refine sortBy_eq_of_perm (fun a _ b _ same => ?_) ?_
  · obtain ⟨occurrence, person, code⟩ := a
    obtain ⟨occurrence', person', code'⟩ := b
    simp only [ProgrammePersonConsequence.key, EmbeddingLike.apply_eq_iff_eq, Prod.mk.injEq] at same
    obtain ⟨hoccurrence, hperson, hcode⟩ := same
    have codes : code = code' := by
      cases code <;> cases code' <;> first | rfl | exact absurd hcode (by decide)
    rw [Uuid.text_injective hoccurrence, Uuid.text_injective hperson, codes]
  · rw [List.perm_ext_iff_of_nodup (order.nodup values) (order'.nodup values)]
    intro c
    rw [order.mem_list, order'.mem_list]

/-- Obligations in another order give the same result, or hit a limit too. -/
theorem evaluate_perm (order order' : SetOrder ProgrammePersonConsequence) (h : obligations.Perm obligations') :
    evaluateProgrammePersonConflicts order obligations = evaluateProgrammePersonConflicts order' obligations' ∨
      ∃ e e', evaluateProgrammePersonConflicts order obligations = .error e ∧ e.IsLimit ∧
        evaluateProgrammePersonConflicts order' obligations' = .error e' ∧ e'.IsLimit := by
  have length := h.length_eq
  have all : Evaluable obligations ↔ Evaluable obligations' := by
    simp only [Evaluable, length, h.mem_iff]
  have bounds : Bounded obligations ↔ Bounded obligations' := by
    rw [Bounded, Bounded, length_personPairs_perm h, allConsequences_perm h]
  by_cases complete : Evaluable obligations
  · have outcome := evaluate_of_bounded order complete
    have outcome' := evaluate_of_bounded order' (all.mp complete)
    by_cases bounded : Bounded obligations
    · rw [if_pos bounded] at outcome
      rw [if_pos (bounds.mp bounded)] at outcome'
      rw [outcome, outcome', ← allConsequences_perm h, sorted_consequences order order']
      exact .inl rfl
    · rw [if_neg bounded] at outcome
      rw [if_neg (mt bounds.mpr bounded)] at outcome'
      obtain ⟨e, failed, limit⟩ := outcome
      obtain ⟨e', failed', limit'⟩ := outcome'
      exact .inr ⟨e, e', failed, limit, failed', limit'⟩
  · rw [evaluate_of_not_evaluable order complete, evaluate_of_not_evaluable order' (mt all.mpr complete), length]
    exact .inl rfl

/-! ## What a claim is refused for -/

/-- `_work_obligation` of a retained commitment. -/
def workObligation (key : Uuid) (c : ShiftCommitment) (occurrenceId : Option Uuid) : ProgrammePersonObligation :=
  { personKey := key, occurrenceId, obligationId := c.id, kind := .work, startsAt := c.startsAt,
    endsAt := c.endsAt, restEndsAt := c.restEndsAt }

/-- The obligation that a commitment `id` to the demand is. -/
def ShiftDemand.workObligation (key : Uuid) (d : ShiftDemand) (id occurrence : Uuid) : ProgrammePersonObligation :=
  { personKey := key, occurrenceId := some occurrence, obligationId := id, kind := .work,
    startsAt := d.startsAt, endsAt := d.endsAt, restEndsAt := d.restEndsAt }

/-- The active commitments of an account, less one that is being replaced. -/
def Shifts.activeOf (s : Shifts) (accountId : Uuid) (excludeId : Option Uuid) : List ShiftCommitment :=
  s.commitments.rows.filter fun c => c.accountId = accountId ∧ c.active ∧ some c.id ≠ excludeId

variable {s : Shifts} {w : Surroundings} {accountId : Uuid} {demand : ShiftDemand} {excludeId : Option Uuid}

/-- A claim is refused for a retained commitment whose interval meets that of the demand, or
for what is published. -/
theorem requireNoOverlap_refuses :
    requireNoOverlap s w accountId demand excludeId = .error .overlapConflict ↔
      (∃ c ∈ s.activeOf accountId excludeId, c.startsAt < demand.restEndsAt ∧ demand.startsAt < c.restEndsAt) ∨
        ∃ published, w.publishedPersonConflict accountId demand.startsAt demand.endsAt
          demand.restEndsAt = some published ∧ (published.overlap ∨ published.rest) := by
  have found : (s.commitments.rows.any fun c => c.accountId = accountId ∧ c.active ∧
      c.startsAt < demand.restEndsAt ∧ demand.startsAt < c.restEndsAt ∧ some c.id ≠ excludeId) ↔
      ∃ c ∈ s.activeOf accountId excludeId, c.startsAt < demand.restEndsAt ∧ demand.startsAt < c.restEndsAt := by
    simp only [Shifts.activeOf, List.any_eq_true, List.mem_filter, decide_eq_true_eq]
    grind
  unfold requireNoOverlap
  by_cases meets : ∃ c ∈ s.activeOf accountId excludeId, c.startsAt < demand.restEndsAt ∧ demand.startsAt < c.restEndsAt
  · rw [require, if_neg (not_not.mpr (found.mpr meets))]
    simp [meets, bind, Except.bind]
  · rw [require, if_pos (mt found.mp meets), ok_bind]
    cases w.publishedPersonConflict accountId demand.startsAt demand.endsAt demand.restEndsAt with
    | none => simp [getOr, meets, bind, Except.bind]
    | some published =>
      by_cases conflict : published.overlap ∨ published.rest <;>
        simp [getOr, require, meets, conflict, bind, Except.bind]

/-- Compared with the retained commitments of an account, a commitment to the demand is reported
exactly if one of them meets it. -/
theorem evaluate_claim {key id occurrence : Uuid} (fresh : ∀ c ∈ s.activeOf accountId excludeId, c.id ≠ id)
    (h : evaluateProgrammePersonConflicts order (demand.workObligation key id occurrence ::
      (s.activeOf accountId excludeId).map (workObligation key · none)) = .ok result) :
    result ≠ [] ↔
      ∃ c ∈ s.activeOf accountId excludeId, c.startsAt < demand.restEndsAt ∧ demand.startsAt < c.restEndsAt := by
  obtain ⟨-, exact⟩ := (evaluate_eq_ok.mp h).1
  have claimed := exact _ List.mem_cons_self
  have retained : ∀ c ∈ s.activeOf accountId excludeId, (workObligation key c none).Exact := fun c hc =>
    exact _ (List.mem_cons_of_mem _ (List.mem_map_of_mem hc))
  have meets : ∀ c ∈ s.activeOf accountId excludeId,
      Meets (demand.workObligation key id occurrence) (workObligation key c none) ↔
        c.startsAt < demand.restEndsAt ∧ demand.startsAt < c.restEndsAt := fun c hc => by
    rw [meets_iff (lt_of_lt_of_le claimed.1 claimed.2.1) (lt_of_lt_of_le (retained c hc).1 (retained c hc).2.1)]
    exact And.comm
  have compared : ∀ c ∈ s.activeOf accountId excludeId,
      ¬ Skipped (demand.workObligation key id occurrence) (workObligation key c none) := fun c hc skipped => by
    rcases skipped with ⟨unselected, -⟩ | ⟨-, -, same⟩ | ⟨-, host, -⟩
    · cases unselected
    · exact fresh c hc same.symm
    · cases host
  constructor
  · intro some
    obtain ⟨⟨o, person, code⟩, hc⟩ := List.exists_mem_of_ne_nil result some
    obtain ⟨a, ha, b, hb, -, -, selected, notSkipped, hmeets⟩ := (evaluate_reports h o person).mp ⟨code, hc⟩
    -- Only the claimed duty is at an occurrence, and it is not compared with itself.
    rcases List.mem_cons.mp ha with rfl | ha
    · rcases List.mem_cons.mp hb with rfl | hb
      · exact absurd (skipped_self _) notSkipped
      · obtain ⟨c, hc, rfl⟩ := List.mem_map.mp hb
        exact ⟨c, hc, (meets c hc).mp hmeets⟩
    · obtain ⟨c, -, rfl⟩ := List.mem_map.mp ha
      cases selected
  · rintro ⟨c, hc, hmeets⟩
    obtain ⟨code, reported⟩ := (evaluate_reports h occurrence key).mpr ⟨_, List.mem_cons_self, _,
      List.mem_cons_of_mem _ (List.mem_map_of_mem hc), rfl, rfl, rfl, compared c hc, (meets c hc).mpr hmeets⟩
    exact List.ne_nil_of_mem reported

/-- A conflict of one person is reported exactly where the intervals from work to the end of
rest of two of his duties meet, which is what a claim is refused for; the order of the
obligations makes no difference. -/
theorem programmeConflict_iff_claimRefused (order order' : SetOrder ProgrammePersonConsequence) :
    (∀ obligations result, evaluateProgrammePersonConflicts order obligations = .ok result →
      (∀ occurrence person, (∃ code, ⟨occurrence, person, code⟩ ∈ result) ↔
        ∃ a ∈ obligations, ∃ b ∈ obligations, a.personKey = person ∧ b.personKey = person ∧
          a.occurrenceId = some occurrence ∧ ¬ Skipped a b ∧
          (Set.Ico a.startsAt a.restEndsAt ∩ Set.Ico b.startsAt b.restEndsAt).Nonempty) ∧
      ∀ a ∈ obligations, ∀ b ∈ obligations, a.occurrenceId ≠ none → a.kind = .work →
        b.kind = .work → (Skipped a b ↔ a.obligationId = b.obligationId)) ∧
    (∀ s w accountId demand excludeId key id occurrence result,
      (∀ c ∈ Shifts.activeOf s accountId excludeId, c.id ≠ id) →
      evaluateProgrammePersonConflicts order (demand.workObligation key id occurrence ::
        (s.activeOf accountId excludeId).map (workObligation key · none)) = .ok result →
      (requireNoOverlap s w accountId demand excludeId = .error .overlapConflict ↔
        result ≠ [] ∨ ∃ published,
          w.publishedPersonConflict accountId demand.startsAt demand.endsAt demand.restEndsAt =
            some published ∧ (published.overlap ∨ published.rest))) ∧
    (∀ obligations, (∃ result, evaluateProgrammePersonConflicts order obligations = .ok result) ↔
      Evaluable obligations ∧ Bounded obligations) ∧
    ∀ obligations obligations', obligations.Perm obligations' →
      evaluateProgrammePersonConflicts order obligations = evaluateProgrammePersonConflicts order' obligations' ∨
        ∃ e e', evaluateProgrammePersonConflicts order obligations = .error e ∧ e.IsLimit ∧
          evaluateProgrammePersonConflicts order' obligations' = .error e' ∧ e'.IsLimit := by
  refine ⟨fun obligations result h => ⟨fun occurrence person => evaluate_reports h occurrence person, ?_⟩,
    fun s w accountId demand excludeId key id occurrence result fresh h => ?_, fun obligations => ?_,
    fun obligations obligations' perm => evaluate_perm order order' perm⟩
  · intro a _ b _ selected ha hb
    simp [Skipped, selected, ha, hb]
  · rw [requireNoOverlap_refuses, evaluate_claim fresh h]
  · simp [evaluate_eq_ok]

/-- Walking a set in the order of its list. -/
noncomputable def consequenceOrder : SetOrder ProgrammePersonConsequence where
  list := Finset.toList
  nodup := Finset.nodup_toList
  mem_list _ _ := Finset.mem_toList

/-- A commitment of person 9 at occurrence 1, with an hour of rest, and an external one that starts
where the rest ends or a minute before. -/
def watchDuties (start : Int) : List ProgrammePersonObligation :=
  [⟨9, some 1, 21, .work, minutes 600, minutes 720, minutes 780⟩,
    ⟨9, none, 22, .work, minutes start, minutes 900, minutes 900⟩]

theorem watchDuties_conflict :
    (∃ result, evaluateProgrammePersonConflicts consequenceOrder (watchDuties 779) = .ok result ∧
      ∃ code, ⟨1, 9, code⟩ ∈ result) ∧
    ∃ result, evaluateProgrammePersonConflicts consequenceOrder (watchDuties 780) = .ok result ∧
      ¬ ∃ code, ⟨1, 9, code⟩ ∈ result := by
  obtain ⟨reports, -, returns, -⟩ := programmeConflict_iff_claimRefused consequenceOrder consequenceOrder
  obtain ⟨meeting, hm⟩ := (returns (watchDuties 779)).mpr (by decide +kernel)
  obtain ⟨touching, ht⟩ := (returns (watchDuties 780)).mpr (by decide +kernel)
  refine ⟨⟨meeting, hm, ?_⟩, touching, ht, ?_⟩
  · refine ((reports _ _ hm).1 1 9).mpr ⟨_, List.mem_cons_self, _, List.mem_cons_of_mem _ List.mem_cons_self, rfl, rfl,
      rfl, by decide, minutes 779, ?_⟩
    decide
  · rw [(reports _ _ ht).1 1 9]
    rintro ⟨a, ha, b, hb, -, -, selected, compared, x, ⟨ha', hx⟩, hb', hx'⟩
    simp only [watchDuties, List.mem_cons, List.not_mem_nil, or_false] at ha hb
    rcases ha with rfl | rfl
    · rcases hb with rfl | rfl
      · exact compared (skipped_self _)
      · exact absurd (lt_of_le_of_lt hb' hx) (by decide)
    · cases selected

end

end Maru.Workforce
