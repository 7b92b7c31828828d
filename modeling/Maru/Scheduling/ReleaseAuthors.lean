import Maru.Scheduling.CandidateAuthors
import Maru.Scheduling.ReleaseAuthorship

/-!
# Who is not independent of a revision

`Walk`: the way back from a revision, its candidate's history and then that of what the candidate
was copied from. Both loops go that way (`ancestry_of_walk`, `independent_of_walk`), and it meets
exactly the revisions that one is derived from (`mem_walk`).
-/

namespace Maru.Scheduling

variable {lib : Primitives} {planning : Planning} {head : SchedulingCandidateRevision}

/-! ## A candidate's own history -/

/-- What is numbered without a gap and less than a bound is at the front. -/
theorem filter_lt_eq_take {α : Type} {f : α → Nat} {l : List α} {s n : Nat}
    (h : l.map f = List.range' s n) (k : Nat) : l.filter (fun a => f a < s + k) = l.take k := by
  induction l generalizing s n k with
  | nil => simp
  | cons a l ih =>
    cases n with
    | zero => simp at h
    | succ n =>
      rw [List.map_cons, List.range'_succ] at h
      obtain ⟨first, rest⟩ := List.cons.inj h
      cases k with
      | zero =>
        rw [List.take_zero, List.filter_eq_nil_iff]
        intro b hb
        have low : f b ∈ List.range' s (n + 1) := by
          rw [List.range'_succ, ← rest, ← first, ← List.map_cons]
          exact List.mem_map_of_mem hb
        rw [List.mem_range'_1] at low
        simp only [decide_eq_true_eq]
        omega
      | succ k =>
        rw [List.filter_cons_of_pos (by simp only [decide_eq_true_eq]; omega), List.take_succ_cons, ← ih rest k]
        congr 2
        funext b
        rw [show s + (k + 1) = s + 1 + k by omega]

/-- The revisions of the head's candidate up to the head. -/
def Planning.ownHistory (planning : Planning) (head : SchedulingCandidateRevision) : List SchedulingCandidateRevision :=
  (planning.revisionsOf head.candidateId).take head.sequence

/-- The revisions of a candidate are numbered upwards in the order they were appended. -/
theorem sequence_lt (h : planning.Lineage lib) {log rest : List SchedulingCandidateRevision}
    {row s : SchedulingCandidateRevision} (whole : planning.revisions.rows = log ++ row :: rest) (hs : s ∈ log)
    (own : s.candidateId = row.candidateId) : s.sequence < row.sequence := by
  have hrow : row ∈ planning.revisions := by rw [Table.mem_def, whole]; simp
  obtain ⟨candidate, hc, is, -⟩ := h.consistent.owned row hrow
  have numbered := h.consistent.numbered candidate hc
  have chosen : (row :: rest).filter (fun r => r.candidateId = row.candidateId) =
      row :: rest.filter (fun r => r.candidateId = row.candidateId) := List.filter_cons_of_pos (decide_eq_true rfl)
  rw [is, Planning.revisionsOf, whole, List.filter_append, chosen, List.map_append, List.map_cons] at numbered
  have ascending : ((log.filter (fun r => r.candidateId = row.candidateId)).map (·.sequence) ++
      row.sequence :: (rest.filter (fun r => r.candidateId = row.candidateId)).map (·.sequence)).Pairwise (· < ·) := by
    rw [numbered]
    exact List.pairwise_lt_range'
  exact (List.pairwise_append.mp ascending).2.2 _
    (List.mem_map_of_mem (List.mem_filter.mpr ⟨hs, decide_eq_true own⟩)) _ List.mem_cons_self

section

variable (h : planning.Lineage lib) (hr : head ∈ planning.revisions)

include h hr

theorem ownHistory_eq_filter : ∃ candidate ∈ planning.candidates, candidate.id = head.candidateId ∧
    candidate.organizationId = head.organizationId ∧ candidate.editionId = head.editionId ∧
    1 ≤ head.sequence ∧ head.sequence ≤ candidate.aggregateVersion ∧
    planning.ownHistory head = (planning.revisionsOf head.candidateId).filter
      (fun row => row.sequence ≤ head.sequence) := by
  obtain ⟨candidate, hc, is, organization, edition⟩ := h.consistent.owned head hr
  have numbered := h.consistent.numbered candidate hc
  rw [is] at numbered
  have placed : head.sequence ∈ List.range' 1 candidate.aggregateVersion :=
    numbered ▸ List.mem_map_of_mem (List.mem_filter.mpr ⟨hr, decide_eq_true rfl⟩)
  rw [List.mem_range'_1] at placed
  refine ⟨candidate, hc, is, organization, edition, placed.1, by omega, ?_⟩
  rw [Planning.ownHistory, ← filter_lt_eq_take numbered head.sequence]
  congr 1
  funext row
  rw [decide_eq_decide]
  omega

theorem mem_ownHistory {s : SchedulingCandidateRevision} : s ∈ planning.ownHistory head ↔
    s ∈ planning.revisions ∧ s.candidateId = head.candidateId ∧ s.sequence ≤ head.sequence := by
  obtain ⟨_, -, -, -, -, -, -, filtered⟩ := ownHistory_eq_filter h hr
  rw [filtered, Planning.revisionsOf]
  simp only [List.mem_filter, decide_eq_true_eq, and_assoc, Table.mem_def]

theorem ownHistory_sequence : (planning.ownHistory head).map (·.sequence) = List.range' 1 head.sequence := by
  obtain ⟨candidate, hc, is, -, -, -, bound, -⟩ := ownHistory_eq_filter h hr
  have numbered := h.consistent.numbered candidate hc
  rw [is] at numbered
  rw [Planning.ownHistory, List.map_take, numbered, List.take_range'_of_length_ge bound]

theorem length_ownHistory : (planning.ownHistory head).length = head.sequence := by
  have numbered := congrArg List.length (ownHistory_sequence h hr)
  rwa [List.length_map, List.length_range'] at numbered

theorem ownHistory_scope {s : SchedulingCandidateRevision} (hs : s ∈ planning.revisions)
    (own : s.candidateId = head.candidateId) : head.Beside s := by
  obtain ⟨c, hc, is, organization, edition⟩ := h.consistent.owned s hs
  obtain ⟨c', hc', is', organization', edition'⟩ := h.consistent.owned head hr
  obtain rfl := Table.eq_of_key hc hc' (is.trans (own.trans is'.symm))
  exact ⟨organization.symm.trans organization', edition.symm.trans edition'⟩

theorem sortBy_ownHistory : sortBy (·.sequence) (planning.ownHistory head) = planning.ownHistory head := by
  refine List.Pairwise.insertionSort_eq ?_
  have sorted : ((planning.ownHistory head).map (·.sequence)).Pairwise (· ≤ ·) := by
    rw [ownHistory_sequence h hr]
    exact List.pairwise_le_range'
  exact List.pairwise_map.mp sorted

/-- The program selects the candidate's own history. -/
theorem historyRows_eq : planning.historyRows head = planning.ownHistory head := by
  obtain ⟨candidate, hc, is, organization, edition, -, bound, filtered⟩ := ownHistory_eq_filter h hr
  have found : planning.candidates.get? head.candidateId = some candidate := Table.get?_eq_some.mpr ⟨hc, is⟩
  rw [Planning.historyRows, ← sortBy_ownHistory h hr, filtered, Planning.revisionsOf, List.filter_filter]
  congr 1
  refine List.filter_congr fun row hrow => ?_
  rw [Bool.eq_iff_iff]
  simp only [decide_eq_true_eq, Bool.and_eq_true]
  constructor
  · exact fun selected => ⟨selected.2.2.2.2, selected.2.2.1⟩
  · rintro ⟨low, own⟩
    obtain ⟨its, itsEdition⟩ := ownHistory_scope h hr hrow own
    refine ⟨its, itsEdition, own, ?_, low⟩
    rw [Planning.candidateOf, own, found, Option.filter_some, if_pos (decide_eq_true ⟨organization, edition⟩)]
    exact decide_eq_true bound

/-- The database selects the candidate's own history. -/
theorem segment_eq : planning.segment head.organizationId head.editionId head = planning.ownHistory head := by
  obtain ⟨_, -, -, -, -, -, -, filtered⟩ := ownHistory_eq_filter h hr
  rw [Planning.segment, ← sortBy_ownHistory h hr, filtered, Planning.revisionsOf, List.filter_filter]
  congr 1
  refine List.filter_congr fun row hrow => ?_
  rw [Bool.eq_iff_iff]
  simp only [decide_eq_true_eq, Bool.and_eq_true]
  constructor
  · exact fun selected => ⟨selected.2.1, selected.1⟩
  · rintro ⟨low, own⟩
    obtain ⟨its, itsEdition⟩ := ownHistory_scope h hr hrow own
    exact ⟨own, low, its, itsEdition⟩

/-- The rows of a history have their places as sequences. -/
theorem ownHistory_place {before after : List SchedulingCandidateRevision} {row : SchedulingCandidateRevision}
    (split : planning.ownHistory head = before ++ row :: after) : row.sequence = 1 + before.length := by
  have numbered := ownHistory_sequence h hr
  rw [split, List.map_append, List.map_cons] at numbered
  have at_ := congrArg (·[before.length]?) numbered
  simp only [List.getElem?_append_right, List.length_map, Nat.le_refl, Nat.sub_self, List.getElem?_cons_zero] at at_
  rw [eq_comm, List.getElem?_eq_some_iff] at at_
  obtain ⟨_, at_⟩ := at_
  rw [List.getElem_range'] at at_
  omega

theorem getLast?_ownHistory : (planning.ownHistory head).getLast? = some head := by
  have positive : 1 ≤ head.sequence := by
    obtain ⟨_, -, -, -, -, positive, -⟩ := ownHistory_eq_filter h hr
    exact positive
  obtain ⟨before, after, split⟩ := List.append_of_mem ((mem_ownHistory h hr).mpr ⟨hr, rfl, Nat.le_refl _⟩)
  have place := ownHistory_place h hr split
  have length := length_ownHistory h hr
  rw [split, List.length_append, List.length_cons] at length
  have none : after = [] := List.eq_nil_of_length_eq_zero (by omega)
  rw [split, none, List.getLast?_concat]

/-- What comes before a revision in its candidate's log comes before it in its history. -/
theorem ownHistory_before {log rest before after : List SchedulingCandidateRevision}
    {row s : SchedulingCandidateRevision}
    (whole : planning.revisions.rows = log ++ row :: rest) (hs : s ∈ log) (own : s.candidateId = row.candidateId)
    (split : planning.ownHistory head = before ++ row :: after) : s ∈ before := by
  have mem : row ∈ planning.ownHistory head := by rw [split]; simp
  obtain ⟨hrow, its, bound⟩ := (mem_ownHistory h hr).mp mem
  have lower := sequence_lt h whole hs own
  have there : s ∈ planning.ownHistory head := (mem_ownHistory h hr).mpr
    ⟨by rw [Table.mem_def, whole]; exact List.mem_append_left _ hs, own.trans its, by omega⟩
  rw [split, List.mem_append] at there
  refine there.resolve_right fun later => ?_
  obtain ⟨mid, last, again⟩ := List.append_of_mem later
  have places : s.sequence = 1 + (before ++ mid).length :=
    ownHistory_place h hr (by rw [split, again, List.append_assoc])
  have place := ownHistory_place h hr split
  rw [List.length_append] at places
  omega

/-- Every row of a history is what `_history` asks of it. -/
theorem validHistoryRow_own {before after : List SchedulingCandidateRevision} {row : SchedulingCandidateRevision}
    (split : planning.ownHistory head = before ++ row :: after) {earlier : List Uuid}
    (those : ∀ s ∈ before, s.id ∈ earlier) : validHistoryRow earlier row.sequence row = true := by
  have mem : row ∈ planning.ownHistory head := by rw [split]; simp
  obtain ⟨hrow, -⟩ := (mem_ownHistory h hr).mp mem
  obtain ⟨log, rest, whole⟩ := List.append_of_mem hrow
  unfold validHistoryRow
  cases h.fits_of whole with
  | created _ first operation source => rw [if_pos first, operation, source]; rfl
  | copied _ first operation _ source _ => rw [if_pos first, operation, source]; rfl
  | @restored s later operation hs source own =>
    rw [if_neg (by omega), if_pos operation, source]
    exact decide_eq_true (those s (ownHistory_before h hr whole hs own split))
  | edited later operation source =>
    have other : ¬ row.operation = .candidateRestore := fun same => by rw [same] at operation; simp at operation
    rw [if_neg (by omega), if_neg other, source, decide_eq_true operation]
    rfl

theorem checkHistory_own : checkHistory [] 1 (planning.ownHistory head) = .ok () := by
  have rest : ∀ after before earlier, planning.ownHistory head = before ++ after →
      (∀ s ∈ before, s.id ∈ earlier) → checkHistory earlier (1 + before.length) after = .ok () := by
    intro after
    induction after with
    | nil => exact fun _ _ _ _ => rfl
    | cons row after ih =>
      intro before earlier split those
      have place := ownHistory_place h hr split
      have valid := validHistoryRow_own h hr split those
      have next := ih (before ++ [row]) (row.id :: earlier) (by rw [split, List.append_assoc]; rfl) fun s hs => by
        rcases List.mem_append.mp hs with hs | hs
        · exact List.mem_cons_of_mem _ (those s hs)
        · rw [List.mem_singleton.mp hs]
          exact List.mem_cons_self
      rw [List.length_append, List.length_singleton, ← Nat.add_assoc] at next
      rw [checkHistory, require, if_pos ⟨place, place ▸ valid⟩]
      exact next
  exact rest _ [] [] rfl fun _ hs => by cases hs

/-- The first row of a history, which the candidate's creator wrote. -/
theorem head?_ownHistory : ∃ first ∈ planning.revisions, (planning.ownHistory head).head? = some first ∧
    first.candidateId = head.candidateId ∧ first.sequence = 1 ∧
    (planning.candidates.get? head.candidateId).map (·.createdById) = some first.actorId := by
  have length := length_ownHistory h hr
  obtain ⟨_, -, -, -, -, positive, -⟩ := ownHistory_eq_filter h hr
  obtain ⟨first, rest, split⟩ := List.exists_cons_of_length_pos (by omega : 0 < (planning.ownHistory head).length)
  have one : first.sequence = 1 := ownHistory_place h hr (show _ = [] ++ first :: rest from split)
  obtain ⟨hfirst, its, -⟩ := (mem_ownHistory h hr).mp (by rw [split]; exact List.mem_cons_self : first ∈ _)
  obtain ⟨c, hc, is, creator⟩ := h.creators first hfirst one
  refine ⟨first, hfirst, by rw [split]; rfl, its, one, ?_⟩
  rw [Table.get?_eq_some.mpr ⟨hc, is.trans its⟩, Option.map_some, creator]

/-- `_history` answers with the candidate's own history, if there is room for it. -/
theorem history_eq (remaining : Nat) : history planning head remaining =
    if head.sequence ≤ remaining then .ok (planning.ownHistory head) else .error .unavailable := by
  obtain ⟨_, -, -, -, -, positive, -⟩ := ownHistory_eq_filter h hr
  obtain ⟨first, -, isFirst, -, -, creator⟩ := head?_ownHistory h hr
  rw [history]
  split
  · rename_i room
    have short : (planning.ownHistory head).length ≤ remaining + 1 := by rw [length_ownHistory h hr]; omega
    simp only [historyRows_eq h hr, List.take_of_length_le short, length_ownHistory h hr,
      getLast?_ownHistory h hr, isFirst,
      creator, Option.map_some, require, checkHistory_own h hr, positive, room, and_self, if_true, ok_bind]
    rfl
  · rename_i room
    simp only [require, room, and_false, if_false]
    rfl

end

/-! ## The way back -/

/-- The revisions on the way back from one. -/
inductive Walk (planning : Planning) : SchedulingCandidateRevision → List SchedulingCandidateRevision → Prop
  | created {head first : SchedulingCandidateRevision} (mem : head ∈ planning.revisions)
      (isFirst : (planning.ownHistory head).head? = some first) (operation : first.operation = .candidateCreate)
      (source : first.sourceRevisionId = none) : Walk planning head (planning.ownHistory head)
  | copied {head first next : SchedulingCandidateRevision} {rest : List SchedulingCandidateRevision}
      (mem : head ∈ planning.revisions) (isFirst : (planning.ownHistory head).head? = some first)
      (operation : first.operation = .candidateCopy) (source : first.sourceRevisionId = some next.id)
      (beside : head.Beside next) (walk : Walk planning next rest)
      (other : ∀ r ∈ rest, r.candidateId ≠ head.candidateId) : Walk planning head (planning.ownHistory head ++ rest)

theorem Walk.mem {walked : List SchedulingCandidateRevision}
    (w : Walk planning head walked) : head ∈ planning.revisions := by
  cases w <;> assumption

/-- A list without repetition splits at an element in one way. -/
theorem append_cons_unique {a b c d : List SchedulingCandidateRevision} {r : SchedulingCandidateRevision}
    (same : a ++ r :: b = c ++ r :: d) (nodup : ((a ++ r :: b).map (·.id)).Nodup) : a = c := by
  induction a generalizing c with
  | nil =>
    cases c with
    | nil => rfl
    | cons x c =>
      rw [List.nil_append, List.cons_append] at same
      obtain ⟨rfl, tail⟩ := List.cons.inj same
      rw [List.nil_append, List.map_cons, List.nodup_cons, tail] at nodup
      exact absurd (List.mem_map_of_mem (by simp)) nodup.1
  | cons y a ih =>
    rw [List.cons_append, List.map_cons, List.nodup_cons] at nodup
    cases c with
    | nil =>
      rw [List.nil_append, List.cons_append] at same
      obtain ⟨rfl, -⟩ := List.cons.inj same
      exact absurd (List.mem_map_of_mem (by simp)) nodup.1
    | cons x c =>
      obtain ⟨rfl, tail⟩ := List.cons.inj same
      rw [ih tail nodup.2]

/-- Every revision has a way back, which meets no later one. -/
theorem exists_walk (h : planning.Lineage lib) {before after : List SchedulingCandidateRevision}
    (split : planning.revisions.rows = before ++ head :: after) :
    ∃ walked, Walk planning head walked ∧ ∀ r ∈ walked, r ∈ before ++ [head] := by
  induction n : before.length using Nat.strong_induction_on generalizing before head after with
  | h n ih =>
    subst n
    have hr : head ∈ planning.revisions := by rw [Table.mem_def, split]; simp
    obtain ⟨first, hfirst, isFirst, its, one, -⟩ := head?_ownHistory h hr
    obtain ⟨log, rest, whole⟩ := List.append_of_mem hfirst
    -- The candidate's revisions up to the head are in the log up to the head.
    have own : ∀ r ∈ planning.ownHistory head, r ∈ before ++ [head] := fun r hr' => by
      obtain ⟨there, its, bound⟩ := (mem_ownHistory h hr).mp hr'
      rw [Table.mem_def, split, List.append_cons, List.mem_append] at there
      refine there.resolve_right fun later => ?_
      obtain ⟨mid, last, again⟩ := List.append_of_mem later
      have whole : planning.revisions.rows = (before ++ head :: mid) ++ r :: last := by
        rw [split, again, List.append_assoc, List.cons_append]
      have := sequence_lt h whole (by simp : head ∈ before ++ head :: mid) its.symm
      omega
    have prefix_ : ∃ more, before ++ [head] = log ++ first :: more := by
      obtain ⟨a, b, here⟩ := List.append_of_mem (own first (List.mem_of_mem_head? isFirst))
      have same : log ++ first :: rest = a ++ first :: (b ++ after) := by
        rw [← whole, split, List.append_cons, here, List.append_assoc, List.cons_append]
      obtain rfl := append_cons_unique same (whole ▸ planning.revisions.nodup)
      exact ⟨b, here⟩
    obtain ⟨more, here⟩ := prefix_
    cases h.fits_of whole with
    | created _ _ operation source => exact ⟨_, .created hr isFirst operation source, own⟩
    | @copied next fresh _ operation hnext source beside =>
      obtain ⟨earlier, between, there⟩ := List.append_of_mem hnext
      have further : planning.revisions.rows = earlier ++ next :: (between ++ first :: rest) := by
        rw [whole, there, List.append_assoc, List.cons_append]
      have shorter : earlier.length < before.length := by
        have length := congrArg List.length here
        rw [there] at length
        simp only [List.length_append, List.length_cons, List.length_nil] at length
        omega
      obtain ⟨walked, w, met⟩ := ih earlier.length shorter further rfl
      have older : ∀ r ∈ walked, r ∈ log := fun r hw => by
        rw [there, List.append_cons]
        exact List.mem_append_left _ (met r hw)
      obtain ⟨itsOrganization, itsEdition⟩ := ownHistory_scope h hr hfirst its
      refine ⟨_, .copied hr isFirst operation source ⟨beside.1.trans itsOrganization, beside.2.trans itsEdition⟩ w
        (fun r hw same => fresh r (older r hw) (same.trans its.symm)), fun r hw => ?_⟩
      rcases List.mem_append.mp hw with hw | hw
      · exact own r hw
      · rw [here]
        exact List.mem_append_left _ (older r hw)
    | restored later => omega
    | edited later => omega

section

variable (h : planning.Lineage lib) {walked : List SchedulingCandidateRevision}

include h

/-- From a candidate's history, a step stays in it or goes on from what its first
revision was copied from. -/
theorem reaches_own (hr : head ∈ planning.revisions) {first r s : SchedulingCandidateRevision}
    (isFirst : (planning.ownHistory head).head? = some first) (own : r ∈ planning.ownHistory head)
    (reaches : planning.Reaches r s) : s ∈ planning.ownHistory head ∨ ∃ next ∈ planning.revisions,
      first.operation = .candidateCopy ∧ first.sourceRevisionId = some next.id ∧ planning.Reaches next s := by
  induction reaches using Relation.ReflTransGen.head_induction_on with
  | refl => exact .inl own
  | @head r next step rest ih =>
    obtain ⟨hnext, ⟨same, lower⟩ | ⟨operation, source⟩⟩ := step
    · obtain ⟨-, its, bound⟩ := (mem_ownHistory h hr).mp own
      exact ih ((mem_ownHistory h hr).mpr ⟨hnext, same.trans its, by omega⟩)
    · obtain ⟨before, after, split⟩ := List.append_of_mem own
      obtain ⟨log, others, whole⟩ := List.append_of_mem ((mem_ownHistory h hr).mp own).1
      have one : r.sequence = 1 := by
        cases h.fits_of whole with
        | created _ first => exact first
        | copied _ first => exact first
        | restored _ other => rw [operation] at other; cases other
        | edited _ other => rw [operation] at other; simp at other
      have place := ownHistory_place h hr split
      obtain rfl : before = [] := List.eq_nil_of_length_eq_zero (by omega)
      rw [split, List.nil_append, List.head?_cons] at isFirst
      obtain rfl := Option.some.inj isFirst
      exact .inr ⟨next, hnext, operation, source, rest⟩

theorem own_reaches (hr : head ∈ planning.revisions) {s : SchedulingCandidateRevision}
    (own : s ∈ planning.ownHistory head) : planning.Reaches head s := by
  obtain ⟨hs, its, bound⟩ := (mem_ownHistory h hr).mp own
  rcases Nat.lt_or_eq_of_le bound with lower | same
  · exact Relation.ReflTransGen.single ⟨hs, .inl ⟨its, lower⟩⟩
  · have last := getLast?_ownHistory h hr
    obtain ⟨before, after, split⟩ := List.append_of_mem own
    have place := ownHistory_place h hr split
    have length := length_ownHistory h hr
    rw [split, List.length_append, List.length_cons] at length
    have none : after = [] := List.eq_nil_of_length_eq_zero (by omega)
    rw [split, none, List.getLast?_concat] at last
    obtain rfl := Option.some.inj last
    exact Relation.ReflTransGen.refl

/-- The way back from a revision meets exactly the revisions that it is derived from. -/
theorem mem_walk (w : Walk planning head walked) (s : SchedulingCandidateRevision) :
    s ∈ walked ↔ planning.Reaches head s := by
  induction w with
  | @created head first hr isFirst operation source =>
    refine ⟨own_reaches h hr, fun reaches => ?_⟩
    have own := (mem_ownHistory h hr).mpr ⟨hr, rfl, Nat.le_refl head.sequence⟩
    rcases reaches_own h hr isFirst own reaches with own | ⟨next, -, other, -⟩
    · exact own
    · rw [operation] at other
      cases other
  | @copied head first next rest hr isFirst operation source beside w other ih =>
    rw [List.mem_append, ih]
    have own := (mem_ownHistory h hr).mpr ⟨hr, rfl, Nat.le_refl head.sequence⟩
    constructor
    · rintro (mem | reaches)
      · exact own_reaches h hr mem
      · have first := own_reaches h hr (List.mem_of_mem_head? isFirst)
        exact (first.tail ⟨w.mem, .inr ⟨operation, source⟩⟩).trans reaches
    · intro reaches
      rcases reaches_own h hr isFirst own reaches with mem | ⟨next', hnext, -, same, reaches⟩
      · exact .inl mem
      · rw [source] at same
        obtain rfl := Table.eq_of_key w.mem hnext (Option.some.inj same)
        exact .inr reaches

theorem nodup_walk (w : Walk planning head walked) : (walked.map (·.id)).Nodup := by
  have own : ∀ head, ((planning.ownHistory head).map (·.id)).Nodup := fun head =>
    planning.revisions.nodup.sublist (((List.take_sublist _ _).trans List.filter_sublist).map _)
  induction w with
  | @created head => exact own head
  | @copied head first next rest hr _ _ _ _ w other ih =>
    rw [List.map_append]
    refine (own head).append ih fun id here there => ?_
    obtain ⟨r, hr', rfl⟩ := List.mem_map.mp here
    obtain ⟨s, hs, same⟩ := List.mem_map.mp there
    obtain ⟨hrow, its, -⟩ := (mem_ownHistory h hr).mp hr'
    have reached := (mem_walk h w s).mp hs
    have hs' : s ∈ planning.revisions := by
      rcases Relation.ReflTransGen.cases_tail reached with rfl | ⟨_, -, step⟩
      · exact w.mem
      · exact step.1
    obtain rfl := Table.eq_of_key hs' hrow same
    exact other s hs its

/-! ## The loops -/

/-- What a loop has seen: other candidates of the scope, each once. -/
structure Seen (planning : Planning) (organizationId editionId : Uuid) (seen : List Uuid) : Prop where
  nodup : seen.Nodup
  within : ∀ id ∈ seen, ∃ c ∈ planning.candidates, c.id = id ∧ c.organizationId = organizationId ∧
    c.editionId = editionId

variable {organizationId editionId : Uuid} {seen : List Uuid}

/-- The head's candidate is seen next, and there are not too many. -/
theorem Seen.next (s : Seen planning organizationId editionId seen) (hr : head ∈ planning.revisions)
    (scope : head.organizationId = organizationId ∧ head.editionId = editionId) (unseen : head.candidateId ∉ seen) :
    Seen planning organizationId editionId (head.candidateId :: seen) ∧ seen.length < maxCandidates := by
  obtain ⟨c, hc, is, organization, edition⟩ := h.consistent.owned head hr
  have next : Seen planning organizationId editionId (head.candidateId :: seen) := by
    refine ⟨List.nodup_cons.mpr ⟨unseen, s.nodup⟩, fun id hid => ?_⟩
    rcases List.mem_cons.mp hid with rfl | hid
    · exact ⟨c, hc, is, organization.trans scope.1, edition.trans scope.2⟩
    · exact s.within id hid
  refine ⟨next, ?_⟩
  have among : ∀ id ∈ head.candidateId :: seen, id ∈ (planning.candidates.rows.filter fun candidate =>
      candidate.organizationId = organizationId ∧ candidate.editionId = editionId).map (·.id) := fun id hid => by
    obtain ⟨c, hc, rfl, scope⟩ := next.within id hid
    exact List.mem_map_of_mem (List.mem_filter.mpr ⟨hc, decide_eq_true scope⟩)
  have counted := (List.subperm_of_subset next.nodup among).length_le
  rw [List.length_map, ← List.countP_eq_length_filter, List.length_cons] at counted
  have few := h.few organizationId editionId
  omega

theorem scopedRevision_ok {next : SchedulingCandidateRevision} (hnext : next ∈ planning.revisions)
    (scope : next.organizationId = organizationId ∧ next.editionId = editionId) :
    scopedRevision planning organizationId editionId next.id = .ok next ∧
      selectedRevision planning organizationId editionId next.id = some next := by
  obtain ⟨c, hc, is, organization, edition, -, bound, -⟩ := ownHistory_eq_filter h hnext
  have found : planning.revisions.get? next.id = some next := Table.get?_eq_some.mpr ⟨hnext, rfl⟩
  have candidate : planning.candidateOf organizationId editionId next = some c := by
    rw [Planning.candidateOf, Table.get?_eq_some.mpr ⟨hc, is⟩, Option.filter_some,
      if_pos (decide_eq_true ⟨organization.trans scope.1, edition.trans scope.2⟩)]
  constructor
  · rw [scopedRevision, found, Option.filter_some, candidate, if_pos (decide_eq_true ⟨scope.1, scope.2, rfl⟩)]
    rfl
  · rw [selectedRevision, found, Option.filter_some, candidate,
      if_pos (decide_eq_true ⟨scope.1, scope.2, decide_eq_true bound⟩)]

/-- Rows of other candidates are remembered beside those that are there. -/
theorem remember_eq {history_ : List SchedulingCandidateRevision} (hr : head ∈ planning.revisions)
    (those : ∀ r ∈ history_, r ∈ planning.revisions ∧ r.candidateId ∈ seen) (unseen : head.candidateId ∉ seen) :
    remember history_ (planning.ownHistory head) = history_ ++ planning.ownHistory head := by
  rw [remember, List.filter_eq_self.mpr]
  intro r hr'
  obtain ⟨hmem, saw⟩ := those r hr'
  rw [decide_eq_true_eq]
  intro same
  obtain ⟨own, hown, is⟩ := List.mem_map.mp same
  obtain ⟨hrow, its, -⟩ := (mem_ownHistory h hr).mp hown
  obtain rfl := Table.eq_of_key hrow hmem is
  exact unseen (its ▸ saw)

/-- The program's loop remembers the way back, if there is room for it. -/
theorem ancestry_of_walk (w : Walk planning head walked)
    (scope : head.organizationId = organizationId ∧ head.editionId = editionId)
    (s : Seen planning organizationId editionId seen) (unseen : ∀ r ∈ walked, r.candidateId ∉ seen)
    {history_ : List SchedulingCandidateRevision} (room : history_.length ≤ maxCandidateRevisions)
    (those : ∀ r ∈ history_, r ∈ planning.revisions ∧ r.candidateId ∈ seen) {fuel : Nat}
    (turns : maxCandidates < fuel + seen.length) :
    ancestry planning organizationId editionId fuel seen history_ head =
      some (if history_.length + walked.length ≤ maxCandidateRevisions then .ok (history_ ++ walked)
        else .error .unavailable) := by
  induction w generalizing fuel seen history_ with
  | @created head first hr isFirst operation source =>
    have fresh : head.candidateId ∉ seen :=
      unseen head ((mem_ownHistory h hr).mpr ⟨hr, rfl, Nat.le_refl _⟩)
    obtain ⟨-, few⟩ := s.next h hr scope fresh
    obtain ⟨n, rfl⟩ : ∃ n, fuel = n + 1 := ⟨fuel - 1, by omega⟩
    rw [ancestry, if_neg (by simp only [fresh, false_or, Nat.not_le]; exact few), history_eq h hr,
      length_ownHistory h hr]
    by_cases fits : history_.length + head.sequence ≤ maxCandidateRevisions
    · rw [if_pos (by omega), if_pos fits]
      simp only [isFirst, Option.bind_some, source, remember_eq h hr those fresh]
    · rw [if_neg (by omega), if_neg fits]
  | @copied head first next rest hr isFirst operation source beside w other ih =>
    have fresh : head.candidateId ∉ seen :=
      unseen head (List.mem_append_left _ ((mem_ownHistory h hr).mpr ⟨hr, rfl, Nat.le_refl _⟩))
    obtain ⟨following, few⟩ := s.next h hr scope fresh
    obtain ⟨n, rfl⟩ : ∃ n, fuel = n + 1 := ⟨fuel - 1, by omega⟩
    rw [ancestry, if_neg (by simp only [fresh, false_or, Nat.not_le]; exact few), history_eq h hr,
      List.length_append, length_ownHistory h hr]
    by_cases fits : history_.length + head.sequence ≤ maxCandidateRevisions
    · have scope' : next.organizationId = organizationId ∧ next.editionId = editionId :=
        ⟨beside.1.trans scope.1, beside.2.trans scope.2⟩
      have unseen' : ∀ r ∈ rest, r.candidateId ∉ head.candidateId :: seen := fun r hr' => by
        rw [List.mem_cons, not_or]
        exact ⟨other r hr', unseen r (List.mem_append_right _ hr')⟩
      have those' : ∀ r ∈ history_ ++ planning.ownHistory head,
          r ∈ planning.revisions ∧ r.candidateId ∈ head.candidateId :: seen := fun r hr' => by
        rcases List.mem_append.mp hr' with old | own
        · exact ⟨(those r old).1, List.mem_cons_of_mem _ (those r old).2⟩
        · obtain ⟨hrow, its, -⟩ := (mem_ownHistory h hr).mp own
          exact ⟨hrow, its ▸ List.mem_cons_self⟩
      have length : (history_ ++ planning.ownHistory head).length = history_.length + head.sequence := by
        rw [List.length_append, length_ownHistory h hr]
      have turns' : maxCandidates < n + (head.candidateId :: seen).length := by
        rw [List.length_cons]
        omega
      have again := ih scope' following unseen' (length ▸ fits) those' turns'
      rw [if_pos (by omega)]
      simp only [isFirst, Option.bind_some, source, (scopedRevision_ok h w.mem scope').1,
        remember_eq h hr those fresh, again]
      rw [length, Nat.add_assoc, List.append_assoc]
    · rw [if_neg (by omega), if_neg (by omega)]

/-- One turn of the database's loop, which sees the head's own history. -/
theorem independentLoop_own (hr : head ∈ planning.revisions) {first : SchedulingCandidateRevision}
    (isFirst : (planning.ownHistory head).head? = some first)
    (scope : head.organizationId = organizationId ∧ head.editionId = editionId) (reviewer : Uuid)
      (n : Nat) (seen : List Uuid)
    (history_ : List Uuid) (fresh : head.candidateId ∉ seen) (few : seen.length < maxCandidates) :
    independentLoop planning organizationId editionId reviewer (n + 1) seen history_ head.id =
      if history_.length + head.sequence ≤ maxCandidateRevisions ∧
        reviewer ∉ (planning.ownHistory head).map (·.actorId) then
        if first.operation = .candidateCreate ∧ first.sourceRevisionId = none then some true
        else
          match first.operation, first.sourceRevisionId with
          | .candidateCopy, some source => independentLoop planning organizationId editionId reviewer n
            (head.candidateId :: seen) (history_ ++ (planning.ownHistory head).map (·.id)) source
          | _, _ => some false
      else some false := by
  have segment : planning.segment organizationId editionId head = planning.ownHistory head := by
    rw [← scope.1, ← scope.2]
    exact segment_eq h hr
  have found : planning.revisions.get? first.id = some first :=
    Table.get?_eq_some.mpr ⟨((mem_ownHistory h hr).mp (List.mem_of_mem_head? isFirst)).1, rfl⟩
  have some_ : planning.ownHistory head ≠ [] := fun none => by
    rw [none] at isFirst
    cases isFirst
  have bounds : maxCandidates = 100 ∧ maxCandidateRevisions = 10000 := ⟨rfl, rfl⟩
  rw [independentLoop, (scopedRevision_ok h hr scope).2]
  dsimp only
  rw [segment, length_ownHistory h hr, isFirst, Option.bind_some, found]
  by_cases room : history_.length + head.sequence ≤ maxCandidateRevisions
  · rw [if_neg (by simp only [fresh, false_or]; omega)]
    by_cases absent : reviewer ∉ (planning.ownHistory head).map (·.actorId)
    · have clear : ¬ (planning.ownHistory head = [] ∨ head.sequence ≠ head.sequence ∨
          reviewer ∈ (planning.ownHistory head).map (·.actorId)) := by
        simp only [some_, absent, ne_eq, not_true_eq_false, or_self, not_false_eq_true]
      exact (if_neg clear).trans (if_pos ⟨room, absent⟩).symm
    · rw [if_pos (.inr (.inr (not_not.mp absent))), if_neg fun fits => absent fits.2]
  · rw [if_pos (.inr (.inr (by omega))), if_neg fun fits => room fits.1]

/-- The database's loop looks for the reviewer on the way back. -/
theorem independent_of_walk (reviewer : Uuid) (w : Walk planning head walked)
    (scope : head.organizationId = organizationId ∧ head.editionId = editionId)
    (s : Seen planning organizationId editionId seen) (unseen : ∀ r ∈ walked,
      r.candidateId ∉ seen) {history_ : List Uuid}
    {fuel : Nat} (turns : maxCandidates < fuel + seen.length) :
    independentLoop planning organizationId editionId reviewer fuel seen history_ head.id =
      some (decide (history_.length + walked.length ≤ maxCandidateRevisions ∧ reviewer ∉ walked.map (·.actorId))) := by
  induction w generalizing fuel seen history_ with
  | @created head first hr isFirst operation source =>
    have fresh : head.candidateId ∉ seen :=
      unseen head ((mem_ownHistory h hr).mpr ⟨hr, rfl, Nat.le_refl _⟩)
    obtain ⟨-, few⟩ := s.next h hr scope fresh
    obtain ⟨n, rfl⟩ : ∃ n, fuel = n + 1 := ⟨fuel - 1, by omega⟩
    have its := independentLoop_own h hr isFirst scope
    rw [its reviewer n seen history_ fresh few]
    by_cases fits : history_.length + head.sequence ≤ maxCandidateRevisions ∧
        reviewer ∉ (planning.ownHistory head).map (·.actorId)
    · rw [if_pos fits, length_ownHistory h hr, if_pos ⟨operation, source⟩, decide_eq_true fits]
    · rw [if_neg fits, length_ownHistory h hr, decide_eq_false fits]
  | @copied head first next rest hr isFirst operation source beside w other ih =>
    have fresh : head.candidateId ∉ seen :=
      unseen head (List.mem_append_left _ ((mem_ownHistory h hr).mpr ⟨hr, rfl, Nat.le_refl _⟩))
    obtain ⟨following, few⟩ := s.next h hr scope fresh
    obtain ⟨n, rfl⟩ : ∃ n, fuel = n + 1 := ⟨fuel - 1, by omega⟩
    have its := independentLoop_own h hr isFirst scope
    rw [its reviewer n seen history_ fresh few]
    have unseen' : ∀ r ∈ rest, r.candidateId ∉ head.candidateId :: seen := fun r hr' => by
      rw [List.mem_cons, not_or]
      exact ⟨other r hr', unseen r (List.mem_append_right _ hr')⟩
    have turns' : maxCandidates < n + (head.candidateId :: seen).length := by
      rw [List.length_cons]
      omega
    have length : (history_ ++ (planning.ownHistory head).map (·.id)).length = history_.length + head.sequence := by
      rw [List.length_append, List.length_map, length_ownHistory h hr]
    have again : independentLoop planning organizationId editionId reviewer n (head.candidateId :: seen)
        (history_ ++ (planning.ownHistory head).map (·.id)) next.id = _ :=
      ih ⟨beside.1.trans scope.1, beside.2.trans scope.2⟩ following unseen' turns'
    by_cases fits : history_.length + head.sequence ≤ maxCandidateRevisions ∧
        reviewer ∉ (planning.ownHistory head).map (·.actorId)
    · have not : ¬ (first.operation = .candidateCreate ∧ first.sourceRevisionId = none) := fun created => by
        rw [operation] at created
        cases created.1
      rw [if_pos fits, if_neg not, operation, source]
      dsimp only
      rw [again, length]
      congr 1
      rw [decide_eq_decide, List.length_append, length_ownHistory h hr, List.map_append, List.mem_append, Nat.add_assoc]
      simp only [fits.2, false_or]
    · rw [if_neg fits, decide_eq_false]
      rintro ⟨room, absent⟩
      rw [List.length_append, length_ownHistory h hr] at room
      rw [List.map_append, List.mem_append, not_or] at absent
      exact fits ⟨by omega, absent.1⟩

end

/-! ## The authors of a revision -/

section

variable (h : planning.Lineage lib) {walked : List SchedulingCandidateRevision}

include h

/-- The manifest can be loaded, and every placement of it was introduced on the way back. -/
theorem releaseAuthorship_ok (w : Walk planning head walked) :
    ∃ authorship, releaseAuthorship planning head.organizationId head.editionId lib head
      walked = .ok authorship ∧ ∀ a, a ∈ authorship.authorIds ↔ ∃ s ∈ walked, s.actorId = a := by
  have hr := w.mem
  have counts := h.consistent.counts head hr
  have few : (planning.manifest head).length ≤ maxOccurrences := h.short head hr
  have loaded : loadManifest lib planning head = .ok (planning.manifest head) := by
    have short : (planning.manifest head).length ≤ maxOccurrences + 1 := Nat.le_succ_of_le few
    simp only [loadManifest, List.take_of_length_le short, require]
    rw [if_pos ⟨few, counts, h.consistent.digests head hr⟩]
    rfl
  have introduced : (∀ id ∈ (planning.manifest head).map Prod.snd, id ∈ (planning.introduced head.organizationId
        head.editionId ((planning.manifest head).map Prod.snd)).map Prod.fst) ∧
      ∀ placement ∈ planning.introduced head.organizationId head.editionId
        ((planning.manifest head).map Prod.snd), placement.2 ∈ walked.map (·.id) := by
    constructor
    · intro id hid
      obtain ⟨entry, he, rfl⟩ := List.mem_map.mp hid
      obtain ⟨p, hp, is, organization, edition, -⟩ := h.introduced head hr entry he
      refine List.mem_map.mpr ⟨(p.id, p.introducedIn), List.mem_map_of_mem (List.mem_filter.mpr ⟨hp, ?_⟩), is⟩
      exact decide_eq_true ⟨organization, edition, is ▸ hid⟩
    · intro placement hplacement
      obtain ⟨p, hp, rfl⟩ := List.mem_map.mp hplacement
      obtain ⟨hp, chosen⟩ := List.mem_filter.mp hp
      obtain ⟨-, -, among⟩ := of_decide_eq_true chosen
      obtain ⟨entry, he, same⟩ := List.mem_map.mp among
      obtain ⟨p', hp', is, -, -, s, hs, by_, reaches⟩ := h.introduced head hr entry he
      obtain rfl := Table.eq_of_key hp' hp (is.trans same)
      exact List.mem_map.mpr ⟨s, (mem_walk h w s).mpr reaches, by_⟩
  refine ⟨⟨head.id, (walked.map (·.actorId)).dedup,
    provenanceDigest head.organizationId head.editionId lib head.id walked
    (planning.introduced head.organizationId head.editionId ((planning.manifest head).map Prod.snd))⟩, ?_, fun a => ?_⟩
  · rw [releaseAuthorship, loaded, ok_bind]
    simp only [require, if_pos introduced, ok_bind]
    rfl
  · rw [List.mem_dedup, List.mem_map]

theorem loadReleaseAuthorship_eq (w : Walk planning head walked) {fuel : Nat}
    (turns : maxCandidates < fuel) : loadReleaseAuthorship planning head.organizationId
      head.editionId lib head.id fuel = some (if walked.length ≤ maxCandidateRevisions then
        releaseAuthorship planning head.organizationId head.editionId lib head walked else .error .unavailable) := by
  have nothing : Seen planning head.organizationId head.editionId [] := ⟨List.nodup_nil, fun _ hid => by cases hid⟩
  have ran : ancestry planning head.organizationId head.editionId fuel [] [] head = _ :=
    ancestry_of_walk h w ⟨rfl, rfl⟩ nothing (fun _ _ hid => by cases hid) (Nat.zero_le _) (fun _ hr => by cases hr) turns
  rw [loadReleaseAuthorship, (scopedRevision_ok h w.mem ⟨rfl, rfl⟩).1]
  simp only [ran, List.length_nil, Nat.zero_add, List.nil_append, Option.map_some]
  split <;> rfl

theorem releaseIndependent_eq (w : Walk planning head walked) (reviewer : Uuid) {fuel : Nat}
    (turns : maxCandidates < fuel) :
    releaseIndependent planning head.organizationId head.editionId head.id reviewer fuel =
      some (decide (walked.length ≤ maxCandidateRevisions ∧ reviewer ∉ walked.map (·.actorId))) := by
  have nothing : Seen planning head.organizationId head.editionId [] := ⟨List.nodup_nil, fun _ hid => by cases hid⟩
  have ran : independentLoop planning head.organizationId head.editionId reviewer fuel [] [] head.id = _ :=
    independent_of_walk h reviewer w ⟨rfl, rfl⟩ nothing (fun _ _ hid => by cases hid) turns
  rw [releaseIndependent, ran]
  simp only [List.length_nil, Nat.zero_add]

end

/-- In every state that the commands lead to, and for every revision in it: the loader ends, with
the actors of exactly the revisions that the revision is derived from, or without room for them;
they include whoever introduced a placement of its manifest; and the database finds a reviewer
independent exactly if the loader does. -/
theorem candidateMachine_authors (lib : Primitives) (isoformat : Int → String)
    (structure_ : Structure) (steps : List CandidateStep) :
    let planning := ((candidateMachine lib isoformat).run (Store.empty (Planning.empty structure_)) steps).rows
    ∀ r ∈ planning.revisions, ∃ derived : List SchedulingCandidateRevision, derived.Nodup ∧
      (∀ s, s ∈ derived ↔ planning.Reaches r s) ∧
      (∀ entry ∈ planning.manifest r, ∃ p ∈ planning.placements, p.id = entry.2 ∧ ∃ s ∈ derived, s.id = p.introducedIn) ∧
      ∀ fuel, maxCandidates < fuel →
        let loaded := loadReleaseAuthorship planning r.organizationId r.editionId lib r.id fuel
        (derived.length ≤ maxCandidateRevisions → ∃ authorship, loaded = some (.ok authorship) ∧
          ∀ a, a ∈ authorship.authorIds ↔ ∃ s ∈ derived, s.actorId = a) ∧
        (maxCandidateRevisions < derived.length → loaded = some (.error .unavailable)) ∧
        ∀ reviewer, ∃ verdict, releaseIndependent planning r.organizationId r.editionId r.id
          reviewer fuel = some verdict ∧
          (verdict = true ↔ ∃ authorship, loaded = some (.ok authorship) ∧ reviewer ∉ authorship.authorIds) := by
  intro planning r hr
  have h : planning.Lineage lib := candidateMachine_lineage structure_ steps
  obtain ⟨before, after, split⟩ := List.append_of_mem hr
  obtain ⟨derived, w, -⟩ := exists_walk h split
  refine ⟨derived, List.Nodup.of_map _ (nodup_walk h w), mem_walk h w, fun entry he => ?_, fun fuel turns => ?_⟩
  · obtain ⟨p, hp, is, -, -, s, -, by_, reaches⟩ := h.introduced r hr entry he
    exact ⟨p, hp, is, s, (mem_walk h w s).mpr reaches, by_⟩
  · obtain ⟨authorship, ok, authors⟩ := releaseAuthorship_ok h w
    have loaded := loadReleaseAuthorship_eq h w turns
    refine ⟨fun room => ⟨authorship, ?_, authors⟩, fun over_ => ?_, fun reviewer =>
      ⟨_, releaseIndependent_eq h w reviewer turns, ?_⟩⟩
    · rw [loaded, if_pos room, ok]
    · rw [loaded, if_neg (Nat.not_le.mpr over_)]
    · rw [decide_eq_true_iff, List.mem_map, loaded]
      by_cases room : derived.length ≤ maxCandidateRevisions
      · rw [if_pos room, ok]
        simp only [room, true_and, Option.some.injEq, Except.ok.injEq, exists_eq_left', authors]
      · rw [if_neg room]
        simp only [room, false_and, Option.some.injEq, reduceCtorEq, exists_false]

end Maru.Scheduling
