import Maru.Framework.Dict
import Maru.Framework.Edits
import Maru.Scheduling.ReleaseArtifacts

/-!
# What a release changes

`scheduling/release_impact.py`. The comparison goes through the occurrences of both selections
in the order of their texts; a row of it is decided by what the two selections have for its
occurrence (`releaseSelectionChange`), so the rows that are not `unchanged` are edits between
the two (`between_changes`).
-/

namespace Maru.Scheduling

inductive ReleaseSelectionChangeKind
  | added
  | removed
  | changed
  | unchanged
deriving DecidableEq

structure ReleaseSelectionChange where
  occurrenceId : Uuid
  kind : ReleaseSelectionChangeKind
  before : Option ReleaseArtifactSelection
  after : Option ReleaseArtifactSelection
  changedFields : List String
deriving DecidableEq

structure ReleaseSelectionImpact where
  changes : List ReleaseSelectionChange
  addedCount : Nat
  changedCount : Nat
  removedCount : Nat
deriving DecidableEq

/-- The fields that are compared, under their names. -/
def comparedFields : List (String × (ReleaseArtifactSelection → Uuid)) :=
  [("placement_id", (·.placementId)), ("public_rendition_id", (·.publicRenditionId))]

def changedFields (previous following : ReleaseArtifactSelection) : List String :=
  (comparedFields.filter fun field => field.2 previous ≠ field.2 following).map Prod.fst

/-- The loop's body: what becomes of an occurrence of which the selections have
`previous` and `following`. -/
def releaseSelectionChange (occurrence : Uuid) : (previous following : Option ReleaseArtifactSelection) →
    ReleaseSelectionChange
  | none, following => ⟨occurrence, .added, none, following, []⟩
  | some previous, none => ⟨occurrence, .removed, some previous, none, []⟩
  | some previous, some following =>
    if previous = following then ⟨occurrence, .unchanged, some previous, some following, []⟩
    else ⟨occurrence, .changed, some previous, some following, changedFields previous following⟩

/-- `if rows: _selections(rows)` -/
def requireSelections (rows : List ReleaseArtifactSelection) : Except ReleaseArtifactError Unit :=
  if rows = [] then return () else do
    let _ ← releaseSelections rows
    return ()

/-- `sorted(old.keys() | new.keys(), key=str)` -/
def comparedOccurrences (old new : List (Uuid × ReleaseArtifactSelection)) : List Uuid :=
  sortBy Uuid.text (old.map Prod.fst ++ new.map Prod.fst).dedup

/-- The rows and how many there are of each kind. -/
def ReleaseSelectionImpact.ofChanges (changes : List ReleaseSelectionChange) : ReleaseSelectionImpact where
  changes := changes
  addedCount := changes.countP (·.kind = .added)
  changedCount := changes.countP (·.kind = .changed)
  removedCount := changes.countP (·.kind = .removed)

/-- `compare_release_selections` -/
def compareReleaseSelections (before after : List ReleaseArtifactSelection) :
    Except ReleaseArtifactError ReleaseSelectionImpact := do
  requireSelections before
  requireSelections after
  let old := Dict.keyed (·.occurrenceId) before
  let new := Dict.keyed (·.occurrenceId) after
  return .ofChanges ((comparedOccurrences old new).map fun occurrence =>
    releaseSelectionChange occurrence (Dict.get? old occurrence) (Dict.get? new occurrence))

/-! ## Selections as a map -/

/-- What a selection has for an occurrence. -/
def selectedAt (rows : List ReleaseArtifactSelection) (occurrence : Uuid) : Option ReleaseArtifactSelection :=
  rows.find? (·.occurrenceId = occurrence)

/-- No members, or a manifest that `_selections` accepts. -/
def CompleteSelection (rows : List ReleaseArtifactSelection) : Prop := rows = [] ∨ ReleaseManifest rows

theorem CompleteSelection.occurrences {rows : List ReleaseArtifactSelection}
    (h : CompleteSelection rows) : (rows.map (·.occurrenceId)).Nodup := by
  rcases h with rfl | manifest
  · exact List.nodup_nil
  · exact manifest.occurrences

theorem requireSelections_eq_ok {rows : List ReleaseArtifactSelection} :
    requireSelections rows = .ok () ↔ CompleteSelection rows := by
  unfold requireSelections CompleteSelection
  split
  · rename_i empty
    simp only [empty, true_or, pure_eq_ok]
  · rename_i nonempty
    simp only [nonempty, false_or, bind_eq_ok, releaseSelections_eq_ok, pure_eq_ok, and_true]
    exact ⟨fun ⟨_, manifest, _⟩ => manifest, fun manifest => ⟨_, manifest, rfl⟩⟩

theorem get?_keyed_eq_selectedAt {rows : List ReleaseArtifactSelection} (h : (rows.map (·.occurrenceId)).Nodup)
    (occurrence : Uuid) : Dict.get? (Dict.keyed (·.occurrenceId) rows) occurrence = selectedAt rows occurrence := by
  refine Option.ext fun row => ?_
  rw [Dict.get?_keyed h, selectedAt, find?_key_eq_some h]

theorem selectedAt_eq_none {rows : List ReleaseArtifactSelection} {occurrence : Uuid} :
    selectedAt rows occurrence = none ↔ occurrence ∉ rows.map (·.occurrenceId) := by
  simp [selectedAt]

/-- The occurrences that are compared: each one of either selection, once. -/
def occurrencesOf (before after : List ReleaseArtifactSelection) : List Uuid :=
  comparedOccurrences (Dict.keyed (·.occurrenceId) before) (Dict.keyed (·.occurrenceId) after)

theorem mem_occurrencesOf {before after : List ReleaseArtifactSelection} {occurrence : Uuid} :
    occurrence ∈ occurrencesOf before after ↔
      occurrence ∈ before.map (·.occurrenceId) ∨ occurrence ∈ after.map (·.occurrenceId) := by
  rw [occurrencesOf, comparedOccurrences, (sortBy_perm _ _).mem_iff, List.mem_dedup,
    List.mem_append, Dict.mem_keyed_keys, Dict.mem_keyed_keys]

theorem nodup_occurrencesOf (before after : List ReleaseArtifactSelection) : (occurrencesOf before after).Nodup :=
  (sortBy_perm _ _).nodup_iff.mpr (List.nodup_dedup _)

/-- The same occurrences in the same order, whichever selection comes first. -/
theorem occurrencesOf_comm (before after : List ReleaseArtifactSelection) :
    occurrencesOf after before = occurrencesOf before after := by
  refine sortBy_eq_of_perm (fun a _ b _ => Uuid.text_injective) ?_
  rw [List.perm_ext_iff_of_nodup (List.nodup_dedup _) (List.nodup_dedup _)]
  intro occurrence
  rw [List.mem_dedup, List.mem_dedup, List.mem_append, List.mem_append, or_comm]

/-- The rows of the comparison. -/
def changesBetween (before after : List ReleaseArtifactSelection) : List ReleaseSelectionChange :=
  (occurrencesOf before after).map fun occurrence =>
    releaseSelectionChange occurrence (selectedAt before occurrence) (selectedAt after occurrence)

theorem compareReleaseSelections_eq_ok {before after : List ReleaseArtifactSelection}
    {impact : ReleaseSelectionImpact} : compareReleaseSelections before after = .ok impact ↔
      CompleteSelection before ∧ CompleteSelection after ∧ impact = .ofChanges (changesBetween before after) := by
  simp only [compareReleaseSelections, bind_eq_ok, pure_eq_ok]
  have compared (hb : CompleteSelection before) (ha : CompleteSelection after) :
      ((comparedOccurrences (Dict.keyed (·.occurrenceId) before) (Dict.keyed (·.occurrenceId) after)).map
        fun occurrence =>
        releaseSelectionChange occurrence (Dict.get? (Dict.keyed (·.occurrenceId) before) occurrence)
          (Dict.get? (Dict.keyed (·.occurrenceId) after) occurrence)) = changesBetween before after :=
    List.map_congr_left fun occurrence _ => by
      rw [get?_keyed_eq_selectedAt hb.occurrences, get?_keyed_eq_selectedAt ha.occurrences]
  constructor
  · rintro ⟨⟨⟩, hb, ⟨⟩, ha, rfl⟩
    have hb := requireSelections_eq_ok.mp hb
    have ha := requireSelections_eq_ok.mp ha
    exact ⟨hb, ha, by rw [compared hb ha]⟩
  · rintro ⟨hb, ha, rfl⟩
    exact ⟨⟨⟩, requireSelections_eq_ok.mpr hb, ⟨⟩, requireSelections_eq_ok.mpr ha, by rw [compared hb ha]⟩

/-! ## One row -/

/-- A row with its sides exchanged: an addition is a removal. -/
def ReleaseSelectionChangeKind.swap : ReleaseSelectionChangeKind → ReleaseSelectionChangeKind
  | .added => .removed
  | .removed => .added
  | .changed => .changed
  | .unchanged => .unchanged

def ReleaseSelectionChange.swap (change : ReleaseSelectionChange) : ReleaseSelectionChange where
  occurrenceId := change.occurrenceId
  kind := change.kind.swap
  before := change.after
  after := change.before
  changedFields := change.changedFields

def ReleaseSelectionImpact.swap (impact : ReleaseSelectionImpact) : ReleaseSelectionImpact where
  changes := impact.changes.map ReleaseSelectionChange.swap
  addedCount := impact.removedCount
  changedCount := impact.changedCount
  removedCount := impact.addedCount

def ReleaseSelectionChange.edit (change : ReleaseSelectionChange) : Edit Uuid ReleaseArtifactSelection :=
  ⟨change.occurrenceId, change.before, change.after⟩

theorem changedFields_comm (previous following : ReleaseArtifactSelection) :
    changedFields previous following = changedFields following previous := by
  unfold changedFields
  simp only [ne_comm]

section

variable (occurrence : Uuid) (previous following : Option ReleaseArtifactSelection)

theorem occurrenceId_releaseSelectionChange :
    (releaseSelectionChange occurrence previous following).occurrenceId = occurrence := by
  unfold releaseSelectionChange
  split
  · rfl
  · rfl
  · split <;> rfl

theorem before_releaseSelectionChange : (releaseSelectionChange occurrence previous following).before = previous := by
  unfold releaseSelectionChange
  split
  · rfl
  · rfl
  · split <;> rfl

theorem after_releaseSelectionChange : (releaseSelectionChange occurrence previous following).after = following := by
  unfold releaseSelectionChange
  split
  · rfl
  · rfl
  · split <;> rfl

/-- Where one selection at least has the occurrence, the sides may be exchanged. -/
theorem swap_releaseSelectionChange (selected : previous ≠ none ∨ following ≠ none) :
    (releaseSelectionChange occurrence previous following).swap =
      releaseSelectionChange occurrence following previous := by
  cases previous with
  | none =>
    cases following with
    | none => exact absurd rfl (selected.elim (fun h => absurd rfl h) id)
    | some after => rfl
  | some before =>
    cases following with
    | none => rfl
    | some after =>
      by_cases same : before = after
      · simp only [releaseSelectionChange, same, if_true]
        rfl
      · simp only [releaseSelectionChange, same, Ne.symm same, if_false, changedFields_comm after before]
        rfl

/-- What the kind of a row says. -/
theorem kind_releaseSelectionChange (selected : previous ≠ none ∨ following ≠ none) :
    ((releaseSelectionChange occurrence previous following).kind = .added ↔ previous = none) ∧
    ((releaseSelectionChange occurrence previous following).kind = .removed ↔ following = none) ∧
    ((releaseSelectionChange occurrence previous following).kind = .changed ↔
      previous ≠ none ∧ following ≠ none ∧ previous ≠ following) ∧
    ((releaseSelectionChange occurrence previous following).kind = .unchanged ↔ previous = following) := by
  cases previous with
  | none =>
    cases following with
    | none => exact absurd rfl (selected.elim (fun h => absurd rfl h) id)
    | some after => simp [releaseSelectionChange]
  | some before =>
    cases following with
    | none => simp [releaseSelectionChange]
    | some after => by_cases same : before = after <;> simp [releaseSelectionChange, same]

end

/-- A field is named where both selections have the occurrence and the field differs. -/
theorem mem_changedFields_releaseSelectionChange {occurrence : Uuid}
    {previous following : Option ReleaseArtifactSelection}
    {name : String} : name ∈ (releaseSelectionChange occurrence previous following).changedFields ↔
      ∃ before ∈ previous, ∃ after ∈ following, ∃ field ∈ comparedFields, field.1 = name ∧
        field.2 before ≠ field.2 after := by
  cases previous with
  | none => exact iff_of_false nofun fun ⟨_, hb, _⟩ => nomatch hb
  | some before =>
    cases following with
    | none => exact iff_of_false nofun fun ⟨_, _, _, ha, _⟩ => nomatch ha
    | some after =>
      simp only [Option.mem_some_iff, exists_eq_left']
      by_cases same : before = after
      · simp [releaseSelectionChange, same]
      · simp only [releaseSelectionChange, same, if_false, changedFields, List.mem_map,
          List.mem_filter, decide_eq_true_eq]
        exact ⟨fun ⟨field, h, hn⟩ => ⟨field, h.1, hn, h.2⟩, fun ⟨field, h, hn, hd⟩ => ⟨field, ⟨h, hd⟩, hn⟩⟩

/-! ## The comparison -/

section

variable {before after : List ReleaseArtifactSelection}

theorem mem_changesBetween {change : ReleaseSelectionChange} : change ∈ changesBetween before after ↔
    ∃ occurrence, (selectedAt before occurrence ≠ none ∨ selectedAt after occurrence ≠ none) ∧
      releaseSelectionChange occurrence (selectedAt before occurrence) (selectedAt after occurrence) = change := by
  simp only [changesBetween, List.mem_map, mem_occurrencesOf, ne_eq, selectedAt_eq_none, not_not]

theorem occurrenceIds_changesBetween : (changesBetween before after).map
    (·.occurrenceId) = occurrencesOf before after := by
  rw [changesBetween, List.map_map]
  exact (List.map_congr_left fun occurrence _ => occurrenceId_releaseSelectionChange ..).trans (List.map_id _)

/-- The rows of a kind are counted by their occurrences. -/
theorem countP_changesBetween (kind : ReleaseSelectionChangeKind) :
    (changesBetween before after).countP (·.kind = kind) = (occurrencesOf before after).countP fun occurrence =>
      (releaseSelectionChange occurrence (selectedAt before occurrence) (selectedAt after occurrence)).kind = kind := by
  rw [changesBetween, List.countP_map]
  rfl

/-- The rows that are not `unchanged` say how the selections differ. -/
theorem between_changes : Edit.Between (selectedAt before) (selectedAt after)
    (((changesBetween before after).filter (·.kind ≠ .unchanged)).map (·.edit)) := by
  have row : ∀ edit ∈ ((changesBetween before after).filter (·.kind ≠ .unchanged)).map (·.edit),
      edit.before = selectedAt before edit.key ∧ edit.after = selectedAt after edit.key := by
    intro edit he
    obtain ⟨change, hc, rfl⟩ := List.mem_map.mp he
    obtain ⟨occurrence, _, rfl⟩ := mem_changesBetween.mp (List.mem_of_mem_filter hc)
    simp only [ReleaseSelectionChange.edit, occurrenceId_releaseSelectionChange,
      before_releaseSelectionChange, after_releaseSelectionChange, and_self]
  refine ⟨fun edit he => (row edit he).1, fun edit he => (row edit he).2, fun occurrence differs => ?_⟩
  have selected : selectedAt before occurrence ≠ none ∨ selectedAt after occurrence ≠ none := by
    by_contra absent
    obtain ⟨hb, ha⟩ := not_or.mp absent
    exact differs ((not_not.mp hb).trans (not_not.mp ha).symm)
  have kind := (kind_releaseSelectionChange occurrence _ _ selected).2.2.2
  refine ⟨_, List.mem_map_of_mem (List.mem_filter.mpr ⟨mem_changesBetween.mpr ⟨occurrence, selected, rfl⟩, ?_⟩), ?_⟩
  · exact decide_eq_true fun unchanged => differs (kind.mp unchanged)
  · exact occurrenceId_releaseSelectionChange ..

theorem changesBetween_swap : changesBetween after before =
    (changesBetween before after).map ReleaseSelectionChange.swap := by
  rw [changesBetween, occurrencesOf_comm before after, changesBetween, List.map_map]
  refine List.map_congr_left fun occurrence ho => (swap_releaseSelectionChange occurrence _ _ ?_).symm
  simpa only [ne_eq, selectedAt_eq_none, not_not] using mem_occurrencesOf.mp ho

/-- What a comparison says of two selections. -/
structure ReleaseSelectionImpact.Exact (before after : List ReleaseArtifactSelection)
    (impact : ReleaseSelectionImpact) : Prop where
  /-- One row for each occurrence. -/
  once : (impact.changes.map (·.occurrenceId)).Nodup
  /-- The changes turn the one map into the other. -/
  applied : Edit.applyAll (selectedAt before)
    ((impact.changes.filter (·.kind ≠ .unchanged)).map (·.edit)) = selectedAt after
  sides : ∀ change ∈ impact.changes, change.before = selectedAt before change.occurrenceId ∧
    change.after = selectedAt after change.occurrenceId
  added : ∀ change ∈ impact.changes, change.kind = .added ↔ change.before = none
  removed : ∀ change ∈ impact.changes, change.kind = .removed ↔ change.after = none
  unchanged : ∀ change ∈ impact.changes, change.kind = .unchanged ↔ change.before = change.after
  fields : ∀ change ∈ impact.changes, ∀ name, name ∈ change.changedFields ↔
    ∃ previous ∈ change.before, ∃ following ∈ change.after, ∃ field ∈ comparedFields,
      field.1 = name ∧ field.2 previous ≠ field.2 following
  addedCount : impact.addedCount = (after.map (·.occurrenceId)).countP (· ∉ before.map (·.occurrenceId))
  removedCount : impact.removedCount = (before.map (·.occurrenceId)).countP (· ∉ after.map (·.occurrenceId))
  changedCount : impact.changedCount = (before.map (·.occurrenceId)).countP fun occurrence =>
    occurrence ∈ after.map (·.occurrenceId) ∧ selectedAt before occurrence ≠ selectedAt after occurrence

theorem exact_ofChanges (hb : CompleteSelection before) (ha : CompleteSelection after) :
    (ReleaseSelectionImpact.ofChanges (changesBetween before after)).Exact before after := by
  have kind {occurrence : Uuid} (ho : occurrence ∈ occurrencesOf before after) :=
    kind_releaseSelectionChange occurrence (selectedAt before occurrence) (selectedAt after occurrence)
      (by simpa only [ne_eq, selectedAt_eq_none, not_not] using mem_occurrencesOf.mp ho)
  have row {change : ReleaseSelectionChange} (hc : change ∈ changesBetween before after) :
      ∃ occurrence ∈ occurrencesOf before after,
        releaseSelectionChange occurrence (selectedAt before occurrence) (selectedAt after occurrence) = change :=
    List.mem_map.mp hc
  have nodup := nodup_occurrencesOf before after
  constructor
  case once => exact occurrenceIds_changesBetween ▸ nodup
  case applied => exact between_changes.applyAll
  case sides =>
    intro change hc
    obtain ⟨occurrence, _, rfl⟩ := row hc
    rw [before_releaseSelectionChange, after_releaseSelectionChange, occurrenceId_releaseSelectionChange]
    exact ⟨rfl, rfl⟩
  case added =>
    intro change hc
    obtain ⟨occurrence, ho, rfl⟩ := row hc
    rw [before_releaseSelectionChange]
    exact (kind ho).1
  case removed =>
    intro change hc
    obtain ⟨occurrence, ho, rfl⟩ := row hc
    rw [after_releaseSelectionChange]
    exact (kind ho).2.1
  case unchanged =>
    intro change hc
    obtain ⟨occurrence, ho, rfl⟩ := row hc
    rw [before_releaseSelectionChange, after_releaseSelectionChange]
    exact (kind ho).2.2.2
  case fields =>
    intro change hc name
    obtain ⟨occurrence, ho, rfl⟩ := row hc
    rw [before_releaseSelectionChange, after_releaseSelectionChange, mem_changedFields_releaseSelectionChange]
  case addedCount =>
    refine (countP_changesBetween .added).trans (countP_eq_of_mem_iff nodup ha.occurrences fun occurrence => ?_)
    rw [decide_eq_true_eq, decide_eq_true_eq, ← selectedAt_eq_none]
    constructor
    · rintro ⟨ho, added⟩
      have absent := (kind ho).1.mp added
      exact ⟨(mem_occurrencesOf.mp ho).resolve_left (selectedAt_eq_none.mp absent), absent⟩
    · rintro ⟨hk, absent⟩
      have ho : occurrence ∈ occurrencesOf before after := mem_occurrencesOf.mpr (.inr hk)
      exact ⟨ho, (kind ho).1.mpr absent⟩
  case removedCount =>
    refine (countP_changesBetween .removed).trans (countP_eq_of_mem_iff nodup hb.occurrences fun occurrence => ?_)
    rw [decide_eq_true_eq, decide_eq_true_eq, ← selectedAt_eq_none]
    constructor
    · rintro ⟨ho, removed⟩
      have absent := (kind ho).2.1.mp removed
      exact ⟨(mem_occurrencesOf.mp ho).resolve_right (selectedAt_eq_none.mp absent), absent⟩
    · rintro ⟨hk, absent⟩
      have ho : occurrence ∈ occurrencesOf before after := mem_occurrencesOf.mpr (.inl hk)
      exact ⟨ho, (kind ho).2.1.mpr absent⟩
  case changedCount =>
    refine (countP_changesBetween .changed).trans (countP_eq_of_mem_iff nodup hb.occurrences fun occurrence => ?_)
    rw [decide_eq_true_eq, decide_eq_true_eq]
    have present (rows : List ReleaseArtifactSelection) :
        selectedAt rows occurrence ≠ none ↔ occurrence ∈ rows.map (·.occurrenceId) := by
      rw [ne_eq, selectedAt_eq_none, not_not]
    constructor
    · rintro ⟨ho, changed⟩
      obtain ⟨hp, hf, differs⟩ := (kind ho).2.2.1.mp changed
      exact ⟨(present before).mp hp, (present after).mp hf, differs⟩
    · rintro ⟨hp, hf, differs⟩
      have ho : occurrence ∈ occurrencesOf before after := mem_occurrencesOf.mpr (.inl hp)
      exact ⟨ho, (kind ho).2.2.1.mpr ⟨(present before).mpr hp, (present after).mpr hf, differs⟩⟩

theorem ofChanges_swap : ReleaseSelectionImpact.ofChanges (changesBetween after before) =
    (ReleaseSelectionImpact.ofChanges (changesBetween before after)).swap := by
  have counted (kind : ReleaseSelectionChangeKind) :
      (changesBetween after before).countP (·.kind = kind) =
        (changesBetween before after).countP (·.kind = kind.swap) := by
    rw [changesBetween_swap, List.countP_map]
    refine List.countP_congr fun change _ => ?_
    cases kind <;> cases hk : change.kind <;> simp [ReleaseSelectionChange.swap, ReleaseSelectionChangeKind.swap, hk]
  simp only [ReleaseSelectionImpact.ofChanges, ReleaseSelectionImpact.swap, ReleaseSelectionImpact.mk.injEq]
  exact ⟨changesBetween_swap, counted .added, counted .changed, counted .removed⟩

end

/-- Two complete selections are compared exactly, and the other way round with the sides exchanged.
-/
theorem release_selection_impact (before after : List ReleaseArtifactSelection) :
    ((∃ impact, compareReleaseSelections before after = .ok impact) ↔ CompleteSelection before ∧
      CompleteSelection after) ∧
    ∀ impact, compareReleaseSelections before after = .ok impact →
      impact.Exact before after ∧ compareReleaseSelections after before = .ok impact.swap := by
  constructor
  · constructor
    · rintro ⟨impact, compared⟩
      obtain ⟨hb, ha, _⟩ := compareReleaseSelections_eq_ok.mp compared
      exact ⟨hb, ha⟩
    · rintro ⟨hb, ha⟩
      exact ⟨_, compareReleaseSelections_eq_ok.mpr ⟨hb, ha, rfl⟩⟩
  · intro impact compared
    obtain ⟨hb, ha, rfl⟩ := compareReleaseSelections_eq_ok.mp compared
    refine ⟨exact_ofChanges hb ha, ?_⟩
    rw [compareReleaseSelections_eq_ok]
    exact ⟨ha, hb, ofChanges_swap.symm⟩

/-- One occurrence leaves, one stays, one is placed anew and one comes. -/
theorem release_selection_impact_four :
    ∃ impact, compareReleaseSelections [⟨1, 11, 21⟩, ⟨2, 12, 22⟩, ⟨3, 13, 23⟩]
        [⟨4, 14, 24⟩, ⟨3, 15, 23⟩, ⟨2, 12, 22⟩] = .ok impact ∧
      impact.changes.map (·.kind) = [.removed, .unchanged, .changed, .added] ∧
      impact.Exact [⟨1, 11, 21⟩, ⟨2, 12, 22⟩, ⟨3, 13, 23⟩] [⟨4, 14, 24⟩, ⟨3, 15, 23⟩, ⟨2, 12, 22⟩] := by
  have hb : CompleteSelection [⟨1, 11, 21⟩, ⟨2, 12, 22⟩, ⟨3, 13, 23⟩] :=
    .inr ⟨by decide, by decide, by decide, by decide, by decide⟩
  have ha : CompleteSelection [⟨4, 14, 24⟩, ⟨3, 15, 23⟩, ⟨2, 12, 22⟩] :=
    .inr ⟨by decide, by decide, by decide, by decide, by decide⟩
  obtain ⟨ok, exact⟩ :=
    release_selection_impact [⟨1, 11, 21⟩, ⟨2, 12, 22⟩, ⟨3, 13, 23⟩] [⟨4, 14, 24⟩, ⟨3, 15, 23⟩, ⟨2, 12, 22⟩]
  obtain ⟨impact, compared⟩ := ok.mpr ⟨hb, ha⟩
  refine ⟨impact, compared, ?_, (exact impact compared).1⟩
  obtain ⟨_, _, rfl⟩ := compareReleaseSelections_eq_ok.mp compared
  decide +kernel

end Maru.Scheduling
