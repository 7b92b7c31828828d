import Mathlib.Data.Set.Card
import Maru.Framework.Budget
import Maru.Framework.Edits
import Maru.Framework.Lists
import Maru.Workforce.ImportFormat

/-!
# Comparing two proposals

`workforce/import_comparison.py`. The changes of a section are found from its rows under their keys,
first those of the rows before and then the rows that are new, and the comparison gives up when
there are too many. The bound only cuts off (`importChanges_eq`): what is listed is the list without
it, which has one change for each key whose records differ (`between_changesOf`).
-/

namespace Maru.Workforce

def maxImportChanges : Nat := 128

inductive ComparisonSide
  | before
  | after
  | comparison
deriving DecidableEq

structure ComparisonIssue where
  side : ComparisonSide
  code : String
  location : String
deriving DecidableEq

inductive ChangeAction
  | added
  | removed
  | changed
deriving DecidableEq

structure ProposalChange where
  sectionName : String
  action : ChangeAction
  beforeRow : Option Nat
  afterRow : Option Nat
  fields : List String
deriving DecidableEq

inductive ComparisonStatus
  | compared
  | invalid
  | unavailable
deriving DecidableEq

structure ImportComparisonReport where
  status : ComparisonStatus
  issues : List ComparisonIssue := []
  issuesTruncated : Bool := false
  changes : List ProposalChange := []
  counts : List (String × Nat × Nat × Nat) := []
  hashes : List (String × String) := []
deriving DecidableEq

/-! ## Changes -/

/-- `{row["key"]: (number, row) for number, row in enumerate(rows)}` -/
def numberedRows (rows : List Json) : List (Json × Json × Nat) :=
    Dict.keyed (fun row => rowField row.1 "key") rows.zipIdx

/-- The fields of a row that another row of the same key has otherwise. -/
def changedNames (fields : List String) (row new : Json) : List String :=
  fields.filter fun name => name ≠ "key" ∧ rowField row name ≠ rowField new name

/-- What becomes of a row of the section before. -/
def rowChanges (name : String) (fields : List String) (revised : List (Json × Json × Nat))
    (entry : Json × Json × Nat) : List ProposalChange :=
  match Dict.get? revised entry.1 with
  | none => [⟨name, .removed, some entry.2.2, none, []⟩]
  | some (new, number) =>
    if changedNames fields entry.2.1 new = [] then []
    else [⟨name, .changed, some entry.2.2, some number, changedNames fields entry.2.1 new⟩]

/-- A row of the section after, if the section before has none of its key. -/
def newChanges (name : String) (original : List (Json × Json × Nat)) (entry : Json × Json × Nat) : List ProposalChange :=
  if (Dict.get? original entry.1).isNone then [⟨name, .added, none, some entry.2.2, []⟩] else []

/-- The changes with those of one more row; `none` where they are too many. -/
def extendChanges (changes found : List ProposalChange) : Option (List ProposalChange) :=
  if (changes ++ found).length > maxImportChanges then none else some (changes ++ found)

/-- The same where nothing is found: the length is not looked at. -/
def extendNew (changes found : List ProposalChange) : Option (List ProposalChange) :=
  if found = [] then some changes else extendChanges changes found

/-- One turn of the loop of `_changes` over the sections. -/
def changeSection (before after : List (String × Json)) (changes : List ProposalChange)
    (part : String × List (String × ImportKind)) : Option (List ProposalChange) := do
  let original := numberedRows (sectionRows before part.1)
  let revised := numberedRows (sectionRows after part.1)
  let changes ← original.foldlM (fun changes entry =>
    extendChanges changes (rowChanges part.1 (part.2.map Prod.fst) revised entry)) changes
  revised.foldlM (fun changes entry => extendNew changes (newChanges part.1 original entry)) changes

/-- `_changes` -/
def importChanges (before after : List (String × Json)) : Option (List ProposalChange) :=
  importFields.foldlM (changeSection before after) []

/-! ## The comparison -/

/-- How many changes of a section have an action. -/
def countChanges (changes : List ProposalChange) (name : String) (action : ChangeAction) : Nat :=
  changes.countP fun change => change.sectionName = name ∧ change.action = action

/-- `compare_import_bytes`; `none` where a document that was found valid is not read again. -/
def compareImportBytes (lib : ImportPrimitives) (sha256 : ByteArray → String)
    (before after : ByteArray) : Option ImportComparisonReport := do
  let original := validateImportBytes lib before
  let revised := validateImportBytes lib after
  let issues := original.issues.map (fun issue => ComparisonIssue.mk .before issue.code issue.location) ++
    revised.issues.map fun issue => ComparisonIssue.mk .after issue.code issue.location
  if issues ≠ [] then
    return { status := .invalid
             issues := issues.take maxImportIssues
             issuesTruncated := maxImportIssues < issues.length || original.issuesTruncated || revised.issuesTruncated }
  else
    match loadImport lib before, loadImport lib after with
    | some (.obj original), some (.obj revised) =>
      if Json.get? "scope" original ≠ Json.get? "scope" revised then
        return { status := .invalid, issues := [⟨.comparison, "incompatible_scope", "/scope"⟩] }
      else
        match importChanges original revised with
        | none => return { status := .unavailable, issues := [⟨.comparison, "too_many_changes", "/"⟩] }
        | some changes =>
          return { status := .compared
                   changes
                   counts := importFields.map fun part => (part.1, countChanges changes part.1 .added,
                     countChanges changes part.1 .removed, countChanges changes part.1 .changed)
                   hashes := [("before_sha256", sha256 before), ("after_sha256", sha256 after)] }
    | _, _ => none

/-! ## Keyed records -/

/-- A row as a dictionary. -/
def rowRecord : Json → String → Option Json
  | .obj members, name => Json.get? name members
  | _, _ => none

/-- The record of a key: a section and a row's key in it. -/
def recordAt (document : List (String × Json)) (key : String × Json) : Option (String → Option Json) :=
  if key.1 ∈ importFields.map Prod.fst then
    ((sectionRows document key.1).find? (rowField · "key" = key.2)).map rowRecord
  else none

/-- The row at a position of a section. -/
def rowAt (document : List (String × Json)) (name : String) (number : Option Nat) : Json :=
  (number.bind fun number => (sectionRows document name)[number]?).getD .null

/-- What a change does to the first file's record: the fields that it names are those of
the second file's row. -/
def ProposalChange.edit (before after : List (String × Json)) (change : ProposalChange) :
    Edit (String × Json) (String → Option Json) :=
  let row := rowAt before change.sectionName change.beforeRow
  let new := rowAt after change.sectionName change.afterRow
  match change.action with
  | .added => ⟨(change.sectionName, rowField new "key"), none, some (rowRecord new)⟩
  | .removed => ⟨(change.sectionName, rowField row "key"), some (rowRecord row), none⟩
  | .changed => ⟨(change.sectionName, rowField row "key"), some (rowRecord row),
      some fun name => if name ∈ change.fields then rowRecord new name else rowRecord row name⟩

/-- What a valid proposal's rows are. -/
structure Proposal (document : List (String × Json)) : Prop where
  /-- No key twice in a section. -/
  distinct : ∀ part ∈ importFields, ((sectionRows document part.1).map (rowField · "key")).Nodup
  /-- A row has exactly the fields of its section. -/
  closed : ∀ part ∈ importFields, ∀ row ∈ sectionRows document part.1, ∀ name,
    (rowRecord row name).isSome ↔ name ∈ part.2.map Prod.fst

/-! ## All changes -/

/-- The changes of a section. -/
def sectionChanges (before after : List (String × Json))
    (part : String × List (String × ImportKind)) : List ProposalChange :=
  (numberedRows (sectionRows before part.1)).flatMap
      (rowChanges part.1 (part.2.map Prod.fst) (numberedRows (sectionRows after part.1))) ++
    (numberedRows (sectionRows after part.1)).flatMap (newChanges part.1 (numberedRows (sectionRows before part.1)))

/-- The changes without the bound. -/
def changesOf (before after : List (String × Json)) : List ProposalChange :=
    importFields.flatMap (sectionChanges before after)

theorem extendChanges_eq (changes found : List ProposalChange) : extendChanges changes found =
    if (changes ++ found).length ≤ maxImportChanges then some (changes ++ found) else none := by
  unfold extendChanges
  split
  · rename_i long
    rw [if_neg (by omega)]
  · rename_i short
    rw [if_pos (by omega)]

theorem extendNew_eq {changes : List ProposalChange} (h : changes.length ≤ maxImportChanges)
    (found : List ProposalChange) :
    extendNew changes found =
      if (changes ++ found).length ≤ maxImportChanges then some (changes ++ found) else none := by
  unfold extendNew
  split
  · rename_i nothing
    rw [nothing, List.append_nil, if_pos h]
  · exact extendChanges_eq changes found

/-- One turn appends the changes of the section. -/
theorem changeSection_eq (before after : List (String × Json)) (changes : List ProposalChange)
    (part : String × List (String × ImportKind)) (h : changes.length ≤ maxImportChanges) :
    changeSection before after changes part =
      if (changes ++ sectionChanges before after part).length ≤ maxImportChanges then
        some (changes ++ sectionChanges before after part) else none := by
  have old := Budget.foldlM_append_bounded (fun acc entry _ =>
    extendChanges_eq acc (rowChanges part.1 (part.2.map Prod.fst) (numberedRows (sectionRows after part.1)) entry))
    (numberedRows (sectionRows before part.1)) h
  simp only [changeSection, Option.bind_eq_bind, old]
  split
  · rename_i fits
    have new := Budget.foldlM_append_bounded (fun acc entry ha =>
      extendNew_eq ha (newChanges part.1 (numberedRows (sectionRows before part.1)) entry))
      (numberedRows (sectionRows after part.1)) fits
    rw [Option.bind_some, new, List.append_assoc]
    rfl
  · rename_i long
    have long' : ¬ (changes ++ sectionChanges before after part).length ≤ maxImportChanges := by
      rw [sectionChanges, ← List.append_assoc, List.length_append]
      omega
    rw [if_neg long']
    rfl

/-- The bound only cuts off. -/
theorem importChanges_eq (before after : List (String × Json)) : importChanges before after =
    if (changesOf before after).length ≤ maxImportChanges then some (changesOf before after) else none :=
  Budget.foldlM_append_bounded (changeSection_eq before after) importFields (Nat.zero_le _)

/-! ## One section -/

theorem rowField_eq (row : Json) (name : String) : rowField row name = (rowRecord row name).getD .null := by
  cases row <;> rfl

section

variable {rows : List Json} (distinct : (rows.map (rowField · "key")).Nodup)

include distinct

theorem nodup_zipIdx_keys : (rows.zipIdx.map fun row => rowField row.1 "key").Nodup := by
  have keys : (rows.zipIdx.map fun row => rowField row.1 "key") = rows.map (rowField · "key") := by
    calc
      _ = (rows.zipIdx.map Prod.fst).map (rowField · "key") := by rw [List.map_map]; rfl
      _ = rows.map (rowField · "key") := by rw [List.zipIdx_map_fst]
  rw [keys]
  exact distinct

theorem numberedRows_eq : numberedRows rows = rows.zipIdx.map fun row => (rowField row.1 "key", row) :=
  Dict.keyed_eq_map (nodup_zipIdx_keys distinct)

theorem get?_numberedRows {key : Json} {row : Json × Nat} :
    Dict.get? (numberedRows rows) key = some row ↔ rows[row.2]? = some row.1 ∧ rowField row.1 "key" = key := by
  rw [numberedRows, Dict.get?_keyed (nodup_zipIdx_keys distinct), List.mem_zipIdx_iff_getElem?]

theorem mem_numberedRows {entry : Json × Json × Nat} :
    entry ∈ numberedRows rows ↔ rows[entry.2.2]? = some entry.2.1 ∧ rowField entry.2.1 "key" = entry.1 := by
  rw [numberedRows_eq distinct, List.mem_map]
  constructor
  · rintro ⟨row, hr, rfl⟩
    exact ⟨List.mem_zipIdx_iff_getElem?.mp hr, rfl⟩
  · rintro ⟨hr, hk⟩
    exact ⟨entry.2, List.mem_zipIdx_iff_getElem?.mpr hr, Prod.ext hk rfl⟩

end

section

variable {before after : List (String × Json)} (hb : Proposal before) (ha : Proposal after)
  {part : String × List (String × ImportKind)} (hp : part ∈ importFields)

include hp

/-- A record is that of the row which the dictionary has under its key. -/
theorem recordAt_eq {document : List (String × Json)} (h : Proposal document) (key : Json) :
    recordAt document (part.1, key) = (Dict.get? (numberedRows (sectionRows document part.1)) key).map
      fun row => rowRecord row.1 := by
  have distinct := h.distinct part hp
  rw [recordAt, if_pos (List.mem_map_of_mem hp)]
  refine Option.ext fun record => ?_
  simp only [Option.map_eq_some_iff, find?_key_eq_some distinct, get?_numberedRows distinct]
  constructor
  · rintro ⟨row, ⟨hr, hk⟩, rfl⟩
    obtain ⟨number, hn⟩ := List.mem_iff_getElem?.mp hr
    exact ⟨(row, number), ⟨hn, hk⟩, rfl⟩
  · rintro ⟨row, ⟨hr, hk⟩, rfl⟩
    exact ⟨row.1, ⟨List.mem_of_getElem? hr, hk⟩, rfl⟩

/-- A field that is not listed is the same in both rows, or in neither. -/
theorem rowRecord_unchanged (hb : Proposal before) (ha : Proposal after) {row new : Json}
    (hr : row ∈ sectionRows before part.1)
    (hn : new ∈ sectionRows after part.1) (key : rowField row "key" = rowField new "key") {name : String}
    (unchanged : name ∉ changedNames (part.2.map Prod.fst) row new) : rowRecord row name = rowRecord new name := by
  have inRow := hb.closed part hp row hr name
  have inNew := ha.closed part hp new hn name
  by_cases known : name ∈ part.2.map Prod.fst
  · have same : rowField row name = rowField new name := by
      by_cases isKey : name = "key"
      · rw [isKey, key]
      · by_contra differs
        exact unchanged (List.mem_filter.mpr ⟨known, decide_eq_true ⟨isKey, differs⟩⟩)
    obtain ⟨value, hv⟩ := Option.isSome_iff_exists.mp (inRow.mpr known)
    obtain ⟨value', hv'⟩ := Option.isSome_iff_exists.mp (inNew.mpr known)
    rw [rowField_eq, rowField_eq, hv, hv'] at same
    rw [hv, hv']
    exact congrArg some same
  · have absent : rowRecord row name = none := Option.not_isSome_iff_eq_none.mp (mt inRow.mp known)
    have absent' : rowRecord new name = none := Option.not_isSome_iff_eq_none.mp (mt inNew.mp known)
    rw [absent, absent']

theorem changedNames_eq_nil (hb : Proposal before) (ha : Proposal after) {row new : Json}
    (hr : row ∈ sectionRows before part.1)
    (hn : new ∈ sectionRows after part.1) (key : rowField row "key" = rowField new "key") :
    changedNames (part.2.map Prod.fst) row new = [] ↔ rowRecord row = rowRecord new := by
  constructor
  · intro none'
    funext name
    exact rowRecord_unchanged hp hb ha hr hn key (none' ▸ List.not_mem_nil)
  · intro same
    refine List.filter_eq_nil_iff.mpr fun name _ changed => ?_
    have := (of_decide_eq_true changed).2
    rw [rowField_eq, rowField_eq, same] at this
    exact this rfl

/-- The edit of a key. -/
def editAt (before after : List (String × Json)) (key : String × Json) : Edit (String × Json) (String → Option Json) :=
  ⟨key, recordAt before key, recordAt after key⟩

/-- What a row of the section before makes: nothing, or the one edit of its key. -/
theorem edits_rowChanges (hb : Proposal before) (ha : Proposal after) {entry : Json × Json × Nat}
    (he : entry ∈ numberedRows (sectionRows before part.1)) :
    (recordAt before (part.1, entry.1) = recordAt after (part.1, entry.1) ∧
      rowChanges part.1 (part.2.map Prod.fst) (numberedRows (sectionRows after part.1)) entry = []) ∨
    (recordAt before (part.1, entry.1) ≠ recordAt after (part.1, entry.1) ∧
      (rowChanges part.1 (part.2.map Prod.fst) (numberedRows (sectionRows after part.1)) entry).map
          (ProposalChange.edit before after) =
        [editAt before after (part.1, entry.1)]) := by
  obtain ⟨key, row, number⟩ := entry
  obtain ⟨hr, hk⟩ := (mem_numberedRows (hb.distinct part hp)).mp he
  dsimp only at hr hk
  subst hk
  have here : Dict.get? (numberedRows (sectionRows before part.1)) (rowField row "key") = some (row, number) :=
    (get?_numberedRows (hb.distinct part hp)).mpr ⟨hr, rfl⟩
  have old : recordAt before (part.1, rowField row "key") = some (rowRecord row) := by
    rw [recordAt_eq hp hb, here]
    rfl
  have rowAtBefore : rowAt before part.1 (some number) = row := by rw [rowAt, Option.bind_some, hr]; rfl
  dsimp only
  cases found : Dict.get? (numberedRows (sectionRows after part.1)) (rowField row "key") with
  | none =>
    have gone : recordAt after (part.1, rowField row "key") = none := by rw [recordAt_eq hp ha, found]; rfl
    refine .inr ⟨by rw [old, gone]; nofun, ?_⟩
    simp only [rowChanges, found, List.map_cons, List.map_nil, ProposalChange.edit, rowAtBefore, editAt, old, gone]
  | some revised =>
    obtain ⟨new, number'⟩ := revised
    obtain ⟨hn, hk⟩ := (get?_numberedRows (ha.distinct part hp)).mp found
    dsimp only at hn hk
    have revised : recordAt after (part.1, rowField row "key") = some (rowRecord new) := by
      rw [recordAt_eq hp ha, found]
      rfl
    have same := changedNames_eq_nil hp hb ha (List.mem_of_getElem? hr) (List.mem_of_getElem? hn) hk.symm
    simp only [rowChanges, found]
    by_cases unchanged : changedNames (part.2.map Prod.fst) row new = []
    · rw [if_pos unchanged, old, revised]
      exact .inl ⟨congrArg some (same.mp unchanged), rfl⟩
    · refine .inr ⟨fun equal => unchanged (same.mpr (Option.some.inj (old.symm.trans (equal.trans revised)))), ?_⟩
      have rowAtAfter : rowAt after part.1 (some number') = new := by rw [rowAt, Option.bind_some, hn]; rfl
      have merged : (fun name => if name ∈ changedNames (part.2.map Prod.fst) row new then rowRecord new name
          else rowRecord row name) = rowRecord new := by
        funext name
        split
        · rfl
        · rename_i kept
          exact rowRecord_unchanged hp hb ha (List.mem_of_getElem? hr) (List.mem_of_getElem? hn) hk.symm kept
      rw [if_neg unchanged, List.map_cons, List.map_nil]
      simp only [ProposalChange.edit, rowAtBefore, rowAtAfter, merged, editAt, old, revised]

/-- What a row of the section after makes: nothing, or the one edit of its key. -/
theorem edits_newChanges (hb : Proposal before) (ha : Proposal after) {entry : Json × Json × Nat}
    (he : entry ∈ numberedRows (sectionRows after part.1)) :
    (recordAt before (part.1, entry.1) ≠ none ∧
      newChanges part.1 (numberedRows (sectionRows before part.1)) entry = []) ∨
    (recordAt before (part.1, entry.1) = none ∧ recordAt after (part.1, entry.1) ≠ none ∧
      (newChanges part.1 (numberedRows (sectionRows before part.1)) entry).map
        (ProposalChange.edit before after) = [editAt before after (part.1, entry.1)]) := by
  obtain ⟨key, row, number⟩ := entry
  obtain ⟨hr, hk⟩ := (mem_numberedRows (ha.distinct part hp)).mp he
  dsimp only at hr hk
  subst hk
  have here : Dict.get? (numberedRows (sectionRows after part.1)) (rowField row "key") = some (row, number) :=
    (get?_numberedRows (ha.distinct part hp)).mpr ⟨hr, rfl⟩
  have new : recordAt after (part.1, rowField row "key") = some (rowRecord row) := by
    rw [recordAt_eq hp ha, here]
    rfl
  have rowAtAfter : rowAt after part.1 (some number) = row := by rw [rowAt, Option.bind_some, hr]; rfl
  dsimp only
  cases found : Dict.get? (numberedRows (sectionRows before part.1)) (rowField row "key") with
  | none =>
    have absent : recordAt before (part.1, rowField row "key") = none := by rw [recordAt_eq hp hb, found]; rfl
    refine .inr ⟨absent, by rw [new]; exact Option.some_ne_none _, ?_⟩
    simp only [newChanges, found, Option.isNone_none, if_true, List.map_cons, List.map_nil,
      ProposalChange.edit, rowAtAfter, editAt, absent, new]
  | some old =>
    refine .inl ⟨by rw [recordAt_eq hp hb, found]; exact Option.some_ne_none _, ?_⟩
    simp only [newChanges, found, Option.isNone_some, Bool.false_eq_true, if_false]

theorem mem_keys {document : List (String × Json)} (h : Proposal document) {key : Json} :
    recordAt document (part.1, key) ≠ none ↔ ∃ entry ∈ numberedRows (sectionRows document part.1), entry.1 = key := by
  rw [recordAt_eq hp h, ne_eq, Option.map_eq_none_iff, ← ne_eq, Option.ne_none_iff_exists']
  constructor
  · rintro ⟨row, found⟩
    exact ⟨(key, row),
      (mem_numberedRows (h.distinct part hp)).mpr ((get?_numberedRows (h.distinct part hp)).mp found), rfl⟩
  · rintro ⟨entry, he, rfl⟩
    exact ⟨entry.2, (get?_numberedRows (h.distinct part hp)).mpr ((mem_numberedRows (h.distinct part hp)).mp he)⟩

/-- The edits of a section are those of the keys whose records differ. -/
theorem mem_sectionEdits (hb : Proposal before) (ha : Proposal after)
    {edit : Edit (String × Json) (String → Option Json)} :
    edit ∈ (sectionChanges before after part).map (ProposalChange.edit before after) ↔
      ∃ key, recordAt before (part.1, key) ≠ recordAt after (part.1, key) ∧
        edit = editAt before after (part.1, key) := by
  simp only [sectionChanges, List.map_append, List.map_flatMap, List.mem_append, List.mem_flatMap]
  constructor
  · rintro (⟨entry, he, hm⟩ | ⟨entry, he, hm⟩)
    · rcases edits_rowChanges hp hb ha he with ⟨_, nothing⟩ | ⟨differs, one⟩
      · rw [nothing] at hm
        cases hm
      · rw [one] at hm
        exact ⟨entry.1, differs, List.mem_singleton.mp hm⟩
    · rcases edits_newChanges hp hb ha he with ⟨_, nothing⟩ | ⟨absent, found, one⟩
      · rw [nothing] at hm
        cases hm
      · rw [one] at hm
        exact ⟨entry.1, absent ▸ found.symm, List.mem_singleton.mp hm⟩
  · rintro ⟨key, differs, rfl⟩
    by_cases old : recordAt before (part.1, key) = none
    · have found : recordAt after (part.1, key) ≠ none := fun gone => differs (old.trans gone.symm)
      obtain ⟨entry, he, rfl⟩ := (mem_keys hp ha).mp found
      refine .inr ⟨entry, he, ?_⟩
      rcases edits_newChanges hp hb ha he with ⟨known, _⟩ | ⟨_, _, one⟩
      · exact absurd old known
      · rw [one]
        exact List.mem_singleton_self _
    · obtain ⟨entry, he, rfl⟩ := (mem_keys hp hb).mp old
      refine .inl ⟨entry, he, ?_⟩
      rcases edits_rowChanges hp hb ha he with ⟨same, _⟩ | ⟨_, one⟩
      · exact absurd same differs
      · rw [one]
        exact List.mem_singleton_self _

/-- No key is edited twice. -/
theorem nodup_sectionEdits (hb : Proposal before) (ha : Proposal after) :
    (((sectionChanges before after part).map (ProposalChange.edit before after)).map Edit.key).Nodup := by
  have keys {document : List (String × Json)} (h : Proposal document) :
      ((numberedRows (sectionRows document part.1)).map fun entry => (part.1, entry.1)).Nodup := by
    have nodup := Dict.nodup_keyed (fun row : Json × Nat => rowField row.1 "key") (sectionRows document part.1).zipIdx
    have pairs := nodup.map (f := fun key => (part.1, key)) fun _ _ same => congrArg Prod.snd same
    rwa [List.map_map] at pairs
  simp only [sectionChanges, List.map_append, List.map_flatMap]
  refine List.Nodup.append ((flatMap_sublist_map fun entry he => ?_).nodup (keys hb))
    ((flatMap_sublist_map fun entry he => ?_).nodup (keys ha)) fun key old new => ?_
  · rcases edits_rowChanges hp hb ha he with ⟨_, nothing⟩ | ⟨_, one⟩
    · exact .inl (by rw [nothing]; rfl)
    · exact .inr (by rw [one]; rfl)
  · rcases edits_newChanges hp hb ha he with ⟨_, nothing⟩ | ⟨_, _, one⟩
    · exact .inl (by rw [nothing]; rfl)
    · exact .inr (by rw [one]; rfl)
  · -- A key of the section before is not new.
    obtain ⟨entry, he, hk⟩ := List.mem_flatMap.mp old
    obtain ⟨entry', he', hk'⟩ := List.mem_flatMap.mp new
    have known : recordAt before (part.1, entry.1) ≠ none := (mem_keys hp hb).mpr ⟨entry, he, rfl⟩
    rcases edits_rowChanges hp hb ha he with ⟨_, nothing⟩ | ⟨_, one⟩
    · rw [nothing] at hk
      cases hk
    · rcases edits_newChanges hp hb ha he' with ⟨_, nothing⟩ | ⟨absent, _, one'⟩
      · rw [nothing] at hk'
        cases hk'
      · rw [one] at hk
        rw [one'] at hk'
        have same := (List.mem_singleton.mp hk).symm.trans (List.mem_singleton.mp hk')
        exact known ((congrArg (recordAt before) same).trans absent)

end

/-! ## The whole comparison -/

section

variable {before after : List (String × Json)}

theorem recordAt_section {document : List (String × Json)} {key : String × Json}
    (h : recordAt document key ≠ none) : ∃ part ∈ importFields, part.1 = key.1 := by
  unfold recordAt at h
  split at h
  · rename_i known
    exact List.mem_map.mp known
  · exact absurd rfl h

/-- The edits are those of the keys whose records differ. -/
theorem mem_edits (hb : Proposal before) (ha : Proposal after) {edit : Edit (String × Json) (String → Option Json)} :
    edit ∈ (changesOf before after).map (ProposalChange.edit before after) ↔
      recordAt before edit.key ≠ recordAt after edit.key ∧ edit = editAt before after edit.key := by
  rw [changesOf, List.map_flatMap, List.mem_flatMap]
  constructor
  · rintro ⟨part, hp, he⟩
    obtain ⟨key, differs, rfl⟩ := (mem_sectionEdits hp hb ha).mp he
    exact ⟨differs, rfl⟩
  · rintro ⟨differs, he⟩
    have known : recordAt before edit.key ≠ none ∨ recordAt after edit.key ≠ none := by
      by_contra unknown
      obtain ⟨gone, gone'⟩ := not_or.mp unknown
      exact differs ((not_not.mp gone).trans (not_not.mp gone').symm)
    obtain ⟨part, hp, name⟩ := known.elim recordAt_section recordAt_section
    have key : edit.key = (part.1, edit.key.2) := by rw [name]
    rw [key] at differs he
    exact ⟨part, hp, (mem_sectionEdits hp hb ha).mpr ⟨_, differs, he⟩⟩

theorem nodup_edits (hb : Proposal before) (ha : Proposal after) :
    (((changesOf before after).map (ProposalChange.edit before after)).map Edit.key).Nodup := by
  rw [changesOf, List.map_flatMap, List.map_flatMap, List.nodup_flatMap]
  refine ⟨fun part hp => nodup_sectionEdits hp hb ha, ?_⟩
  have names : importFields.Pairwise fun part part' => part.1 ≠ part'.1 := by decide
  refine names.imp_of_mem fun {part part'} hp hp' apart => ?_
  intro key hk hk'
  obtain ⟨edit, he, rfl⟩ := List.mem_map.mp hk
  obtain ⟨edit', he', same⟩ := List.mem_map.mp hk'
  obtain ⟨_, _, rfl⟩ := (mem_sectionEdits hp hb ha).mp he
  obtain ⟨_, _, rfl⟩ := (mem_sectionEdits hp' hb ha).mp he'
  exact apart (congrArg Prod.fst same).symm

/-- The changes are edits between the two files' records. -/
theorem between_changesOf (hb : Proposal before) (ha : Proposal after) :
    Edit.Between (recordAt before) (recordAt after)
      ((changesOf before after).map (ProposalChange.edit before after)) where
  before := fun edit he => by rw [((mem_edits hb ha).mp he).2]; rfl
  after := fun edit he => by rw [((mem_edits hb ha).mp he).2]; rfl
  complete := fun key differs => ⟨editAt before after key, (mem_edits hb ha).mpr ⟨differs, rfl⟩, rfl⟩

/-- How many records differ. -/
noncomputable def differences (before after : List (String × Json)) : Nat :=
  Set.ncard {key | recordAt before key ≠ recordAt after key}

/-- There is one change for each record that differs. -/
theorem length_changesOf (hb : Proposal before) (ha : Proposal after) :
    (changesOf before after).length = differences before after := by
  have keys : {key | recordAt before key ≠ recordAt after key} =
      ((((changesOf before after).map (ProposalChange.edit before after)).map Edit.key).toFinset : Set
        (String × Json)) := by
    ext key
    simp only [Set.mem_ofPred_eq, List.coe_toFinset, List.mem_map (f := Edit.key)]
    constructor
    · exact fun differs => ⟨editAt before after key, (mem_edits hb ha).mpr ⟨differs, rfl⟩, rfl⟩
    · rintro ⟨edit, he, rfl⟩
      exact ((mem_edits hb ha).mp he).1
  rw [differences, keys, Set.ncard_coe_finset, List.toFinset_card_of_nodup (nodup_edits hb ha),
    List.length_map, List.length_map]

/-- Rows in another order are the same records. -/
theorem recordAt_perm (hb : Proposal before)
    (perm : ∀ part ∈ importFields, (sectionRows before part.1).Perm (sectionRows after part.1)) :
    recordAt before = recordAt after := by
  funext key
  unfold recordAt
  split
  · rename_i known
    obtain ⟨part, hp, name⟩ := List.mem_map.mp known
    rw [← name, find?_key_perm (hb.distinct part hp) (perm part hp)]
  · rfl

end

/-! ## Valid files -/

/-- The document of a file. -/
def proposalOf (lib : ImportPrimitives) (raw : ByteArray) : List (String × Json) :=
  match loadImport lib raw with
  | some (.obj document) => document
  | _ => []

theorem proposal_of_documentIssues {lib : ImportPrimitives} {document : List (String × Json)}
    (h : documentIssues lib document = []) : Proposal document := by
  obtain ⟨structured, indexed⟩ := documentIssues_eq_nil h
  simp only [structureIssues, List.append_eq_nil_iff] at structured
  obtain ⟨⟨⟨closed, _⟩, _⟩, sections⟩ := structured
  constructor
  case distinct =>
    intro part hp
    have keys := (duplicateKeyIssues_eq_nil (List.flatMap_eq_nil_iff.mp indexed part hp)).1
    have rows : ((sectionRows document part.1).zipIdx.map fun row => rowField row.1 "key") =
        (sectionRows document part.1).map (rowField · "key") := by
      calc
        _ = ((sectionRows document part.1).zipIdx.map Prod.fst).map (rowField · "key") := by rw [List.map_map]; rfl
        _ = _ := by rw [List.zipIdx_map_fst]
    rwa [rows] at keys
  case closed =>
    intro part hp row hr name
    have present : part.1 ∈ document.map Prod.fst :=
      (closedIssues_eq_nil.mp closed part.1).mpr (List.mem_append_right _ (List.mem_map_of_mem hp))
    obtain ⟨value, hv⟩ := Option.isSome_iff_exists.mp (get?_isSome.mpr present)
    have part' := List.flatMap_eq_nil_iff.mp sections part hp
    rw [hv, Option.map_some, Option.getD_some] at part'
    obtain ⟨rows, rfl, each⟩ := sectionIssues_eq_nil part'
    rw [sectionRows, hv] at hr
    obtain ⟨members, rfl, names⟩ := each row hr
    rw [rowRecord, get?_isSome, names]

theorem proposalOf_valid {lib : ImportPrimitives} {raw : ByteArray} (h : (validateImportBytes lib raw).status = .valid) :
    loadImport lib raw = some (.obj (proposalOf lib raw)) ∧ Proposal (proposalOf lib raw) := by
  obtain ⟨document, loaded, issues, _⟩ := validateImportBytes_valid h
  have same : proposalOf lib raw = document := by rw [proposalOf, loaded]
  rw [same]
  exact ⟨loaded, proposal_of_documentIssues issues⟩

/-- What the comparison of two valid files answers. -/
theorem compareImportBytes_valid {lib : ImportPrimitives} {sha256 : ByteArray → String} {before after : ByteArray}
    (valid : (validateImportBytes lib before).status = .valid)
      (valid' : (validateImportBytes lib after).status = .valid) :
    ∃ report, compareImportBytes lib sha256 before after = some report ∧
      (Json.get? "scope" (proposalOf lib before) ≠ Json.get? "scope" (proposalOf lib after) →
        report.status = .invalid ∧ report.issues = [⟨.comparison, "incompatible_scope", "/scope"⟩] ∧
          report.changes = []) ∧
      (Json.get? "scope" (proposalOf lib before) = Json.get? "scope" (proposalOf lib after) →
        (changesOf (proposalOf lib before) (proposalOf lib after)).length ≤ maxImportChanges →
        report.status = .compared ∧ report.changes = changesOf (proposalOf lib before) (proposalOf lib after)) ∧
      (Json.get? "scope" (proposalOf lib before) = Json.get? "scope" (proposalOf lib after) →
        ¬ (changesOf (proposalOf lib before) (proposalOf lib after)).length ≤ maxImportChanges →
        report.status = .unavailable ∧ report.changes = []) := by
  obtain ⟨_, _, _, issues, _⟩ := validateImportBytes_valid valid
  obtain ⟨_, _, _, issues', _⟩ := validateImportBytes_valid valid'
  simp only [compareImportBytes, issues, issues', List.map_nil, List.append_nil, ne_eq, not_true_eq_false, if_false,
    (proposalOf_valid valid).1, (proposalOf_valid valid').1, importChanges_eq]
  by_cases scope : Json.get? "scope" (proposalOf lib before) = Json.get? "scope" (proposalOf lib after)
  · rw [if_neg (not_not.mpr scope)]
    by_cases short : (changesOf (proposalOf lib before) (proposalOf lib after)).length ≤ maxImportChanges
    · rw [if_pos short]
      exact ⟨_, rfl, fun other => absurd scope other, fun _ _ => ⟨rfl, rfl⟩, fun _ long => absurd short long⟩
    · rw [if_neg short]
      exact ⟨_, rfl, fun other => absurd scope other, fun _ fits => absurd fits short, fun _ _ => ⟨rfl, rfl⟩⟩
  · rw [if_pos scope]
    exact ⟨_, rfl, fun _ => ⟨rfl, rfl, rfl⟩, fun same => absurd same scope, fun same => absurd same scope⟩

/-- Two valid files of one scope are compared completely where not too many records differ; the
changes turn the records of the first into those of the second, and there are none where the records
are the same, as they are where only the rows stand in another order or the text is written
otherwise. Files of two scopes are not compared. -/
theorem compare_proposals (lib : ImportPrimitives) (sha256 : ByteArray → String) (before after : ByteArray)
    (valid : (validateImportBytes lib before).status = .valid)
      (valid' : (validateImportBytes lib after).status = .valid) :
    ∃ report, compareImportBytes lib sha256 before after = some report ∧
      (Json.get? "scope" (proposalOf lib before) ≠ Json.get? "scope" (proposalOf lib after) →
        report.status = .invalid ∧ report.issues = [⟨.comparison, "incompatible_scope", "/scope"⟩] ∧
          report.changes = []) ∧
      (Json.get? "scope" (proposalOf lib before) = Json.get? "scope" (proposalOf lib after) →
        (report.status = .compared ↔ differences (proposalOf lib before) (proposalOf lib after) ≤ maxImportChanges) ∧
        (report.status = .compared →
          Edit.applyAll (recordAt (proposalOf lib before))
              (report.changes.map (ProposalChange.edit (proposalOf lib before) (proposalOf lib after))) =
            recordAt (proposalOf lib after) ∧
          (report.changes = [] ↔ recordAt (proposalOf lib before) = recordAt (proposalOf lib after)) ∧
          ((∀ part ∈ importFields,
              (sectionRows (proposalOf lib before) part.1).Perm (sectionRows (proposalOf lib after) part.1)) →
            report.changes = []))) := by
  obtain ⟨report, compared, otherScope, short, long⟩ := @compareImportBytes_valid lib sha256 before after valid valid'
  have hb := (proposalOf_valid valid).2
  have ha := (proposalOf_valid valid').2
  refine ⟨report, compared, otherScope, fun scope => ?_⟩
  have length := length_changesOf hb ha
  by_cases fits : (changesOf (proposalOf lib before) (proposalOf lib after)).length ≤ maxImportChanges
  · obtain ⟨status, changes⟩ := short scope fits
    have nothing : report.changes = [] ↔ recordAt (proposalOf lib before) = recordAt (proposalOf lib after) := by
      rw [changes]
      constructor
      · intro empty
        have applied := (between_changesOf hb ha).applyAll
        rw [empty] at applied
        exact applied
      · intro same
        have empty : (changesOf (proposalOf lib before) (proposalOf lib after)).map
            (ProposalChange.edit (proposalOf lib before) (proposalOf lib after)) = [] :=
          List.eq_nil_iff_forall_not_mem.mpr fun edit he => ((mem_edits hb ha).mp he).1 (congrFun same _)
        exact List.map_eq_nil_iff.mp empty
    refine ⟨iff_of_true status (length ▸ fits), fun _ => ⟨?_, nothing, fun perm => nothing.mpr (recordAt_perm hb perm)⟩⟩
    rw [changes]
    exact (between_changesOf hb ha).applyAll
  · obtain ⟨status, _⟩ := long scope fits
    have incomplete : report.status ≠ .compared := by
      rw [status]
      decide
    exact ⟨iff_of_false incomplete (length ▸ fits), fun done => absurd done incomplete⟩

/-- A proposal of these people and nothing else. -/
def peopleProposal (organization : String) (people : List (String × String)) : List (String × Json) :=
  [("assignments", .arr []), ("commitments", .arr []), ("departments", .arr []),
    ("format", .str "maru.workforce-import"),
    ("people", .arr (people.map fun person => .obj [("key", .str person.1), ("label", .str person.2)])),
    ("positions", .arr []), ("profile", .str "workforce_only@1"),
    ("scope", .obj [("edition_key", .str "e"), ("organization_key", .str organization), ("time_zone", .str "UTC")]),
    ("shifts", .arr []), ("version", .int 1)]

/-- The file of a proposal. -/
def peopleFile (organization : String) (people : List (String × String)) : ByteArray :=
  Json.encode (.obj (peopleProposal organization people))

/-- The library on texts that are ASCII and in UTC. -/
def plainLibrary : ImportPrimitives where
  nfc := id
  zone := fun name => if name = "UTC" then some fun _ => 0 else none
  floatRepr := id

theorem canonical_peopleProposal (organization : String) (people : List (String × String)) :
    Json.Canonical (.obj (peopleProposal organization people)) := by
  have rows : Json.CanonicalElems (people.map fun person =>
    .obj [("key", .str person.1), ("label", .str person.2)]) := by
    induction people with
    | nil => trivial
    | cons person people ih =>
      exact ⟨⟨⟨trivial, trivial, trivial⟩, by show List.Pairwise _ ["key", "label"]; decide⟩, ih⟩
  have scope : ["edition_key", "organization_key", "time_zone"].Pairwise (· < ·) := by decide
  have names : ["assignments", "commitments", "departments", "format", "people", "positions",
      "profile", "scope", "shifts", "version"].Pairwise (· < ·) := by decide
  have version : (Digits.decimal 1).length ≤ Json.maxIntDigits := by decide
  exact ⟨⟨trivial, trivial, trivial, trivial, rows, trivial, trivial,
    ⟨⟨trivial, trivial, trivial, trivial⟩, scope⟩, trivial,
    version, trivial⟩, names⟩

/-- What is left to see of a file of people. -/
theorem peopleFile_valid {organization : String} {people : List (String × String)}
    (bounded : boundedNumbers (.obj (peopleProposal organization people)) = true)
    (small : Json.size (Json.chars (.obj (peopleProposal organization people))) ≤ maxImportBytes)
    (shallow : (((Json.chars (.obj (peopleProposal organization people))).flatMap String.utf8EncodeChar).foldlM
      DepthScan.next ⟨0, false, false⟩).isSome = true)
    (issues : documentIssues plainLibrary (peopleProposal organization people) = []) :
    (validateImportBytes plainLibrary (peopleFile organization people)).status = .valid ∧
      proposalOf plainLibrary (peopleFile organization people) = peopleProposal organization people := by
  have canonical := canonical_peopleProposal organization people
  rw [validateImportBytes, peopleFile, decodeImport_encode canonical bounded small shallow,
    proposalOf, loadImport_encode canonical]
  exact ⟨by dsimp only; rw [if_pos issues], rfl⟩

/-- The hashes of the three files that follow. -/
def threeHashes (raw : ByteArray) : String :=
  if raw = peopleFile "a" [("p", "Ada"), ("q", "Ben")] then
    "c16936508d914a2716364acf71e6db218203f0410618049d2c5543d49b294050"
  else if raw = peopleFile "a" [("r", "Cid"), ("q", "Bea")] then
    "edcce5d4c5b0825de3c1b857586e64435df4dae1a7fedd5c428b6743a6b84c89"
  else "b61e4e8f523297fa2314a7adaef4bc1b05420a28b97a55867f944a79b29c5e35"

theorem adaBen_valid : (validateImportBytes plainLibrary (peopleFile "a" [("p", "Ada"), ("q", "Ben")])).status = .valid ∧
    proposalOf plainLibrary (peopleFile "a" [("p", "Ada"), ("q", "Ben")]) =
      peopleProposal "a" [("p", "Ada"), ("q", "Ben")] :=
  peopleFile_valid (by decide +kernel) (by decide +kernel) (by decide +kernel) (by decide +kernel)

/-- One person leaves, one is renamed and one comes. -/
theorem compare_proposals_people :
    let before := peopleFile "a" [("p", "Ada"), ("q", "Ben")]
    let after := peopleFile "a" [("r", "Cid"), ("q", "Bea")]
    ∃ report, compareImportBytes plainLibrary threeHashes before after = some report ∧
      report.status = .compared ∧ Edit.applyAll (recordAt (proposalOf plainLibrary before))
          (report.changes.map (ProposalChange.edit (proposalOf plainLibrary before) (proposalOf plainLibrary after))) =
        recordAt (proposalOf plainLibrary after) := by
  intro before after
  have old := adaBen_valid
  have new : (validateImportBytes plainLibrary after).status = .valid ∧
      proposalOf plainLibrary after = peopleProposal "a" [("r", "Cid"), ("q", "Bea")] :=
    peopleFile_valid (by decide +kernel) (by decide +kernel) (by decide +kernel) (by decide +kernel)
  have scope : Json.get? "scope" (proposalOf plainLibrary before) =
    Json.get? "scope" (proposalOf plainLibrary after) := by
    rw [old.2, new.2]
    decide +kernel
  have few : (changesOf (proposalOf plainLibrary before) (proposalOf plainLibrary after)).length ≤ maxImportChanges := by
    rw [old.2, new.2]
    decide +kernel
  obtain ⟨report, compared, _, complete⟩ := compare_proposals plainLibrary threeHashes before after old.1 new.1
  obtain ⟨limit, exact⟩ := complete scope
  rw [length_changesOf (proposalOf_valid old.1).2 (proposalOf_valid new.1).2] at few
  have status := limit.mpr few
  exact ⟨report, compared, status, (exact status).1⟩

/-- Two files that differ in their organization only: no record differs, and
they are not compared. -/
theorem compare_other_scope :
    let before := peopleFile "a" [("p", "Ada"), ("q", "Ben")]
    let after := peopleFile "b" [("p", "Ada"), ("q", "Ben")]
    (validateImportBytes plainLibrary before).status = .valid ∧
      (validateImportBytes plainLibrary after).status = .valid ∧
      differences (proposalOf plainLibrary before) (proposalOf plainLibrary after) ≤ maxImportChanges ∧
      ∃ report, compareImportBytes plainLibrary threeHashes before after = some report ∧ report.status ≠ .compared := by
  intro before after
  have old := adaBen_valid
  have new : (validateImportBytes plainLibrary after).status = .valid ∧
      proposalOf plainLibrary after = peopleProposal "b" [("p", "Ada"), ("q", "Ben")] :=
    peopleFile_valid (by decide +kernel) (by decide +kernel) (by decide +kernel) (by decide +kernel)
  have scope : Json.get? "scope" (proposalOf plainLibrary before) ≠ Json.get? "scope"
    (proposalOf plainLibrary after) := by
    rw [old.2, new.2]
    decide +kernel
  have few : (changesOf (proposalOf plainLibrary before) (proposalOf plainLibrary after)).length ≤ maxImportChanges := by
    rw [old.2, new.2]
    decide +kernel
  rw [length_changesOf (proposalOf_valid old.1).2 (proposalOf_valid new.1).2] at few
  obtain ⟨report, compared, refused, _⟩ := @compareImportBytes_valid plainLibrary threeHashes before after old.1 new.1
  refine ⟨old.1, new.1, few, report, compared, ?_⟩
  rw [(refused scope).1]
  decide

end Maru.Workforce
