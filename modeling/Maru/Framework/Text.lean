import Mathlib.Data.List.Basic

/-!
# White space

The white space of the source language and what its string methods make of it.
-/

namespace Maru

/-- What `\s` matches and `str.strip` removes. -/
def isSpace (c : Char) : Bool :=
  let n := c.toNat
  (9 ≤ n ∧ n ≤ 13) ∨ (28 ≤ n ∧ n ≤ 32) ∨ n = 0x85 ∨ n = 0xa0 ∨ n = 0x1680 ∨
    (0x2000 ≤ n ∧ n ≤ 0x200a) ∨ n = 0x2028 ∨ n = 0x2029 ∨ n = 0x202f ∨ n = 0x205f ∨ n = 0x3000

/-- `str.strip`. -/
def strip (value : String) : String :=
  String.ofList ((value.toList.dropWhile isSpace).reverse.dropWhile isSpace).reverse

/-- `re.sub(r"\s+", " ", value).strip()`: the words of a text, one blank between them. -/
def collapseSpace (value : String) : String :=
  String.ofList ([' '].intercalate ((value.toList.splitOnP isSpace).filter (· ≠ [])))

/-- A text without white space is stripped already. -/
theorem strip_eq_self {value : String} (h : ∀ c ∈ value.toList, isSpace c = false) : strip value = value := by
  have drop : ∀ l : List Char, (∀ c ∈ l, isSpace c = false) → l.dropWhile isSpace = l := by
    intro l hl
    cases l with
    | nil => rfl
    | cons c cs => rw [List.dropWhile_cons_of_neg (by simp [hl c List.mem_cons_self])]
  rw [strip, drop _ h, drop _ fun c hc => h c (List.mem_reverse.mp hc), List.reverse_reverse, String.ofList_toList]

/-- A text without white space is one word. -/
theorem collapseSpace_eq_self {value : String}
    (h : ∀ c ∈ value.toList, isSpace c = false) : collapseSpace value = value := by
  rw [collapseSpace, List.splitOnP_eq_singleton h]
  by_cases empty : value.toList = []
  · rw [String.toList_eq_nil_iff.mp empty]
    rfl
  · rw [List.filter_cons_of_pos (by simpa using empty), List.filter_nil, List.intercalate_singleton,
      String.ofList_toList]

theorem mem_splitOnP {p : Char → Bool} {l w : List Char} (h : w ∈ l.splitOnP p) : ∀ c ∈ w, p c = false := by
  induction l generalizing w with
  | nil =>
    rw [List.splitOnP_nil, List.mem_singleton] at h
    subst h
    simp
  | cons a l ih =>
    rw [List.splitOnP_cons_eq_if_modifyHead] at h
    split at h
    · rcases List.mem_cons.mp h with rfl | h
      · simp
      · exact ih h
    · rename_i ha
      obtain ⟨first, rest, he⟩ := List.exists_cons_of_ne_nil (List.splitOnP_ne_nil p l)
      rw [he, List.modifyHead_cons] at h
      rcases List.mem_cons.mp h with rfl | h
      · rintro c hc
        rcases List.mem_cons.mp hc with rfl | hc
        · simpa using ha
        · exact ih (he ▸ List.mem_cons_self) c hc
      · exact ih (he ▸ List.mem_cons_of_mem _ h)

end Maru
