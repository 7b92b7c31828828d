import Maru.Framework.Table

/-!
# Numbering per owner

Rows that are numbered for each owner apart: the next number is one more than the largest
(`latestNumber`). Where rows are only ever added so, the numbers of an owner are one, two and so on
in the order of the rows (`Numbered`), so that a number names a row of its owner.
-/

namespace Maru

universe u v

variable {α : Type u} {κ : Type v} [DecidableEq κ] {owner : α → κ} {number : α → Nat} {l : List α}

/-- The largest number of an owner, zero where it has none. -/
def latestNumber (owner : α → κ) (number : α → Nat) (l : List α) (k : κ) : Nat :=
  ((l.filter fun x => owner x = k).map number).foldl max 0

def Numbered (owner : α → κ) (number : α → Nat) (l : List α) : Prop :=
  ∀ k, ∃ n, (l.filter fun x => owner x = k).map number = List.range' 1 n

theorem foldl_max_range' (n : Nat) : (List.range' 1 n).foldl max 0 = n := by
  induction n with
  | zero => rfl
  | succ n ih =>
    rw [List.range'_concat, List.foldl_append, ih]
    simp only [List.foldl_cons, List.foldl_nil, Nat.one_mul]
    omega

namespace Numbered

theorem nil : Numbered owner number [] := fun _ => ⟨0, rfl⟩

/-- The numbers of an owner run to its latest. -/
theorem map_eq (h : Numbered owner number l) (k : κ) :
    (l.filter fun x => owner x = k).map number = List.range' 1 (latestNumber owner number l k) := by
  obtain ⟨n, hn⟩ := h k
  rw [latestNumber, hn, foldl_max_range']

theorem latestNumber_eq (h : Numbered owner number l) (k : κ) :
    latestNumber owner number l k = (l.filter fun x => owner x = k).length := by
  have length := congrArg List.length (h.map_eq k)
  rw [List.length_map, List.length_range'] at length
  exact length.symm

/-- A row with the next number of its owner is added. -/
theorem append (h : Numbered owner number l) {x : α} (next : number x = latestNumber owner number l (owner x) + 1) :
    Numbered owner number (l ++ [x]) := by
  intro k
  rw [List.filter_append, List.map_append, h.map_eq, List.filter_singleton]
  by_cases own : owner x = k
  · subst own
    refine ⟨latestNumber owner number l (owner x) + 1, ?_⟩
    rw [decide_eq_true rfl, cond_true, List.map_singleton, next, List.range'_concat, Nat.one_mul, Nat.add_comm 1]
  · refine ⟨latestNumber owner number l k, ?_⟩
    rw [decide_eq_false own, cond_false, List.map_nil, List.append_nil]

theorem le_latestNumber (h : Numbered owner number l) {x : α} (hx : x ∈ l) :
    1 ≤ number x ∧ number x ≤ latestNumber owner number l (owner x) := by
  have mem : number x ∈ (l.filter fun z => owner z = owner x).map number :=
    List.mem_map_of_mem (List.mem_filter.mpr ⟨hx, decide_eq_true rfl⟩)
  rw [h.map_eq, List.mem_range'_1] at mem
  omega

/-- The last row of an owner is the one with the latest number. -/
theorem number_last (h : Numbered owner number l) {k : κ} {l' : List α} {x : α}
    (split : (l.filter fun y => owner y = k) = l' ++ [x]) : number x = l'.length + 1 := by
  have numbers := h.map_eq k
  rw [h.latestNumber_eq, split, List.length_append, List.length_singleton, List.map_append,
    List.range'_concat] at numbers
  have last : number x = 1 + 1 * l'.length := (List.cons.inj (List.append_inj' numbers rfl).2).1
  omega

section

variable {ι : Type v} [DecidableEq ι] {key : α → ι} {t t' : Table key}

/-- A row that is saved keeps its owner and number. -/
theorem latestNumber_save {b x : α} (hb : b ∈ t) (same : key b = key x) (own : owner x = owner b)
    (numbers : number x = number b) (k : κ) :
    latestNumber owner number (t.save x).rows k = latestNumber owner number t.rows k := by
  unfold latestNumber
  rw [Table.filter_map_save hb same (by rw [own]) fun _ => numbers]

theorem insert? (h : Numbered owner number t.rows) {x : α} (inserted : t.insert? x = some t')
    (next : number x = latestNumber owner number t.rows (owner x) + 1) : Numbered owner number t'.rows := by
  rw [(Table.insert?_eq_some.mp inserted).2]
  exact h.append next

theorem save (h : Numbered owner number t.rows) {b x : α} (hb : b ∈ t) (same : key b = key x)
    (own : owner x = owner b) (numbers : number x = number b) : Numbered owner number (t.save x).rows := by
  intro k
  rw [Table.filter_map_save hb same (by rw [own]) fun _ => numbers]
  exact h k

end

end Numbered

/-- A save of the last of the rows that are selected. -/
theorem Table.filter_save_last {ι : Type v} [DecidableEq ι] {key : α → ι} {t : Table key} {p : α → Bool} {l' : List α}
    {b x : α} (split : t.rows.filter p = l' ++ [b]) (same : key b = key x) (selected : p x) :
    (t.save x).rows.filter p = l' ++ [x] := by
  have mem : b ∈ t.rows.filter p := by
    rw [split]
    exact List.mem_append_right l' (List.mem_singleton.mpr rfl)
  obtain ⟨hb, chosen⟩ := List.mem_filter.mp mem
  have distinct : ((l' ++ [b]).map key).Nodup := by
    rw [← split]
    exact (List.filter_sublist.map key).nodup t.nodup
  have others : ∀ a ∈ l', key a ≠ key x := by
    intro a ha e
    rw [List.map_append, List.nodup_append] at distinct
    exact distinct.2.2 _ (List.mem_map_of_mem ha) _ (List.mem_singleton.mpr rfl) (e.trans same.symm)
  have selects : (t.save x).rows.filter p = (t.rows.filter p).map fun a => if key a = key x then x else a := by
    rw [Table.rows_save, List.filter_map]
    refine congrArg _ (List.filter_congr fun a ha => ?_)
    simp only [Function.comp_apply]
    by_cases e : key a = key x
    · rw [if_pos e, Table.eq_of_key ha hb (e.trans same.symm), selected, chosen]
    · rw [if_neg e]
  rw [selects, split, List.map_append, List.map_singleton, if_pos same]
  refine congrArg (· ++ [x]) ?_
  conv_rhs => rw [← List.map_id l']
  exact List.map_congr_left fun a ha => if_neg (others a ha)

end Maru
