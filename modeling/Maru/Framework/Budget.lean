import Mathlib.Data.Finset.Card
import Mathlib.Data.Finset.Dedup
import Mathlib.Data.List.Perm.Basic
import Maru.Framework.Except

/-!
# Collecting under a budget

An evaluation makes calls, in some order: it counts a comparison, adds a value to a set, or
refuses its input. It stops at the first comparison over one limit and at the first value
that makes the set larger than another. What it ends with depends only on how many
comparisons there are and on the values added (`run_eq`), so the order of the calls makes
no difference (`run_perm`), as long as nothing is refused.
-/

namespace Maru.Budget

universe u v

/-- One call on the collection. -/
inductive Call (α : Type u) (ε : Type v)
  | compare
  | add (value : α)
  | refuse (error : ε)

/-- Why an evaluation stopped. -/
inductive Stop (ε : Type v)
  | limit
  | refused (error : ε)
deriving DecidableEq

/-- What has been collected so far. -/
structure Collection (α : Type u) where
  values : Finset α := ∅
  comparisons : Nat := 0

variable {α : Type u} {ε : Type v} [DecidableEq α] (maxComparisons maxValues : Nat)

def call (c : Collection α) : Call α ε → Except (Stop ε) (Collection α)
  | .compare =>
    if maxComparisons < c.comparisons + 1 then .error .limit
    else .ok { c with comparisons := c.comparisons + 1 }
  | .add value =>
    if maxValues < (insert value c.values).card then .error .limit
    else .ok { c with values := insert value c.values }
  | .refuse error => .error (.refused error)

def run (calls : List (Call α ε)) : Except (Stop ε) (Collection α) :=
  calls.foldlM (call maxComparisons maxValues) {}

/-! ## What a run ends with -/

def Call.value? : Call α ε → Option α
  | .add value => some value
  | _ => none

def Call.isCompare : Call α ε → Bool
  | .compare => true
  | _ => false

/-- No call refuses. -/
def Accepted (calls : List (Call α ε)) : Prop := ∀ error, .refuse error ∉ calls

/-- The values that the calls add. -/
def added (calls : List (Call α ε)) : Finset α := (calls.filterMap Call.value?).toFinset

/-- The number of comparisons that the calls make. -/
def compared (calls : List (Call α ε)) : Nat := calls.countP Call.isCompare

theorem mem_added {calls : List (Call α ε)} {a : α} : a ∈ added calls ↔ .add a ∈ calls := by
  rw [added, List.mem_toFinset, List.mem_filterMap]
  constructor
  · rintro ⟨c, hc, hv⟩
    cases c with
    | add b =>
      obtain rfl := Option.some.inj hv
      exact hc
    | compare => cases hv
    | refuse e => cases hv
  · exact fun h => ⟨_, h, rfl⟩

variable {maxComparisons maxValues}

theorem foldlM_eq {calls : List (Call α ε)} (accepted : Accepted calls) (c : Collection α)
    (hc : c.comparisons ≤ maxComparisons ∧ c.values.card ≤ maxValues) :
    calls.foldlM (call maxComparisons maxValues) c =
      if c.comparisons + compared calls ≤ maxComparisons ∧ (c.values ∪ added calls).card ≤ maxValues then
        .ok { values := c.values ∪ added calls, comparisons := c.comparisons + compared calls }
      else .error .limit := by
  induction calls generalizing c with
  | nil =>
    have none : added ([] : List (Call α ε)) = ∅ := rfl
    simp only [List.foldlM_nil, compared, List.countP_nil, Nat.add_zero, none, Finset.union_empty,
      hc, and_self, if_true]
    rfl
  | cons x calls ih =>
    have rest : Accepted calls := fun e h => accepted e (List.mem_cons_of_mem _ h)
    rw [List.foldlM_cons]
    cases x with
    | compare =>
      have first : compared (Call.compare :: calls) = 1 + compared calls := by
        rw [compared, List.countP_cons_of_pos rfl, Nat.add_comm]
        rfl
      have same : added (Call.compare :: calls) = added calls := rfl
      rw [first, same, call, ← Nat.add_assoc]
      by_cases exceeds : maxComparisons < c.comparisons + 1
      · rw [if_pos exceeds, if_neg (by omega)]
        rfl
      · rw [if_neg exceeds]
        exact ih rest _ ⟨by dsimp only; omega, hc.2⟩
    | add a =>
      have same : compared (Call.add a :: calls) = compared calls :=
        List.countP_cons_of_neg (by simp [Call.isCompare])
      have first : c.values ∪ added (Call.add a :: calls) = insert a c.values ∪ added calls := by
        ext b
        simp only [Finset.mem_union, Finset.mem_insert, mem_added, List.mem_cons, Call.add.injEq]
        tauto
      rw [same, first, call]
      by_cases exceeds : maxValues < (insert a c.values).card
      · have more : (insert a c.values).card ≤ (insert a c.values ∪ added calls).card :=
          Finset.card_le_card Finset.subset_union_left
        rw [if_pos exceeds, if_neg (by omega)]
        rfl
      · rw [if_neg exceeds]
        exact ih rest _ ⟨hc.1, by dsimp only; omega⟩
    | refuse e => exact absurd List.mem_cons_self (accepted e)

/-- The limit is hit exactly if the calls compare or add too much, in whatever order. -/
theorem run_eq {calls : List (Call α ε)} (accepted : Accepted calls) :
    run maxComparisons maxValues calls =
      if compared calls ≤ maxComparisons ∧ (added calls).card ≤ maxValues then
        .ok { values := added calls, comparisons := compared calls }
      else .error .limit := by
  rw [run, foldlM_eq accepted {} ⟨Nat.zero_le _, Nat.zero_le _⟩]
  simp only [Finset.empty_union, Nat.zero_add]

theorem run_eq_ok {calls : List (Call α ε)} (accepted : Accepted calls) {c : Collection α}
    (h : run maxComparisons maxValues calls = .ok c) : c.values = added calls := by
  rw [run_eq accepted] at h
  split at h
  · obtain rfl := Except.ok.inj h
    rfl
  · cases h

/-- The order of the calls makes no difference. -/
theorem run_perm {calls calls' : List (Call α ε)} (accepted : Accepted calls) (h : calls.Perm calls') :
    run maxComparisons maxValues calls = run maxComparisons maxValues calls' := by
  have accepted' : Accepted calls' := fun e he => accepted e (h.mem_iff.mpr he)
  have count : compared calls = compared calls' := h.countP_eq _
  have values : added calls = added calls' := by
    ext a
    rw [mem_added, mem_added, h.mem_iff]
  rw [run_eq accepted, run_eq accepted', count, values]

/-! ## Comparisons that add several values at once -/

/-- A loop each of whose turns counts one comparison and adds some values, and fails where a limit
is then exceeded, ends with everything counted and added, or fails if that exceeds a limit. -/
theorem foldlM_turns {β ε' : Type*} {step : Collection α → β → Except ε' (Collection α)}
    {f : β → Finset α} {E : ε' → Prop}
    (turn : ∀ c b, c.values.card ≤ maxValues →
      if c.comparisons + 1 ≤ maxComparisons ∧ (c.values ∪ f b).card ≤ maxValues then
        step c b = .ok { values := c.values ∪ f b, comparisons := c.comparisons + 1 }
      else ∃ e, step c b = .error e ∧ E e)
    (l : List β) {c : Collection α} (h : c.values.card ≤ maxValues ∧ c.comparisons ≤ maxComparisons)
    (total : Finset α) (htotal : ∀ a, a ∈ total ↔ a ∈ c.values ∨ ∃ b ∈ l, a ∈ f b) :
    if c.comparisons + l.length ≤ maxComparisons ∧ total.card ≤ maxValues then
      l.foldlM step c = .ok { values := total, comparisons := c.comparisons + l.length }
    else ∃ e, l.foldlM step c = .error e ∧ E e := by
  induction l generalizing c with
  | nil =>
    have same : total = c.values := by
      ext a
      simp [htotal]
    rw [same, List.length_nil, Nat.add_zero, if_pos ⟨h.2, h.1⟩]
    rfl
  | cons b l ih =>
    rw [List.foldlM_cons, List.length_cons]
    have more : c.values ∪ f b ⊆ total := by
      intro a ha
      rw [htotal]
      rcases Finset.mem_union.mp ha with ha | ha
      · exact .inl ha
      · exact .inr ⟨b, List.mem_cons_self, ha⟩
    have grows := Finset.card_le_card more
    have first := turn c b h.1
    by_cases fits : c.comparisons + 1 ≤ maxComparisons ∧ (c.values ∪ f b).card ≤ maxValues
    · rw [if_pos fits] at first
      have rest := ih (c := { values := c.values ∪ f b, comparisons := c.comparisons + 1 }) ⟨fits.2, fits.1⟩ fun a => by
        simp [htotal, or_assoc]
      rw [first, ok_bind]
      rw [show c.comparisons + (l.length + 1) = c.comparisons + 1 + l.length by omega]
      exact rest
    · rw [if_neg fits] at first
      obtain ⟨e, failed, he⟩ := first
      rw [if_neg (by omega), failed]
      exact ⟨e, rfl, he⟩

/-! ## Lists that may not grow too long -/

/-- A loop whose turns each append something, and give up where the list is then too long, ends with
all that was appended, or has given up if that is too long. -/
theorem foldlM_append_bounded {β γ : Type*} {limit : Nat} {step : List γ → β → Option (List γ)} {f : β → List γ}
    (turn : ∀ acc b, acc.length ≤ limit → step acc b = if (acc ++ f b).length ≤ limit then some (acc ++ f b) else none)
    (l : List β) {acc : List γ} (h : acc.length ≤ limit) :
    l.foldlM step acc = if (acc ++ l.flatMap f).length ≤ limit then some (acc ++ l.flatMap f) else none := by
  induction l generalizing acc with
  | nil => simp [h]
  | cons b l ih =>
    rw [List.foldlM_cons, turn acc b h, List.flatMap_cons, ← List.append_assoc]
    by_cases fits : (acc ++ f b).length ≤ limit
    · rw [if_pos fits]
      exact ih fits
    · have over' : ¬ (acc ++ f b ++ l.flatMap f).length ≤ limit := by
        rw [List.length_append]
        omega
      rw [if_neg fits, if_neg over']
      rfl

/-! ## Lists whose keys are distinct -/

/-- A loop whose turns each append an element, unless its key is there already or it is refused by
itself, ends with all the elements appended exactly if none is refused and the keys are distinct. -/
theorem foldlM_distinct {α κ δ ε : Type*} {step : List δ → α → Except ε (List δ)} {P : α → Prop}
    {entry : α → δ} {key : δ → κ}
    (turn : ∀ acc a acc', step acc a = .ok acc' ↔
      P a ∧ key (entry a) ∉ acc.map key ∧ acc' = acc ++ [entry a])
    (l : List α) {acc acc' : List δ} (h : (acc.map key).Nodup) :
    l.foldlM step acc = .ok acc' ↔
      (∀ a ∈ l, P a) ∧ ((acc ++ l.map entry).map key).Nodup ∧ acc' = acc ++ l.map entry := by
  induction l generalizing acc with
  | nil =>
    rw [List.foldlM_nil, pure_eq_ok, List.map_nil, List.append_nil]
    exact ⟨fun e => ⟨by simp, h, e.symm⟩, fun e => e.2.2.symm⟩
  | cons a l ih =>
    have longer : acc ++ (a :: l).map entry = acc ++ [entry a] ++ l.map entry := by simp
    rw [List.foldlM_cons, bind_eq_ok, longer]
    constructor
    · rintro ⟨first, ha, rest⟩
      obtain ⟨pa, fresh, rfl⟩ := (turn acc a first).mp ha
      have nodup : ((acc ++ [entry a]).map key).Nodup := by
        rw [List.map_append]
        exact List.Nodup.append h (List.nodup_singleton _) (List.disjoint_singleton.mpr fresh)
      obtain ⟨all, distinct, same⟩ := (ih nodup).mp rest
      exact ⟨List.forall_mem_cons.mpr ⟨pa, all⟩, distinct, same⟩
    · rintro ⟨all, distinct, same⟩
      have nodup : ((acc ++ [entry a]).map key).Nodup := by
        rw [List.map_append] at distinct
        exact distinct.of_append_left
      have fresh : key (entry a) ∉ acc.map key := by
        rw [List.map_append] at nodup
        exact List.disjoint_singleton.mp (List.disjoint_of_nodup_append nodup)
      have rest := (ih nodup).mpr ⟨fun b hb => all b (List.mem_cons_of_mem a hb), distinct, same⟩
      exact ⟨_, (turn acc a _).mpr ⟨all a List.mem_cons_self, fresh, rfl⟩, rest⟩

theorem foldlM_distinct_nil {α κ δ ε : Type*} {step : List δ → α → Except ε (List δ)} {P : α → Prop}
    {entry : α → δ} {key : δ → κ}
    (turn : ∀ acc a acc', step acc a = .ok acc' ↔
      P a ∧ key (entry a) ∉ acc.map key ∧ acc' = acc ++ [entry a])
    (l : List α) {acc' : List δ} :
    l.foldlM step [] = .ok acc' ↔ (∀ a ∈ l, P a) ∧ (l.map fun a => key (entry a)).Nodup ∧ acc' = l.map entry := by
  have loop := @foldlM_distinct _ _ _ _ _ _ _ _ turn l [] acc' List.nodup_nil
  rwa [List.nil_append, List.map_map] at loop

end Maru.Budget
