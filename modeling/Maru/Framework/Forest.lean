import Mathlib.Data.List.Nodup
import Mathlib.Logic.Function.Basic
import Mathlib.Logic.Relation

/-!
# Forests given by parents

Every element has at most one parent. `Lineage parent c l` says that the elements from `c`
upwards are exactly `l`, so that the way up from `c` ends; `Grounded` says so of every
element, and then no element is above itself (`Grounded.acyclic`). Giving an element a
parent whose lineage it is not in keeps a forest grounded (`Grounded.update`).

Two bounded readings of a lineage are compared: `lineage n` lists its first `n` elements,
`ascend n` walks up with the set of elements it has visited and gives up after `n` steps.
The walk succeeds exactly where the list is shorter than its bound and meets none of the
elements visited before (`ascend_iff`). `climb` is such a walk over elements that are known,
which says why it fails.
-/

namespace Maru

universe u

namespace Forest

variable {α : Type u} {parent : α → Option α}

/-- The elements from `c` upwards are exactly those of the list. -/
inductive Lineage (parent : α → Option α) : Option α → List α → Prop
  | root : Lineage parent none []
  | step {a : α} {l : List α} : Lineage parent (parent a) l → Lineage parent (some a) (a :: l)

/-- Every way up ends. -/
def Grounded (parent : α → Option α) : Prop := ∀ a, ∃ l, Lineage parent (some a) l

theorem Lineage.unique {c : Option α} {l m : List α} (h : Lineage parent c l) (h' : Lineage parent c m) : l = m := by
  induction h generalizing m with
  | root =>
    cases h'
    rfl
  | step _ ih =>
    cases h' with
    | step up => rw [ih up]

/-- Above an element of a lineage the rest of the lineage follows. -/
theorem Lineage.above {c : Option α} {l : List α} (h : Lineage parent c l) {a : α} (ha : a ∈ l) :
    ∃ m, Lineage parent (some a) (a :: m) ∧ m.length < l.length := by
  induction h with
  | root => cases ha
  | @step b l up ih =>
    rcases List.mem_cons.mp ha with rfl | ha
    · exact ⟨l, .step up, Nat.lt_succ_self _⟩
    · obtain ⟨m, hm, shorter⟩ := ih ha
      exact ⟨m, hm, Nat.lt_succ_of_lt shorter⟩

/-- The parent of an element of a lineage is in it. -/
theorem Lineage.parent_mem {c : Option α} {l : List α} (h : Lineage parent c l) {a b : α}
    (ha : a ∈ l) (up : parent a = some b) : b ∈ l := by
  induction h with
  | root => cases ha
  | step above ih =>
    rcases List.mem_cons.mp ha with rfl | ha
    · rw [up] at above
      cases above
      exact List.mem_cons_of_mem _ List.mem_cons_self
    · exact List.mem_cons_of_mem _ (ih ha)

/-- A lineage sees the parents of its own elements only. -/
theorem Lineage.congr {parent' : α → Option α} {c : Option α} {l : List α} (h : Lineage parent c l)
    (same : ∀ a ∈ l, parent' a = parent a) : Lineage parent' c l := by
  induction h with
  | root => exact .root
  | step _ ih =>
    refine .step ?_
    rw [same _ List.mem_cons_self]
    exact ih fun a ha => same a (List.mem_cons_of_mem _ ha)

/-- What is above an element of a lineage is the parent of one. -/
theorem Lineage.child_mem {a b : α} {l : List α} (h : Lineage parent (some a) l) (hb : b ∈ l)
    (other : b ≠ a) : ∃ c ∈ l, parent c = some b := by
  generalize start : some a = d at h
  induction h generalizing a with
  | root => cases start
  | @step c l up ih =>
    obtain rfl := Option.some.inj start
    have above := (List.mem_cons.mp hb).resolve_left other
    cases next : parent a with
    | none =>
      rw [next] at up
      cases up
      cases above
    | some e =>
      by_cases same : b = e
      · exact ⟨a, List.mem_cons_self, by rw [next, same]⟩
      · obtain ⟨c, hc, child⟩ := ih above same next.symm
        exact ⟨c, List.mem_cons_of_mem _ hc, child⟩

theorem Lineage.not_mem {a : α} {l : List α} (h : Lineage parent (some a) (a :: l)) : a ∉ l := by
  intro ha
  cases h with
  | step up =>
    obtain ⟨m, hm, shorter⟩ := up.above ha
    cases hm with
    | step up' =>
      rw [up'.unique up] at shorter
      exact Nat.lt_irrefl _ shorter

theorem Lineage.nodup {c : Option α} {l : List α} (h : Lineage parent c l) : l.Nodup := by
  induction h with
  | root => exact List.nodup_nil
  | step up ih => exact List.nodup_cons.mpr ⟨(Lineage.step up).not_mem, ih⟩

/-- The elements of a lineage are those that are reached upwards. -/
theorem Lineage.mem_of_transGen {a b : α} (h : Relation.TransGen (fun x y => parent x = some y) a b)
    {l : List α} (hl : Lineage parent (parent a) l) : b ∈ l := by
  induction h using Relation.TransGen.head_induction_on generalizing l with
  | single e =>
    rw [e] at hl
    cases hl
    exact List.mem_cons_self
  | head e _ ih =>
    rw [e] at hl
    cases hl with
    | step up => exact List.mem_cons_of_mem _ (ih up)

/-- Nothing is above itself. -/
theorem Grounded.acyclic (h : Grounded parent) (a : α) :
    ¬ Relation.TransGen (fun x y => parent x = some y) a a := by
  intro cycle
  obtain ⟨l, hl⟩ := h a
  cases hl with
  | step up => exact (Lineage.step up).not_mem (Lineage.mem_of_transGen cycle up)

theorem grounded_none : Grounded fun _ : α => none := fun _ => ⟨_, .step .root⟩

/-! ## A new parent -/

section

variable [DecidableEq α] {a : α} {c : Option α}

/-- A lineage without `a` does not see the parent of `a`. -/
theorem Lineage.update {d : Option α} {l : List α} (h : Lineage parent d l) (ha : a ∉ l) :
    Lineage (Function.update parent a c) d l := by
  induction h with
  | root => exact .root
  | step _ ih =>
    rw [List.mem_cons, not_or] at ha
    refine .step ?_
    rw [Function.update_of_ne (Ne.symm ha.1)]
    exact ih ha.2

/-- What stands below `a` stands below its new parent. -/
theorem Lineage.graft {d : Option α} {below rest above : List α}
    (h : Lineage parent d (below ++ a :: rest)) (hc : Lineage parent c above) (ha : a ∉ above) :
    Lineage (Function.update parent a c) d (below ++ a :: above) := by
  induction below generalizing d with
  | nil =>
    cases h with
    | step _ =>
      refine .step ?_
      rw [Function.update_self]
      exact hc.update ha
  | cons b below ih =>
    have other : b ≠ a := by
      rintro rfl
      exact (List.nodup_cons.mp h.nodup).1 (List.mem_append_right _ List.mem_cons_self)
    cases h with
    | step up =>
      refine .step ?_
      rw [Function.update_of_ne other]
      exact ih up

/-- Under a parent that it is not above, an element keeps the forest grounded. -/
theorem Grounded.update (h : Grounded parent) {l : List α} (hc : Lineage parent c l) (ha : a ∉ l) :
    Grounded (Function.update parent a c) := by
  have above : Lineage (Function.update parent a c) c l := hc.update ha
  have every : ∀ d m, Lineage parent d m → ∃ m', Lineage (Function.update parent a c) d m' := by
    intro d m hm
    induction hm with
    | root => exact ⟨[], .root⟩
    | @step b m _ ih =>
      obtain ⟨m', hm'⟩ := ih
      by_cases e : b = a
      · refine ⟨b :: l, .step ?_⟩
        rw [e, Function.update_self]
        exact above
      · refine ⟨b :: m', .step ?_⟩
        rw [Function.update_of_ne e]
        exact hm'
  intro b
  obtain ⟨m, hm⟩ := h b
  exact every _ m hm

end

/-! ## Bounded readings -/

/-- The first `n` elements from `c` upwards. -/
def lineage (parent : α → Option α) : Nat → Option α → List α
  | 0, _ => []
  | _ + 1, none => []
  | n + 1, some a => a :: lineage parent n (parent a)

theorem Lineage.lineage_eq {c : Option α} {l : List α} (h : Lineage parent c l) (n : Nat) :
    lineage parent n c = l.take n := by
  induction h generalizing n with
  | root => cases n <;> rfl
  | step _ ih =>
    cases n with
    | zero => rfl
    | succ n => rw [lineage, ih, List.take_succ_cons]

/-- A list shorter than its bound is the whole lineage. -/
theorem lineage_of_lt {n : Nat} {c : Option α} (h : (lineage parent n c).length < n) :
    Lineage parent c (lineage parent n c) := by
  induction n generalizing c with
  | zero => exact absurd h (Nat.not_lt_zero _)
  | succ n ih =>
    cases c with
    | none => exact .root
    | some a =>
      rw [lineage, List.length_cons] at h
      exact .step (ih (Nat.lt_of_succ_lt_succ h))

/-- Walk up from `c`, at most `n` steps: it ends before the bound and never comes
back to what was visited. -/
def ascend [DecidableEq α] (parent : α → Option α) : Nat → List α → Option α → Bool
  | 0, _, _ => false
  | _ + 1, _, none => true
  | n + 1, visited, some a => if a ∈ visited then false else ascend parent n (a :: visited) (parent a)

theorem ascend_iff [DecidableEq α] {n : Nat} {visited : List α} {c : Option α} :
    ascend parent n visited c = true ↔
      (lineage parent n c).length < n ∧ ∀ a ∈ visited, a ∉ lineage parent n c := by
  induction n generalizing visited c with
  | zero => simp [ascend]
  | succ n ih =>
    cases c with
    | none => simp [ascend, lineage]
    | some a =>
      rw [ascend, lineage, List.length_cons, Nat.succ_lt_succ_iff]
      split
      · rename_i ha
        simp only [Bool.false_eq_true, false_iff, not_and, not_forall, not_not]
        exact fun _ => ⟨a, ha, List.mem_cons_self⟩
      · rename_i ha
        rw [ih, and_congr_right_iff]
        intro short
        have fresh : a ∉ lineage parent n (parent a) := (Lineage.step (lineage_of_lt short)).not_mem
        simp only [List.mem_cons, forall_eq_or_imp, not_or, fresh, not_false_iff, true_and]
        exact ⟨fun h b hb => ⟨fun e => ha (e ▸ hb), h b hb⟩, fun h b hb => (h b hb).2⟩

/-! ## A walk that fails -/

/-- Walk up from `c` over elements that are known, at most `n` of them and none twice. -/
def climb {ε : Type*} [DecidableEq α] (parent : α → Option (Option α)) (cycle unknown deep : ε) :
    Nat → List α → Option α → Except ε Unit
  | _, _, none => .ok ()
  | n, visited, some a =>
    if a ∈ visited then .error cycle
    else
      match parent a with
      | none => .error unknown
      | some up =>
        match n with
        | 0 => .error deep
        | n + 1 => climb parent cycle unknown deep n (a :: visited) up

/-- The walk succeeds where a lineage of known elements ends within the bound. -/
theorem climb_eq_ok {ε : Type*} [DecidableEq α] {parent : α → Option (Option α)} {cycle unknown deep : ε} {n : Nat}
    {visited : List α} {c : Option α} (h : climb parent cycle unknown deep n visited c = .ok ()) :
    ∃ l, Lineage (fun a => (parent a).join) c l ∧ l.length ≤ n ∧ ∀ a ∈ l, (parent a).isSome := by
  induction n generalizing visited c with
  | zero =>
    cases c with
    | none => exact ⟨[], .root, Nat.le_refl _, fun a ha => absurd ha List.not_mem_nil⟩
    | some a =>
      unfold climb at h
      split at h
      · cases h
      · cases found : parent a with
        | none => simp [found] at h
        | some up => simp [found] at h
  | succ n ih =>
    cases c with
    | none => exact ⟨[], .root, Nat.zero_le _, fun a ha => absurd ha List.not_mem_nil⟩
    | some a =>
      unfold climb at h
      split at h
      · cases h
      · cases found : parent a with
        | none => simp [found] at h
        | some up =>
          simp only [found] at h
          obtain ⟨l, lineage, short, known⟩ := ih h
          refine ⟨a :: l, .step ?_, Nat.succ_le_succ short, fun b hb => ?_⟩
          · rw [found]
            exact lineage
          · rcases List.mem_cons.mp hb with rfl | hb
            · rw [found]
              rfl
            · exact known b hb

end Forest

end Maru
