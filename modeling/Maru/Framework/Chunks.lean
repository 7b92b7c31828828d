import Mathlib.Data.List.Chain
import Mathlib.Data.List.Basic

/-!
# Chunks of a stream

`Chunked n l ps` says that the chunks `ps` are the stream `l` cut into pieces of `n`: every
chunk that another one follows is full, and the last is not empty. A stream is cut in one
way (`Chunked.unique`), into as many chunks as its length needs (`Chunked.length_eq`).
-/

namespace Maru

universe u

variable {α : Type u} {n : Nat} {l : List α} {ps : List (List α)}

structure Chunked (n : Nat) (l : List α) (ps : List (List α)) : Prop where
  joined : ps.flatten = l
  full : ps.IsChain fun p _ => p.length = n
  bounded : ∀ p ∈ ps, 1 ≤ p.length ∧ p.length ≤ n

namespace Chunked

theorem nil : Chunked n ([] : List α) [] := ⟨rfl, .nil, List.forall_mem_nil _⟩

theorem length_flatten {fulls : List (List α)} (full : ∀ p ∈ fulls, p.length = n) :
    fulls.flatten.length = n * fulls.length := by
  induction fulls with
  | nil => rfl
  | cons p fulls ih =>
    obtain ⟨hp, rest⟩ := List.forall_mem_cons.mp full
    rw [List.flatten_cons, List.length_append, hp, ih rest, List.length_cons, Nat.mul_add, Nat.mul_one, Nat.add_comm]

/-- Full chunks with a last one behind them. -/
theorem concat {fulls : List (List α)} (full : ∀ p ∈ fulls, p.length = n) {last : List α} (filled : 1 ≤ last.length)
    (short : last.length ≤ n) : Chunked n (fulls.flatten ++ last) (fulls ++ [last]) where
  joined := by rw [List.flatten_append, List.flatten_singleton]
  full := by
    induction fulls with
    | nil => exact .singleton _
    | cons p fulls ih =>
      obtain ⟨hp, rest⟩ := List.forall_mem_cons.mp full
      rw [List.cons_append, List.isChain_cons]
      exact ⟨fun _ _ => hp, ih rest⟩
  bounded p hp := by
    rcases List.mem_append.mp hp with hp | hp
    · have := full p hp
      omega
    · obtain rfl := List.mem_singleton.mp hp
      exact ⟨filled, short⟩

/-- Full chunks alone. -/
theorem of_full {fulls : List (List α)} (full : ∀ p ∈ fulls, p.length = n) (positive : 1 ≤ n) :
    Chunked n fulls.flatten fulls where
  joined := rfl
  full := by
    induction fulls with
    | nil => exact .nil
    | cons p fulls ih =>
      obtain ⟨hp, rest⟩ := List.forall_mem_cons.mp full
      rw [List.isChain_cons]
      exact ⟨fun _ _ => hp, ih rest⟩
  bounded p hp := by
    have := full p hp
    omega

theorem tail {p : List α} (h : Chunked n l (p :: ps)) : Chunked n ps.flatten ps where
  joined := rfl
  full := h.full.tail
  bounded := fun q hq => h.bounded q (List.mem_cons_of_mem _ hq)

theorem head_full {p q : List α} (h : Chunked n l (p :: q :: ps)) : p.length = n :=
  (List.isChain_cons_cons.mp h.full).1

/-- The first chunk is as long as the stream allows. -/
theorem head_eq {p : List α} (h : Chunked n l (p :: ps)) : p = l.take n ∧ ps.flatten = l.drop n := by
  have joined : p ++ ps.flatten = l := h.joined
  rw [← joined]
  cases ps with
  | nil =>
    have short := (h.bounded p List.mem_cons_self).2
    simp [List.take_of_length_le short, List.drop_of_length_le short]
  | cons q ps => simp [← h.head_full]

theorem eq_nil_iff (h : Chunked n l ps) : ps = [] ↔ l = [] := by
  constructor
  · rintro rfl
    exact h.joined.symm
  · rintro rfl
    cases ps with
    | nil => rfl
    | cons p ps =>
      have filled := (h.bounded p List.mem_cons_self).1
      have empty : p = [] := (List.append_eq_nil_iff.mp h.joined).1
      rw [empty, List.length_nil] at filled
      exact absurd filled (Nat.not_succ_le_zero 0)

theorem unique {qs : List (List α)} (h : Chunked n l ps) (h' : Chunked n l qs) : ps = qs := by
  induction ps generalizing l qs with
  | nil => exact (h'.eq_nil_iff.mpr (h.eq_nil_iff.mp rfl)).symm
  | cons p ps ih =>
    cases qs with
    | nil => exact h.eq_nil_iff.mpr (h'.eq_nil_iff.mp rfl)
    | cons q qs =>
      obtain ⟨hp, hps⟩ := h.head_eq
      obtain ⟨hq, hqs⟩ := h'.head_eq
      have rest : Chunked n ps.flatten qs := by
        rw [hps, ← hqs]
        exact h'.tail
      rw [hp, hq, ih h.tail rest]

/-- All chunks but the last are full. -/
theorem length_bounds (h : Chunked n l ps) : l.length ≤ n * ps.length ∧ n * ps.length < l.length + n ∨ ps = [] := by
  induction ps generalizing l with
  | nil => exact .inr rfl
  | cons p ps ih =>
    left
    have joined : p ++ ps.flatten = l := h.joined
    have ⟨filled, short⟩ := h.bounded p List.mem_cons_self
    rw [← joined, List.length_append, List.length_cons, Nat.mul_add, Nat.mul_one]
    cases ps with
    | nil =>
      simp only [List.flatten_nil, List.length_nil, Nat.mul_zero]
      omega
    | cons q ps =>
      have full := h.head_full
      rcases ih h.tail with ⟨le, lt⟩ | empty
      · omega
      · cases empty

theorem length_eq (h : Chunked n l ps) (positive : 1 ≤ n) : ps.length = (l.length + n - 1) / n := by
  rcases h.length_bounds with ⟨le, lt⟩ | empty
  · symm
    rw [Nat.div_eq_iff positive]
    rw [Nat.mul_comm] at le lt
    omega
  · rw [h.eq_nil_iff.mp empty, empty, List.length_nil, List.length_nil, Nat.div_eq_of_lt (by omega)]

end Chunked

end Maru
