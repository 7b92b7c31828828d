import Mathlib.Data.List.Induction

/-!
# Event logs and their projections

A projection is the state that the events of a log lead to one after the other (`replay`).
A log is `Sound` when each of its events fits the state that the events before it lead to;
it stays so when an event is added that fits the projection (`Sound.concat`). If fitting
means being numbered after the state, the events of a sound log are numbered from 1 on
without a gap (`Sound.numbers`), and what every event keeps of the state holds of the
projection (`Sound.invariant`).
-/

namespace Maru

universe u v

namespace EventLog

variable {σ : Type u} {ε : Type v} (advance : Option σ → ε → σ) (Fits : Option σ → ε → Prop)

/-- The state after the events of a log; there is none before the first. -/
def replay (log : List ε) : Option σ := log.foldl (fun state event => some (advance state event)) none

/-- Every event fits the state just before it. -/
def Sound (log : List ε) : Prop :=
  ∀ before event after, log = before ++ event :: after → Fits (replay advance before) event

variable {advance Fits}

@[simp] theorem replay_nil : replay advance ([] : List ε) = none := rfl

@[simp] theorem replay_concat (log : List ε) (event : ε) :
    replay advance (log ++ [event]) = some (advance (replay advance log) event) := by
  rw [replay, List.foldl_append]
  rfl

theorem Sound.nil : Sound advance Fits [] := by
  intro before event after h
  simp at h

theorem Sound.concat {log : List ε} (h : Sound advance Fits log) {event : ε}
    (fits : Fits (replay advance log) event) : Sound advance Fits (log ++ [event]) := by
  intro before e after split
  rcases List.eq_nil_or_concat after with rfl | ⟨rest, last, rfl⟩
  · obtain ⟨rfl, same⟩ := List.append_inj' split rfl
    rw [← (List.cons.inj same).1]
    exact fits
  · have whole : log ++ [event] = (before ++ e :: rest) ++ [last] := by
      rw [split, List.append_assoc, List.cons_append]
      simp
    obtain ⟨earlier, -⟩ := List.append_inj' whole rfl
    exact h before e rest earlier

theorem Sound.init {log : List ε} {event : ε} (h : Sound advance Fits (log ++ [event])) :
    Sound advance Fits log ∧ Fits (replay advance log) event := by
  refine ⟨fun before e after split => h before e (after ++ [event]) ?_, h log event [] rfl⟩
  rw [split, List.append_assoc, List.cons_append]

/-- Induction over a sound log: what holds without events and is kept by each that fits. -/
theorem Sound.invariant {log : List ε} (h : Sound advance Fits log) {I : Option σ → List ε → Prop} (start : I none [])
    (keep : ∀ log event, I (replay advance log) log → Fits (replay advance log) event →
      I (some (advance (replay advance log) event)) (log ++ [event])) :
    I (replay advance log) log := by
  induction log using List.reverseRecOn with
  | nil => exact start
  | append_singleton log event ih =>
    obtain ⟨sound, fits⟩ := h.init
    rw [replay_concat]
    exact keep log event (ih sound) fits

/-- Events that are numbered after the state are numbered from 1 on. -/
theorem Sound.numbers {n : ε → Nat} {c : σ → Nat} (counted : ∀ s e, c (advance s e) = n e)
    (next : ∀ s e, Fits s e → n e = (s.map c).getD 0 + 1) {log : List ε} (h : Sound advance Fits log) :
    log.map n = List.range' 1 log.length ∧ ((replay advance log).map c).getD 0 = log.length := by
  refine h.invariant (I := fun s l => l.map n = List.range' 1 l.length ∧ (s.map c).getD 0 = l.length)
    ⟨rfl, rfl⟩ fun log event ih fits => ?_
  have eq := next _ _ fits
  rw [ih.2] at eq
  constructor
  · rw [List.map_append, ih.1, List.map_singleton, eq, List.length_append, List.length_singleton,
      List.range'_concat, Nat.one_mul, Nat.add_comm 1]
  · simp only [Option.map_some, Option.getD_some, counted, eq, List.length_append, List.length_singleton]

/-! ## Logs whose state is the log -/

theorem replay_log (log : List ε) : (replay (fun earlier event => earlier.getD [] ++ [event]) log).getD [] = log := by
  induction log using List.reverseRecOn with
  | nil => rfl
  | append_singleton earlier last ih => rw [replay_concat, Option.getD_some, ih]

/-! ## Logs whose state is their last event -/

section

variable {Follows : Option ε → ε → Prop}

theorem replay_last (log : List ε) : replay (fun _ event => event) log = log.getLast? := by
  induction log using List.reverseRecOn with
  | nil => rfl
  | append_singleton earlier last _ => rw [replay_concat, List.getLast?_concat]

/-- An event that no other follows is the last one. -/
theorem Sound.getLast?_of_none {log : List ε} (h : Sound (fun _ event => event) Follows log)
    {event : ε} (mem : event ∈ log)
    (unfollowed : ∀ next ∈ log, ¬ Follows (some event) next) : log.getLast? = some event := by
  obtain ⟨before, after, rfl⟩ := List.append_of_mem mem
  cases after with
  | nil => simp
  | cons next rest =>
    have fits := h (before ++ [event]) next rest (by simp)
    rw [replay_concat] at fits
    exact absurd fits (unfollowed next (by simp))

end

end EventLog

end Maru
