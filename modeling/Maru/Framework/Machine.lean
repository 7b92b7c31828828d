import Maru.Framework.Except

/-!
# Transactional machines

A machine runs operations one at a time. Each is atomic: it commits a new state with
its answer, or fails and leaves the state as it was (`step`). An invariant that every
committed operation keeps holds after any run (`run_invariant`); one that is kept only
by operations meeting a condition holds after every run whose operations all meet it
(`run_invariant_along`).
-/

namespace Maru

universe u v w x

/-- Operations `ι` on a state `σ`, answering `ρ` or failing with `ε`. -/
structure Machine (σ : Type u) (ι : Type v) (ρ : Type w) (ε : Type x) where
  exec : σ → ι → Except ε (σ × ρ)

namespace Machine

variable {σ : Type u} {ι : Type v} {ρ : Type w} {ε : Type x} (M : Machine σ ι ρ ε)

/-- The state after one operation: what it committed, or the old state if it failed. -/
def step (s : σ) (i : ι) : σ :=
  match M.exec s i with
  | .ok (s', _) => s'
  | .error _ => s

def run (s : σ) (is : List ι) : σ := is.foldl M.step s

@[simp] theorem run_nil (s : σ) : M.run s [] = s := rfl

@[simp] theorem run_cons (s : σ) (i : ι) (is : List ι) : M.run s (i :: is) = M.run (M.step s i) is := rfl

@[simp] theorem run_append (s : σ) (is js : List ι) : M.run s (is ++ js) = M.run (M.run s is) js :=
  List.foldl_append

variable {M}

theorem step_of_ok {s s' : σ} {i : ι} {r : ρ} (h : M.exec s i = .ok (s', r)) : M.step s i = s' := by
  simp only [step, h]

theorem step_of_error {s : σ} {i : ι} {e : ε} (h : M.exec s i = .error e) : M.step s i = s := by
  simp only [step, h]

/-- One step either changes nothing or is a committed operation. -/
theorem step_cases (s : σ) (i : ι) : M.step s i = s ∨ ∃ r, M.exec s i = .ok (M.step s i, r) := by
  cases h : M.exec s i with
  | error e => exact .inl (step_of_error h)
  | ok p => exact .inr ⟨p.2, by rw [step_of_ok h]⟩

/-- Every operation of the run, at the state it finds, meets `C`. -/
def Along (M : Machine σ ι ρ ε) (C : σ → ι → Prop) : σ → List ι → Prop
  | _, [] => True
  | s, i :: is => C s i ∧ M.Along C (M.step s i) is

theorem run_invariant_along {C : σ → ι → Prop} {I : σ → Prop}
    (keep : ∀ s i s' r, I s → C s i → M.exec s i = .ok (s', r) → I s') {s : σ} {is : List ι}
    (hs : I s) (hC : M.Along C s is) : I (M.run s is) := by
  induction is generalizing s with
  | nil => exact hs
  | cons i is ih =>
    obtain ⟨hi, his⟩ := hC
    refine ih ?_ his
    rcases M.step_cases s i with h | ⟨r, h⟩
    · rwa [h]
    · exact keep s i _ r hs hi h

theorem along_of_forall {C : σ → ι → Prop} (h : ∀ s i, C s i) (s : σ) (is : List ι) : M.Along C s is := by
  induction is generalizing s with
  | nil => trivial
  | cons i is ih => exact ⟨h s i, ih _⟩

theorem Along.and_forall {C : σ → ι → Prop} {P : ι → Prop} {s : σ} {is : List ι}
    (h : M.Along C s is) (hP : ∀ i ∈ is, P i) : M.Along (fun s i => C s i ∧ P i) s is := by
  induction is generalizing s with
  | nil => trivial
  | cons i is ih => exact ⟨⟨h.1, hP i (.head _)⟩, ih h.2 fun j hj => hP j (.tail _ hj)⟩

/-- What every committed operation keeps holds after any run. -/
theorem run_invariant {I : σ → Prop}
    (keep : ∀ s i s' r, I s → M.exec s i = .ok (s', r) → I s') {s : σ} (hs : I s) (is : List ι) :
    I (M.run s is) :=
  run_invariant_along (C := fun _ _ => True) (fun s i s' r h _ => keep s i s' r h) hs
    (along_of_forall (fun _ _ => trivial) s is)

/-! ## Answers -/

/-- The answers of a run's committed operations, in their order. -/
def answers (M : Machine σ ι ρ ε) (s : σ) : List ι → List ρ
  | [] => []
  | i :: is =>
    match M.exec s i with
    | .ok (s', r) => r :: M.answers s' is
    | .error _ => M.answers s is

theorem answers_of_ok {s s' : σ} {i : ι} {r : ρ} (h : M.exec s i = .ok (s', r)) (is : List ι) :
    M.answers s (i :: is) = r :: M.answers s' is := by
  rw [answers, h]

theorem answers_of_error {s : σ} {i : ι} {e : ε} (h : M.exec s i = .error e) (is : List ι) :
    M.answers s (i :: is) = M.answers s is := by
  rw [answers, h]

/-- What holds of every answer an operation can give holds of every answer of a run. -/
theorem answers_forall {C : ρ → Prop} (give : ∀ s i s' r, M.exec s i = .ok (s', r) → C r) (s : σ)
    (is : List ι) : ∀ r ∈ M.answers s is, C r := by
  induction is generalizing s with
  | nil => exact fun r hr => nomatch hr
  | cons i is ih =>
    cases h : M.exec s i with
    | error e =>
      rw [answers_of_error h]
      exact ih s
    | ok p =>
      obtain ⟨s', r⟩ := p
      rw [answers_of_ok h]
      rintro q (_ | ⟨_, hq⟩)
      · exact give s i s' _ h
      · exact ih s' q hq

/-- What every operation meeting `C` keeps of the state and the answers given so far. -/
theorem history_invariant_along {C : σ → ι → Prop} {I : σ → List ρ → Prop}
    (keep : ∀ s given i s' r, I s given → C s i → M.exec s i = .ok (s', r) → I s' (given ++ [r])) {s : σ}
    {given : List ρ} {is : List ι} (hs : I s given) (hC : M.Along C s is) :
    I (M.run s is) (given ++ M.answers s is) := by
  induction is generalizing s given with
  | nil =>
    rw [answers, List.append_nil]
    exact hs
  | cons i is ih =>
    obtain ⟨hi, his⟩ := hC
    rw [run_cons]
    cases h : M.exec s i with
    | error e =>
      rw [step_of_error h] at his
      rw [answers_of_error h, step_of_error h]
      exact ih hs his
    | ok p =>
      obtain ⟨s', r⟩ := p
      rw [step_of_ok h] at his
      have next := ih (keep s given i s' r hs hi h) his
      rw [answers_of_ok h, step_of_ok h]
      rwa [List.append_assoc, List.singleton_append] at next

/-- What every committed operation keeps of the state and the answers given so far. -/
theorem history_invariant {I : σ → List ρ → Prop}
    (keep : ∀ s given i s' r, I s given → M.exec s i = .ok (s', r) → I s' (given ++ [r])) {s : σ} {given : List ρ}
    (hs : I s given) (is : List ι) : I (M.run s is) (given ++ M.answers s is) :=
  history_invariant_along (C := fun _ _ => True)
    (fun s given i s' r h _ => keep s given i s' r h) hs (along_of_forall (fun _ _ => trivial) s is)

section

variable {K : σ → ρ → Prop} {R : ρ → ρ → Prop}
  (keep : ∀ s i s' q r, K s q → M.exec s i = .ok (s', r) → K s' q ∧ R q r)

include keep

/-- Every later answer is in the relation to one that the state keeps track of. -/
theorem answers_of_kept {s : σ} {q : ρ} (h : K s q) (is : List ι) : ∀ r ∈ M.answers s is, R q r := by
  induction is generalizing s with
  | nil => exact fun r hr => nomatch hr
  | cons i is ih =>
    cases hx : M.exec s i with
    | error e =>
      rw [answers_of_error hx]
      exact ih h
    | ok p =>
      obtain ⟨s', r⟩ := p
      have ⟨kept, hr⟩ := keep s i s' q r h hx
      rw [answers_of_ok hx]
      rintro _ (_ | ⟨_, hmem⟩)
      · exact hr
      · exact ih kept _ hmem

/-- A state that keeps track (`K`) of every answer given puts each answer in the relation to all
later ones. -/
theorem answers_pairwise (give : ∀ s i s' r, M.exec s i = .ok (s', r) → K s' r) (s : σ)
    (is : List ι) : (M.answers s is).Pairwise R := by
  induction is generalizing s with
  | nil => exact List.Pairwise.nil
  | cons i is ih =>
    cases h : M.exec s i with
    | error e =>
      rw [answers_of_error h]
      exact ih s
    | ok p =>
      obtain ⟨s', r⟩ := p
      rw [answers_of_ok h]
      exact List.Pairwise.cons (answers_of_kept keep (give s i s' r h) is) (ih s')

end

end Machine

end Maru
