import Mathlib.Tactic.Common

/-!
# Programs that may fail

A command is a block of `Except`: it stops at the first check that fails. These
lemmas read a success backwards: a `bind` that succeeded had both halves succeed
(`bind_eq_ok`), a check that succeeded holds (`require_eq_ok`), a loop of checks
that succeeded holds of every element (`forM_eq_ok`). Rewriting with them turns a
successful command into the conjunction of what it checked and what it wrote.

`Ends P E x` says both what `x` returns and how it can fail; its rules follow the
program forwards, one for each form of statement.
-/

namespace Maru

universe u v w

/-- Fail with `e` unless `p` holds: `if not p: raise e`. -/
def require {ε : Type u} (p : Prop) [Decidable p] (e : ε) : Except ε Unit :=
  if p then .ok () else .error e

/-- The value of `o`, or the failure `e`: `if o is None: raise e`. -/
def getOr {ε : Type u} {α : Type v} (e : ε) : Option α → Except ε α
  | some a => .ok a
  | none => .error e

namespace Except

/-- The failure, where there is one. -/
def failure? {ε : Type u} {α : Type v} : Except ε α → Option ε
  | .ok _ => none
  | .error e => some e

theorem exists_ok {ε : Type u} {α : Type v} {x : Except ε α} (h : failure? x = none) : ∃ a, x = .ok a := by
  cases x with
  | error e => cases h
  | ok a => exact ⟨a, rfl⟩

end Except

section

variable {ε : Type u} {α β : Type v}

theorem bind_eq_ok {x : Except ε α} {f : α → Except ε β} {b : β} :
    (x >>= f) = .ok b ↔ ∃ a, x = .ok a ∧ f a = .ok b := by
  cases x with
  | error e => simp [bind, Except.bind]
  | ok a => simp [bind, Except.bind]

theorem ok_bind {a : α} {f : α → Except ε β} : (Except.ok a >>= f) = f a := rfl

/-- A check, and then the rest. -/
theorem seq_eq_ok {x : Except ε PUnit} {f : PUnit → Except ε β} {b : β} : (x >>= f) = .ok b ↔
    x = .ok ⟨⟩ ∧ f ⟨⟩ = .ok b := by
  cases x with
  | error e => simp [bind, Except.bind]
  | ok a => simp [bind, Except.bind]

theorem pure_eq_ok {a b : α} : (pure a : Except ε α) = .ok b ↔ a = b := by
  simp [pure, Except.pure]

theorem mapError_eq_ok {ε' : Type u} {x : Except ε α} {f : ε → ε'} {a : α} : x.mapError f = .ok a ↔ x = .ok a := by
  cases x <;> simp [Except.mapError]

theorem map_eq_ok {x : Except ε α} {f : α → β} {b : β} : x.map f = .ok b ↔ ∃ a, x = .ok a ∧ f a = b := by
  cases x <;> simp [Except.map]

/-- A program that answers from the store it was given leaves it as it is. -/
theorem store_of_answer {σ : Type v} {x : Except ε α} {f : α → β} {s s' : σ} {b : β}
    (h : (x >>= fun a => pure (s, f a)) = .ok (s', b)) : s = s' := by
  obtain ⟨_, -, h⟩ := bind_eq_ok.mp h
  exact congrArg Prod.fst (pure_eq_ok.mp h)

theorem throw_ne_ok {e : ε} {b : α} : ¬ (throw e : Except ε α) = .ok b := by
  simp [throw, throwThe, MonadExceptOf.throw]

end

theorem require_eq_ok {ε : Type u} {p : Prop} [Decidable p] {e : ε} {x : Unit} :
    require p e = .ok x ↔ p := by
  unfold require
  split <;> simp_all

theorem getOr_eq_ok {ε : Type u} {α : Type v} {e : ε} {o : Option α} {a : α} :
    getOr e o = .ok a ↔ o = some a := by
  cases o <;> simp [getOr]

/-! ## Endings -/

section

variable {ε : Type u} {α β : Type v} {γ : Type w}

/-- What `x` returns meets `P`, what it fails with meets `E`. -/
def Ends (P : α → Prop) (E : ε → Prop) : Except ε α → Prop
  | .ok a => P a
  | .error e => E e

variable {P : α → Prop} {R : β → Prop} {E : ε → Prop} {x : Except ε α} {f : α → Except ε β}

theorem Ends.ok {a : α} (h : Ends P E x) (hx : x = .ok a) : P a := by
  subst hx
  exact h

theorem Ends.error {e : ε} (h : Ends P E x) (hx : x = .error e) : E e := by
  subst hx
  exact h

theorem Ends.bind (hx : Ends P E x) (hf : ∀ a, P a → Ends R E (f a)) : Ends R E (x >>= f) := by
  cases x with
  | error e => exact hx
  | ok a => exact hf a hx

/-- What the rest of a program returns does not depend on `x`. -/
theorem Ends.skip (hf : ∀ a, Ends R (fun _ => True) (f a)) : Ends R (fun _ => True) (x >>= f) := by
  cases x with
  | error e => exact trivial
  | ok a => exact hf a

theorem Ends.mono {P' : α → Prop} (hx : Ends P E x) (hP : ∀ a, P a → P' a) : Ends P' E x := by
  cases x with
  | error e => exact hx
  | ok a => exact hP a hx

theorem Ends.pure {a : α} (h : P a) : Ends P E (pure a : Except ε α) := h

theorem Ends.throw {e : ε} (h : E e) : Ends P E (throw e : Except ε α) := h

theorem Ends.require {p : Prop} {_ : Decidable p} {e : ε} (he : ¬ p → E e) : Ends (fun _ => p) E (require p e) := by
  unfold Maru.require
  split
  · rename_i h
    exact h
  · rename_i h
    exact he h

theorem Ends.getOr {o : Option α} {e : ε} (he : o = none → E e) : Ends (fun a => o = some a) E (getOr e o) := by
  cases o with
  | none => exact he rfl
  | some a => exact rfl

/-- A loop keeps what each turn keeps. -/
theorem Ends.foldlM {l : List γ} {f : α → γ → Except ε α} {I : α → List γ → Prop}
    (hf : ∀ a c l, I a (c :: l) → Ends (I · l) E (f a c)) {a : α} (h : I a l) : Ends (I · []) E (l.foldlM f a) := by
  induction l generalizing a with
  | nil => exact h
  | cons c l ih =>
    rw [List.foldlM_cons]
    exact Ends.bind (hf a c l h) fun b hb => ih hb

end

/-- A loop that only checks succeeds exactly when every check does. -/
theorem forM_eq_ok {ε : Type u} {α : Type v} {f : α → Except ε PUnit} {l : List α} :
    l.forM f = .ok ⟨⟩ ↔ ∀ a ∈ l, f a = .ok ⟨⟩ := by
  induction l with
  | nil => simp [List.forM, pure, Except.pure]
  | cons a l ih =>
    rw [show (a :: l).forM f = (f a >>= fun _ => l.forM f) from rfl, bind_eq_ok]
    simp only [List.mem_cons, forall_eq_or_imp, ih]
    exact ⟨fun ⟨_, h, h'⟩ => ⟨h, h'⟩, fun ⟨h, h'⟩ => ⟨_, h, h'⟩⟩

end Maru
