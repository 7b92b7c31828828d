import Maru.Framework.Table

/-!
# Erasing and inserting several rows

A row can be erased by its key (`mem_erase`), and a list of rows be inserted where all of
their keys are new (`mem_insertAll?`).
-/

namespace Maru.Table

universe u v

variable {ρ : Type u} {κ : Type v} {key : ρ → κ} [DecidableEq κ]

/-- The table without the row under the key. -/
def erase (t : Table key) (k : κ) : Table key :=
  ⟨t.rows.filter fun r => key r ≠ k, t.nodup.sublist (List.filter_sublist.map key)⟩

theorem mem_erase {t : Table key} {k : κ} {a : ρ} : a ∈ t.erase k ↔ a ∈ t ∧ key a ≠ k := by
  unfold erase
  rw [mem_def, List.mem_filter, decide_eq_true_eq, mem_def]

theorem countP_erase_le (t : Table key) (k : κ) (p : ρ → Bool) : (t.erase k).rows.countP p ≤ t.rows.countP p :=
  List.filter_sublist.countP_le

/-- The table with the rows added in their order, unless a key is taken. -/
def insertAll? (t : Table key) : List ρ → Option (Table key)
  | [] => some t
  | r :: rest => (t.insert? r).bind fun t => t.insertAll? rest

theorem insertAll?_eq_some {t t' : Table key} {rows : List ρ} (h : t.insertAll? rows = some t') :
    t'.rows = t.rows ++ rows ∧ ∀ a ∈ t, ∀ r ∈ rows, key a ≠ key r := by
  induction rows generalizing t with
  | nil =>
    cases h
    exact ⟨(List.append_nil _).symm, fun _ _ r hr => absurd hr List.not_mem_nil⟩
  | cons r rest ih =>
    obtain ⟨t₁, inserted, h⟩ := Option.bind_eq_some_iff.mp h
    obtain ⟨fresh, rows⟩ := insert?_eq_some.mp inserted
    obtain ⟨rows', fresh'⟩ := ih h
    refine ⟨by rw [rows', rows, List.append_assoc, List.singleton_append], fun a ha x hx => ?_⟩
    rcases List.mem_cons.mp hx with rfl | hx
    · exact fresh a ha
    · exact fresh' a ((mem_insert? inserted).mpr (.inl ha)) x hx

theorem mem_insertAll? {t t' : Table key} {rows : List ρ} (h : t.insertAll? rows = some t')
    {a : ρ} : a ∈ t' ↔ a ∈ t ∨ a ∈ rows := by
  rw [mem_def, (insertAll?_eq_some h).1, List.mem_append, mem_def]

theorem countP_insertAll? {t t' : Table key} {rows : List ρ} (h : t.insertAll? rows = some t')
    (p : ρ → Bool) : t'.rows.countP p = t.rows.countP p + rows.countP p := by
  rw [(insertAll?_eq_some h).1, List.countP_append]

end Maru.Table
