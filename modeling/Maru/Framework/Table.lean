import Mathlib.Data.List.Basic
import Mathlib.Data.List.Nodup
import Mathlib.Data.List.Count
import Mathlib.Algebra.GroupWithZero.Nat
import Maru.Framework.Except

/-!
# Tables with a primary key

A table is a list of rows no two of which share a key, so looking a key up and looking
a row up agree (`get?_eq_some`). A row is inserted under a new key (`insert?`) or saved
over the row that has its key (`save`); rows are never deleted. Membership after a write
(`mem_insert?`, `mem_save`), the number of rows meeting a condition (`countP_insert?`,
`countP_save`) and sums over the rows (`sum_insert?`, `sum_save`) after it are what the
developments over tables use; a table whose rows all stay, up to some change, is one that
`Keeps` them.
-/

namespace Maru

universe u v w

theorem holds_of_find? {α : Type u} {l : List α} {p : α → Prop} [DecidablePred p] {a : α}
    (h : (l.find? fun a => p a) = some a) : p a := by
  simpa using List.find?_some h

/-- Rows `ρ`, each found by its `key`, no key twice. -/
structure Table {ρ : Type u} {κ : Type v} (key : ρ → κ) where
  rows : List ρ
  nodup : (rows.map key).Nodup

namespace Table

variable {ρ : Type u} {κ : Type v} {key : ρ → κ}

instance : Membership ρ (Table key) := ⟨fun t r => r ∈ t.rows⟩

instance : EmptyCollection (Table key) := ⟨⟨[], List.nodup_nil⟩⟩

theorem mem_def {t : Table key} {r : ρ} : r ∈ t ↔ r ∈ t.rows := Iff.rfl

@[simp] theorem not_mem_empty {r : ρ} : ¬ r ∈ (∅ : Table key) := List.not_mem_nil

@[simp] theorem rows_empty : (∅ : Table key).rows = [] := rfl

/-- Rows with the same key are the same row. -/
theorem eq_of_key {t : Table key} {a b : ρ} (ha : a ∈ t) (hb : b ∈ t) (h : key a = key b) : a = b :=
  List.inj_on_of_nodup_map t.nodup ha hb h

theorem find?_eq_some_and {t : Table key} {p : ρ → Prop} [DecidablePred p] {r : ρ}
    (h : (t.rows.find? fun r => p r) = some r) : r ∈ t ∧ p r :=
  ⟨List.mem_of_find?_eq_some h, holds_of_find? h⟩

variable [DecidableEq κ]

def get? (t : Table key) (k : κ) : Option ρ := t.rows.find? fun r => key r = k

theorem get?_eq_some {t : Table key} {k : κ} {r : ρ} : t.get? k = some r ↔ r ∈ t ∧ key r = k := by
  constructor
  · intro h
    exact ⟨List.mem_of_find?_eq_some h, by simpa using List.find?_some h⟩
  · rintro ⟨hr, rfl⟩
    cases h : t.get? (key r) with
    | none => simpa using List.find?_eq_none.mp h r hr
    | some a =>
      have ha : key a = key r := by simpa using List.find?_some h
      rw [eq_of_key (List.mem_of_find?_eq_some h) hr ha]

theorem get?_eq_none {t : Table key} {k : κ} : t.get? k = none ↔ ∀ r ∈ t, key r ≠ k := by
  simp [get?, List.find?_eq_none, mem_def]

/-! ## Inserting -/

/-- The table with the row `r` added, unless its key is taken. -/
def insert? (t : Table key) (r : ρ) : Option (Table key) :=
  if h : key r ∈ t.rows.map key then none
  else some ⟨t.rows ++ [r], by
    rw [List.map_append, List.map_singleton]
    exact List.nodup_append.mpr ⟨t.nodup, List.nodup_singleton _, fun a ha b hb hab => by
      rw [List.mem_singleton.mp hb] at hab; exact h (hab ▸ ha)⟩⟩

theorem insert?_eq_some {t t' : Table key} {r : ρ} :
    t.insert? r = some t' ↔ (∀ a ∈ t, key a ≠ key r) ∧ t'.rows = t.rows ++ [r] := by
  have hk : key r ∈ t.rows.map key ↔ ¬ ∀ a ∈ t, key a ≠ key r := by simp [mem_def]
  unfold insert?
  split
  · rename_i h
    simp only [reduceCtorEq, false_iff, not_and]
    exact fun h' => absurd h' (hk.mp h)
  · rename_i h
    rw [hk, not_not] at h
    constructor
    · intro e; cases e; exact ⟨h, rfl⟩
    · rintro ⟨-, e⟩
      cases t'; cases e; rfl

theorem mem_insert? {t t' : Table key} {r : ρ} (h : t.insert? r = some t') {a : ρ} :
    a ∈ t' ↔ a ∈ t ∨ a = r := by
  rw [mem_def, (insert?_eq_some.mp h).2, List.mem_append, List.mem_singleton, mem_def]

theorem exists_insert?_eq_some {t : Table key} {r : ρ} :
    (∃ t', t.insert? r = some t') ↔ t.get? (key r) = none := by
  rw [get?_eq_none]
  constructor
  · rintro ⟨t', h⟩
    exact (insert?_eq_some.mp h).1
  · intro h
    unfold insert?
    have : ¬ key r ∈ t.rows.map key := fun hr => by
      obtain ⟨a, ha, e⟩ := List.mem_map.mp hr
      exact h a ha e
    rw [dif_neg this]
    exact ⟨_, rfl⟩

theorem get?_insert? {t t' : Table key} {r : ρ} (h : t.insert? r = some t') (k : κ) :
    t'.get? k = if k = key r then some r else t.get? k := by
  ext a
  rw [get?_eq_some, mem_insert? h]
  have absent := (insert?_eq_some.mp h).1
  by_cases hk : k = key r
  · subst hk
    simp only [if_true, Option.some.injEq]
    constructor
    · rintro ⟨ha | rfl, hka⟩
      · exact absurd hka (absent a ha)
      · rfl
    · rintro rfl
      exact ⟨.inr rfl, rfl⟩
  · rw [if_neg hk, get?_eq_some]
    constructor
    · rintro ⟨ha | rfl, hka⟩
      · exact ⟨ha, hka⟩
      · exact absurd hka.symm hk
    · exact fun h => ⟨.inl h.1, h.2⟩

theorem countP_insert? {t t' : Table key} {r : ρ} (h : t.insert? r = some t') (p : ρ → Bool) :
    t'.rows.countP p = t.rows.countP p + if p r then 1 else 0 := by
  rw [(insert?_eq_some.mp h).2, List.countP_append, List.countP_singleton]

theorem sum_insert? {t t' : Table key} {r : ρ} (h : t.insert? r = some t') (f : ρ → Nat) :
    (t'.rows.map f).sum = (t.rows.map f).sum + f r := by
  rw [(insert?_eq_some.mp h).2, List.map_append, List.sum_append, List.map_singleton, List.sum_singleton]

/-! ## Saving -/

/-- The table with `r` in the place of the row that has its key. -/
def save (t : Table key) (r : ρ) : Table key :=
  ⟨t.rows.map fun a => if key a = key r then r else a, by
    have h : (t.rows.map fun a => if key a = key r then r else a).map key = t.rows.map key := by
      rw [List.map_map]
      refine List.map_congr_left fun a _ => ?_
      simp only [Function.comp_apply]
      split <;> simp_all
    rw [h]; exact t.nodup⟩

@[simp] theorem rows_save (t : Table key) (r : ρ) :
    (t.save r).rows = t.rows.map fun a => if key a = key r then r else a := rfl

theorem mem_save {t : Table key} {r a : ρ} :
    a ∈ t.save r ↔ (a ∈ t ∧ key a ≠ key r) ∨ (a = r ∧ ∃ b ∈ t, key b = key r) := by
  simp only [mem_def, rows_save, List.mem_map]
  constructor
  · rintro ⟨b, hb, rfl⟩
    split
    · rename_i h; exact .inr ⟨rfl, b, hb, h⟩
    · rename_i h; exact .inl ⟨hb, h⟩
  · rintro (⟨ha, h⟩ | ⟨rfl, b, hb, h⟩)
    · exact ⟨a, ha, by rw [if_neg h]⟩
    · exact ⟨b, hb, by rw [if_pos h]⟩

/-- The later of two saves of one key stays. -/
theorem save_save {t : Table key} {a b : ρ} (h : key a = key b) : (t.save a).save b = t.save b := by
  have rows : ((t.save a).save b).rows = (t.save b).rows := by
    simp only [rows_save, List.map_map]
    refine List.map_congr_left fun r _ => ?_
    simp only [Function.comp_apply]
    by_cases hr : key r = key a
    · rw [if_pos hr, if_pos h, if_pos (hr.trans h)]
    · rw [if_neg hr]
  cases hs : (t.save a).save b
  cases hb : t.save b
  rw [hs, hb] at rows
  cases rows
  rfl

/-- A new row that is saved over is inserted as it was saved. -/
theorem insert?_save {t t' : Table key} {a b : ρ} (h : t.insert? a = some t')
    (same : key b = key a) : t.insert? b = some (t'.save b) := by
  obtain ⟨fresh, rows⟩ := insert?_eq_some.mp h
  refine insert?_eq_some.mpr ⟨fun r hr => same ▸ fresh r hr, ?_⟩
  have kept : (t.rows.map fun r => if key r = key b then b else r) = t.rows := by
    conv_rhs => rw [← List.map_id t.rows]
    exact List.map_congr_left fun r hr => if_neg fun (e : key r = key b) => fresh r hr (e.trans same)
  rw [rows_save, rows, List.map_append, List.map_singleton, kept, if_pos same.symm]

/-- Saving over a row that is there. -/
theorem mem_save_of_mem {t : Table key} {r b : ρ} (hb : b ∈ t) (h : key b = key r) {a : ρ} :
    a ∈ t.save r ↔ (a ∈ t ∧ key a ≠ key r) ∨ a = r := by
  rw [mem_save]
  exact or_congr_right ⟨fun h => h.1, fun e => ⟨e, b, hb, h⟩⟩

/-- Every row is kept, or is the one that was saved over. -/
theorem mem_save_or {t : Table key} {r a : ρ} (ha : a ∈ t) : a ∈ t.save r ∨ key a = key r := by
  by_cases h : key a = key r
  · exact .inr h
  · exact .inl (mem_save.mpr (.inl ⟨ha, h⟩))

/-- A row with a property that the saved row takes over is still there. -/
theorem exists_save {t : Table key} {b r : ρ} (hb : b ∈ t) (h : key b = key r) {φ : ρ → Prop}
    (step : φ b → φ r) : (∃ a ∈ t, φ a) → ∃ a ∈ t.save r, φ a := by
  rintro ⟨a, ha, hφ⟩
  by_cases e : key a = key r
  · obtain rfl := eq_of_key ha hb (e.trans h.symm)
    exact ⟨r, mem_save.mpr (.inr ⟨rfl, a, hb, h⟩), step hφ⟩
  · exact ⟨a, mem_save.mpr (.inl ⟨ha, e⟩), hφ⟩

theorem exists_insert? {t t' : Table key} {r : ρ} (h : t.insert? r = some t') {φ : ρ → Prop} :
    (∃ a ∈ t, φ a) → ∃ a ∈ t', φ a :=
  fun ⟨a, ha, hφ⟩ => ⟨a, (mem_insert? h).mpr (.inl ha), hφ⟩

/-- What a save leaves of the rows that are selected, where the saved row differs in
nothing that is asked for. -/
theorem filter_map_save {β : Type*} {t : Table key} {b r : ρ} (hb : b ∈ t) (h : key b = key r) {p : ρ → Bool} {f : ρ → β}
    (selected : p r = p b) (same : p b → f r = f b) : ((t.save r).rows.filter p).map f = (t.rows.filter p).map f := by
  have eq : ∀ a ∈ t.rows, key a = key r → a = b := fun a ha e => eq_of_key ha hb (e.trans h.symm)
  rw [rows_save, List.filter_map, List.map_map]
  have selects : t.rows.filter (p ∘ fun a => if key a = key r then r else a) = t.rows.filter p := by
    refine List.filter_congr fun a ha => ?_
    by_cases e : key a = key r
    · obtain rfl := eq a ha e
      simp only [Function.comp_apply, if_pos e, selected]
    · simp only [Function.comp_apply, if_neg e]
  rw [selects]
  refine List.map_congr_left fun a ha => ?_
  obtain ⟨ha, chosen⟩ := List.mem_filter.mp ha
  by_cases e : key a = key r
  · obtain rfl := eq a ha e
    simp only [Function.comp_apply, if_pos e, same chosen]
  · simp only [Function.comp_apply, if_neg e]

theorem get?_save (t : Table key) (r : ρ) (k : κ) :
    (t.save r).get? k = (t.get? k).map fun a => if key a = key r then r else a := by
  unfold get?
  rw [rows_save, List.find?_map]
  congr 2
  funext a
  simp only [Function.comp_apply]
  split <;> simp_all

theorem get?_save_self {t : Table key} {r b : ρ} (h : t.get? (key r) = some b) : (t.save r).get? (key r) = some r := by
  rw [get?_save, h, Option.map_some, if_pos (get?_eq_some.mp h).2]

theorem get?_save_of_ne {t : Table key} {r : ρ} {k : κ} (h : k ≠ key r) : (t.save r).get? k = t.get? k := by
  rw [get?_save]
  cases ha : t.get? k with
  | none => rfl
  | some a => rw [Option.map_some, if_neg fun e => h ((get?_eq_some.mp ha).2.symm.trans e)]

/-! ## Rows that stay -/

/-- Every row of `t` is still found in `t'`, changed at most as `R` allows. -/
def Keeps (t : Table key) (R : ρ → ρ → Prop) (t' : Table key) : Prop :=
  ∀ k r, t.get? k = some r → ∃ r', t'.get? k = some r' ∧ R r r'

theorem Keeps.refl {R : ρ → ρ → Prop} (hR : ∀ r, R r r) (t : Table key) : t.Keeps R t := fun _ r h => ⟨r, h, hR r⟩

theorem Keeps.trans {R : ρ → ρ → Prop} (hR : ∀ a b c, R a b → R b c → R a c) {t₁ t₂ t₃ : Table key}
    (h : t₁.Keeps R t₂) (h' : t₂.Keeps R t₃) : t₁.Keeps R t₃ := by
  intro k a ha
  obtain ⟨b, hb, hab⟩ := h k a ha
  obtain ⟨c, hc, hbc⟩ := h' k b hb
  exact ⟨c, hc, hR a b c hab hbc⟩

theorem keeps_insert? {R : ρ → ρ → Prop} (hR : ∀ r, R r r) {t t' : Table key} {r : ρ}
    (h : t.insert? r = some t') : t.Keeps R t' := by
  intro k a ha
  refine ⟨a, ?_, hR a⟩
  have ⟨hmem, hk⟩ := get?_eq_some.mp ha
  exact get?_eq_some.mpr ⟨(mem_insert? h).mpr (.inl hmem), hk⟩

theorem keeps_save {R : ρ → ρ → Prop} (hR : ∀ r, R r r) {t : Table key} {r : ρ}
    (h : ∀ b, t.get? (key r) = some b → R b r) : t.Keeps R (t.save r) := by
  intro k a ha
  rw [get?_save, ha, Option.map_some]
  refine ⟨_, rfl, ?_⟩
  split
  · rename_i e
    exact h a (by rw [← e, (get?_eq_some.mp ha).2, ha])
  · exact hR a

/-- A save exchanges one row and keeps the rest. -/
theorem save_perm {t : Table key} {b r : ρ} (hb : b ∈ t) (h : key b = key r) :
    ∃ rest, t.rows.Perm (b :: rest) ∧ (t.save r).rows.Perm (r :: rest) := by
  obtain ⟨rows, nodup⟩ := t
  simp only [rows_save, mem_def] at *
  induction rows with
  | nil => cases hb
  | cons a l ih =>
    rw [List.map_cons, List.nodup_cons] at nodup
    rcases List.mem_cons.mp hb with rfl | hb
    · -- The key is at the head, so no row of the tail changes.
      have tail : (l.map fun a => if key a = key r then r else a) = l := by
        conv_rhs => rw [← List.map_id l]
        exact List.map_congr_left fun c hc =>
          if_neg fun (e : key c = key r) => nodup.1 (List.mem_map.mpr ⟨c, hc, e.trans h.symm⟩)
      refine ⟨l, .refl _, ?_⟩
      rw [List.map_cons, tail, if_pos h]
    · have hne : key a ≠ key r := fun e => nodup.1 (List.mem_map.mpr ⟨b, hb, h.trans e.symm⟩)
      obtain ⟨rest, before, after⟩ := ih nodup.2 hb
      refine ⟨a :: rest, (before.cons a).trans (.swap ..), ?_⟩
      rw [List.map_cons, if_neg hne]
      exact (after.cons a).trans (.swap ..)

/-- The rows meeting `p` after a save: the old row is counted out, the new one in. -/
theorem countP_save {t : Table key} {b r : ρ} (hb : b ∈ t) (h : key b = key r) (p : ρ → Bool) :
    (t.save r).rows.countP p + (if p b then 1 else 0) = t.rows.countP p + if p r then 1 else 0 := by
  obtain ⟨rest, before, after⟩ := save_perm hb h
  rw [after.countP_eq, before.countP_eq, List.countP_cons, List.countP_cons]
  omega

/-- A sum over the rows after a save: the old row is taken out, the new one in. -/
theorem sum_save {t : Table key} {b r : ρ} (hb : b ∈ t) (h : key b = key r) (f : ρ → Nat) :
    ((t.save r).rows.map f).sum + f b = (t.rows.map f).sum + f r := by
  obtain ⟨rest, before, after⟩ := save_perm hb h
  rw [(after.map f).sum_nat, (before.map f).sum_nat, List.map_cons, List.map_cons, List.sum_cons, List.sum_cons]
  omega

/-! ## Saving several rows -/

/-- Save `f i` over each row `i` of a list. -/
def saveAll (t : Table key) (f : ρ → ρ) (items : List ρ) : Table key :=
  items.foldl (fun t i => t.save (f i)) t

@[simp] theorem saveAll_nil (t : Table key) (f : ρ → ρ) : t.saveAll f [] = t := rfl

@[simp] theorem saveAll_cons (t : Table key) (f : ρ → ρ) (i : ρ) (items : List ρ) :
    t.saveAll f (i :: items) = (t.save (f i)).saveAll f items := rfl

section

variable {f : ρ → ρ} (hf : ∀ i, key (f i) = key i)
include hf

theorem mem_save_tail {t : Table key} {i : ρ} {items : List ρ} (hi : ∀ j ∈ i :: items, j ∈ t)
    (hn : ((i :: items).map key).Nodup) {j : ρ} (hj : j ∈ items) : j ∈ t.save (f i) := by
  rw [List.map_cons, List.nodup_cons] at hn
  refine mem_save.mpr (.inl ⟨hi j (List.mem_cons_of_mem i hj), fun e => hn.1 ?_⟩)
  rw [← (e.trans (hf i))]
  exact List.mem_map_of_mem hj

theorem mem_saveAll {t : Table key} {items : List ρ} (hi : ∀ i ∈ items, i ∈ t)
    (hn : (items.map key).Nodup) {a : ρ} :
    a ∈ t.saveAll f items ↔ (a ∈ t ∧ ∀ i ∈ items, key a ≠ key i) ∨ ∃ i ∈ items, a = f i := by
  induction items generalizing t with
  | nil => simp
  | cons i items ih =>
    have hit := hi i List.mem_cons_self
    have hni : ∀ j ∈ items, key i ≠ key j := fun j hj e =>
      (List.nodup_cons.mp hn).1 (e ▸ List.mem_map_of_mem hj)
    rw [saveAll_cons, ih (fun j hj => mem_save_tail hf hi hn hj) (List.nodup_cons.mp hn).2,
      mem_save_of_mem hit (hf i).symm]
    simp only [hf, List.mem_cons, forall_eq_or_imp, exists_eq_or_imp]
    constructor
    · rintro (⟨⟨ha, hne⟩ | rfl, hall⟩ | h)
      · exact .inl ⟨ha, hne, hall⟩
      · exact .inr (.inl rfl)
      · exact .inr (.inr h)
    · rintro (⟨ha, hne, hall⟩ | rfl | h)
      · exact .inl ⟨.inl ⟨ha, hne⟩, hall⟩
      · exact .inl ⟨.inr rfl, fun j hj => by rw [hf]; exact hni j hj⟩
      · exact .inr h

/-- Saving rows that meet `p` as they did before does not change how many do. -/
theorem countP_saveAll {t : Table key} {items : List ρ} (hi : ∀ i ∈ items, i ∈ t)
    (hn : (items.map key).Nodup) {p : ρ → Bool} (hp : ∀ i ∈ items, p (f i) = p i) :
    (t.saveAll f items).rows.countP p = t.rows.countP p := by
  induction items generalizing t with
  | nil => rfl
  | cons i items ih =>
    rw [saveAll_cons, ih (fun j hj => mem_save_tail hf hi hn hj) (List.nodup_cons.mp hn).2
      fun j hj => hp j (List.mem_cons_of_mem i hj)]
    have := countP_save (hi i List.mem_cons_self) (hf i).symm p
    rw [hp i List.mem_cons_self] at this
    omega

end

end Table

end Maru
