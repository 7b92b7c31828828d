import Mathlib.Data.List.Forall2
import Mathlib.Data.List.Nodup
import Mathlib.Data.List.Sort

/-!
# Lists

What two lists with related elements have in common, looking up by a key that no two
elements share, and sorting by a key.
-/

namespace Maru

universe u v w

variable {α : Type u} {β : Type v} {γ : Type w} {R : α → β → Prop} {as : List α} {bs : List β}

/-- What related elements agree on, the lists agree on. -/
theorem map_eq_of_forall₂ {f : α → γ} {g : β → γ} (e : ∀ a b, R a b → f a = g b)
    (h : List.Forall₂ R as bs) : as.map f = bs.map g := by
  induction h with
  | nil => rfl
  | cons hab _ ih => rw [List.map_cons, List.map_cons, e _ _ hab, ih]

theorem exists_of_forall₂ (h : List.Forall₂ R as bs) {b : β} (hb : b ∈ bs) : ∃ a ∈ as, R a b := by
  induction h with
  | nil => cases hb
  | cons hab _ ih =>
    rcases List.mem_cons.mp hb with rfl | hb
    · exact ⟨_, List.mem_cons_self, hab⟩
    · obtain ⟨a, ha, hr⟩ := ih hb
      exact ⟨a, List.mem_cons_of_mem _ ha, hr⟩

theorem forall₂_map_self {f : α → β} (h : ∀ a ∈ as, R a (f a)) : List.Forall₂ R as (as.map f) := by
  induction as with
  | nil => exact .nil
  | cons a as ih =>
    obtain ⟨ha, has⟩ := List.forall_mem_cons.mp h
    exact .cons ha (ih has)

section

variable [DecidableEq β] {key : α → β} (nodup : (as.map key).Nodup)

include nodup

theorem find?_key_eq_some {k : β} {a : α} : as.find? (key · = k) = some a ↔ a ∈ as ∧ key a = k := by
  constructor
  · exact fun h => ⟨List.mem_of_find?_eq_some h, by simpa using List.find?_some h⟩
  · rintro ⟨ha, rfl⟩
    obtain ⟨b, hb⟩ : ∃ b, as.find? (key · = key a) = some b :=
      Option.isSome_iff_exists.mp (List.find?_isSome.mpr ⟨a, ha, by simp⟩)
    have same : key b = key a := by simpa using List.find?_some hb
    rw [hb, List.inj_on_of_nodup_map nodup (List.mem_of_find?_eq_some hb) ha same]

/-- Looking up by the key does not depend on the order. -/
theorem find?_key_perm {as' : List α} (h : as.Perm as') (k : β) :
    as.find? (key · = k) = as'.find? (key · = k) := by
  ext a
  rw [find?_key_eq_some nodup, find?_key_eq_some ((h.map key).nodup_iff.mp nodup), h.mem_iff]

end

/-- Where each element gives nothing or its image, what they give is part of the list of images. -/
theorem flatMap_sublist_map {f : α → List β} {g : α → β} {l : List α}
    (h : ∀ a ∈ l, f a = [] ∨ f a = [g a]) : (l.flatMap f).Sublist (l.map g) := by
  induction l with
  | nil => exact List.Sublist.refl []
  | cons a l ih =>
    have rest := ih fun b hb => h b (List.mem_cons_of_mem a hb)
    rw [List.flatMap_cons, List.map_cons]
    rcases h a List.mem_cons_self with none' | one
    · rw [none', List.nil_append]
      exact rest.cons _
    · rw [one, List.singleton_append]
      exact rest.cons_cons _

/-- Two lists without repetitions that count the same elements. -/
theorem countP_eq_of_mem_iff {l l' : List α} {p q : α → Bool} (hl : l.Nodup) (hl' : l'.Nodup)
    (same : ∀ a, a ∈ l ∧ p a ↔ a ∈ l' ∧ q a) : l.countP p = l'.countP q := by
  rw [List.countP_eq_length_filter, List.countP_eq_length_filter]
  refine List.Perm.length_eq ?_
  rw [List.perm_ext_iff_of_nodup (hl.filter p) (hl'.filter q)]
  intro a
  rw [List.mem_filter, List.mem_filter, same]

section

variable {τ : Type w} [LinearOrder τ]

/-- Stable sort by a key. -/
def sortBy (key : α → τ) (l : List α) : List α := l.insertionSort fun a b => key a ≤ key b

variable (key : α → τ) (l : List α)

theorem sortBy_perm : (sortBy key l).Perm l := List.perm_insertionSort _ l

theorem sortBy_sorted : (sortBy key l).Pairwise fun a b => key a ≤ key b :=
  haveI : Std.Total fun a b : α => key a ≤ key b := ⟨fun a b => le_total (key a) (key b)⟩
  haveI : IsTrans α fun a b => key a ≤ key b := ⟨fun _ _ _ => le_trans⟩
  List.pairwise_insertionSort _ l

variable {key l}

/-- Sorting by a key that no two elements share forgets the order. -/
theorem sortBy_eq_of_perm {l' : List α} (inj : ∀ a ∈ l, ∀ b ∈ l, key a = key b → a = b)
    (h : l.Perm l') : sortBy key l = sortBy key l' := by
  have perm := (sortBy_perm key l).trans (h.trans (sortBy_perm key l').symm)
  refine perm.eq_of_pairwise (fun a b ha hb hab hba => ?_) (sortBy_sorted key l) (sortBy_sorted key l')
  exact inj a ((sortBy_perm key l).mem_iff.mp ha) b
    (h.mem_iff.mpr ((sortBy_perm key l').mem_iff.mp hb)) (le_antisymm hab hba)

theorem perm_of_sortBy_eq {l' : List α} (h : sortBy key l = sortBy key l') : l.Perm l' := by
  have perm := sortBy_perm key l'
  rw [← h] at perm
  exact (sortBy_perm key l).symm.trans perm

/-- Lists in increasing order of a key are the same if they have the same elements. -/
theorem eq_of_increasing {key : α → τ} {l l' : List α} (h : l.Pairwise fun a b => key a < key b)
    (h' : l'.Pairwise fun a b => key a < key b) (same : ∀ a, a ∈ l ↔ a ∈ l') : l = l' := by
  have nodup {l : List α} (h : l.Pairwise fun a b => key a < key b) : l.Nodup :=
    h.imp fun {a b} lt eq => absurd (congrArg key eq) lt.ne
  refine ((List.perm_ext_iff_of_nodup (nodup h) (nodup h')).mpr same).eq_of_pairwise (fun a b _ _ hab hba => ?_) h h'
  exact absurd hba hab.asymm

end

end Maru
