import Maru.Framework.Lists
import Mathlib.Data.List.Perm.Basic

/-!
# Sweeping over intervals

`sweep` looks, for every element of a list, at the elements behind it up to the first one
that starts when it has ended. On a list sorted by start it finds exactly the pairs that
overlap (`sweep_eq_filter`), and what is done with them does not depend on the order that
the list had before sorting (`sweep_sort_perm`, `pairs_perm`).
-/

namespace Maru.Sweep

universe u v w

variable {α : Type u} {β : Type v} {τ : Type w}

/-- Every element with each one behind it. -/
def pairs : List α → List (α × α)
  | [] => []
  | a :: l => l.map (a, ·) ++ pairs l

theorem mem_of_mem_pairs {l : List α} {p : α × α} (h : p ∈ pairs l) : p.1 ∈ l ∧ p.2 ∈ l := by
  induction l with
  | nil => cases h
  | cons a l ih =>
    rcases List.mem_append.mp h with h | h
    · obtain ⟨b, hb, rfl⟩ := List.mem_map.mp h
      exact ⟨List.mem_cons_self, List.mem_cons_of_mem _ hb⟩
    · exact (ih h).imp (List.mem_cons_of_mem _) (List.mem_cons_of_mem _)

theorem ne_of_mem_pairs {l : List α} (nodup : l.Nodup) {p : α × α} (h : p ∈ pairs l) : p.1 ≠ p.2 := by
  induction l with
  | nil => cases h
  | cons a l ih =>
    obtain ⟨ha, hl⟩ := List.nodup_cons.mp nodup
    rcases List.mem_append.mp h with h | h
    · obtain ⟨b, hb, rfl⟩ := List.mem_map.mp h
      exact fun e : a = b => ha (e ▸ hb)
    · exact ih hl h

/-- Two different elements are paired one way or the other. -/
theorem mem_pairs_or {l : List α} {a b : α} (ha : a ∈ l) (hb : b ∈ l) (hne : a ≠ b) :
    (a, b) ∈ pairs l ∨ (b, a) ∈ pairs l := by
  induction l with
  | nil => cases ha
  | cons c l ih =>
    rcases List.mem_cons.mp ha with rfl | ha'
    · have hb' := (List.mem_cons.mp hb).resolve_left hne.symm
      exact .inl (List.mem_append_left _ (List.mem_map_of_mem hb'))
    · rcases List.mem_cons.mp hb with rfl | hb'
      · exact .inr (List.mem_append_left _ (List.mem_map_of_mem ha'))
      · exact (ih ha' hb').imp (List.mem_append_right _) (List.mem_append_right _)

/-- A symmetric property that no element has of itself is one of pairs. -/
theorem exists_pair_iff {l : List α} {Q : α → α → Prop} (symm : ∀ a ∈ l, ∀ b ∈ l, Q a b → Q b a)
    (irrefl : ∀ a, ¬ Q a a) :
    (∃ p ∈ pairs l, Q p.1 p.2) ↔ ∃ a ∈ l, ∃ b ∈ l, Q a b := by
  constructor
  · rintro ⟨p, hp, hq⟩
    exact ⟨p.1, (mem_of_mem_pairs hp).1, p.2, (mem_of_mem_pairs hp).2, hq⟩
  · rintro ⟨a, ha, b, hb, hq⟩
    have hne : a ≠ b := by
      rintro rfl
      exact irrefl a hq
    rcases mem_pairs_or ha hb hne with h | h
    · exact ⟨_, h, hq⟩
    · exact ⟨_, h, symm a ha b hb hq⟩

/-- Pairs of different elements are told apart by what tells unordered pairs apart. -/
theorem nodup_map_pairs {l : List α} {key : α × α → β} (nodup : l.Nodup)
    (inj : ∀ a ∈ l, ∀ b ∈ l, ∀ c ∈ l, ∀ d ∈ l, key (a, b) = key (c, d) → (a = c ∧ b = d) ∨ (a = d ∧ b = c)) :
    ((pairs l).map key).Nodup := by
  induction l with
  | nil => exact List.nodup_nil
  | cons a l ih =>
    obtain ⟨ha, hl⟩ := List.nodup_cons.mp nodup
    have tail : ∀ {b}, b ∈ l → b ∈ a :: l := List.mem_cons_of_mem _
    rw [pairs, List.map_append, List.map_map]
    refine List.Nodup.append ?_ ?_ ?_
    · refine (List.nodup_map_iff_inj_on hl).mpr fun b hb c hc h => ?_
      rcases inj a List.mem_cons_self b (tail hb) a List.mem_cons_self c (tail hc) h with ⟨_, h⟩ | ⟨h, _⟩
      · exact h
      · exact absurd (h ▸ hc) ha
    · exact ih hl fun b hb c hc d hd e he => inj b (tail hb) c (tail hc) d (tail hd) e (tail he)
    · intro k hk hk'
      obtain ⟨b, hb, rfl⟩ := List.mem_map.mp hk
      obtain ⟨⟨c, d⟩, hp, h⟩ := List.mem_map.mp hk'
      have ⟨hc, hd⟩ := mem_of_mem_pairs hp
      rcases inj c (tail hc) d (tail hd) a List.mem_cons_self b (tail hb) h with ⟨h, _⟩ | ⟨_, h⟩
      · exact ha (h ▸ hc)
      · exact ha (h ▸ hd)

theorem flatMap_pairs_cons (a : α) (l : List α) (g : α × α → List β) :
    (pairs (a :: l)).flatMap g = l.flatMap (fun b => g (a, b)) ++ (pairs l).flatMap g := by
  rw [pairs, List.flatMap_append, List.flatMap_map]

/-- What does not depend on the order of a pair does not depend on that of the list. -/
theorem pairs_perm {l l' : List α} {g : α × α → List β} (symm : ∀ a ∈ l, ∀ b ∈ l, (g (a, b)).Perm (g (b, a)))
    (h : l.Perm l') : ((pairs l).flatMap g).Perm ((pairs l').flatMap g) := by
  induction h with
  | nil => exact .refl _
  | cons a p ih =>
    rw [flatMap_pairs_cons, flatMap_pairs_cons]
    exact (p.flatMap_right _).append
      (ih fun x hx y hy => symm x (List.mem_cons_of_mem _ hx) y (List.mem_cons_of_mem _ hy))
  | swap a b l =>
    simp only [flatMap_pairs_cons, List.flatMap_cons, List.append_assoc]
    have hab := symm b List.mem_cons_self a (List.mem_cons_of_mem _ List.mem_cons_self)
    refine hab.append ?_
    rw [← List.append_assoc, ← List.append_assoc]
    exact List.perm_append_comm.append_right _
  | trans p _ ih₁ ih₂ =>
    exact (ih₁ symm).trans (ih₂ fun x hx y hy => symm x (p.mem_iff.mpr hx) y (p.mem_iff.mpr hy))

variable [LinearOrder τ] (start stop : α → τ)

/-- Two half-open intervals share some time. -/
def Overlap (a b : α) : Prop := start a < stop b ∧ start b < stop a

instance (a b : α) : Decidable (Overlap start stop a b) := inferInstanceAs (Decidable (_ ∧ _))

/-- Every element with those behind it that start before it ends, up to the first that does not. -/
def sweep : List α → List (α × α)
  | [] => []
  | a :: l => (l.takeWhile fun b => start b < stop a).map (a, ·) ++ sweep l

variable {start stop}

theorem Overlap.symm {a b : α} (h : Overlap start stop a b) : Overlap start stop b a := And.symm h

/-- In a list where the predicate fails for good once it fails, `takeWhile` misses nothing. -/
theorem takeWhile_eq_filter {l : List α} {p : α → Bool} (h : l.Pairwise fun a b => p b → p a) :
    l.takeWhile p = l.filter p := by
  induction l with
  | nil => rfl
  | cons a l ih =>
    obtain ⟨ha, hl⟩ := List.pairwise_cons.mp h
    cases hp : p a with
    | true => rw [List.takeWhile_cons_of_pos hp, List.filter_cons_of_pos hp, ih hl]
    | false =>
      rw [List.takeWhile_cons_of_neg (by simp [hp]), List.filter_cons_of_neg (by simp [hp])]
      refine (List.filter_eq_nil_iff.mpr fun b hb hpb => ?_).symm
      rw [ha b hb hpb] at hp
      cases hp

/-- On intervals sorted by start the sweep finds the overlapping pairs. -/
theorem sweep_eq_filter {l : List α} (sorted : l.Pairwise fun a b => start a ≤ start b)
    (positive : ∀ a ∈ l, start a < stop a) :
    sweep start stop l = (pairs l).filter fun p => Overlap start stop p.1 p.2 := by
  induction l with
  | nil => rfl
  | cons a l ih =>
    obtain ⟨ha, hl⟩ := List.pairwise_cons.mp sorted
    obtain ⟨_, hpos⟩ := List.forall_mem_cons.mp positive
    have early : l.takeWhile (fun b => start b < stop a) = l.filter fun b => Overlap start stop a b := by
      rw [takeWhile_eq_filter (hl.imp fun hbc hc => by simpa using hbc.trans_lt (by simpa using hc))]
      refine List.filter_congr fun b hb => ?_
      have first : start a < stop b := (ha b hb).trans_lt (hpos b hb)
      simp only [Overlap, first, true_and]
    rw [sweep, pairs, List.filter_append, early, ih hl hpos, List.filter_map]
    rfl

/-- What `g` makes of the overlapping pairs of a list. -/
theorem flatMap_filter_pairs (l : List α) (g : α × α → List β) :
    ((pairs l).filter fun p => Overlap start stop p.1 p.2).flatMap g =
      (pairs l).flatMap fun p => if Overlap start stop p.1 p.2 then g p else [] := by
  induction pairs l with
  | nil => rfl
  | cons p ps ih =>
    by_cases hp : Overlap start stop p.1 p.2
    · rw [List.filter_cons_of_pos (by simpa using hp), List.flatMap_cons, List.flatMap_cons, ih, if_pos hp]
    · rw [List.filter_cons_of_neg (by simpa using hp), List.flatMap_cons, ih, if_neg hp, List.nil_append]

section

variable {l l' : List α} {g : α × α → List β} (positive : ∀ a ∈ l, start a < stop a)
  (symm : ∀ a ∈ l, ∀ b ∈ l, Overlap start stop a b → (g (a, b)).Perm (g (b, a)))

include symm in
theorem overlapping_perm (h : l.Perm l') :
    (((pairs l).filter fun p => Overlap start stop p.1 p.2).flatMap g).Perm
      (((pairs l').filter fun p => Overlap start stop p.1 p.2).flatMap g) := by
  rw [flatMap_filter_pairs, flatMap_filter_pairs]
  refine pairs_perm (fun a ha b hb => ?_) h
  dsimp only
  by_cases hab : Overlap start stop a b
  · rw [if_pos hab, if_pos hab.symm]
    exact symm a ha b hb hab
  · rw [if_neg hab, if_neg fun h => hab h.symm]

include positive symm

/-- Sorting and sweeping visits the overlapping pairs of the list, each once. -/
theorem sweep_sort_perm :
    ((sweep start stop (sortBy start l)).flatMap g).Perm
      (((pairs l).filter fun p => Overlap start stop p.1 p.2).flatMap g) := by
  have sorted := sortBy_perm start l
  rw [sweep_eq_filter (sortBy_sorted start l) fun a ha => positive a (sorted.mem_iff.mp ha)]
  exact (overlapping_perm symm sorted.symm).symm

/-- What the sweep does with the overlapping pairs does not depend on the order of the list. -/
theorem sweep_perm (h : l.Perm l') :
    ((sweep start stop (sortBy start l)).flatMap g).Perm ((sweep start stop (sortBy start l')).flatMap g) :=
  have symm' : ∀ a ∈ l', ∀ b ∈ l', Overlap start stop a b → (g (a, b)).Perm (g (b, a)) :=
    fun a ha b hb => symm a (h.mem_iff.mpr ha) b (h.mem_iff.mpr hb)
  (sweep_sort_perm positive symm).trans ((overlapping_perm symm h).trans
    (sweep_sort_perm (fun a ha => positive a (h.mem_iff.mpr ha)) symm').symm)

end

end Maru.Sweep
