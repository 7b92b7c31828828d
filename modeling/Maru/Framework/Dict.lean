import Mathlib.Data.List.Dedup
import Mathlib.Data.List.Induction
import Mathlib.Data.List.Perm.Basic

/-!
# Dictionaries that are built up

A dictionary is a list of keys with their values, in the order in which the keys came.
`collect` builds one from a list of entries: the value of a key is what folding the
entries of that key makes of the default (`mem_collect`), so a dictionary built from the
entries in another order has the same items (`collect_flatMap_perm`).
-/

namespace Maru.Dict

universe u v w

variable {κ : Type u} {ν : Type v} {α : Type w} [DecidableEq κ]

/-- `d[k] = f(d.get(k, start))` -/
def update (k : κ) (start : ν) (f : ν → ν) : List (κ × ν) → List (κ × ν)
  | [] => [(k, f start)]
  | (k', v) :: d => if k' = k then (k', f v) :: d else (k', v) :: update k start f d

/-- `d.get(k)` -/
def get? : List (κ × ν) → κ → Option ν
  | [], _ => none
  | (k', v) :: d, k => if k' = k then some v else get? d k

/-- The dictionary after an update with each entry. -/
def collect (start : ν) (f : ν → α → ν) (entries : List (κ × α)) : List (κ × ν) :=
  entries.foldl (fun d e => update e.1 start (f · e.2) d) []

/-- The entries of one key. -/
def entriesOf (k : κ) (entries : List (κ × α)) : List α := (entries.filter (·.1 = k)).map Prod.snd

theorem mem_entriesOf {k : κ} {entries : List (κ × α)} {a : α} : a ∈ entriesOf k entries ↔ (k, a) ∈ entries := by
  simp [entriesOf]

theorem entriesOf_perm {k : κ} {es es' : List (κ × α)} (h : es.Perm es') :
    (entriesOf k es).Perm (entriesOf k es') :=
  (h.filter _).map _

theorem entriesOf_flatMap {β : Type*} {k : κ} {l : List β} {f : β → List (κ × α)} :
    entriesOf k (l.flatMap f) = l.flatMap fun b => entriesOf k (f b) := by
  simp only [entriesOf, List.filter_flatMap, List.map_flatMap]

theorem get?_update (k k' : κ) (start : ν) (f : ν → ν) (d : List (κ × ν)) :
    get? (update k start f d) k' = if k' = k then some (f ((get? d k).getD start)) else get? d k' := by
  induction d with
  | nil => simp only [update, get?, Option.getD_none, eq_comm]
  | cons e d ih =>
    obtain ⟨key, v⟩ := e
    by_cases hk : key = k
    · subst hk
      simp only [update, get?, if_true, Option.getD_some, eq_comm]
      split <;> rfl
    · simp only [update, get?, hk, if_false, ih]
      by_cases h : k' = k
      · subst h
        simp only [hk, if_false]
      · simp only [h, if_false]

theorem keys_update (k : κ) (start : ν) (f : ν → ν) (d : List (κ × ν)) :
    (update k start f d).map Prod.fst = if k ∈ d.map Prod.fst then d.map Prod.fst else d.map Prod.fst ++ [k] := by
  induction d with
  | nil => rfl
  | cons e d ih =>
    obtain ⟨key, v⟩ := e
    by_cases hk : key = k
    · simp [update, hk]
    · have hk' : k ≠ key := Ne.symm hk
      simp only [update, hk, if_false, List.map_cons, ih, List.mem_cons, hk', false_or, List.cons_append]
      split <;> rfl

theorem nodup_update {k : κ} {start : ν} {f : ν → ν} {d : List (κ × ν)}
    (h : (d.map Prod.fst).Nodup) : ((update k start f d).map Prod.fst).Nodup := by
  rw [keys_update]
  split
  · exact h
  · rename_i hk
    exact List.Nodup.append h (List.nodup_singleton k) (List.disjoint_singleton.mpr hk)

theorem mem_iff_get? {d : List (κ × ν)} (h : (d.map Prod.fst).Nodup) {k : κ} {v : ν} :
    (k, v) ∈ d ↔ get? d k = some v := by
  induction d with
  | nil => exact iff_of_false List.not_mem_nil nofun
  | cons e d ih =>
    obtain ⟨key, w⟩ := e
    obtain ⟨hkey, hd⟩ := List.nodup_cons.mp h
    rw [List.mem_cons, Prod.mk.injEq, get?]
    by_cases hk : key = k
    · subst hk
      have absent : (key, v) ∉ d := fun hm => hkey (List.mem_map.mpr ⟨_, hm, rfl⟩)
      rw [if_pos rfl, or_iff_left absent, Option.some.injEq]
      exact ⟨fun h => h.2.symm, fun h => ⟨rfl, h.symm⟩⟩
    · rw [if_neg hk, ← ih hd]
      exact or_iff_right fun h => hk h.1.symm

/-- A new key comes last. -/
theorem update_of_not_mem {k : κ} {start : ν} {f : ν → ν} {d : List (κ × ν)}
    (h : k ∉ d.map Prod.fst) : update k start f d = d ++ [(k, f start)] := by
  induction d with
  | nil => rfl
  | cons e d ih =>
    obtain ⟨key, v⟩ := e
    obtain ⟨hk, hd⟩ := not_or.mp (fun hm => h (List.mem_cons.mpr hm))
    rw [update, if_neg (Ne.symm hk), ih hd, List.cons_append]

theorem get?_eq_none {d : List (κ × ν)} {k : κ} : get? d k = none ↔ k ∉ d.map Prod.fst := by
  induction d with
  | nil => simp [get?]
  | cons e d ih =>
    obtain ⟨key, v⟩ := e
    by_cases hk : key = k
    · simp [get?, hk]
    · simp only [get?, hk, if_false, ih, List.map_cons, List.mem_cons, not_or]
      exact ⟨fun h => ⟨Ne.symm hk, h⟩, And.right⟩

/-- A key that the first part does not have. -/
theorem get?_append {d d' : List (κ × ν)} {k : κ} (h : k ∉ d.map Prod.fst) : get? (d ++ d') k = get? d' k := by
  induction d with
  | nil => rfl
  | cons e d ih =>
    obtain ⟨key, v⟩ := e
    obtain ⟨hk, hd⟩ := not_or.mp (fun hm => h (List.mem_cons.mpr hm))
    rw [List.cons_append, get?, if_neg (Ne.symm hk), ih hd]

section

variable (start : ν) (f : ν → α → ν) (entries : List (κ × α))

theorem collect_append (e : κ × α) :
    collect start f (entries ++ [e]) = update e.1 start (f · e.2) (collect start f entries) := by
  simp [collect]

theorem nodup_collect : ((collect start f entries).map Prod.fst).Nodup := by
  induction entries using List.reverseRecOn with
  | nil => exact List.nodup_nil
  | append_singleton es e ih =>
    rw [collect_append]
    exact nodup_update ih

/-- The value of a key is its entries folded in their order. -/
theorem get?_collect (k : κ) :
    get? (collect start f entries) k =
      if entriesOf k entries = [] then none else some ((entriesOf k entries).foldl f start) := by
  induction entries using List.reverseRecOn with
  | nil => rfl
  | append_singleton es e ih =>
    obtain ⟨key, a⟩ := e
    rw [collect_append, get?_update]
    by_cases hk : k = key
    · subst hk
      have last : entriesOf k (es ++ [(k, a)]) = entriesOf k es ++ [a] := by simp [entriesOf]
      rw [if_pos rfl, last, ih, if_neg (by simp : ¬ entriesOf k es ++ [a] = []),
        List.foldl_append]
      split <;> simp_all
    · have other : entriesOf k (es ++ [(key, a)]) = entriesOf k es := by simp [entriesOf, Ne.symm hk]
      rw [if_neg hk, other, ih]

end

variable {start : ν} {f : ν → α → ν} {entries es es' : List (κ × α)}

theorem mem_collect {k : κ} {v : ν} :
    (k, v) ∈ collect start f entries ↔
      (∃ a, (k, a) ∈ entries) ∧ (entriesOf k entries).foldl f start = v := by
  rw [mem_iff_get? (nodup_collect ..), get?_collect]
  have keyed : (∃ a, (k, a) ∈ entries) ↔ entriesOf k entries ≠ [] := by
    constructor
    · rintro ⟨a, ha⟩ h
      have := mem_entriesOf.mpr ha
      rw [h] at this
      cases this
    · exact fun h => (List.exists_mem_of_ne_nil _ h).imp fun a => mem_entriesOf.mp
  rw [keyed]
  split <;> simp_all

/-- The dictionary as a list of its keys with what their entries make. -/
theorem collect_perm_keys :
    (collect start f entries).Perm
      ((entries.map Prod.fst).dedup.map fun k => (k, (entriesOf k entries).foldl f start)) := by
  rw [List.perm_ext_iff_of_nodup (List.Nodup.of_map _ (nodup_collect ..))
    ((List.nodup_dedup _).map fun a b h => congrArg Prod.fst h)]
  rintro ⟨k, v⟩
  rw [mem_collect]
  simp [eq_comm]

/-- What is done with each item does not depend on the order of the entries, if what is done with
the entries of one key does not. -/
theorem collect_flatMap_perm {β : Type*} {g : κ × ν → List β} (h : es.Perm es')
    (same : ∀ k, (g (k, (entriesOf k es).foldl f start)).Perm (g (k, (entriesOf k es').foldl f start))) :
    ((collect start f es).flatMap g).Perm ((collect start f es').flatMap g) := by
  refine (collect_perm_keys.flatMap_right g).trans (.trans ?_ (collect_perm_keys.flatMap_right g).symm)
  rw [List.flatMap_map, List.flatMap_map]
  exact (h.map _).dedup.flatMap fun k _ => same k

/-! ## Keyed lists -/

/-- `{key(a): a for a in l}` -/
def keyed (key : α → κ) (l : List α) : List (κ × α) := l.foldl (fun d a => update (key a) a (fun _ => a) d) []

theorem keyed_append (key : α → κ) (l : List α) (a : α) :
    keyed key (l ++ [a]) = update (key a) a (fun _ => a) (keyed key l) := by
  simp [keyed]

theorem nodup_keyed (key : α → κ) (l : List α) : ((keyed key l).map Prod.fst).Nodup := by
  induction l using List.reverseRecOn with
  | nil => exact List.nodup_nil
  | append_singleton l a ih =>
    rw [keyed_append]
    exact nodup_update ih

theorem mem_keyed_keys {key : α → κ} {l : List α} {k : κ} : k ∈ (keyed key l).map Prod.fst ↔ k ∈ l.map key := by
  induction l using List.reverseRecOn with
  | nil => rfl
  | append_singleton l a ih =>
    rw [keyed_append, keys_update, List.map_append, List.mem_append, List.map_singleton, List.mem_singleton]
    by_cases known : key a ∈ (keyed key l).map Prod.fst
    · rw [if_pos known, ← ih, iff_self_or]
      rintro rfl
      exact known
    · rw [if_neg known, List.mem_append, ih, List.mem_singleton]

theorem mem_keyed {key : α → κ} {l : List α} {e : κ × α} (h : e ∈ keyed key l) : e.2 ∈ l ∧ key e.2 = e.1 := by
  induction l using List.reverseRecOn with
  | nil => exact absurd h List.not_mem_nil
  | append_singleton l a ih =>
    have nodup := nodup_keyed key l
    rw [keyed_append, show e = (e.1, e.2) from rfl, mem_iff_get? (nodup_update nodup), get?_update] at h
    rw [List.mem_append, List.mem_singleton]
    by_cases same : e.1 = key a
    · rw [if_pos same] at h
      obtain rfl := Option.some.inj h
      exact ⟨.inr rfl, same.symm⟩
    · rw [if_neg same, ← mem_iff_get? nodup] at h
      exact ⟨.inl (ih h).1, (ih h).2⟩

/-- Where no key comes twice, the dictionary is the list in its order. -/
theorem keyed_eq_map {key : α → κ} {l : List α} (h : (l.map key).Nodup) : keyed key l = l.map fun a => (key a, a) := by
  induction l using List.reverseRecOn with
  | nil => rfl
  | append_singleton l a ih =>
    rw [List.map_append, List.map_singleton] at h
    have fresh : key a ∉ (keyed key l).map Prod.fst := fun hm =>
      List.disjoint_of_nodup_append h (mem_keyed_keys.mp hm) List.mem_cons_self
    rw [keyed_append, update_of_not_mem fresh, ih h.of_append_left, List.map_append, List.map_singleton]

/-- Where no key comes twice, the dictionary has the elements under their keys. -/
theorem get?_keyed {key : α → κ} {l : List α} (h : (l.map key).Nodup) {k : κ} {a : α} :
    get? (keyed key l) k = some a ↔ a ∈ l ∧ key a = k := by
  induction l using List.reverseRecOn with
  | nil => exact iff_of_false nofun fun h => List.not_mem_nil h.1
  | append_singleton l b ih =>
    rw [List.map_append, List.map_singleton] at h
    have fresh : key b ∉ l.map key := fun hm => List.disjoint_of_nodup_append h hm List.mem_cons_self
    rw [keyed_append, get?_update, List.mem_append, List.mem_singleton]
    by_cases hk : k = key b
    · subst hk
      have other : ¬ (a ∈ l ∧ key a = key b) := fun ha => fresh (ha.2 ▸ List.mem_map_of_mem ha.1)
      rw [if_pos rfl, Option.some.injEq]
      constructor
      · rintro rfl
        exact ⟨.inr rfl, rfl⟩
      · rintro ⟨ha | rfl, same⟩
        · exact absurd ⟨ha, same⟩ other
        · rfl
    · rw [if_neg hk, ih h.of_append_left]
      constructor
      · exact fun ha => ⟨.inl ha.1, ha.2⟩
      · rintro ⟨ha | rfl, same⟩
        · exact ⟨ha, same⟩
        · exact absurd same.symm hk

/-! ## Groups -/

theorem foldl_append_singleton (l acc : List α) : l.foldl (fun group a => group ++ [a]) acc = acc ++ l := by
  induction l generalizing acc with
  | nil => rw [List.append_nil, List.foldl_nil]
  | cons a l ih => rw [List.foldl_cons, ih, List.append_assoc, List.singleton_append]

/-- `d.setdefault(k, []).append(a)` for each entry. -/
def groups (entries : List (κ × α)) : List (κ × List α) := collect [] (fun group a => group ++ [a]) entries

theorem mem_groups {k : κ} {group : List α} :
    (k, group) ∈ groups entries ↔ (∃ a, (k, a) ∈ entries) ∧ entriesOf k entries = group := by
  rw [groups, mem_collect, foldl_append_singleton, List.nil_append]

/-- The group of a key, empty if there is none. -/
theorem getD_groups (k : κ) : (get? (groups entries) k).getD [] = entriesOf k entries := by
  rw [groups, get?_collect, foldl_append_singleton]
  split <;> simp_all

theorem groups_flatMap_perm {β : Type*} {g : List α → List β} (h : es.Perm es')
    (same : ∀ k, (g (entriesOf k es)).Perm (g (entriesOf k es'))) :
    ((groups es).flatMap fun e => g e.2).Perm ((groups es').flatMap fun e => g e.2) := by
  refine collect_flatMap_perm h fun k => ?_
  rw [foldl_append_singleton, foldl_append_singleton]
  exact same k

/-! ## Keys seen before -/

/-- The elements whose key is not in `seen`, and not the key of one before them. -/
def firsts (key : α → κ) : List κ → List α → List α
  | _, [] => []
  | seen, a :: l => if key a ∈ seen then firsts key seen l else a :: firsts key (key a :: seen) l

theorem mem_of_mem_firsts {key : α → κ} {seen : List κ} {l : List α} {a : α}
    (h : a ∈ firsts key seen l) : a ∈ l ∧ key a ∉ seen := by
  induction l generalizing seen with
  | nil => cases h
  | cons b l ih =>
    rw [firsts] at h
    split at h
    · exact (ih h).imp_left (List.mem_cons_of_mem _)
    · rename_i hb
      rcases List.mem_cons.mp h with rfl | h
      · exact ⟨List.mem_cons_self, hb⟩
      · obtain ⟨ha, hs⟩ := ih h
        exact ⟨List.mem_cons_of_mem _ ha, fun h => hs (List.mem_cons_of_mem _ h)⟩

/-- Some first element has the key of any other. -/
theorem exists_mem_firsts {key : α → κ} {seen : List κ} {l : List α} {a : α} (ha : a ∈ l)
    (hs : key a ∉ seen) : ∃ b ∈ firsts key seen l, key b = key a := by
  induction l generalizing seen with
  | nil => cases ha
  | cons b l ih =>
    rw [firsts]
    split
    · rename_i hb
      rcases List.mem_cons.mp ha with rfl | ha
      · exact absurd hb hs
      · exact ih ha hs
    · by_cases same : key b = key a
      · exact ⟨b, List.mem_cons_self, same⟩
      · have ha := (List.mem_cons.mp ha).resolve_left (by rintro rfl; exact same rfl)
        have unseen : key a ∉ key b :: seen := by simp [Ne.symm same, hs]
        obtain ⟨c, hc, hk⟩ := ih ha unseen
        exact ⟨c, List.mem_cons_of_mem _ hc, hk⟩

theorem nodup_firsts {key : α → κ} (seen : List κ) (l : List α) : ((firsts key seen l).map key).Nodup := by
  induction l generalizing seen with
  | nil => exact List.nodup_nil
  | cons a l ih =>
    rw [firsts]
    split
    · exact ih _
    · refine List.nodup_cons.mpr ⟨fun h => ?_, ih _⟩
      obtain ⟨b, hb, hk⟩ := List.mem_map.mp h
      exact (mem_of_mem_firsts hb).2 (hk ▸ List.mem_cons_self)

theorem mem_firsts_keys {key : α → κ} {l : List α} {k : κ} : k ∈ (firsts key [] l).map key ↔ k ∈ l.map key := by
  simp only [List.mem_map]
  constructor
  · rintro ⟨a, ha, hk⟩
    exact ⟨a, (mem_of_mem_firsts ha).1, hk⟩
  · rintro ⟨a, ha, rfl⟩
    exact exists_mem_firsts ha List.not_mem_nil

/-- What is done with the first elements does not depend on the order of the list, if it depends
on the key only. -/
theorem firsts_flatMap_perm {β : Type*} {key : α → κ} {g : α → List β} {l l' : List α}
    (same : ∀ a ∈ l, ∀ b ∈ l', key a = key b → (g a).Perm (g b))
    (keys : ∀ k, k ∈ l.map key ↔ k ∈ l'.map key) :
    ((firsts key [] l).flatMap g).Perm ((firsts key [] l').flatMap g) := by
  -- `G` does with a key what `g` does with some element of the second list that has it.
  let G : κ → List β := fun k => ((l'.find? (key · = k)).map g).getD []
  have found : ∀ b ∈ l', ∃ c ∈ l', key c = key b ∧ G (key b) = g c := by
    intro b hb
    obtain ⟨c, hc⟩ : ∃ c, l'.find? (key · = key b) = some c :=
      Option.isSome_iff_exists.mp (List.find?_isSome.mpr ⟨b, hb, by simp⟩)
    exact ⟨c, List.mem_of_find?_eq_some hc, by simpa using List.find?_some hc, by simp [G, hc]⟩
  have left : ∀ a ∈ l, (g a).Perm (G (key a)) := by
    intro a ha
    obtain ⟨b, hb, hk⟩ := List.mem_map.mp ((keys _).mp (List.mem_map_of_mem ha))
    obtain ⟨c, hc, hcb, hG⟩ := found b hb
    rw [← hk, hG]
    exact same a ha c hc (by rw [hcb, hk])
  have right : ∀ b ∈ l', (g b).Perm (G (key b)) := by
    intro b hb
    obtain ⟨a, ha, hk⟩ := List.mem_map.mp ((keys _).mpr (List.mem_map_of_mem hb))
    exact (same a ha b hb hk).symm.trans (hk ▸ left a ha)
  have once : ((firsts key [] l).map key).Perm ((firsts key [] l').map key) := by
    rw [List.perm_ext_iff_of_nodup (nodup_firsts ..) (nodup_firsts ..)]
    intro k
    rw [mem_firsts_keys, mem_firsts_keys, keys]
  calc
    List.Perm ((firsts key [] l).flatMap g) ((firsts key [] l).flatMap fun a => G (key a)) :=
      List.Perm.flatMap_left _ fun a ha => left a (mem_of_mem_firsts ha).1
    _ = ((firsts key [] l).map key).flatMap G := (List.flatMap_map ..).symm
    List.Perm _ (((firsts key [] l').map key).flatMap G) := once.flatMap_right G
    _ = (firsts key [] l').flatMap fun a => G (key a) := List.flatMap_map ..
    List.Perm _ ((firsts key [] l').flatMap g) :=
      (List.Perm.flatMap_left _ fun b hb => right b (mem_of_mem_firsts hb).1).symm

end Maru.Dict
