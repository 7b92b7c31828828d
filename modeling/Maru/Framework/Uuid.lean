import Maru.Framework.Digits
import Mathlib.Data.String.Basic

/-!
# UUIDs

A UUID is a number below `2^128`; its text is 32 hexadecimal digits in groups of 8, 4, 4,
4 and 12. `ofText?` reads the digits back wherever the dashes stand (`ofText?_text`).
-/

namespace Maru

abbrev Uuid := Fin (2 ^ 128)

namespace Uuid

/-- There are UUIDs, so numerals denote them. -/
instance instNeZero : NeZero (2 ^ 128 : Nat) := ⟨by decide⟩

instance instLawfulBEq : LawfulBEq Uuid := inferInstance

instance instLawfulBEqProd : LawfulBEq (Uuid × Uuid) := inferInstance

open Digits

/-- Dashes behind the digits 8, 12, 16 and 20. -/
def group (cs : List Char) : List Char :=
  cs.take 8 ++ '-' :: (cs.drop 8).take 4 ++ '-' :: (cs.drop 12).take 4 ++
    '-' :: (cs.drop 16).take 4 ++ '-' :: cs.drop 20

/-- `str(uuid)`. -/
def text (u : Uuid) : String := String.ofList (group (padHex 32 u.val))

/-- `uuid.hex` -/
def hex (u : Uuid) : String := String.ofList (padHex 32 u.val)

/-- `UUID(text)`, for 32 hexadecimal digits with any dashes between them. -/
def ofText? (s : String) : Option Uuid :=
  let cs := s.toList.filter (· ≠ '-')
  if cs.length = 32 then
    match readHex 32 0 cs with
    | some (n, _) => if h : n < 2 ^ 128 then some ⟨n, h⟩ else none
    | none => none
  else none

theorem hexDigit_ne_dash : ∀ d < 16, hexDigit d ≠ '-' := by decide

theorem filter_group {cs : List Char} (h : ∀ c ∈ cs, c ≠ '-') : (group cs).filter (· ≠ '-') = cs := by
  have part : ∀ l : List Char, (∀ c ∈ l, c ∈ cs) → l.filter (· ≠ '-') = l := fun l hl =>
    List.filter_eq_self.mpr fun c hc => by simpa using h c (hl c hc)
  have dash : decide ('-' ≠ '-') = false := by decide
  unfold group
  simp only [List.filter_append, List.filter_cons, dash, Bool.false_eq_true, if_false]
  rw [part _ fun c hc => List.mem_of_mem_take hc,
    part ((cs.drop 8).take 4) fun c hc => List.mem_of_mem_drop (List.mem_of_mem_take hc),
    part ((cs.drop 12).take 4) fun c hc => List.mem_of_mem_drop (List.mem_of_mem_take hc),
    part ((cs.drop 16).take 4) fun c hc => List.mem_of_mem_drop (List.mem_of_mem_take hc),
    part (cs.drop 20) fun c hc => List.mem_of_mem_drop hc]
  have join : ∀ i j, (cs.drop i).take j ++ cs.drop (i + j) = cs.drop i := fun i j => by
    rw [← List.drop_drop]
    exact List.take_append_drop j (cs.drop i)
  rw [List.append_assoc, List.append_assoc, List.append_assoc, join 16 4, join 12 4, join 8 4,
    List.take_append_drop]

/-- Every UUID is read back from its text. -/
theorem ofText?_text (u : Uuid) : ofText? u.text = some u := by
  have hne : ∀ c ∈ padHex 32 u.val, c ≠ '-' := by
    intro c hc
    obtain ⟨d, hd, rfl⟩ := mem_padBase 16 hexDigit (by omega) hc
    exact hexDigit_ne_dash d hd
  have hread := readHex_pad (show u.val < 16 ^ 32 from u.isLt) []
  rw [List.append_nil] at hread
  simp only [ofText?, text, String.toList_ofList, filter_group hne, length_padBase, if_true,
    hread, u.isLt, dif_pos]

theorem text_injective {u v : Uuid} (h : u.text = v.text) : u = v := by
  have := ofText?_text u
  rw [h, ofText?_text] at this
  exact (Option.some.inj this).symm

theorem mem_hex {u : Uuid} {c : Char} (h : c ∈ u.hex.toList) : ∃ d < 16, c = hexDigit d := by
  rw [hex, String.toList_ofList] at h
  exact mem_padBase 16 hexDigit (by omega) h

theorem length_hex (u : Uuid) : u.hex.length = 32 := by
  rw [hex, String.length_ofList, length_padBase]

theorem hex_injective {u v : Uuid} (h : u.hex = v.hex) : u = v := by
  have digits := congrArg String.toList h
  rw [hex, hex, String.toList_ofList, String.toList_ofList] at digits
  exact text_injective (by rw [text, text, digits])

theorem length_text (u : Uuid) : u.text.length = 36 := by
  have length : ∀ cs : List Char, cs.length = 32 → (group cs).length = 36 := by
    intro cs h
    simp only [group, List.length_append, List.length_cons, List.length_take, List.length_drop, h]
    rfl
  rw [text, String.length_ofList, length _ (length_padBase ..)]

theorem mem_text {u : Uuid} {c : Char} (h : c ∈ u.text.toList) : c = '-' ∨ ∃ d < 16, c = hexDigit d := by
  have mem : ∀ cs : List Char, ∀ c ∈ group cs, c = '-' ∨ c ∈ cs := by
    intro cs c hc
    simp only [group, List.mem_append, List.mem_cons] at hc
    rcases hc with ((((h | h | h) | h | h) | h | h) | h | h)
    · exact .inr (List.mem_of_mem_take h)
    · exact .inl h
    · exact .inr (List.mem_of_mem_drop (List.mem_of_mem_take h))
    · exact .inl h
    · exact .inr (List.mem_of_mem_drop (List.mem_of_mem_take h))
    · exact .inl h
    · exact .inr (List.mem_of_mem_drop (List.mem_of_mem_take h))
    · exact .inl h
    · exact .inr (List.mem_of_mem_drop h)
  rw [text, String.toList_ofList] at h
  exact (mem _ c h).imp_right (mem_padBase 16 hexDigit (by omega))

end Uuid

end Maru
