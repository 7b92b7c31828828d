import Maru.Framework.Text
import Mathlib.Data.List.DropRight

/-!
# Texts of code points

A text of the source language is a sequence of code points, and a surrogate is one of them. Such a
text has no UTF-8 form (`utf8_eq_none`). A byte is written here as the character of its number.
-/

namespace Maru

abbrev CodePoint := Fin 0x110000

namespace CodePoint

instance instNeZero : @NeZero Nat Zero.ofOfNat0 0x110000 := ⟨Nat.succ_ne_zero 0x10ffff⟩

def ofChar (c : Char) : CodePoint := ⟨c.toNat, by
  have h := c.valid
  unfold UInt32.isValidChar Nat.isValidChar at h
  show c.val.toNat < 0x110000
  omega⟩

def isSurrogate (c : CodePoint) : Bool := 0xd800 ≤ c.val ∧ c.val ≤ 0xdfff

/-- `str.isspace` of a code point. -/
def isSpace (c : CodePoint) : Bool := Maru.isSpace (Char.ofNat c.val)

/-- The UTF-8 bytes of a code point. -/
def bytes (c : CodePoint) : List Char :=
  if c.val < 0x80 then [Char.ofNat c.val]
  else if c.val < 0x800 then [Char.ofNat (0xc0 + c.val / 0x40), Char.ofNat (0x80 + c.val % 0x40)]
  else if c.val < 0x10000 then
    [Char.ofNat (0xe0 + c.val / 0x1000), Char.ofNat (0x80 + c.val / 0x40 % 0x40), Char.ofNat (0x80 + c.val % 0x40)]
  else [Char.ofNat (0xf0 + c.val / 0x40000), Char.ofNat (0x80 + c.val / 0x1000 % 0x40),
    Char.ofNat (0x80 + c.val / 0x40 % 0x40), Char.ofNat (0x80 + c.val % 0x40)]

@[simp] theorem val_ofChar (c : Char) : (ofChar c).val = c.toNat := rfl

@[simp] theorem ofNat_ofChar (c : Char) : Char.ofNat (ofChar c).val = c := Char.ofNat_toNat c

@[simp] theorem isSurrogate_ofChar (c : Char) : (ofChar c).isSurrogate = false := by
  have h := c.valid
  unfold UInt32.isValidChar Nat.isValidChar at h
  have number : c.val.toNat = (ofChar c).val := rfl
  rw [number] at h
  simp only [isSurrogate, decide_eq_false_iff_not]
  omega

theorem bytes_ofChar {c : Char} (ascii : c.toNat < 0x80) : (ofChar c).bytes = [c] := by
  rw [bytes, if_pos (by exact ascii), ofNat_ofChar]

end CodePoint

/-- A text of code points. -/
abbrev Points := List CodePoint

instance Points.instLawfulBEq : LawfulBEq Points := inferInstance

namespace Points

/-- The code points of a literal. -/
def ofString (s : String) : Points := s.toList.map CodePoint.ofChar

/-- The characters of a text without surrogates. -/
def text (points : Points) : String := String.ofList (points.map fun c => Char.ofNat c.val)

def hasSurrogate (text : Points) : Bool := text.any CodePoint.isSurrogate

/-- The UTF-8 bytes of a text; `none` where `UnicodeEncodeError` is raised. -/
def utf8 (text : Points) : Option (List Char) := if text.hasSurrogate then none else some (text.flatMap CodePoint.bytes)

/-- `str.strip()` -/
def strip (text : Points) : Points := (text.dropWhile CodePoint.isSpace).rdropWhile CodePoint.isSpace

theorem utf8_eq_none {text : Points} : text.utf8 = none ↔ text.hasSurrogate = true := by
  unfold utf8
  split <;> simp [*]

theorem hasSurrogate_append (a b : Points) : hasSurrogate (a ++ b) = (hasSurrogate a || hasSurrogate b) :=
    List.any_append

theorem hasSurrogate_map (cs : List Char) : hasSurrogate (cs.map CodePoint.ofChar) = false := by
  rw [hasSurrogate, List.any_eq_false]
  intro c hc
  obtain ⟨d, -, rfl⟩ := List.mem_map.mp hc
  simp only [CodePoint.isSurrogate_ofChar, Bool.false_eq_true, not_false_eq_true]

/-- The bytes of a text in ASCII are its characters. -/
theorem utf8_map {cs : List Char} (ascii : ∀ c ∈ cs, c.toNat < 0x80) : utf8 (cs.map CodePoint.ofChar) = some cs := by
  have bytes : (cs.map CodePoint.ofChar).flatMap CodePoint.bytes = cs := by
    induction cs with
    | nil => rfl
    | cons c cs ih =>
      rw [List.map_cons, List.flatMap_cons, CodePoint.bytes_ofChar (ascii c List.mem_cons_self),
        ih fun d hd => ascii d (List.mem_cons_of_mem c hd)]
      rfl
  rw [utf8, hasSurrogate_map, bytes]
  rfl

/-! ## White space -/

theorem strip_strip (text : Points) : text.strip.strip = text.strip := by
  unfold strip
  have fixed : ((text.dropWhile CodePoint.isSpace).rdropWhile CodePoint.isSpace).dropWhile
      CodePoint.isSpace = (text.dropWhile CodePoint.isSpace).rdropWhile CodePoint.isSpace := by
    rw [List.dropWhile_eq_self_iff]
    intro some_
    have sub := List.rdropWhile_prefix CodePoint.isSpace (text.dropWhile CodePoint.isSpace)
    have head := List.head?_dropWhile_not CodePoint.isSpace text
    obtain ⟨rest, whole⟩ := sub
    obtain ⟨c, cs, kept⟩ := List.exists_cons_of_length_pos some_
    rw [← whole, kept] at head
    simp only [kept, List.getElem_cons_zero]
    simpa using head
  rw [fixed, List.rdropWhile_idempotent]

theorem length_strip_le (text : Points) : text.strip.length ≤ text.length :=
  Nat.le_trans (List.rdropWhile_prefix CodePoint.isSpace _).length_le (List.dropWhile_suffix CodePoint.isSpace).length_le

theorem strip_eq_self {text : Points} (h : ∀ c ∈ text, c.isSpace = false) : text.strip = text := by
  have drop : ∀ l : Points, (∀ c ∈ l, c.isSpace = false) → l.dropWhile CodePoint.isSpace = l := by
    intro l hl
    cases l with
    | nil => rfl
    | cons c cs => rw [List.dropWhile_cons_of_neg (by simp [hl c List.mem_cons_self])]
  rw [strip, drop text h, List.rdropWhile, drop _ fun c hc => h c (List.mem_reverse.mp hc), List.reverse_reverse]

/-- White space has no surrogates. -/
theorem hasSurrogate_strip (text : Points) : text.strip.hasSurrogate = text.hasSurrogate := by
  have space (c : CodePoint) (h : c.isSpace = true) : c.isSurrogate = false := by
    by_contra surrogate
    have range : 0xd800 ≤ c.val ∧ c.val ≤ 0xdfff := by simpa [CodePoint.isSurrogate] using surrogate
    have invalid : ¬ c.val.isValidChar := by
      unfold Nat.isValidChar
      omega
    rw [CodePoint.isSpace, Char.ofNat, dif_neg invalid] at h
    cases h
  have drop : ∀ l : Points, (l.dropWhile CodePoint.isSpace).any CodePoint.isSurrogate = l.any CodePoint.isSurrogate := by
    intro l
    induction l with
    | nil => rfl
    | cons c l ih =>
      by_cases blank : c.isSpace = true
      · rw [List.dropWhile_cons_of_pos blank, ih, List.any_cons, space c blank, Bool.false_or]
      · rw [List.dropWhile_cons_of_neg blank]
  rw [hasSurrogate, strip, List.rdropWhile, List.any_reverse, drop, List.any_reverse, drop, hasSurrogate]

end Points

end Maru
