import Maru.Framework.CodePoints
import Maru.Framework.Json

/-!
# JSON values with any text

The values that `json.loads` returns, whose texts may have surrogates, and their text (`dumps`,
without blanks and not escaped to ASCII). It has a UTF-8 form exactly if no text of the value has a
surrogate (`encode_eq_none`).
-/

namespace Maru

/-- A JSON value. A float is kept as the text `repr` gives it. -/
inductive Value where
  | null
  | bool (b : Bool)
  | int (n : Int)
  | float (repr : String)
  | str (s : Points)
  | list (items : List Value)
  | dict (items : List (Points × Value))

namespace Value

/-- A code point of a string literal. -/
def escape (c : CodePoint) : Points :=
  if c.val < 0x80 then (Json.escapeChar (Char.ofNat c.val)).map .ofChar else [c]

/-- A string literal. -/
def quote (s : Points) : Points := .ofChar '"' :: (s.flatMap escape ++ [.ofChar '"'])

/-- What `json.dumps` makes of the `repr` of a float. -/
def floatPoints (repr : String) : Points :=
  .ofString (if repr = "nan" then "NaN" else if repr = "inf" then "Infinity" else if repr =
    "-inf" then "-Infinity" else repr)

mutual

/-- `json.dumps(v, ensure_ascii=False, separators=(",", ":"))` -/
def dumps : Value → Points
  | .null => .ofString "null"
  | .bool true => .ofString "true"
  | .bool false => .ofString "false"
  | .int n => (Json.intChars n).map .ofChar
  | .float r => floatPoints r
  | .str s => quote s
  | .list [] => .ofString "[]"
  | .list (v :: vs) => .ofChar '[' :: (dumps v ++ dumpsItems vs)
  | .dict [] => .ofString "\x7b\x7d"
  | .dict ((k, v) :: items) => .ofChar (Char.ofNat 0x7b) :: (quote k ++ .ofChar ':' :: (dumps v ++ dumpsMembers items))

/-- The items after the first, and the closing bracket. -/
def dumpsItems : List Value → Points
  | [] => [.ofChar ']']
  | v :: vs => .ofChar ',' :: (dumps v ++ dumpsItems vs)

/-- The members after the first, and the closing brace. -/
def dumpsMembers : List (Points × Value) → Points
  | [] => [.ofChar (Char.ofNat 0x7d)]
  | (k, v) :: items => .ofChar ',' :: (quote k ++ .ofChar ':' :: (dumps v ++ dumpsMembers items))

end

/-- `json.dumps(...).encode("utf-8")`; `none` where `UnicodeEncodeError` is raised. -/
def encode (v : Value) : Option (List Char) := v.dumps.utf8

mutual

/-- Some text of the value has a surrogate. -/
def hasSurrogate : Value → Bool
  | .null | .bool _ | .int _ | .float _ => false
  | .str s => s.hasSurrogate
  | .list vs => itemsHaveSurrogate vs
  | .dict items => membersHaveSurrogate items

def itemsHaveSurrogate : List Value → Bool
  | [] => false
  | v :: vs => hasSurrogate v || itemsHaveSurrogate vs

def membersHaveSurrogate : List (Points × Value) → Bool
  | [] => false
  | (k, v) :: items => k.hasSurrogate || hasSurrogate v || membersHaveSurrogate items

end

/-! ## Surrogates -/

@[simp] theorem hasSurrogate_cons_ofChar (c : Char) (s : Points) :
    Points.hasSurrogate (.ofChar c :: s) = s.hasSurrogate := by
  rw [Points.hasSurrogate, List.any_cons, CodePoint.isSurrogate_ofChar, Bool.false_or, Points.hasSurrogate]

@[simp] theorem hasSurrogate_ofString (s : String) : (Points.ofString s).hasSurrogate = false :=
  Points.hasSurrogate_map s.toList

@[simp] theorem hasSurrogate_quote (s : Points) : (quote s).hasSurrogate = s.hasSurrogate := by
  have escaped (c : CodePoint) : (escape c).hasSurrogate = c.isSurrogate := by
    unfold escape
    split
    · rename_i small
      have none_ : c.isSurrogate = false := by
        simp only [CodePoint.isSurrogate, decide_eq_false_iff_not]
        omega
      rw [Points.hasSurrogate_map, none_]
    · rw [Points.hasSurrogate, List.any_cons, List.any_nil, Bool.or_false]
  have body : Points.hasSurrogate (s.flatMap escape) = s.hasSurrogate := by
    induction s with
    | nil => rfl
    | cons c s ih =>
      rw [List.flatMap_cons, Points.hasSurrogate_append, escaped, ih]
      rfl
  rw [quote, hasSurrogate_cons_ofChar, Points.hasSurrogate_append, body, hasSurrogate_cons_ofChar]
  exact Bool.or_false _

mutual

theorem hasSurrogate_dumps : ∀ v : Value, v.dumps.hasSurrogate = v.hasSurrogate
  | .null => by rw [dumps, hasSurrogate_ofString, hasSurrogate]
  | .bool true => by rw [dumps, hasSurrogate_ofString, hasSurrogate]
  | .bool false => by rw [dumps, hasSurrogate_ofString, hasSurrogate]
  | .int n => by rw [dumps, Points.hasSurrogate_map, hasSurrogate]
  | .float r => by rw [dumps, floatPoints, hasSurrogate_ofString, hasSurrogate]
  | .str s => by rw [dumps, hasSurrogate_quote, hasSurrogate]
  | .list [] => by rw [dumps, hasSurrogate_ofString, hasSurrogate, itemsHaveSurrogate]
  | .list (v :: vs) => by
    rw [dumps, hasSurrogate_cons_ofChar, Points.hasSurrogate_append, hasSurrogate_dumps v,
      hasSurrogate_dumpsItems vs, hasSurrogate, itemsHaveSurrogate]
  | .dict [] => by rw [dumps, hasSurrogate_ofString, hasSurrogate, membersHaveSurrogate]
  | .dict ((k, v) :: items) => by
    rw [dumps, hasSurrogate_cons_ofChar, Points.hasSurrogate_append, hasSurrogate_quote, hasSurrogate_cons_ofChar,
      Points.hasSurrogate_append, hasSurrogate_dumps v, hasSurrogate_dumpsMembers items,
        hasSurrogate, membersHaveSurrogate,
      Bool.or_assoc]

theorem hasSurrogate_dumpsItems : ∀ vs : List Value, (dumpsItems vs).hasSurrogate = itemsHaveSurrogate vs
  | [] => by rw [dumpsItems, hasSurrogate_cons_ofChar, itemsHaveSurrogate]; rfl
  | v :: vs => by
    rw [dumpsItems, hasSurrogate_cons_ofChar, Points.hasSurrogate_append, hasSurrogate_dumps v,
      hasSurrogate_dumpsItems vs, itemsHaveSurrogate]

theorem hasSurrogate_dumpsMembers : ∀ items : List (Points × Value),
    (dumpsMembers items).hasSurrogate = membersHaveSurrogate items
  | [] => by rw [dumpsMembers, hasSurrogate_cons_ofChar, membersHaveSurrogate]; rfl
  | (k, v) :: items => by
    rw [dumpsMembers, hasSurrogate_cons_ofChar, Points.hasSurrogate_append, hasSurrogate_quote, hasSurrogate_cons_ofChar,
      Points.hasSurrogate_append, hasSurrogate_dumps v, hasSurrogate_dumpsMembers items,
        membersHaveSurrogate, Bool.or_assoc]

end

theorem encode_eq_none {v : Value} : v.encode = none ↔ v.hasSurrogate = true := by
  rw [encode, Points.utf8_eq_none, hasSurrogate_dumps]

/-! ## Sizes -/

theorem length_le_bytes (s : Points) : s.length ≤ (s.flatMap CodePoint.bytes).length := by
  induction s with
  | nil => exact Nat.le_refl 0
  | cons c s ih =>
    have one : 1 ≤ c.bytes.length := by
      unfold CodePoint.bytes
      split_ifs <;> simp
    rw [List.flatMap_cons, List.length_append, List.length_cons]
    omega

/-- A text is no longer than its encoding. -/
theorem length_le_encode {s : Points} {encoded : List Char} (h : encode (.str s) = some encoded) :
    s.length ≤ encoded.length := by
  have escaped (c : CodePoint) : 1 ≤ (escape c).length := by
    unfold escape
    split
    · rw [List.length_map]
      unfold Json.escapeChar Json.escapeControl
      split_ifs <;> simp
    · exact Nat.le_refl 1
  have body : ∀ s : Points, s.length ≤ (s.flatMap escape).length := by
    intro s
    induction s with
    | nil => exact Nat.le_refl 0
    | cons c s ih =>
      have := escaped c
      rw [List.flatMap_cons, List.length_append, List.length_cons]
      omega
  unfold encode Points.utf8 at h
  split at h
  · cases h
  · cases h
    refine Nat.le_trans ?_ (length_le_bytes _)
    have := body s
    rw [dumps, quote, List.length_cons, List.length_append]
    omega

end Value

end Maru
