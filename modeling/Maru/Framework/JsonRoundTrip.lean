import Mathlib.Tactic.IntervalCases
import Maru.Framework.Json

/-!
# Reading back canonical JSON text

`loads_dumps`: `loads` reads the text `dumps` writes back to the same value. It holds of
every value of whole numbers (`Canonical`), its objects sorted. A value is read up to the
character that follows it, so the induction is over the value for any text `rest` behind
it that starts as text behind a value does (`Delim`).
-/

namespace Maru.Json

open Digits

/-! ## Canonical values -/

mutual

/-- A value of integers `int()` converts, without floats, its objects sorted by their keys. -/
def Canonical : Json → Prop
  | .null => True
  | .bool _ => True
  | .int n => (decimal n.natAbs).length ≤ maxIntDigits
  | .float _ => False
  | .str _ => True
  | .arr vs => CanonicalElems vs
  | .obj ms => CanonicalMembers ms ∧ (ms.map Prod.fst).Pairwise (· < ·)

def CanonicalElems : List Json → Prop
  | [] => True
  | v :: vs => Canonical v ∧ CanonicalElems vs

def CanonicalMembers : List (String × Json) → Prop
  | [] => True
  | (_, v) :: ms => Canonical v ∧ CanonicalMembers ms

end

mutual

/-- Fuel enough to read a value. -/
def cost : Json → Nat
  | .null => 1
  | .bool _ => 1
  | .int _ => 1
  | .float _ => 1
  | .str _ => 1
  | .arr [] => 1
  | .arr (v :: vs) => 1 + (cost v + costElems vs)
  | .obj [] => 1
  | .obj ((_, v) :: ms) => 2 + (cost v + costMembers ms)

def costElems : List Json → Nat
  | [] => 1
  | v :: vs => 1 + (cost v + costElems vs)

def costMembers : List (String × Json) → Nat
  | [] => 1
  | (_, v) :: ms => 2 + (cost v + costMembers ms)

end

/-! ## What follows a value -/

/-- `rest` is empty or goes on as a document does behind a value. -/
def Delim (rest : List Char) : Prop := ∀ c ∈ rest.head?, c = ',' ∨ c = ']' ∨ c = '}'

theorem Delim.nil : Delim [] := by simp [Delim]

theorem Delim.cons {c : Char} {cs : List Char} (h : c = ',' ∨ c = ']' ∨ c = '}') : Delim (c :: cs) := by
  simpa [Delim] using h

theorem elemsChars_delim (vs : List Json) (rest : List Char) : Delim (elemsChars vs ++ rest) := by
  cases vs <;> exact Delim.cons (by decide)

theorem membersChars_delim (ms : List (String × Json)) (rest : List Char) :
    Delim (membersChars ms ++ rest) := by
  rcases ms with _ | ⟨⟨k, v⟩, ms⟩ <;> exact Delim.cons (by decide)

theorem skipBlanks_of_head {c : Char} {cs : List Char} (h : isBlank c = false) :
    skipBlanks (c :: cs) = c :: cs := by
  simp [skipBlanks, h]

theorem skipBlanks_delim {rest : List Char} (h : Delim rest) : skipBlanks rest = rest := by
  cases rest with
  | nil => rfl
  | cons c cs => rcases h c rfl with rfl | rfl | rfl <;> rfl

theorem Delim.noDigit {rest : List Char} (h : Delim rest) : NoDigit rest := by
  intro c hc
  rcases h c hc with rfl | rfl | rfl <;> decide

theorem readFraction_delim {rest : List Char} (h : Delim rest) : readFraction rest = ([], rest) := by
  cases rest with
  | nil => rfl
  | cons c cs => rcases h c rfl with rfl | rfl | rfl <;> rfl

theorem readExponent_delim {rest : List Char} (h : Delim rest) : readExponent rest = ([], rest) := by
  match rest, h with
  | [], _ => rfl
  | [_], _ => rfl
  | c :: s :: cs, h => rcases h c rfl with rfl | rfl | rfl <;> rfl

/-! ## Strings -/

theorem readPoints_escapeChar (c : Char) (cs : List Char) :
    readPoints (escapeChar c ++ cs) = (readPoints cs).map fun p => (c.toNat :: p.1, p.2) := by
  have two (e : Char) (n : Nat) (he : escapeVal? e = some n) (hu : e ≠ 'u') :
      readPoints ('\\' :: e :: cs) = (readPoints cs).map fun p => (n :: p.1, p.2) := by
    rw [readPoints.eq_3 _ _ _ fun _ _ _ _ _ h => absurd h hu, if_neg (by decide), if_pos rfl, he]
    cases readPoints cs <;> rfl
  unfold escapeChar
  split
  · subst c; exact two _ _ rfl (by decide)
  split
  · subst c; exact two _ _ rfl (by decide)
  split
  · subst c; exact two _ _ rfl (by decide)
  split
  · subst c; exact two _ _ rfl (by decide)
  split
  · subst c; exact two _ _ rfl (by decide)
  split
  · rename_i h; rw [h]; exact two 'f' 12 rfl (by decide)
  split
  · rename_i h; rw [h]; exact two 'b' 8 rfl (by decide)
  split
  · -- A control character, written in hexadecimal.
    rename_i h
    have hex := readHex_pad (show c.toNat < 16 ^ 4 by omega) []
    rw [List.append_nil] at hex
    simp only [escapeControl, padHex, padBase, List.cons_append, List.nil_append] at hex ⊢
    rw [readPoints.eq_2, if_neg (by decide), if_pos rfl, hex]
    cases readPoints cs <;> rfl
  · rename_i hq hb _ _ _ _ _ h
    rw [List.singleton_append, readPoints.eq_def]
    simp only [hq, hb, h, if_false]
    cases readPoints cs <;> rfl

theorem readPoints_flatMap (s rest : List Char) :
    readPoints (s.flatMap escapeChar ++ '"' :: rest) = some (s.map Char.toNat, rest) := by
  induction s with
  | nil => rw [List.flatMap_nil, List.nil_append, readPoints.eq_def]; rfl
  | cons c s ih => rw [List.flatMap_cons, List.append_assoc, readPoints_escapeChar, ih]; rfl

theorem charsOfPoints_cons {n : Nat} (h : n.isValidChar) (ns : List Nat) :
    charsOfPoints (n :: ns) = (charsOfPoints ns).map (Char.ofNatAux n h :: ·) := by
  delta charsOfPoints
  exact dif_pos h

theorem charsOfPoints_toNat (s : List Char) : charsOfPoints (s.map Char.toNat) = some s := by
  induction s with
  | nil => rfl
  | cons c s ih =>
    have hv : c.toNat.isValidChar := c.valid
    rw [List.map_cons, charsOfPoints_cons hv, ih]
    rfl

theorem readString_quote (s : String) (rest : List Char) :
    readString (s.toList.flatMap escapeChar ++ '"' :: rest) = some (s, rest) := by
  unfold readString
  rw [readPoints_flatMap]
  simp only [Option.bind_eq_bind, Option.bind_some, charsOfPoints_toNat]
  simp

/-! ## Integers -/

theorem digitVal?_head {n : Nat} : ∃ d cs, d < 10 ∧ (d = 0 → n = 0 ∧ cs = []) ∧ decimal n = digitChar d :: cs := by
  by_cases hn : n = 0
  · subst n
    exact ⟨0, [], by omega, fun _ => ⟨rfl, rfl⟩, rfl⟩
  · obtain ⟨d, cs, h1, h2, h⟩ := decimal_head hn
    exact ⟨d, cs, h2, by omega, h⟩

theorem readNatural_decimal {n : Nat} (h : (decimal n).length ≤ maxIntDigits) {rest : List Char}
    (hr : NoDigit rest) : readNatural (decimal n ++ rest) = some (n, rest) := by
  obtain ⟨d, cs, hd, h0, he⟩ := digitVal?_head (n := n)
  have hread := readDecimal_decimal n hr
  rw [he] at hread h ⊢
  rw [List.cons_append, readDecimal, digitVal?_digitChar d hd, Nat.mul_zero] at hread
  simp only [Nat.zero_add] at hread
  unfold readNatural
  simp only [List.cons_append, digitVal?_digitChar d hd]
  cases d with
  | zero =>
    obtain ⟨rfl, rfl⟩ := h0 rfl
    rfl
  | succ d =>
    simp only at hread ⊢
    rw [hread]
    simp only [List.length_append, List.length_cons] at h ⊢
    rw [if_pos (by omega)]

theorem readNumber_decimal (floatRepr : String → String) {n : Nat}
    (h : (decimal n).length ≤ maxIntDigits) {rest : List Char} (hr : Delim rest) (negative : Bool) :
    readNumber floatRepr negative (decimal n ++ rest) =
      some (.int (if negative then -n else n), rest) := by
  unfold readNumber
  rw [readNatural_decimal h hr.noDigit]
  simp only [Option.bind_eq_bind, Option.bind_some, readFraction_delim hr, readExponent_delim hr,
    and_self, if_true, Option.pure_def]

/-! ## Objects -/

theorem sortMembers_sorted {ms : List (String × Json)} (h : (ms.map Prod.fst).Pairwise (· < ·)) :
    sortMembers ms = some ms := by
  induction ms with
  | nil => rfl
  | cons m ms ih =>
    obtain ⟨k, v⟩ := m
    rw [List.map_cons, List.pairwise_cons] at h
    rw [sortMembers, ih h.2, Option.bind_some]
    rcases ms with _ | ⟨⟨l, w⟩, ms⟩
    · rfl
    · have hkl : k < l := h.1 l (by simp)
      rw [insertMember, if_neg hkl.ne, if_pos hkl]

/-! ## Values -/

/-- What a value starts with: no blank, and no closing bracket. -/
theorem chars_head (v : Json) (h : Canonical v) :
    ∃ c cs, v.chars = c :: cs ∧ isBlank c = false ∧ c ≠ ']' ∧ c ≠ '}' := by
  have digit : ∀ d < 10, isBlank (digitChar d) = false ∧ digitChar d ≠ ']' ∧ digitChar d ≠ '}' := by decide
  cases v with
  | null => exact ⟨'n', _, rfl, by decide⟩
  | bool b => cases b with
    | true => exact ⟨'t', _, rfl, by decide⟩
    | false => exact ⟨'f', _, rfl, by decide⟩
  | int n =>
    simp only [chars, intChars]
    split
    · exact ⟨'-', _, rfl, by decide⟩
    · obtain ⟨d, cs, hd, -, he⟩ := digitVal?_head (n := n.natAbs)
      exact ⟨digitChar d, cs, he, digit d hd⟩
  | float r => exact h.elim
  | str s => exact ⟨'"', _, rfl, by decide⟩
  | arr vs => cases vs <;> exact ⟨'[', _, rfl, by decide⟩
  | obj ms => rcases ms with _ | ⟨⟨k, v⟩, ms⟩ <;> exact ⟨'{', _, rfl, by decide⟩

theorem skipBlanks_chars {v : Json} (h : Canonical v) (rest : List Char) :
    skipBlanks (v.chars ++ rest) = v.chars ++ rest := by
  obtain ⟨c, cs, he, hb, -⟩ := chars_head v h
  rw [he]
  exact skipBlanks_of_head hb

theorem skipBlanks_quote (s : String) (rest : List Char) :
    skipBlanks (quote s ++ rest) = quote s ++ rest :=
  skipBlanks_of_head (c := '"') (by decide)

variable (floatRepr : String → String)

theorem readValue_int {n : Int} (h : Canonical (.int n)) {fuel : Nat} {rest : List Char} (hr : Delim rest) :
    readValue floatRepr (fuel + 1) (intChars n ++ rest) = some (.int n, rest) := by
  simp only [Canonical] at h
  unfold intChars
  obtain ⟨d, cs, hd, -, he⟩ := digitVal?_head (n := n.natAbs)
  have hnum := readNumber_decimal floatRepr h hr
  rw [he, List.cons_append] at hnum
  split
  · rename_i hn
    have hneg := hnum true
    rw [if_pos rfl, show -(n.natAbs : Int) = n by omega] at hneg
    rw [he, List.cons_append, List.cons_append, ← hneg]
    clear hneg hnum he
    interval_cases d <;> rfl
  · rename_i hn
    have hpos := hnum false
    rw [if_neg (by decide), show (n.natAbs : Int) = n by omega] at hpos
    rw [he, List.cons_append, ← hpos]
    clear hpos hnum he
    interval_cases d <;> rfl

theorem one_le_cost (v : Json) : 1 ≤ cost v := by
  rcases v with _ | _ | _ | _ | _ | vs | ms <;> try exact le_refl 1
  · cases vs <;> simp only [cost] <;> omega
  · rcases ms with _ | ⟨⟨k, w⟩, ms⟩ <;> simp only [cost] <;> omega

theorem readMember_chars {k : String} {v : Json} (h : Canonical v) {fuel : Nat} {rest : List Char}
    (hv : readValue floatRepr fuel (v.chars ++ rest) = some (v, rest)) :
    readMember floatRepr (fuel + 1) (quote k ++ ':' :: (v.chars ++ rest)) = some ((k, v), rest) := by
  have hblank : isBlank ':' = false := by decide
  simp only [quote, List.cons_append, List.append_assoc, List.nil_append, readMember, readString_quote,
    Option.bind_eq_bind, Option.bind_some, skipBlanks_of_head hblank, skipBlanks_chars h, hv, Option.pure_def]

mutual

/-- A canonical value is read back from its text, whatever follows a value behind it. -/
theorem readValue_chars : ∀ {v : Json}, Canonical v → ∀ {fuel : Nat}, cost v ≤ fuel →
    ∀ {rest : List Char}, Delim rest → readValue floatRepr fuel (v.chars ++ rest) = some (v, rest)
  | v, _, 0, hf, _, _ => absurd (one_le_cost v) (by omega)
  | .null, _, fuel + 1, _, rest, _ => rfl
  | .bool true, _, fuel + 1, _, rest, _ => rfl
  | .bool false, _, fuel + 1, _, rest, _ => rfl
  | .int n, h, fuel + 1, _, rest, hr => readValue_int floatRepr h hr
  | .float r, h, _, _, _, _ => h.elim
  | .str s, _, fuel + 1, _, rest, _ => by
    simp only [chars, quote, List.cons_append, List.append_assoc, readValue, readString_quote,
      Option.bind_eq_bind, Option.bind_some, Option.pure_def, List.nil_append]
  | .arr [], _, fuel + 1, _, rest, _ => rfl
  | .arr (v :: vs), h, fuel + 1, hf, rest, _ => by
    obtain ⟨hv, hvs⟩ := h
    simp only [cost] at hf
    have hval := readValue_chars hv (show cost v ≤ fuel by omega) (elemsChars_delim vs rest)
    have helems := readElems_chars hvs (show costElems vs ≤ fuel by omega) rest
    have hskip := skipBlanks_chars hv (elemsChars vs ++ rest)
    obtain ⟨c, cs, he, -, hc, -⟩ := chars_head v hv
    simp only [chars, List.cons_append, List.append_assoc, readValue, hskip]
    rw [he] at hval ⊢
    split
    · rename_i heq
      exact absurd (List.cons.inj heq).1 hc
    · simp only [hval, Option.bind_eq_bind, Option.bind_some,
        skipBlanks_delim (elemsChars_delim vs rest), helems, Option.pure_def]
  | .obj [], _, fuel + 1, _, rest, _ => rfl
  | .obj ((k, v) :: ms), h, 1, hf, rest, _ => absurd (one_le_cost v) (by simp only [cost] at hf; omega)
  | .obj ((k, v) :: ms), h, fuel + 2, hf, rest, _ => by
    obtain ⟨⟨hv, hms⟩, hsorted⟩ := h
    simp only [cost] at hf
    have hval := readValue_chars hv (show cost v ≤ fuel by omega) (membersChars_delim ms rest)
    have hmember := readMember_chars floatRepr (k := k) hv hval
    have hmembers := readMembers_chars hms (show costMembers ms ≤ fuel + 1 by omega) rest
    simp only [chars, List.cons_append, List.append_assoc, readValue, skipBlanks_quote]
    split
    · rename_i heq
      exact absurd (List.cons.inj heq).1 (by decide)
    · simp only [hmember, Option.bind_eq_bind, Option.bind_some,
        skipBlanks_delim (membersChars_delim ms rest), hmembers, sortMembers_sorted hsorted, Option.pure_def]

theorem readElems_chars : ∀ {vs : List Json}, CanonicalElems vs → ∀ {fuel : Nat}, costElems vs ≤
    fuel → ∀ (rest : List Char), readElems floatRepr fuel (elemsChars vs ++ rest) = some (vs, rest)
  | [], _, 0, hf, _ => absurd hf (by simp [costElems])
  | [], _, fuel + 1, _, rest => rfl
  | _ :: _, _, 0, hf, _ => absurd hf (by simp [costElems])
  | v :: vs, ⟨hv, hvs⟩, fuel + 1, hf, rest => by
    simp only [costElems] at hf
    simp only [elemsChars, List.cons_append, List.append_assoc, readElems, skipBlanks_chars hv,
      readValue_chars hv (show cost v ≤ fuel by omega) (elemsChars_delim vs rest), Option.bind_eq_bind,
      Option.bind_some, skipBlanks_delim (elemsChars_delim vs rest),
      readElems_chars hvs (show costElems vs ≤ fuel by omega) rest, Option.pure_def]

theorem readMembers_chars : ∀ {ms : List (String × Json)}, CanonicalMembers ms → ∀ {fuel : Nat},
    costMembers ms ≤ fuel → ∀ (rest : List Char),
    readMembers floatRepr fuel (membersChars ms ++ rest) = some (ms, rest)
  | [], _, 0, hf, _ => absurd hf (by simp [costMembers])
  | [], _, fuel + 1, _, rest => rfl
  | (_, v) :: _, _, 0, hf, _ => absurd hf (by simp [costMembers])
  | (_, v) :: _, _, 1, hf, _ => absurd (one_le_cost v) (by simp only [costMembers] at hf; omega)
  | (k, v) :: ms, ⟨hv, hms⟩, fuel + 2, hf, rest => by
    simp only [costMembers] at hf
    have hval := readValue_chars hv (show cost v ≤ fuel by omega) (membersChars_delim ms rest)
    have hmember := readMember_chars floatRepr (k := k) hv hval
    have hmembers := readMembers_chars hms (show costMembers ms ≤ fuel + 1 by omega) rest
    rw [membersChars, List.cons_append, List.append_assoc, List.cons_append, List.append_assoc, readMembers]
    simp only [skipBlanks_quote, hmember, Option.bind_eq_bind, Option.bind_some,
      skipBlanks_delim (membersChars_delim ms rest), hmembers, Option.pure_def]

end

/-! ## The fuel of `loads` is enough -/

mutual

theorem cost_le : ∀ (v : Json), Canonical v → cost v ≤ 2 * v.chars.length
  | .null, _ => by decide
  | .bool true, _ => by decide
  | .bool false, _ => by decide
  | .int n, _ => by
    obtain ⟨d, cs, -, -, he⟩ := digitVal?_head (n := n.natAbs)
    simp only [cost, chars, intChars, he]
    split <;> simp only [List.length_cons] <;> omega
  | .float _, h => h.elim
  | .str s, _ => by simp only [cost, chars, quote, List.length_cons]; omega
  | .arr [], _ => by decide
  | .arr (v :: vs), ⟨hv, hvs⟩ => by
    have := cost_le v hv
    have := costElems_le vs hvs
    simp only [cost, chars, List.length_cons, List.length_append]
    omega
  | .obj [], _ => by decide
  | .obj ((k, v) :: ms), ⟨⟨hv, hms⟩, _⟩ => by
    have := cost_le v hv
    have := costMembers_le ms hms
    simp only [cost, chars, List.length_cons, List.length_append]
    omega

theorem costElems_le : ∀ (vs : List Json), CanonicalElems vs → costElems vs ≤ 2 * (elemsChars vs).length
  | [], _ => by decide
  | v :: vs, ⟨hv, hvs⟩ => by
    have := cost_le v hv
    have := costElems_le vs hvs
    simp only [costElems, elemsChars, List.length_cons, List.length_append]
    omega

theorem costMembers_le : ∀ (ms : List (String × Json)), CanonicalMembers ms →
    costMembers ms ≤ 2 * (membersChars ms).length
  | [], _ => by decide
  | (k, v) :: ms, ⟨hv, hms⟩ => by
    have := cost_le v hv
    have := costMembers_le ms hms
    simp only [costMembers, membersChars, List.length_cons, List.length_append]
    omega

end

/-- `loads` reads back what `dumps` writes. -/
theorem loads_dumps {v : Json} (h : Canonical v) : loads floatRepr v.dumps = some v := by
  have hskip := skipBlanks_chars h []
  rw [List.append_nil] at hskip
  have hread : readValue floatRepr (2 * v.chars.length + 2) (v.chars ++ []) = some (v, []) :=
    readValue_chars floatRepr h (by have := cost_le v h; omega) Delim.nil
  rw [List.append_nil] at hread
  simp only [loads, dumps, String.toList_ofList, hskip, hread, Option.bind_eq_bind, Option.bind_some]
  rfl

/-- Canonical values with the same text are the same value. -/
theorem dumps_injective {v w : Json} (hv : Canonical v) (hw : Canonical w) (h : v.dumps = w.dumps) : v = w := by
  have := loads_dumps id hv
  rw [h, loads_dumps id hw] at this
  exact (Option.some.inj this).symm

end Maru.Json
