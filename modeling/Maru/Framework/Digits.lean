import Mathlib.Data.Nat.Digits.Lemmas
import Mathlib.Tactic.Ring

/-!
# Digits

Numbers written with a fixed number of digits in some base (`padBase`) and read back
(`readBase_pad`), in decimal (`pad`) and in hexadecimal (`padHex`); and numbers written
with as many decimal digits as they need (`decimal`, as `str` of an integer) and read back
to the first character that is no digit (`readDecimal_decimal`).
-/

namespace Maru.Digits

/-- The decimal digit `d < 10`. -/
def digitChar (d : Nat) : Char := Char.ofNat (48 + d)

/-- The value of a decimal digit. -/
def digitVal? (c : Char) : Option Nat := if '0' ≤ c ∧ c ≤ '9' then some (c.toNat - 48) else none

theorem digitVal?_digitChar : ∀ d < 10, digitVal? (digitChar d) = some d := by decide

/-- The hexadecimal digit `d < 16`, in lower case. -/
def hexDigit (d : Nat) : Char := if d < 10 then Char.ofNat (48 + d) else Char.ofNat (87 + d)

/-- The value of a hexadecimal digit, in either case. -/
def hexVal? (c : Char) : Option Nat :=
  if '0' ≤ c ∧ c ≤ '9' then some (c.toNat - 48)
  else if 'a' ≤ c ∧ c ≤ 'f' then some (c.toNat - 87)
  else if 'A' ≤ c ∧ c ≤ 'F' then some (c.toNat - 55)
  else none

theorem hexVal?_hexDigit : ∀ d < 16, hexVal? (hexDigit d) = some d := by decide

/-! ## A fixed number of digits -/

section

variable (base : Nat) (digit : Nat → Char) (val? : Char → Option Nat)

/-- The last `width` digits of `n`. -/
def padBase : Nat → Nat → List Char
  | 0, _ => []
  | width + 1, n => digit (n / base ^ width % base) :: padBase width n

@[simp] theorem length_padBase (width n : Nat) : (padBase base digit width n).length = width := by
  induction width with
  | zero => rfl
  | succ width ih => simp [padBase, ih]

theorem mem_padBase (hb : 0 < base) {width n : Nat} {c : Char}
    (h : c ∈ padBase base digit width n) : ∃ d < base, c = digit d := by
  induction width with
  | zero => cases h
  | succ width ih =>
    rcases List.mem_cons.mp h with h | h
    · exact ⟨_, Nat.mod_lt _ hb, h⟩
    · exact ih h

/-- Read `width` digits after `acc`. -/
def readBase : Nat → Nat → List Char → Option (Nat × List Char)
  | 0, acc, cs => some (acc, cs)
  | _ + 1, _, [] => none
  | width + 1, acc, c :: cs => (val? c).bind fun d => readBase width (base * acc + d) cs

variable {base digit val?}

theorem readBase_pad_append (hb : 0 < base) (hv : ∀ d < base, val? (digit d) = some d)
    (width n acc : Nat) (rest : List Char) :
    readBase base val? width acc (padBase base digit width n ++ rest) =
      some (acc * base ^ width + n % base ^ width, rest) := by
  induction width generalizing acc with
  | zero => simp [padBase, readBase, Nat.mod_one]
  | succ width ih =>
    rw [padBase, List.cons_append, readBase, hv _ (Nat.mod_lt _ hb), Option.bind_some, ih]
    congr 2
    rw [Nat.mod_pow_succ, pow_succ]
    ring

theorem readBase_pad (hb : 0 < base) (hv : ∀ d < base, val? (digit d) = some d) {width n : Nat}
    (h : n < base ^ width) (rest : List Char) :
    readBase base val? width 0 (padBase base digit width n ++ rest) = some (n, rest) := by
  rw [readBase_pad_append hb hv, Nat.zero_mul, Nat.zero_add, Nat.mod_eq_of_lt h]

end

abbrev pad : Nat → Nat → List Char := padBase 10 digitChar

abbrev readDigits : Nat → Nat → List Char → Option (Nat × List Char) := readBase 10 digitVal?

theorem readDigits_pad {width n : Nat} (h : n < 10 ^ width) (rest : List Char) :
    readDigits width 0 (pad width n ++ rest) = some (n, rest) :=
  readBase_pad (by omega) digitVal?_digitChar h rest

abbrev padHex : Nat → Nat → List Char := padBase 16 hexDigit

abbrev readHex : Nat → Nat → List Char → Option (Nat × List Char) := readBase 16 hexVal?

theorem readHex_pad {width n : Nat} (h : n < 16 ^ width) (rest : List Char) :
    readHex width 0 (padHex width n ++ rest) = some (n, rest) :=
  readBase_pad (by omega) hexVal?_hexDigit h rest

/-! ## As many digits as needed -/

/-- `str(n)`. -/
def decimal (n : Nat) : List Char :=
  if n = 0 then ['0'] else (Nat.digits 10 n).reverse.map digitChar

/-- Read digits after `acc` up to the first character that is none. -/
def readDecimal : Nat → List Char → Nat × List Char
  | acc, [] => (acc, [])
  | acc, c :: cs =>
    match digitVal? c with
    | some d => readDecimal (10 * acc + d) cs
    | none => (acc, c :: cs)

/-- `rest` does not go on with a digit. -/
def NoDigit (rest : List Char) : Prop := ∀ c ∈ rest.head?, digitVal? c = none

theorem readDecimal_noDigit {rest : List Char} (h : NoDigit rest) (acc : Nat) :
    readDecimal acc rest = (acc, rest) := by
  cases rest with
  | nil => rfl
  | cons c cs => rw [readDecimal, h c rfl]

theorem readDecimal_map {ds : List Nat} (hds : ∀ d ∈ ds, d < 10) {rest : List Char}
    (h : NoDigit rest) (acc : Nat) :
    readDecimal acc (ds.map digitChar ++ rest) = (ds.foldl (fun a d => 10 * a + d) acc, rest) := by
  induction ds generalizing acc with
  | nil => exact readDecimal_noDigit h acc
  | cons d ds ih =>
    rw [List.map_cons, List.cons_append, readDecimal, digitVal?_digitChar d (hds d List.mem_cons_self)]
    exact ih (fun e he => hds e (List.mem_cons_of_mem d he)) _

theorem foldl_digits (n : Nat) : (Nat.digits 10 n).reverse.foldl (fun a d => 10 * a + d) 0 = n := by
  rw [List.foldl_reverse]
  conv_rhs => rw [← Nat.ofDigits_digits 10 n, Nat.ofDigits_eq_foldr]
  congr 1
  funext d a
  simp only [Nat.cast_id]
  ring

theorem readDecimal_decimal (n : Nat) {rest : List Char} (h : NoDigit rest) :
    readDecimal 0 (decimal n ++ rest) = (n, rest) := by
  unfold decimal
  split
  · subst n
    have := @readDecimal_map [0] (by simp) rest h 0
    simpa [digitChar] using this
  · rw [readDecimal_map (fun d hd => Nat.digits_lt_base (by omega) (List.mem_reverse.mp hd)) h, foldl_digits]

/-- A number other than 0 does not start with the digit 0. -/
theorem decimal_head {n : Nat} (hn : n ≠ 0) :
    ∃ d cs, 1 ≤ d ∧ d < 10 ∧ decimal n = digitChar d :: cs := by
  have hne : Nat.digits 10 n ≠ [] := Nat.digits_ne_nil_iff_ne_zero.mpr hn
  obtain ⟨l, d, hl⟩ := (List.eq_nil_or_concat (Nat.digits 10 n)).resolve_left hne
  rw [List.concat_eq_append] at hl
  have hd : d ∈ Nat.digits 10 n := by simp [hl]
  have hlast : d ≠ 0 := by
    have := Nat.getLast_digit_ne_zero 10 hn
    simpa [hl] using this
  exact ⟨d, (l.reverse).map digitChar, by omega, Nat.digits_lt_base (by omega) hd, by simp [decimal, hn, hl]⟩

end Maru.Digits
