import Maru.Framework.CodePoints
import Maru.Framework.Digits
import Mathlib.Data.Rat.Defs
import Mathlib.Algebra.Order.Field.Rat

/-!
# Decimal numbers

`decimal.Decimal` of a text, and a number written without an exponent (`format(number, "f")`).
A number that is written so and read again is the same number (`ofText_fixed`), although its
zeros may count differently.
-/

namespace Maru

open Digits

/-- `decimal.Decimal`. Infinities and what is no number at all are not told apart. -/
inductive Decimal where
  | special
  | finite (negative : Bool) (coefficient : Nat) (exponent : Int)

namespace Decimal

/-- `MAX_PREC` and `MAX_EMAX`. -/
def maxPrecision : Nat := 999999999999999999

/-- `MIN_ETINY` -/
def minExponent : Int := -1999999999999999997

/-! ## Reading -/

/-- The digits 0 of the scripts that have decimal digits. -/
def zeros : List Nat :=
  [0x30, 0x660, 0x6f0, 0x7c0, 0x966, 0x9e6, 0xa66, 0xae6, 0xb66, 0xbe6, 0xc66, 0xce6, 0xd66, 0xde6, 0xe50, 0xed0, 0xf20,
    0x1040, 0x1090, 0x17e0, 0x1810, 0x1946, 0x19d0, 0x1a80, 0x1a90, 0x1b50, 0x1bb0, 0x1c40, 0x1c50, 0xa620, 0xa8d0,
    0xa900, 0xa9d0, 0xa9f0, 0xaa50, 0xabf0, 0xff10, 0x104a0, 0x10d30, 0x11066, 0x110f0, 0x11136, 0x111d0, 0x112f0,
    0x11450, 0x114d0, 0x11650, 0x116c0, 0x11730, 0x118e0, 0x11950, 0x11c50, 0x11d50, 0x11da0, 0x11f50, 0x16a60, 0x16ac0,
    0x16b50, 0x1d7ce, 0x1d7d8, 0x1d7e2, 0x1d7ec, 0x1d7f6, 0x1e140, 0x1e2f0, 0x1e4f0, 0x1e950, 0x1fbf0]

/-- The value of a code point as a decimal digit. -/
def digitOf (c : CodePoint) : Option Nat := (zeros.find? fun first => first ≤ c.val ∧ c.val < first + 10).map (c.val - ·)

/-- A code point of a number in ASCII. -/
def asciiOf (c : CodePoint) : Option Char :=
  if 0 < c.val ∧ c.val < 0x80 then some (Char.ofNat c.val)
  else if c.isSpace then some ' '
  else (digitOf c).map digitChar

/-- `numeric_as_ascii`: without white space around it and without underscores. -/
def numericAsAscii (text : Points) : Option (List Char) := (text.strip.filter (· ≠ .ofChar '_')).mapM asciiOf

def isDigit (c : Char) : Bool := (digitVal? c).isSome

/-- The number that digits are. -/
def valueOf (ds : List Char) : Nat := ds.foldl (fun n d => 10 * n + (digitVal? d).getD 0) 0

/-- A sign in front, and whether it is negative. -/
def signed : List Char → Bool × List Char
  | [] => (false, [])
  | c :: cs => if c = '-' then (true, cs) else if c = '+' then (false, cs) else (false, c :: cs)

def readExponent (cs : List Char) : Option Int :=
  let (negative, ds) := signed cs
  if ds ≠ [] ∧ ds.all isDigit then some (if negative then -valueOf ds else valueOf ds) else none

/-- `Infinity`, `Inf`, `NaN` and `sNaN`, the latter with a payload. -/
def isSpecial (lower : List Char) : Bool :=
  lower = ['i', 'n', 'f'] || lower = ['i', 'n', 'f', 'i', 'n', 'i', 't', 'y'] ||
    (lower.take 3 = ['n', 'a', 'n'] && (lower.drop 3).all isDigit) ||
    (lower.take 4 = ['s', 'n', 'a', 'n'] && (lower.drop 4).all isDigit)

/-- The digits of a number. -/
def width (coefficient : Nat) : Nat := (decimal coefficient).length

/-- The numbers that are exact in the widest context. -/
def InRange (coefficient : Nat) (exponent : Int) : Prop :=
  width coefficient ≤ maxPrecision ∧ exponent + width coefficient - 1 ≤ maxPrecision ∧ minExponent ≤ exponent

instance (c : Nat) (e : Int) : Decidable (InRange c e) := inferInstanceAs (Decidable (_ ∧ _))

/-- A number without sign and exponent, times a power of ten. -/
def readMantissa (negative : Bool) (exponent : Int) (mantissa : List Char) : Option Decimal :=
  let whole := mantissa.takeWhile (· ≠ '.')
  let fraction := (mantissa.dropWhile (· ≠ '.')).tail
  let digits := whole ++ fraction
  let exponent := exponent - fraction.length
  if digits ≠ [] ∧ digits.all isDigit ∧ InRange (valueOf digits) exponent then
    some (.finite negative (valueOf digits) exponent)
  else none

/-- What starts an exponent. -/
def isIndicator (c : Char) : Bool := c = 'e' ∨ c = 'E'

/-- A number without a sign. -/
def readUnsigned (negative : Bool) (cs : List Char) : Option Decimal :=
  match cs.dropWhile fun c => !isIndicator c with
  | [] => readMantissa negative 0 cs
  | _ :: rest => (readExponent rest).bind fun exponent =>
    readMantissa negative exponent (cs.takeWhile fun c => !isIndicator c)

/-- A number in ASCII. -/
def ofAscii (cs : List Char) : Option Decimal :=
  let (negative, cs) := signed cs
  if isSpecial (cs.map Char.toLower) then some .special else readUnsigned negative cs

/-- `Decimal(text)`; `none` where `InvalidOperation` is raised. -/
def ofText (text : Points) : Option Decimal := (numericAsAscii text).bind ofAscii

/-! ## Writing -/

/-- The digits of a number, and its zeros, without an exponent. -/
def fixedDigits (coefficient : Nat) (exponent : Int) : List Char :=
  let digits := decimal coefficient
  if 0 ≤ exponent then if coefficient = 0 then digits else digits ++ List.replicate exponent.toNat '0'
  else
    let places := exponent.natAbs
    if places < digits.length then digits.take (digits.length - places) ++ '.' :: digits.drop (digits.length - places)
    else '0' :: '.' :: (List.replicate (places - digits.length) '0' ++ digits)

/-- `format(number, "f")` of a finite number. -/
def fixed (negative : Bool) (coefficient : Nat) (exponent : Int) : List Char :=
  if negative then '-' :: fixedDigits coefficient exponent else fixedDigits coefficient exponent

/-- How long `fixed` is. -/
def fixedLength (negative : Bool) (coefficient : Nat) (exponent : Int) : Nat :=
  negative.toNat +
    if 0 ≤ exponent then if coefficient = 0 then 1 else width coefficient + exponent.toNat
    else 1 + if exponent.natAbs < width coefficient then width coefficient else 1 + exponent.natAbs

theorem length_fixedDigits (coefficient : Nat) (exponent : Int) : (fixedDigits coefficient exponent).length =
    if 0 ≤ exponent then if coefficient = 0 then 1 else width coefficient + exponent.toNat
    else 1 + if exponent.natAbs < width coefficient then width coefficient else 1 + exponent.natAbs := by
  unfold fixedDigits width
  by_cases positive : 0 ≤ exponent
  · by_cases zero : coefficient = 0
    · simp only [positive, zero, if_true]
      rfl
    · simp only [positive, zero, if_true, if_false, List.length_append, List.length_replicate]
  · by_cases inside : exponent.natAbs < (decimal coefficient).length
    · simp only [positive, inside, if_true, if_false, List.length_append, List.length_cons,
        List.length_take, List.length_drop]
      omega
    · simp only [positive, inside, if_false, List.length_append, List.length_cons, List.length_replicate]
      omega

theorem length_fixed (negative : Bool) (coefficient : Nat) (exponent : Int) :
    (fixed negative coefficient exponent).length = fixedLength negative coefficient exponent := by
  cases negative with
  | false => simp only [fixed, fixedLength, Bool.false_eq_true, if_false,
      length_fixedDigits, Bool.toNat_false, Nat.zero_add]
  | true =>
    simp only [fixed, fixedLength, if_true, List.length_cons, length_fixedDigits, Bool.toNat_true]
    omega

/-- The number itself. -/
def value : Decimal → ℚ
  | .special => 0
  | .finite negative coefficient exponent => (if negative then -1 else 1) * (coefficient * (10 : ℚ) ^ exponent)

/-! ## What is written is read back -/

/-- The number that its text without an exponent is. -/
def settled (negative : Bool) (coefficient : Nat) (exponent : Int) : Decimal :=
  if 0 ≤ exponent then .finite negative (coefficient * 10 ^ exponent.toNat) 0 else .finite negative coefficient exponent

theorem value_settled (negative : Bool) (coefficient : Nat) (exponent : Int) :
    (settled negative coefficient exponent).value = (finite negative coefficient exponent).value := by
  unfold settled
  split
  · rename_i positive
    have power : (10 : ℚ) ^ exponent = 10 ^ exponent.toNat := by
      conv_lhs => rw [← Int.toNat_of_nonneg positive]
      exact zpow_natCast _ _
    simp only [value, zpow_zero, mul_one, Nat.cast_mul, Nat.cast_pow, Nat.cast_ofNat, power]
  · rfl

/-! ### Digits -/

/-- A digit is none of the characters that a number has beside its digits. -/
theorem digitChar_spec : ∀ d < 10, isDigit (digitChar d) = true ∧ digitChar d ≠ '.' ∧
    isIndicator (digitChar d) = false := by
  decide

/-- Nor one that starts a sign or the name of no number. -/
theorem digitChar_starts : ∀ d < 10, digitChar d ≠ '-' ∧ digitChar d ≠ '+' ∧ (digitChar d).toLower ≠
    'i' ∧ (digitChar d).toLower ≠ 'n' ∧ (digitChar d).toLower ≠ 's' := by decide

theorem mem_decimal {n : Nat} {c : Char} (h : c ∈ decimal n) : ∃ d < 10, c = digitChar d := by
  unfold decimal at h
  split at h
  · exact ⟨0, by omega, List.mem_singleton.mp h⟩
  · obtain ⟨d, hd, rfl⟩ := List.mem_map.mp h
    exact ⟨d, Nat.digits_lt_base (by omega) (List.mem_reverse.mp hd), rfl⟩

theorem valueOf_map {ds : List Nat} (h : ∀ d ∈ ds, d < 10) (n : Nat) :
    (ds.map digitChar).foldl (fun n d => 10 * n + (digitVal? d).getD 0) n = ds.foldl (fun n d => 10 * n + d) n := by
  induction ds generalizing n with
  | nil => rfl
  | cons d ds ih =>
    rw [List.map_cons, List.foldl_cons, digitVal?_digitChar d (h d List.mem_cons_self), List.foldl_cons]
    exact ih (fun e he => h e (List.mem_cons_of_mem d he)) _

theorem valueOf_decimal (n : Nat) : valueOf (decimal n) = n := by
  unfold decimal
  split
  · rename_i zero
    rw [zero]
    decide
  · exact (valueOf_map (fun d hd => Nat.digits_lt_base (by omega) (List.mem_reverse.mp hd)) 0).trans (foldl_digits n)

theorem valueOf_zeros (k : Nat) (ds : List Char) : valueOf (List.replicate k '0' ++ ds) = valueOf ds := by
  induction k with
  | zero => rfl
  | succ k ih => exact ih

theorem decimal_mul_pow {n : Nat} (positive : n ≠ 0) (k : Nat) :
    decimal (n * 10 ^ k) = decimal n ++ List.replicate k '0' := by
  have product : n * 10 ^ k ≠ 0 := Nat.mul_ne_zero positive (pow_ne_zero k (by omega))
  unfold decimal
  rw [if_neg product, if_neg positive, Nat.mul_comm, Nat.digits_base_pow_mul (by omega) (Nat.pos_of_ne_zero positive),
    List.reverse_append, List.map_append, List.reverse_replicate, List.map_replicate]
  rfl

/-! ### Reading a number without an exponent -/

section

variable (negative : Bool) {whole fraction : List Char}

theorem readUnsigned_plain {cs : List Char} (plain : ∀ c ∈ cs, isIndicator c = false) :
    readUnsigned negative cs = readMantissa negative 0 cs := by
  have rest : cs.dropWhile (fun c => !isIndicator c) = [] :=
    List.dropWhile_eq_nil_iff.mpr fun c hc => by rw [plain c hc]; rfl
  rw [readUnsigned, rest]

theorem readMantissa_eq {mantissa : List Char} (before : mantissa.takeWhile (· ≠ '.') = whole)
    (behind : (mantissa.dropWhile (· ≠ '.')).tail = fraction) (some_ : whole ++ fraction ≠ [])
    (digits : ∀ c ∈ whole ++ fraction, ∃ d < 10, c = digitChar d)
    (range : InRange (valueOf (whole ++ fraction)) (-fraction.length)) :
    readMantissa negative 0 mantissa = some (.finite negative (valueOf (whole ++ fraction)) (-fraction.length)) := by
  have all : (whole ++ fraction).all isDigit = true := by
    rw [List.all_eq_true]
    intro c hc
    obtain ⟨d, hd, rfl⟩ := digits c hc
    exact (digitChar_spec d hd).1
  unfold readMantissa
  simp only [before, behind, zero_sub]
  exact if_pos ⟨some_, all, range⟩

theorem noPoint_of_digits (digits : ∀ c ∈ whole, ∃ d < 10, c = digitChar d) : ∀ c ∈ whole, decide (c ≠ '.') = true := by
  intro c hc
  obtain ⟨d, hd, rfl⟩ := digits c hc
  exact decide_eq_true (digitChar_spec d hd).2.1

variable (whole fraction)

/-- What a text of digits with one point in it is read as. -/
theorem readUnsigned_point (some_ : whole ++ fraction ≠ []) (digits : ∀ c ∈ whole ++ fraction,
    ∃ d < 10, c = digitChar d) (range : InRange (valueOf (whole ++ fraction)) (-fraction.length)) :
    readUnsigned negative (whole ++ '.' :: fraction) =
      some (.finite negative (valueOf (whole ++ fraction)) (-fraction.length)) := by
  have noPoint := noPoint_of_digits fun c hc => digits c (List.mem_append_left fraction hc)
  rw [readUnsigned_plain]
  · refine readMantissa_eq negative ?_ ?_ some_ digits range
    · rw [List.takeWhile_append_of_pos noPoint, List.takeWhile_cons_of_neg (by simp), List.append_nil]
    · rw [List.dropWhile_append_of_pos noPoint, List.dropWhile_cons_of_neg (by simp), List.tail_cons]
  · intro c hc
    rcases List.mem_append.mp hc with hc | hc
    · obtain ⟨d, hd, rfl⟩ := digits c (List.mem_append_left _ hc)
      exact (digitChar_spec d hd).2.2
    · rcases List.mem_cons.mp hc with rfl | hc
      · decide
      · obtain ⟨d, hd, rfl⟩ := digits c (List.mem_append_right _ hc)
        exact (digitChar_spec d hd).2.2

theorem readUnsigned_whole (some_ : whole ≠ []) (digits : ∀ c ∈ whole, ∃ d < 10, c = digitChar d)
    (range : InRange (valueOf whole) 0) : readUnsigned negative whole = some (.finite negative (valueOf whole) 0) := by
  have noPoint := noPoint_of_digits digits
  have same : whole ++ [] = whole := List.append_nil whole
  rw [readUnsigned_plain negative fun c hc => by obtain ⟨d, hd, rfl⟩ := digits c hc; exact (digitChar_spec d hd).2.2]
  have nothing : (whole.dropWhile (· ≠ '.')).tail = [] := by rw [List.dropWhile_eq_nil_iff.mpr noPoint, List.tail_nil]
  have read := readMantissa_eq negative (List.takeWhile_eq_self_iff.mpr noPoint) nothing
  rw [same] at read
  exact read some_ digits range

end

/-- A number without an exponent is read as the number it is, if it is not too long. -/
theorem readUnsigned_fixedDigits {negative : Bool} {coefficient : Nat} {exponent : Int}
    (range : InRange coefficient exponent) (short : fixedLength false coefficient exponent ≤ maxPrecision) :
    readUnsigned negative (fixedDigits coefficient exponent) = some (settled negative coefficient exponent) := by
  have some_ : decimal coefficient ≠ [] := by
    intro none
    have length : (decimal coefficient).length = 0 := by rw [none]; rfl
    by_cases zero : coefficient = 0
    · rw [zero] at length
      cases length
    · obtain ⟨d, cs, -, -, digits⟩ := decimal_head zero
      rw [digits] at none
      cases none
  unfold fixedDigits settled
  by_cases positive : 0 ≤ exponent
  · rw [if_pos positive, if_pos positive]
    by_cases nothing : coefficient = 0
    · rw [if_pos nothing, nothing, Nat.zero_mul]
      exact readUnsigned_whole negative _ (by decide) (fun c hc => ⟨0, by omega, List.mem_singleton.mp hc⟩) (by decide)
    · have length := length_fixedDigits coefficient exponent
      rw [if_pos positive, if_neg nothing] at length
      rw [if_neg nothing, ← decimal_mul_pow nothing]
      have all : ∀ c ∈ decimal (coefficient * 10 ^ exponent.toNat), ∃ d < 10, c = digitChar d :=
        fun c hc => mem_decimal hc
      have read := readUnsigned_whole negative (decimal (coefficient * 10 ^ exponent.toNat))
      rw [valueOf_decimal] at read
      refine read ?_ all ?_
      · rw [decimal_mul_pow nothing]
        exact List.append_ne_nil_of_left_ne_nil some_ _
      · have wide : width (coefficient * 10 ^ exponent.toNat) = width coefficient + exponent.toNat := by
          rw [width, decimal_mul_pow nothing, List.length_append, List.length_replicate, width]
        simp only [fixedLength, Bool.toNat_false, if_pos positive, if_neg nothing, Nat.zero_add] at short
        have tiny : minExponent ≤ 0 := by decide
        exact ⟨wide ▸ short, by rw [wide]; omega, tiny⟩
  · rw [if_neg positive, if_neg positive]
    have exact_ : -(exponent.natAbs : Int) = exponent := by omega
    by_cases inside : exponent.natAbs < (decimal coefficient).length
    · have whole := List.take_append_drop ((decimal coefficient).length - exponent.natAbs) (decimal coefficient)
      have places : ((decimal coefficient).drop ((decimal coefficient).length - exponent.natAbs)).length =
          exponent.natAbs := by
        rw [List.length_drop]
        omega
      have read := readUnsigned_point negative
        ((decimal coefficient).take ((decimal coefficient).length - exponent.natAbs))
        ((decimal coefficient).drop ((decimal coefficient).length - exponent.natAbs))
      rw [whole, valueOf_decimal, places, exact_] at read
      rw [if_pos inside]
      exact read some_ (fun c hc => mem_decimal hc) range
    · have length : (List.replicate (exponent.natAbs - (decimal coefficient).length) '0' ++
          decimal coefficient).length = exponent.natAbs := by
        rw [List.length_append, List.length_replicate]
        omega
      have value : valueOf (['0'] ++ (List.replicate (exponent.natAbs - (decimal coefficient).length) '0' ++
          decimal coefficient)) = coefficient := by
        rw [show ['0'] = List.replicate 1 '0' from rfl, valueOf_zeros, valueOf_zeros, valueOf_decimal]
      have read := readUnsigned_point negative ['0']
        (List.replicate (exponent.natAbs - (decimal coefficient).length) '0' ++ decimal coefficient)
      rw [value, length, exact_] at read
      rw [if_neg inside]
      refine read (List.cons_ne_nil _ _) (fun c hc => ?_) range
      rcases List.mem_append.mp hc with hc | hc
      · exact ⟨0, by omega, List.mem_singleton.mp hc⟩
      · rcases List.mem_append.mp hc with hc | hc
        · exact ⟨0, by omega, List.eq_of_mem_replicate hc⟩
        · exact mem_decimal hc

/-! ### Texts -/

theorem mem_fixed {negative : Bool} {coefficient : Nat} {exponent : Int} {c : Char}
    (h : c ∈ fixed negative coefficient exponent) : c = '-' ∨ c = '.' ∨ ∃ d < 10, c = digitChar d := by
  have zero : ∀ k, c ∈ List.replicate k '0' → ∃ d < 10, c = digitChar d :=
    fun k hc => ⟨0, by omega, List.eq_of_mem_replicate hc⟩
  have digits (h : c ∈ fixedDigits coefficient exponent) : c = '.' ∨ ∃ d < 10, c = digitChar d := by
    unfold fixedDigits at h
    split at h
    · split at h
      · exact .inr (mem_decimal h)
      · exact .inr ((List.mem_append.mp h).elim mem_decimal (zero _))
    · dsimp only at h
      split at h
      · rcases List.mem_append.mp h with h | h
        · exact .inr (mem_decimal (List.mem_of_mem_take h))
        · rcases List.mem_cons.mp h with h | h
          · exact .inl h
          · exact .inr (mem_decimal (List.mem_of_mem_drop h))
      · rcases List.mem_cons.mp h with h | h
        · exact .inr ⟨0, by omega, h⟩
        · rcases List.mem_cons.mp h with h | h
          · exact .inl h
          · exact .inr ((List.mem_append.mp h).elim (zero _) mem_decimal)
  cases negative with
  | false => exact .inr (digits h)
  | true => exact (List.mem_cons.mp h).imp_right digits

theorem decimal_starts (n : Nat) : ∃ d < 10, ∃ cs, decimal n = digitChar d :: cs := by
  by_cases zero : n = 0
  · exact ⟨0, by omega, [], by rw [zero]; rfl⟩
  · obtain ⟨d, cs, -, small, digits⟩ := decimal_head zero
    exact ⟨d, small, cs, digits⟩

theorem fixedDigits_starts (coefficient : Nat) (exponent : Int) :
    ∃ d < 10, ∃ cs, fixedDigits coefficient exponent = digitChar d :: cs := by
  obtain ⟨d, small, cs, digits⟩ := decimal_starts coefficient
  unfold fixedDigits
  dsimp only
  split
  · split
    · exact ⟨d, small, cs, digits⟩
    · exact ⟨d, small, _, by rw [digits]; rfl⟩
  · split
    · rename_i inside
      obtain ⟨k, more⟩ : ∃ k, (decimal coefficient).length - exponent.natAbs = k + 1 :=
        ⟨(decimal coefficient).length - exponent.natAbs - 1, by omega⟩
      exact ⟨d, small, _, by rw [more, digits, List.take_succ_cons]; rfl⟩
    · exact ⟨0, by omega, _, rfl⟩

/-- Number characters are their own ASCII. -/
theorem plain_spec {c : Char} (h : c = '-' ∨ c = '.' ∨ ∃ d < 10, c = digitChar d) :
    Maru.isSpace c = false ∧ c.toNat ≠ '_'.toNat ∧ 0 < c.toNat ∧ c.toNat < 0x80 := by
  have digits : ∀ d < 10, Maru.isSpace (digitChar d) = false ∧ (digitChar d).toNat ≠ '_'.toNat ∧
      0 < (digitChar d).toNat ∧ (digitChar d).toNat < 0x80 := by decide
  rcases h with rfl | rfl | ⟨d, hd, rfl⟩
  · decide
  · decide
  · exact digits d hd

theorem numericAsAscii_map {cs : List Char} (h : ∀ c ∈ cs, c = '-' ∨
    c = '.' ∨ ∃ d < 10, c = digitChar d) : numericAsAscii (cs.map CodePoint.ofChar) = some cs := by
  have blank : ∀ p ∈ cs.map CodePoint.ofChar, p.isSpace = false := by
    intro p hp
    obtain ⟨c, hc, rfl⟩ := List.mem_map.mp hp
    rw [CodePoint.isSpace, CodePoint.ofNat_ofChar]
    exact (plain_spec (h c hc)).1
  have kept : (cs.map CodePoint.ofChar).filter (· ≠ .ofChar '_') = cs.map CodePoint.ofChar := by
    rw [List.filter_eq_self]
    intro p hp
    obtain ⟨c, hc, rfl⟩ := List.mem_map.mp hp
    refine decide_eq_true fun same => (plain_spec (h c hc)).2.1 ?_
    show (CodePoint.ofChar c).val = (CodePoint.ofChar '_').val
    rw [same]
  rw [numericAsAscii, Points.strip_eq_self blank, kept]
  clear blank kept
  induction cs with
  | nil => rfl
  | cons c cs ih =>
    have spec := (plain_spec (h c List.mem_cons_self)).2.2
    have first : asciiOf (CodePoint.ofChar c) = some c := by
      rw [asciiOf, if_pos (by exact spec), CodePoint.ofNat_ofChar]
    rw [List.map_cons, List.mapM_cons, first, ih fun d hd => h d (List.mem_cons_of_mem c hd)]
    rfl

theorem ofAscii_fixed {negative : Bool} {coefficient : Nat} {exponent : Int} (range : InRange coefficient exponent)
    (short : fixedLength negative coefficient exponent ≤ maxPrecision) :
    ofAscii (fixed negative coefficient exponent) = some (settled negative coefficient exponent) := by
  obtain ⟨d, small, cs, starts⟩ := fixedDigits_starts coefficient exponent
  obtain ⟨minus, plus, i, n, s⟩ := digitChar_starts d small
  have sign : signed (fixed negative coefficient exponent) = (negative, fixedDigits coefficient exponent) := by
    cases negative with
    | false =>
      rw [fixed, if_neg Bool.false_ne_true, starts, signed, if_neg minus, if_neg plus]
    | true => rfl
  have plain : isSpecial ((fixedDigits coefficient exponent).map Char.toLower) = false := by
    rw [starts, List.map_cons]
    simp [isSpecial, i, n, s]
  have shorter : fixedLength false coefficient exponent ≤ maxPrecision := by
    refine Nat.le_trans ?_ short
    rw [fixedLength, fixedLength, Bool.toNat_false]
    omega
  simp only [ofAscii, sign, plain, Bool.false_eq_true, if_false]
  exact readUnsigned_fixedDigits range shorter

/-- A number without an exponent is read as the number it is. -/
theorem ofText_fixed {negative : Bool} {coefficient : Nat} {exponent : Int} (range : InRange coefficient exponent)
    (short : fixedLength negative coefficient exponent ≤ maxPrecision) :
    ofText ((fixed negative coefficient exponent).map CodePoint.ofChar) =
      some (settled negative coefficient exponent) := by
  rw [ofText, numericAsAscii_map fun c hc => mem_fixed hc, Option.bind_some, ofAscii_fixed range short]

theorem fixed_settled (negative : Bool) (coefficient : Nat) (exponent : Int) :
    ∃ c e, settled negative coefficient exponent = .finite negative c e ∧
      fixed negative c e = fixed negative coefficient exponent := by
  by_cases positive : 0 ≤ exponent
  · refine ⟨coefficient * 10 ^ exponent.toNat, 0, if_pos positive, ?_⟩
    have digits : fixedDigits (coefficient * 10 ^ exponent.toNat) 0 = fixedDigits coefficient exponent := by
      by_cases nothing : coefficient = 0
      · simp only [fixedDigits, positive, nothing, Nat.zero_mul, le_refl, if_true]
      · simp only [fixedDigits, positive, nothing, le_refl, if_true, if_false, Int.toNat_zero,
          List.replicate_zero, List.append_nil, decimal_mul_pow nothing, ite_self]
    rw [fixed, fixed, digits]
  · exact ⟨coefficient, exponent, if_neg positive, rfl⟩

/-- What `Decimal` reads is in range. -/
theorem inRange_of_ofText {text : Points} {negative : Bool} {coefficient : Nat} {exponent : Int}
    (h : ofText text = some (.finite negative coefficient exponent)) : InRange coefficient exponent := by
  have mantissa {sign : Bool} {e : Int} {cs : List Char}
      (h : readMantissa sign e cs = some (.finite negative coefficient exponent)) : InRange coefficient exponent := by
    unfold readMantissa at h
    dsimp only at h
    split at h
    · rename_i ok
      cases h
      exact ok.2.2
    · cases h
  obtain ⟨cs, -, h⟩ := Option.bind_eq_some_iff.mp h
  unfold ofAscii at h
  dsimp only at h
  split at h
  · cases h
  · unfold readUnsigned at h
    split at h
    · exact mantissa h
    · obtain ⟨e, -, h⟩ := Option.bind_eq_some_iff.mp h
      exact mantissa h

end Decimal

end Maru
