import Mathlib.Data.List.Basic
import Mathlib.Data.String.Basic

/-!
# Base64

Three bytes are four digits of six bits; one or two bytes left over are two or three digits
and padding. `b64decode` reads what `b64encode` writes (`b64decode_b64encode`); a text it
accepts need not be the one `b64encode` writes, since the bits behind the last byte are
dropped.
-/

namespace Maru.Base64

/-- The digit of six bits. -/
def digit (n : Nat) : Char :=
  if n < 26 then Char.ofNat (65 + n)
  else if n < 52 then Char.ofNat (97 + (n - 26))
  else if n < 62 then Char.ofNat (48 + (n - 52))
  else if n = 62 then '+' else '/'

/-- The six bits of a digit. -/
def val? (c : Char) : Option Nat :=
  if 'A' ≤ c ∧ c ≤ 'Z' then some (c.toNat - 65)
  else if 'a' ≤ c ∧ c ≤ 'z' then some (c.toNat - 97 + 26)
  else if '0' ≤ c ∧ c ≤ '9' then some (c.toNat - 48 + 52)
  else if c = '+' then some 62
  else if c = '/' then some 63
  else none

theorem val?_digit : ∀ n < 64, val? (digit n) = some n := by decide

theorem digit_ne_pad : ∀ n < 64, digit n ≠ '=' := by decide

def encodeBytes : List UInt8 → List Char
  | [] => []
  | [a] => [digit (a.toNat / 4), digit (a.toNat % 4 * 16), '=', '=']
  | [a, b] =>
    [digit (a.toNat / 4), digit (a.toNat % 4 * 16 + b.toNat / 16), digit (b.toNat % 16 * 4), '=']
  | a :: b :: c :: rest =>
    digit (a.toNat / 4) :: digit (a.toNat % 4 * 16 + b.toNat / 16) ::
      digit (b.toNat % 16 * 4 + c.toNat / 64) :: digit (c.toNat % 64) :: encodeBytes rest

/-- Four digits, the last ones of a text. -/
def decodeLast (x y z w : Char) : Option (List UInt8) := do
  let x ← val? x
  let y ← val? y
  if z = '=' ∧ w = '=' then return [UInt8.ofNat (x * 4 + y / 16)]
  let z ← val? z
  if w = '=' then return [UInt8.ofNat (x * 4 + y / 16), UInt8.ofNat (y % 16 * 16 + z / 4)]
  let w ← val? w
  return [UInt8.ofNat (x * 4 + y / 16), UInt8.ofNat (y % 16 * 16 + z / 4), UInt8.ofNat (z % 4 * 64 + w)]

/-- Four digits, none of them padding. -/
def decodeGroup (x y z w : Char) : Option (List UInt8) := do
  let x ← val? x
  let y ← val? y
  let z ← val? z
  let w ← val? w
  return [UInt8.ofNat (x * 4 + y / 16), UInt8.ofNat (y % 16 * 16 + z / 4), UInt8.ofNat (z % 4 * 64 + w)]

def decodeChars : List Char → Option (List UInt8)
  | [] => some []
  | [x, y, z, w] => decodeLast x y z w
  | x :: y :: z :: w :: rest => do
    let bytes ← decodeGroup x y z w
    let more ← decodeChars rest
    return bytes ++ more
  | _ => none

/-- `base64.b64encode(data).decode("ascii")`. -/
def b64encode (data : ByteArray) : String := String.ofList (encodeBytes data.data.toList)

/-- `base64.b64decode(text, validate=True)`. -/
def b64decode (text : String) : Option ByteArray := (decodeChars text.toList).map List.toByteArray

/-! ## Bytes and digits -/

theorem ofNat_toNat_of_eq {a : UInt8} {n : Nat} (h : n = a.toNat) : UInt8.ofNat n = a := by
  rw [h, UInt8.ofNat_toNat]

theorem decodeLast_one (a : UInt8) :
    decodeLast (digit (a.toNat / 4)) (digit (a.toNat % 4 * 16)) '=' '=' = some [a] := by
  have ha := a.toNat_lt
  unfold decodeLast
  rw [val?_digit _ (by omega), val?_digit _ (by omega)]
  simp only [Option.bind_eq_bind, Option.bind_some, and_self, if_true]
  rw [ofNat_toNat_of_eq (a := a) (by omega)]
  rfl

theorem decodeLast_two (a b : UInt8) :
    decodeLast (digit (a.toNat / 4)) (digit (a.toNat % 4 * 16 + b.toNat / 16))
      (digit (b.toNat % 16 * 4)) '=' = some [a, b] := by
  have ha := a.toNat_lt
  have hb := b.toNat_lt
  unfold decodeLast
  rw [val?_digit _ (by omega), val?_digit _ (by omega), val?_digit _ (by omega)]
  simp only [Option.bind_eq_bind, Option.bind_some, digit_ne_pad (b.toNat % 16 * 4) (by omega),
    false_and, if_false, if_true]
  rw [ofNat_toNat_of_eq (a := a) (by omega), ofNat_toNat_of_eq (a := b) (by omega)]
  rfl

theorem decodeGroup_three (a b c : UInt8) :
    decodeGroup (digit (a.toNat / 4)) (digit (a.toNat % 4 * 16 + b.toNat / 16))
      (digit (b.toNat % 16 * 4 + c.toNat / 64)) (digit (c.toNat % 64)) = some [a, b, c] := by
  have ha := a.toNat_lt
  have hb := b.toNat_lt
  have hc := c.toNat_lt
  unfold decodeGroup
  rw [val?_digit _ (by omega), val?_digit _ (by omega), val?_digit _ (by omega), val?_digit _ (by omega)]
  simp only [Option.bind_eq_bind, Option.bind_some]
  rw [ofNat_toNat_of_eq (a := a) (by omega), ofNat_toNat_of_eq (a := b) (by omega),
    ofNat_toNat_of_eq (a := c) (by omega)]
  rfl

theorem decodeLast_eq_decodeGroup {x y z w : Char} (hz : z ≠ '=') (hw : w ≠ '=') :
    decodeLast x y z w = decodeGroup x y z w := by
  simp only [decodeLast, decodeGroup, hz, hw, false_and, if_false]

/-- A whole group in front of any text that is read. -/
theorem decodeChars_group {x y z w : Char} {bytes more : List UInt8} {rest : List Char} (hz : z ≠ '=')
    (hw : w ≠ '=') (group : decodeGroup x y z w = some bytes) (h : decodeChars rest = some more) :
    decodeChars (x :: y :: z :: w :: rest) = some (bytes ++ more) := by
  cases rest with
  | nil =>
    cases h
    rw [decodeChars, decodeLast_eq_decodeGroup hz hw, group, List.append_nil]
  | cons r rest =>
    rw [decodeChars, group, h]
    · rfl
    · rintro ⟨⟩

theorem decodeChars_encodeBytes (bytes : List UInt8) : decodeChars (encodeBytes bytes) = some bytes := by
  induction bytes using encodeBytes.induct with
  | case1 => rfl
  | case2 a => exact decodeLast_one a
  | case3 a b => exact decodeLast_two a b
  | case4 a b c rest ih =>
    have hb := b.toNat_lt
    have hc := c.toNat_lt
    exact decodeChars_group (digit_ne_pad _ (by omega)) (digit_ne_pad _ (by omega)) (decodeGroup_three a b c) ih

/-- Every sequence of bytes is read back from its text. -/
theorem b64decode_b64encode (data : ByteArray) : b64decode (b64encode data) = some data := by
  unfold b64decode b64encode
  rw [String.toList_ofList, decodeChars_encodeBytes, Option.map_some]
  congr 1
  ext1
  simp

theorem b64encode_injective {data data' : ByteArray} (h : b64encode data = b64encode data') : data = data' := by
  have := b64decode_b64encode data
  rw [h, b64decode_b64encode] at this
  exact (Option.some.inj this).symm

/-! ## Length -/

theorem length_encodeBytes (bytes : List UInt8) : (encodeBytes bytes).length = 4 * ((bytes.length + 2) / 3) := by
  induction bytes using encodeBytes.induct with
  | case1 => rfl
  | case2 a => simp [encodeBytes]
  | case3 a b => simp [encodeBytes]
  | case4 a b c rest ih =>
    simp only [encodeBytes, List.length_cons, ih]
    omega

theorem length_b64encode (data : ByteArray) : (b64encode data).length = 4 * ((data.size + 2) / 3) := by
  unfold b64encode
  rw [String.length_ofList, length_encodeBytes]
  rfl

theorem mem_encodeBytes {bytes : List UInt8} {c : Char} (h : c ∈ encodeBytes bytes) :
    c = '=' ∨ ∃ n < 64, c = digit n := by
  induction bytes using encodeBytes.induct with
  | case1 => cases h
  | case2 a =>
    have ha := a.toNat_lt
    simp only [encodeBytes, List.mem_cons, List.not_mem_nil, or_false] at h
    rcases h with rfl | rfl | rfl | rfl
    · exact .inr ⟨_, by omega, rfl⟩
    · exact .inr ⟨_, by omega, rfl⟩
    · exact .inl rfl
    · exact .inl rfl
  | case3 a b =>
    have ha := a.toNat_lt
    have hb := b.toNat_lt
    simp only [encodeBytes, List.mem_cons, List.not_mem_nil, or_false] at h
    rcases h with rfl | rfl | rfl | rfl
    · exact .inr ⟨_, by omega, rfl⟩
    · exact .inr ⟨_, by omega, rfl⟩
    · exact .inr ⟨_, by omega, rfl⟩
    · exact .inl rfl
  | case4 a b c rest ih =>
    have ha := a.toNat_lt
    have hb := b.toNat_lt
    have hc := c.toNat_lt
    simp only [encodeBytes, List.mem_cons] at h
    rcases h with rfl | rfl | rfl | rfl | h
    · exact .inr ⟨_, by omega, rfl⟩
    · exact .inr ⟨_, by omega, rfl⟩
    · exact .inr ⟨_, by omega, rfl⟩
    · exact .inr ⟨_, by omega, rfl⟩
    · exact ih h

end Maru.Base64
