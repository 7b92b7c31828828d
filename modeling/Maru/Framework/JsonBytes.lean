import Maru.Framework.JsonRoundTrip
import Maru.Framework.Base64
import Maru.Framework.Uuid

/-!
# JSON texts as bytes

The UTF-8 bytes of a JSON text, and how many they are: at most six for each character of a
string, and one where nothing is escaped (`Plain`).
-/

namespace Maru.Json

open Digits

/-- Byte strings are compared byte by byte. -/
instance instDecidableEqByteArray : DecidableEq ByteArray := fun a b =>
  decidable_of_iff (a.data = b.data) ByteArray.ext_iff.symm

mutual

/-- No number in the value is infinite or not a number. -/
def finite : Json → Bool
  | .null | .bool _ | .int _ | .str _ => true
  | .float r => r ≠ "nan" ∧ r ≠ "inf" ∧ r ≠ "-inf"
  | .arr vs => finiteElems vs
  | .obj ms => finiteMembers ms

def finiteElems : List Json → Bool
  | [] => true
  | v :: vs => finite v && finiteElems vs

def finiteMembers : List (String × Json) → Bool
  | [] => true
  | (_, v) :: ms => finite v && finiteMembers ms

end

mutual

theorem Canonical.finite : ∀ {v : Json}, Canonical v → v.finite = true
  | .null, _ | .bool _, _ | .int _, _ | .str _, _ => rfl
  | .arr _, h => CanonicalElems.finite h
  | .obj _, h => CanonicalMembers.finite h.1

theorem CanonicalElems.finite : ∀ {vs : List Json}, CanonicalElems vs → finiteElems vs = true
  | [], _ => rfl
  | _ :: _, h => by rw [finiteElems, Canonical.finite h.1, CanonicalElems.finite h.2]; rfl

theorem CanonicalMembers.finite : ∀ {ms : List (String × Json)}, CanonicalMembers ms → finiteMembers ms = true
  | [], _ => rfl
  | (_, _) :: _, h => by rw [finiteMembers, Canonical.finite h.1, CanonicalMembers.finite h.2]; rfl

end

/-! ## UTF-8 -/

/-- The text of a value in UTF-8. Irreducible, since unfolding it writes the whole text. -/
@[irreducible]
def encode (v : Json) : ByteArray := v.dumps.toByteArray

theorem fromUTF8?_toByteArray (s : String) : String.fromUTF8? s.toByteArray = some s := by
  unfold String.fromUTF8?
  rw [dif_pos s.isValidUTF8]
  rfl

theorem fromUTF8?_encode (v : Json) : String.fromUTF8? v.encode = some v.dumps := by
  rw [encode, fromUTF8?_toByteArray]

theorem encode_injective {v w : Json} (hv : Canonical v) (hw : Canonical w) (h : v.encode = w.encode) : v = w := by
  rw [encode, encode] at h
  exact dumps_injective hv hw (String.toByteArray_inj.mp h)

/-- The bytes of an array or an object are those of its parts, so a part may be exchanged for
another with the same text. -/
theorem encode_eq_iff {v w : Json} : v.encode = w.encode ↔ v.chars = w.chars := by
  rw [encode, encode, String.toByteArray_inj, dumps, dumps, String.ofList_inj]

/-! ## Sizes -/

/-- The bytes of a text in UTF-8. -/
def size (cs : List Char) : Nat := (cs.map Char.utf8Size).sum

theorem size_ofList (cs : List Char) : (String.ofList cs).toByteArray.size = size cs := by
  rw [String.toByteArray_ofList]
  induction cs with
  | nil => rfl
  | cons c cs ih =>
    rw [List.utf8Encode_cons, ByteArray.size_append, ih, List.utf8Encode_singleton,
      List.size_toByteArray, String.length_utf8EncodeChar]
    rfl

@[simp] theorem size_nil : size [] = 0 := rfl

@[simp] theorem size_append (cs ds : List Char) : size (cs ++ ds) = size cs + size ds := by
  simp [size]

theorem size_cons (c : Char) (cs : List Char) : size (c :: cs) = c.utf8Size + size cs := by
  simp [size]

theorem size_encode (v : Json) : v.encode.size = size v.chars := by
  rw [encode, dumps, size_ofList]

theorem utf8Size_eq_one {c : Char} (h : c.toNat < 128) : c.utf8Size = 1 := by
  rw [Char.utf8Size_eq_one_iff, UInt32.le_iff_toNat_le]
  exact Nat.le_of_lt_succ h

theorem size_escapeChar_le (c : Char) : size (escapeChar c) ≤ 6 := by
  have ascii : ∀ n < 32, size (escapeControl n) ≤ 6 := by decide
  unfold escapeChar
  split_ifs
  · decide
  · decide
  · decide
  · decide
  · decide
  · decide
  · decide
  · exact ascii _ ‹_›
  · have := c.utf8Size_le_four
    simp only [size_cons, size_nil]
    omega

theorem size_quote_le (s : String) : size (quote s) ≤ 6 * s.length + 2 := by
  have body : ∀ cs : List Char, size (cs.flatMap escapeChar) ≤ 6 * cs.length := by
    intro cs
    induction cs with
    | nil => exact le_refl 0
    | cons c cs ih =>
      have := size_escapeChar_le c
      rw [List.flatMap_cons, size_append, List.length_cons]
      omega
  have := body s.toList
  have q : Char.utf8Size '"' = 1 := by decide
  rw [String.length_toList] at this
  simp only [quote, size_cons, size_append, size_nil, q]
  omega

/-- A character that a text of JSON has as it is, in one byte. -/
def Plain (c : Char) : Prop :=
  32 ≤ c.toNat ∧ c.toNat < 128 ∧ c ≠ '"' ∧ c ≠ '\\'

instance : DecidablePred Plain := fun _ => inferInstanceAs (Decidable (_ ∧ _))

theorem size_escapeChar {c : Char} (h : Plain c) : size (escapeChar c) = 1 := by
  obtain ⟨h32, h128, hq, hb⟩ := h
  have ne : ∀ d : Char, d.toNat < 32 → c ≠ d := by
    rintro d hd rfl
    omega
  unfold escapeChar
  rw [if_neg hq, if_neg hb, if_neg (ne _ (by decide)), if_neg (ne _ (by decide)), if_neg (ne _ (by decide)),
    if_neg (by omega), if_neg (by omega), if_neg (by omega), size_cons, utf8Size_eq_one h128, size_nil]

theorem size_quote {s : String} (h : ∀ c ∈ s.toList, Plain c) : size (quote s) = s.length + 2 := by
  have body : ∀ cs : List Char, (∀ c ∈ cs, Plain c) → size (cs.flatMap escapeChar) = cs.length := by
    intro cs hcs
    induction cs with
    | nil => rfl
    | cons c cs ih =>
      rw [List.flatMap_cons, size_append, size_escapeChar (hcs c List.mem_cons_self),
        ih fun d hd => hcs d (List.mem_cons_of_mem c hd), List.length_cons]
      omega
  have q : Char.utf8Size '"' = 1 := by decide
  rw [quote, size_cons, size_append, body _ h, String.length_toList, size_cons, size_nil, q]
  omega

theorem plain_digit : ∀ n < 64, Plain (Base64.digit n) := by decide

theorem size_quote_b64encode (data : ByteArray) :
    size (quote (Base64.b64encode data)) = 4 * ((data.size + 2) / 3) + 2 := by
  rw [size_quote, Base64.length_b64encode]
  intro c hc
  rw [Base64.b64encode, String.toList_ofList] at hc
  rcases Base64.mem_encodeBytes hc with rfl | ⟨n, hn, rfl⟩
  · decide
  · exact plain_digit n hn

theorem size_quote_uuid (u : Uuid) : size (quote u.text) = 38 := by
  have digit : ∀ d < 16, Plain (hexDigit d) := by decide
  rw [size_quote, Uuid.length_text]
  intro c hc
  rcases Uuid.mem_text hc with rfl | ⟨d, hd, rfl⟩
  · decide
  · exact digit d hd

/-- The digits of a number below a power of ten. -/
theorem length_decimal_le {n k : Nat} (hk : 1 ≤ k) (h : n < 10 ^ k) : (decimal n).length ≤ k := by
  unfold decimal
  split
  · exact hk
  · rw [List.length_map, List.length_reverse]
    exact (Nat.digits_length_le_iff (by omega) n).mpr h

theorem size_decimal (n : Nat) : size (decimal n) = (decimal n).length := by
  have digit : ∀ d < 10, (digitChar d).utf8Size = 1 := by decide
  unfold decimal
  split
  · rfl
  · have all : ∀ d ∈ (Nat.digits 10 n).reverse, d < 10 := fun d hd =>
      Nat.digits_lt_base (by omega) (List.mem_reverse.mp hd)
    have one : (Nat.digits 10 n).reverse.map (Char.utf8Size ∘ digitChar) = (Nat.digits 10 n).reverse.map fun _ => 1 :=
      List.map_congr_left fun d hd => digit d (all d hd)
    rw [List.length_map, size, List.map_map, one]
    simp

/-! ## Sizes of values -/

@[simp] theorem size_str (s : String) : size (chars (.str s)) = size (quote s) := by rw [chars]

theorem size_int_le {n : Int} {k : Nat} (hk : 1 ≤ k) (h : n.natAbs < 10 ^ k) : size (chars (.int n)) ≤ k + 1 := by
  have := length_decimal_le hk h
  have sign : Char.utf8Size '-' = 1 := by decide
  rw [chars, intChars]
  split
  · rw [size_cons, size_decimal, sign]
    omega
  · rw [size_decimal]
    omega

@[simp] theorem size_membersChars_nil : size (membersChars []) = 1 := by decide

@[simp] theorem size_membersChars_cons (k : String) (v : Json) (ms : List (String × Json)) :
    size (membersChars ((k, v) :: ms)) = size (quote k) + size v.chars + 2 + size (membersChars ms) := by
  have comma : Char.utf8Size ',' = 1 := by decide
  have colon : Char.utf8Size ':' = 1 := by decide
  simp only [membersChars, size_cons, size_append, comma, colon]
  omega

@[simp] theorem size_obj_cons (k : String) (v : Json) (ms : List (String × Json)) :
    size (chars (.obj ((k, v) :: ms))) = size (quote k) + size v.chars + 2 + size (membersChars ms) := by
  have brace : Char.utf8Size '{' = 1 := by decide
  have colon : Char.utf8Size ':' = 1 := by decide
  simp only [chars, size_cons, size_append, brace, colon]
  omega

/-- An array of values of at most `n` bytes. -/
theorem size_arr_le {n : Nat} (vs : List Json) (h : ∀ v ∈ vs, size v.chars ≤ n) :
    size (chars (.arr vs)) ≤ (n + 1) * vs.length + 2 := by
  have comma : Char.utf8Size ',' = 1 := by decide
  have bracket : Char.utf8Size '[' = 1 := by decide
  have close : size [']'] = 1 := by decide
  have rest : ∀ vs : List Json, (∀ v ∈ vs, size v.chars ≤ n) → size (elemsChars vs) ≤ (n + 1) * vs.length + 1 := by
    intro vs h
    induction vs with
    | nil => simp only [elemsChars, close, Nat.le_add_left]
    | cons v vs ih =>
      have hv := h v List.mem_cons_self
      have hvs := ih fun w hw => h w (List.mem_cons_of_mem v hw)
      simp only [elemsChars, size_cons, size_append, comma, List.length_cons, Nat.mul_add, Nat.mul_one]
      omega
  have empty : size (chars (.arr [])) = 2 := by decide
  cases vs with
  | nil => simp only [empty, Nat.le_add_left]
  | cons v vs =>
    have hv := h v List.mem_cons_self
    have hvs := rest vs fun w hw => h w (List.mem_cons_of_mem v hw)
    simp only [chars, size_cons, size_append, bracket, List.length_cons, Nat.mul_add, Nat.mul_one]
    omega

theorem size_strings_le {n : Nat} (l : List String) (h : ∀ s ∈ l, size (quote s) ≤ n) :
    size (chars (.arr (l.map .str))) ≤ (n + 1) * l.length + 2 := by
  have strings : ∀ v ∈ l.map Json.str, size v.chars ≤ n := by
    intro v hv
    obtain ⟨s, hs, rfl⟩ := List.mem_map.mp hv
    rw [size_str]
    exact h s hs
  have := size_arr_le _ strings
  rwa [List.length_map] at this

end Maru.Json
