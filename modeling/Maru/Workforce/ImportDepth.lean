import Maru.Framework.JsonNesting
import Maru.Workforce.ImportFormat

/-!
# The depth of an import proposal

`_check_depth` of `workforce/import_format.py` counts brackets in the bytes before they are decoded.
On the bytes of a text it counts what the brackets of the text say (`depthAllowed_iff`), so it lets
the parser be as deep as it allows and no deeper, whatever the text, and refuses no text that the
parser takes without being deeper (`depthAllowed_nesting`).
-/

namespace Maru.Workforce

open Json (Brackets Hooks scanText)

def DepthScan.brackets (scan : DepthScan) : Brackets := ⟨scan.depth, scan.quoted, scan.escaped⟩

def scanOf (b : Brackets) : DepthScan := ⟨b.depth, b.quoted, b.escaped⟩

/-- A byte of a character that is not ASCII says nothing of the depth. -/
theorem next_high {b : UInt8} (h : 128 ≤ b.toNat) (scan : DepthScan) :
    scan.next b = some (if scan.quoted ∧ scan.escaped then { scan with escaped := false } else scan) := by
  have ne (n : UInt8) (hn : n.toNat < 128) : b ≠ n := by
    rintro rfl
    omega
  obtain ⟨depth, quoted, escaped⟩ := scan
  cases quoted <;> cases escaped <;>
    simp [DepthScan.next, ne 92 (by decide), ne 34 (by decide), ne 123 (by decide),
      ne 91 (by decide), ne 125 (by decide), ne 93 (by decide)]

theorem foldlM_high {bs : List UInt8} (h : ∀ b ∈ bs, 128 ≤ b.toNat) (some_byte : bs ≠ []) (scan : DepthScan) :
    bs.foldlM DepthScan.next scan =
      some (if scan.quoted ∧ scan.escaped then { scan with escaped := false } else scan) := by
  induction bs generalizing scan with
  | nil => exact absurd rfl some_byte
  | cons b bs ih =>
    rw [List.foldlM_cons, next_high (h b List.mem_cons_self)]
    by_cases last : bs = []
    · subst last
      rfl
    · have rest := ih (fun b hb => h b (List.mem_cons_of_mem _ hb)) last
      rw [Option.bind_eq_bind, Option.bind_some, rest]
      split_ifs <;> simp_all

theorem bytes_high {c : Char} (h : 127 < c.val) : ∀ b ∈ String.utf8EncodeChar c, 128 ≤ b.toNat := by
  have or_high (a b : UInt8) (hb : 128 ≤ b.toNat) : 128 ≤ (a ||| b).toNat := by
    rw [UInt8.toNat_or]
    exact hb.trans Nat.right_le_or
  have size := c.utf8Size_eq
  have one : c.utf8Size ≠ 1 := fun one => absurd (Char.utf8Size_eq_one_iff.mp one) (by simpa using h)
  intro b hb
  rcases size with size | size | size | size
  · exact absurd size one
  · rw [String.utf8EncodeChar_eq_cons_cons size] at hb
    simp only [List.mem_cons, List.not_mem_nil, or_false] at hb
    rcases hb with rfl | rfl <;> exact or_high _ _ (by decide)
  · rw [String.utf8EncodeChar_eq_cons_cons_cons size] at hb
    simp only [List.mem_cons, List.not_mem_nil, or_false] at hb
    rcases hb with rfl | rfl | rfl <;> exact or_high _ _ (by decide)
  · rw [String.utf8EncodeChar_eq_cons_cons_cons_cons size] at hb
    simp only [List.mem_cons, List.not_mem_nil, or_false] at hb
    rcases hb with rfl | rfl | rfl | rfl <;> exact or_high _ _ (by decide)

/-- An ASCII character is a byte of its own. -/
theorem byte_eq_iff {c d : Char} (hc : c.val ≤ 127) (hd : d.val ≤ 127) : c.val.toUInt8 = d.val.toUInt8 ↔ c = d := by
  rw [UInt32.le_iff_toNat_le] at hc hd
  have hc' : c.val.toNat ≤ 127 := hc
  have hd' : d.val.toNat ≤ 127 := hd
  rw [← UInt8.toNat_inj, UInt32.toNat_toUInt8, UInt32.toNat_toUInt8, Char.ext_iff, ← UInt32.toNat_inj]
  omega

theorem next_ascii {scan : DepthScan} (h : scan.depth ≤ maxImportDepth) {c : Char}
    (hc : c.val ≤ 127) : scan.next c.val.toUInt8 =
      if (scan.brackets.next c).depth ≤ maxImportDepth then some (scanOf (scan.brackets.next c)) else none := by
  have backslash : c.val.toUInt8 = 92 ↔ c = '\\' := @byte_eq_iff c '\\' hc (by decide)
  have quote : c.val.toUInt8 = 34 ↔ c = '"' := @byte_eq_iff c '"' hc (by decide)
  have brace : c.val.toUInt8 = 123 ↔ c = '{' := @byte_eq_iff c '{' hc (by decide)
  have bracket : c.val.toUInt8 = 91 ↔ c = '[' := @byte_eq_iff c '[' hc (by decide)
  have brace' : c.val.toUInt8 = 125 ↔ c = '}' := @byte_eq_iff c '}' hc (by decide)
  have bracket' : c.val.toUInt8 = 93 ↔ c = ']' := @byte_eq_iff c ']' hc (by decide)
  have closed : scan.depth - 1 ≤ maxImportDepth := by omega
  obtain ⟨depth, quoted, escaped⟩ := scan
  unfold DepthScan.next Brackets.next DepthScan.brackets
  simp only [backslash, quote, brace, bracket, brace', bracket', gt_iff_lt, ← not_le]
  split_ifs <;> simp_all [scanOf]

/-- The bytes of a character move the scan as the character moves the brackets,
unless it goes too deep. -/
theorem foldlM_char {scan : DepthScan} (h : scan.depth ≤ maxImportDepth) (c : Char) :
    (String.utf8EncodeChar c).foldlM DepthScan.next scan =
      if (scan.brackets.next c).depth ≤ maxImportDepth then some (scanOf (scan.brackets.next c)) else none := by
  by_cases ascii : c.val ≤ 127
  · rw [String.utf8EncodeChar_eq_singleton (Char.utf8Size_eq_one_iff.mpr ascii), List.foldlM_cons, next_ascii h ascii]
    split_ifs <;> rfl
  · have high : 127 < c.val := UInt32.not_le.mp ascii
    have ne (d : Char) (hd : d.val ≤ 127) : c ≠ d := by
      rintro rfl
      exact ascii hd
    have same : scan.brackets.next c =
      (if scan.quoted ∧ scan.escaped then { scan with escaped := false } else scan).brackets := by
      obtain ⟨depth, quoted, escaped⟩ := scan
      cases quoted <;> cases escaped <;>
        simp [Brackets.next, DepthScan.brackets, ne '\\' (by decide), ne '"' (by decide),
          ne '{' (by decide), ne '[' (by decide), ne '}' (by decide), ne ']' (by decide)]
    have flat : (scan.brackets.next c).depth = scan.depth := by
      rw [same]
      split_ifs <;> rfl
    rw [foldlM_high (bytes_high high) String.utf8EncodeChar_ne_nil, flat, if_pos h, same]
    split_ifs <;> rfl

/-- The scan of the bytes of a text ends exactly if the brackets of the text never go too deep. -/
theorem foldlM_chars {scan : DepthScan} (h : scan.depth ≤ maxImportDepth) (cs : List Char) :
    ((cs.flatMap String.utf8EncodeChar).foldlM DepthScan.next scan).isSome ↔ scan.brackets.peak cs ≤ maxImportDepth := by
  induction cs generalizing scan with
  | nil => exact iff_of_true rfl h
  | cons c cs ih =>
    rw [List.flatMap_cons, List.foldlM_append, foldlM_char h, Brackets.peak, max_le_iff]
    have own : scan.brackets.depth ≤ maxImportDepth := h
    split_ifs with deep
    · rw [Option.bind_eq_bind, Option.bind_some, ih deep]
      exact ⟨fun rest => ⟨own, rest⟩, fun both => both.2⟩
    · refine iff_of_false (by simp) fun both => deep ?_
      exact (Brackets.depth_le_peak _ cs).trans both.2

theorem depthAllowed_iff (text : String) :
    depthAllowed text.toByteArray = true ↔ (Brackets.outside 0).peak text.toList ≤ maxImportDepth := by
  have bytes : text.toByteArray.data.toList = text.toList.flatMap String.utf8EncodeChar := by
    rw [← String.utf8Encode_toList, List.utf8Encode, List.data_toByteArray]
  rw [depthAllowed, bytes]
  exact @foldlM_chars ⟨0, false, false⟩ (by decide) text.toList

/-- The bytes that a text is decoded from are its own. -/
theorem toByteArray_of_fromUTF8? {raw : ByteArray} {text : String}
    (h : String.fromUTF8? raw = some text) : text.toByteArray = raw := by
  unfold String.fromUTF8? at h
  split_ifs at h with valid
  rw [← Option.some.inj h]
  rfl

/-- Of bytes that are allowed the parser is never deeper than is allowed, whatever its hooks let it
read; and bytes whose text it takes without being deeper are allowed. -/
theorem depthAllowed_nesting (raw : ByteArray) :
    (depthAllowed raw = true → ∀ hooks text, String.fromUTF8? raw = some text →
      (scanText hooks text.toList).deepest ≤ maxImportDepth) ∧
    ∀ hooks text, String.fromUTF8? raw = some text → (scanText hooks text.toList).result.isSome =
      true → (scanText hooks text.toList).deepest ≤ maxImportDepth → depthAllowed raw = true := by
  constructor
  · intro allowed hooks text decoded
    rw [← toByteArray_of_fromUTF8? decoded, depthAllowed_iff] at allowed
    obtain ⟨read, rest, whole, deepest, _⟩ := Json.scanText_consumes hooks text.toList
    rw [whole, Brackets.peak_append] at allowed
    have shallow := (le_max_left _ _).trans allowed
    rw [deepest] at shallow
    exact_mod_cast shallow
  · intro hooks text decoded taken shallow
    rw [← toByteArray_of_fromUTF8? decoded, depthAllowed_iff]
    obtain ⟨_, _, _, _, whole⟩ := Json.scanText_consumes hooks text.toList
    rw [whole taken]
    exact_mod_cast shallow

/-- The hooks that `json.loads` has by itself. -/
def plainHooks : Hooks := ⟨fun _ => true, fun _ => true, fun _ => true⟩

/-- Sixteen arrays are allowed, and read. -/
theorem sixteenArrays_allowed : depthAllowed "[[[[[[[[[[[[[[[[7]]]]]]]]]]]]]]]]".toByteArray =
    true ∧ (scanText plainHooks "[[[[[[[[[[[[[[[[7]]]]]]]]]]]]]]]]".toList).deepest = 16 := by
  have taken : (scanText plainHooks "[[[[[[[[[[[[[[[[7]]]]]]]]]]]]]]]]".toList).result.isSome = true ∧
      (scanText plainHooks "[[[[[[[[[[[[[[[[7]]]]]]]]]]]]]]]]".toList).deepest = 16 := by decide +kernel
  exact ⟨(depthAllowed_nesting _).2 plainHooks _ (Json.fromUTF8?_toByteArray _) taken.1
    (by rw [taken.2]; decide), taken.2⟩

end Maru.Workforce
