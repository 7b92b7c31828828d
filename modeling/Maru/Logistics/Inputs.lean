import Mathlib.Data.List.TakeWhile
import Maru.Framework.JsonBytes
import Maru.Framework.Text
import Maru.Logistics.Records

/-!
# Normalized inputs

`logistics/inputs.py`. What the functions take from the standard library and the framework
is `Primitives`. A condition that went through `normalized_text` is empty or has something
left when the database trims it (`btrim_normalizedText`).
-/

namespace Maru.Logistics

/-- NFC, whether a character is a control character or a decimal digit, upper case, `slugify`, what
`URLField` and `EmailField` accept, and the SHA-256 of some bytes in hexadecimal. -/
structure Primitives where
  nfc : String → String
  isControl : Char → Bool
  isDecimal : Char → Bool
  upper : String → String
  slugify : String → String
  isUrl : String → Bool
  isEmail : String → Bool
  sha256 : ByteArray → String

def maxLogisticsReasonLength : Nat := 1000

def maxSourceChannelLength : Nat := 32

def maxLogisticsCodeLength : Nat := 96

def normalizedText (lib : Primitives) (value field : String) (maximum : Nat)
    (required : Bool := false) (collapse : Bool := false) : Except LogisticsError String := do
  require (value.toList.all fun c => !lib.isControl c) (.invalid field "Control characters are not allowed.")
  let stripped := strip (lib.nfc value)
  let normalized := if collapse then collapseSpace stripped else stripped
  require (required → normalized ≠ "") (.invalid field "This field is required.")
  require (normalized.length ≤ maximum)
    (.invalid field s!"Ensure this value has at most {maximum} characters.")
  return normalized

def normalizedReason (lib : Primitives) (value : String) : Except LogisticsError String :=
  normalizedText lib value "reason" maxLogisticsReasonLength true true

/-- `value.strip("-")` -/
def stripDashes (value : String) : String :=
  String.ofList ((value.toList.dropWhile (· = '-')).reverse.dropWhile (· = '-')).reverse

def normalizedCode (lib : Primitives) (value : String) (field : String := "code") : Except LogisticsError String := do
  let raw ← normalizedText lib value field 240 true true
  let result := stripDashes (String.ofList ((lib.slugify raw).toList.take maxLogisticsCodeLength))
  require (result ≠ "") (.invalid field "Enter a stable code.")
  return result

/-- `validate_lowercase_slug`: `[a-z0-9]+(?:-[a-z0-9]+)*` -/
def isLowercaseSlug (value : String) : Bool :=
  (value.toList.splitOn '-').all fun part =>
    part ≠ [] && part.all fun c => ('a' ≤ c && c ≤ 'z') || ('0' ≤ c && c ≤ '9')

/-- `_PHONE_VALIDATOR`: `\+[1-9]\d{6,14}` -/
def isPhone (lib : Primitives) (value : String) : Bool :=
  match value.toList with
  | '+' :: c :: cs => '1' ≤ c && c ≤ '9' && 6 ≤ cs.length && cs.length ≤ 14 && cs.all lib.isDecimal
  | _ => false

/-- `[A-Z0-9][A-Z0-9._:-]{2,95}` -/
def isLabelCode (value : String) : Bool :=
  let first (c : Char) : Bool := ('A' ≤ c ∧ c ≤ 'Z') ∨ ('0' ≤ c ∧ c ≤ '9')
  match value.toList with
  | [] => false
  | c :: cs => first c && 2 ≤ cs.length && cs.length ≤ 95 &&
      cs.all fun c => first c || c = '.' || c = '_' || c = ':' || c = '-'

def normalizedLabelCode (lib : Primitives) (value : String) : Except LogisticsError String := do
  let text ← normalizedText lib value "label_code" maxLogisticsCodeLength true true
  let normalized := lib.upper text
  require (isLabelCode normalized) (.invalid "label_code" "Use a bounded uppercase label code.")
  return normalized

/-- `[a-z][a-z0-9_-]*`, bounded. -/
def isSourceChannel (value : String) : Bool :=
  value.length ≤ maxSourceChannelLength &&
    match value.toList with
    | [] => false
    | c :: cs => ('a' ≤ c && c ≤ 'z') &&
        cs.all fun c => ('a' ≤ c && c ≤ 'z') || ('0' ≤ c && c ≤ '9') || c = '_' || c = '-'

def normalizedSourceChannel (value : String) : Except LogisticsError String := do
  require (isSourceChannel value) (.invalid "source_channel" "Use a registered source channel.")
  return value

/-- The members are written in the order of `sort_keys`. -/
def canonicalDigest (lib : Primitives) (payload : List (String × Json)) : String :=
  lib.sha256 (Json.obj payload).encode

/-! ## Trimming in the database -/

/-- `btrim(value)` -/
def btrim (value : String) : String :=
  String.ofList ((value.toList.dropWhile (· = ' ')).reverse.dropWhile (· = ' ')).reverse

theorem btrim_eq_empty {value : String} : btrim value = "" ↔ ∀ c ∈ value.toList, c = ' ' := by
  have empty : btrim value = "" ↔ (value.toList.dropWhile (· = ' ')).reverse.dropWhile (· = ' ') = [] := by
    rw [btrim, ← String.toList_eq_nil_iff, String.toList_ofList, List.reverse_eq_nil_iff]
  rw [empty, List.dropWhile_eq_nil_iff]
  constructor
  · intro h c hc
    by_contra hne
    -- The first character that is no blank survives the first trim, and so would the second one.
    obtain ⟨d, hd, hdne⟩ : ∃ d ∈ value.toList.dropWhile (· = ' '), d ≠ ' ' := by
      have : value.toList.dropWhile (· = ' ') ≠ [] := by
        rw [Ne, List.dropWhile_eq_nil_iff]
        exact fun all => hne (by simpa using all c hc)
      exact ⟨_, List.head_mem this, by simpa using List.head_dropWhile_not (· = ' ') this⟩
    exact hdne (by simpa using h d (List.mem_reverse.mpr hd))
  · intro h c hc
    have := List.dropWhile_subset _ (List.mem_reverse.mp hc)
    simpa using h c this

theorem mem_intercalate {α : Type} {sep w : List α} {ls : List (List α)} (hw : w ∈ ls) {c : α}
    (hc : c ∈ w) : c ∈ sep.intercalate ls := by
  induction ls with
  | nil => cases hw
  | cons l ls ih =>
    cases ls with
    | nil =>
      rw [List.mem_singleton.mp hw] at hc
      rwa [List.intercalate_singleton]
    | cons l' ls =>
      rw [List.intercalate_cons_cons, List.mem_append, List.mem_append]
      rcases List.mem_cons.mp hw with rfl | hw
      · exact .inl (.inl hc)
      · exact .inr (ih hw)

/-- Words are kept when spaces are collapsed. -/
theorem btrim_collapseSpace {value : String} (h : collapseSpace value ≠ "") : btrim (collapseSpace value) ≠ "" := by
  intro blank
  rw [btrim_eq_empty] at blank
  obtain ⟨w, hw⟩ : ∃ w, w ∈ (value.toList.splitOnP isSpace).filter (· ≠ []) := by
    by_contra none
    have : (value.toList.splitOnP isSpace).filter (· ≠ []) = [] :=
      List.eq_nil_iff_forall_not_mem.mpr fun w hw => none ⟨w, hw⟩
    exact h (by rw [collapseSpace, this]; rfl)
  obtain ⟨hsplit, hne⟩ := List.mem_filter.mp hw
  obtain ⟨c, hc⟩ := List.exists_mem_of_ne_nil w (by simpa using hne)
  have solid : isSpace c = false := mem_splitOnP hsplit c hc
  have inside : c ∈ (collapseSpace value).toList := by
    rw [collapseSpace, String.toList_ofList]
    exact mem_intercalate hw hc
  rw [blank c inside] at solid
  exact absurd solid (by decide)

theorem btrim_normalizedText {lib : Primitives} {value field text : String} {maximum : Nat} {required : Bool}
    (h : normalizedText lib value field maximum required true = .ok text) : text = "" ∨ btrim text ≠ "" := by
  simp only [normalizedText, bind_eq_ok, pure_eq_ok, if_true] at h
  obtain ⟨-, -, -, -, -, -, rfl⟩ := h
  by_cases e : collapseSpace (strip (lib.nfc value)) = ""
  · exact .inl e
  · exact .inr (btrim_collapseSpace e)

end Maru.Logistics
