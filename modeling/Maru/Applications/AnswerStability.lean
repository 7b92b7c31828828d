import Maru.Applications.AnswerValues

/-!
# What is made of an answer stays

An answer is refused with a `ValidationError`, or what is made of it is made of itself and fits the
limit, exactly unless it `Escapes`: unless its texts pass their checks with a lone surrogate among
them, which nothing encodes, or it is a number whose digits the interpreter does not write.
-/

namespace Maru.Applications

variable {lib : Library} {receipts : List ApplicationFileReceipt} {question : ApplicationQuestion}
  {accountId : Uuid} {value : Value}

/-! ## What escapes -/

/-- The answer is kept with its texts: it passes the checks of a question for texts. -/
def KeepsText (lib : Library) (question : ApplicationQuestion) (value : Value) : Prop :=
  match question.fieldType with
  | some .shortText | some .longText => ∃ text, boundedString question value = .ok text
  | some .email => ∃ text, boundedString question value = .ok text ∧ lib.validateEmail text = none
  | some .phone => ∃ text, boundedString question value = .ok text ∧ 3 ≤ text.length ∧ text.length ≤ 40
  | some .url => ∃ text, boundedString question value = .ok text ∧ lib.validateHttpsUrl text = none
  | some .singleChoice => ∃ text ∈ question.options, value = .str text
  | some .multipleChoice => ∃ kept, normalizeChoices question value = .ok kept
  | some .address => ∃ kept, address lib value = .ok kept
  | _ => False

/-- The answer is a number whose digits are not written: an integer with more digits than the
interpreter converts, or a number within the bounds whose digits there is no memory for. -/
inductive Unwritten (lib : Library) (question : ApplicationQuestion) : Value → Prop
  | long {n : Int} (digits : intMaxStrDigits < Decimal.width n.natAbs) : Unwritten lib question (.int n)
  | wide {value : Value} {text : Points} {negative : Bool} {coefficient : Nat} {exponent : Int}
      (shape : decimalText value = .ok text) (read : Decimal.ofText text = some (.finite negative coefficient exponent))
      (bounded : Bounded question (.finite negative coefficient exponent))
      (memory : lib.memory < Decimal.fixedLength negative coefficient exponent) : Unwritten lib question value

def Escapes (lib : Library) (question : ApplicationQuestion) (value : Value) : Prop :=
  KeepsText lib question value ∧ value.hasSurrogate = true ∨
    question.fieldType = some .decimal ∧ Unwritten lib question value

/-! ## The branches -/

/-- What a branch makes of an answer. -/
inductive Outcome (field : Value → Except AnswerError Value) (keeps unwritten : Prop)
    (value : Value) : Except AnswerError Value → Prop
  | refused {message code : String} (dropped : ¬ keeps) (written : ¬ unwritten) :
      Outcome field keeps unwritten value (.error (.validation message code))
  | failed {error : AnswerError} (not_refused : ∀ message code, error ≠ .validation message code)
      (escapes : unwritten) : Outcome field keeps unwritten value (.error error)
  | made {normalized : Value} (some_ : normalized ≠ .null) (written : ¬ unwritten)
      (surrogates : normalized.hasSurrogate = true ↔ keeps ∧ value.hasSurrogate = true)
      (again : ∀ encoded, normalized.encode = some encoded → encoded.length ≤ maxAnswerBytes →
        field normalized = .ok normalized) : Outcome field keeps unwritten value (.ok normalized)

section

variable {field : Value → Except AnswerError Value} {keeps : Prop}

/-- A branch that gives back what it accepts, its texts being those of the answer. -/
theorem Outcome.kept {normalized : Value} (same : normalized = value) (some_ : value ≠ .null) (accepts : keeps)
    (accepted : field value = .ok value) : Outcome field keeps False value (.ok normalized) := by
  subst same
  exact .made some_ id (by simp only [accepts, true_and]) fun _ _ _ => accepted

/-- A branch that makes something without texts, or with texts of its own. -/
theorem Outcome.plain {normalized : Value} (drops : ¬ keeps) (some_ : normalized ≠ .null)
    (none_ : normalized.hasSurrogate = false) (again : field normalized = .ok normalized) :
    Outcome field keeps False value (.ok normalized) :=
  .made some_ id (by simp only [none_, Bool.false_eq_true, drops, false_and]) fun _ _ _ => again

theorem Outcome.refuses {message code : String} (drops : ¬ keeps) :
    Outcome field keeps False value (.error (.validation message code)) := .refused drops id

end

theorem boundedString_cases (question : ApplicationQuestion) (value : Value) :
    (∃ text, value = .str text ∧ boundedString question value = .ok text) ∨
      ∃ message code, boundedString question value = .error (.validation message code) := by
  unfold boundedString
  split
  · rename_i text
    by_cases bounded : orDefault question.minimumLength 0 ≤ text.length ∧ text.length ≤
        orDefault question.maximumLength (if question.fieldType = some .shortText then 240 else 16384)
    · exact .inl ⟨text, rfl, by simp only [require, if_pos bounded, ok_bind]; rfl⟩
    · exact .inr ⟨_, _, by simp only [require, if_neg bounded]; rfl⟩
  · exact .inr ⟨_, _, rfl⟩

/-- A branch that accepts bounded texts of some kind, and gives them back. -/
theorem outcome_text (accepts : Points → Prop) (field : Value → Except AnswerError Value)
    (ok : ∀ text, boundedString question (.str text) = .ok text → accepts text → field (.str text) = .ok (.str text))
    (wrong : ∀ text, boundedString question (.str text) = .ok text → ¬ accepts text →
      ∃ message code, field (.str text) = .error (.validation message code))
    (refuses : ∀ message code, boundedString question value = .error (.validation message code) →
      field value = .error (.validation message code)) :
    Outcome field (∃ text, boundedString question value = .ok text ∧ accepts text) False value (field value) := by
  rcases boundedString_cases question value with ⟨text, rfl, bounded⟩ | ⟨message, code, refused⟩
  · by_cases accepted : accepts text
    · rw [ok text bounded accepted]
      exact .kept rfl (by simp) ⟨text, bounded, accepted⟩ (ok text bounded accepted)
    · obtain ⟨message, code, refused⟩ := wrong text bounded accepted
      rw [refused]
      refine .refuses ?_
      rintro ⟨other, same, accepted'⟩
      rw [bounded] at same
      cases same
      exact accepted accepted'
  · rw [refuses message code refused]
    refine .refuses ?_
    rintro ⟨text, same, -⟩
    rw [refused] at same
    cases same

theorem outcome_integer (minimum maximum : Option ℚ) :
    Outcome (fun value => normalizeIntegerAnswer value minimum maximum) False False value
      (normalizeIntegerAnswer value minimum maximum) := by
  cases value with
  | int n =>
    by_cases bounded : -2 ^ 31 ≤ n ∧ n < 2 ^ 31 ∧ (∀ m ∈ minimum, m ≤ n) ∧ ∀ m ∈ maximum, (n : ℚ) ≤ m
    · have accepted : normalizeIntegerAnswer (.int n) minimum maximum = .ok (.int n) := by
        simp only [normalizeIntegerAnswer, require, if_pos bounded]
        rfl
      rw [accepted]
      exact .plain id (by simp) rfl accepted
    · have refused : normalizeIntegerAnswer (.int n) minimum maximum = .error (.validation
          "Enter a whole number within the configured bounds." "invalid_application_integer") := by
        simp only [normalizeIntegerAnswer, require, if_neg bounded]
        rfl
      rw [refused]
      exact .refuses id
  | null | bool _ | float _ | str _ | list _ | dict _ => exact .refuses id

theorem outcome_iso {α : Type} {read : Points → Option α} {text : α → Points} (message code : String)
    (back : ∀ a, read (text a) = some a) (plain : ∀ a, (text a).hasSurrogate = false) :
    Outcome (normalizeIso read text (.validation message code)) False False value
      (normalizeIso read text (.validation message code) value) := by
  cases value with
  | str s =>
    have made (a : α) (h : read s = some a) :
        normalizeIso read text (.validation message code) (.str s) = .ok (.str (text a)) := by
      simp only [normalizeIso, h]
      rfl
    cases parsed : read s with
    | none =>
      have refused : normalizeIso read text (.validation message code) (.str s) = .error (.validation message code) := by
        simp only [normalizeIso, parsed]
        rfl
      rw [refused]
      exact .refuses id
    | some a =>
      rw [made a parsed]
      refine .plain id (by simp) ?_ ?_
      · rw [Value.hasSurrogate, plain]
      · simp only [normalizeIso, back]
        rfl
  | null | bool _ | int _ | float _ | list _ | dict _ => exact .refuses id

theorem outcome_instant : Outcome normalizeInstant False False value (normalizeInstant value) := by
  cases value with
  | str s =>
    have refused (message : String) (h : normalizeInstant (.str s) =
        .error (.validation message "invalid_application_instant")) :
        Outcome normalizeInstant False False (.str s) (normalizeInstant (.str s)) := by
      rw [h]
      exact .refuses id
    cases parsed : Iso.Stamp.read s with
    | none =>
      refine refused "Use an ISO date-time with an offset." ?_
      simp only [normalizeInstant, parsed]
      rfl
    | some stamp =>
      by_cases aware : stamp.time.offset.isSome = true
      · have made : normalizeInstant (.str s) = .ok (.str stamp.text) := by
          simp only [normalizeInstant, parsed, getOr, ok_bind, require, if_pos aware]
          rfl
        rw [made]
        refine .plain id (by simp) ?_ ?_
        · rw [Value.hasSurrogate, Iso.Stamp.text, Points.hasSurrogate_map]
        · simp only [normalizeInstant, Iso.Stamp.read_text, getOr, ok_bind, require, if_pos aware]
          rfl
      · refine refused "The date-time must include an offset." ?_
        simp only [normalizeInstant, parsed, getOr, ok_bind, require, if_neg aware]
        rfl
  | null | bool _ | int _ | float _ | list _ | dict _ => exact .refuses id

/-- A branch that gives back what it accepts, and keeps no texts. -/
theorem outcome_same {field : Value → Except AnswerError Value}
    (same : (field value = .ok value ∧ value ≠ .null ∧ value.hasSurrogate = false) ∨
      ∃ message code, field value = .error (.validation message code)) :
    Outcome field False False value (field value) := by
  rcases same with ⟨accepted, some_, plain⟩ | ⟨message, code, refused⟩
  · rw [accepted]
    exact .plain id some_ plain accepted
  · rw [refused]
    exact .refuses id

theorem canonicalUuid_cases (value : Value) :
    (∃ id, canonicalUuid value = .ok id ∧ value = .str (.ofString id.text)) ∨
      ∃ message code, canonicalUuid value = .error (.validation message code) := by
  unfold canonicalUuid
  dsimp only
  split
  · rename_i s
    cases parsed : Uuid.ofText? s.text with
    | none => exact .inr ⟨_, _, rfl⟩
    | some id =>
      by_cases canonical : Points.ofString id.text = s
      · refine .inl ⟨id, ?_, by rw [canonical]⟩
        simp only [getOr, ok_bind, require, if_pos canonical]
        rfl
      · refine .inr ⟨"Use one canonical UUID.", "invalid_application_reference", ?_⟩
        simp only [getOr, ok_bind, require, if_neg canonical]
        rfl
  · exact .inr ⟨_, _, rfl⟩

/-! ### Addresses -/

theorem stripped_stripped (v : Value) : stripped (stripped v) = stripped v := by
  cases v with
  | str s => rw [stripped, stripped, Points.strip_strip]
  | null | bool _ | int _ | float _ | list _ | dict _ => rfl

theorem isRequiredText_stripped {v : Value} (h : isRequiredText v = true) : isRequiredText (stripped v) = true := by
  cases v with
  | str s =>
    simp only [isRequiredText, stripped, Bool.and_eq_true, decide_eq_true_eq, Points.strip_strip] at h ⊢
    exact ⟨h.1, Nat.le_trans s.length_strip_le h.2⟩
  | null | bool _ | int _ | float _ | list _ | dict _ => cases h

theorem isOptionalText_stripped {v : Value} (h : isOptionalText v = true) : isOptionalText (stripped v) = true := by
  cases v with
  | str s =>
    simp only [isOptionalText, stripped, decide_eq_true_eq] at h ⊢
    exact Nat.le_trans s.length_strip_le h
  | null | bool _ | int _ | float _ | list _ | dict _ => cases h

theorem isCountry_stripped {v : Value} (h : isCountry lib v = true) : isCountry lib (stripped v) = true := by
  cases v with
  | str s =>
    have letters : s.all lib.isAlpha = true := by
      simp only [isCountry, Bool.and_eq_true] at h
      exact h.2
    have same : s.strip = s :=
      Points.strip_eq_self fun c hc => lib.isSpace_of_isAlpha c (List.all_eq_true.mp letters c hc)
    rwa [stripped, same]
  | null | bool _ | int _ | float _ | list _ | dict _ => cases h

theorem hasSurrogate_stripped (items : List (Points × Value)) :
    Value.hasSurrogate (.dict (items.map fun item => (item.1, stripped item.2))) = Value.hasSurrogate (.dict items) := by
  have one (v : Value) : (stripped v).hasSurrogate = v.hasSurrogate := by
    cases v with
    | str s => rw [stripped, Value.hasSurrogate, Value.hasSurrogate, Points.hasSurrogate_strip]
    | null | bool _ | int _ | float _ | list _ | dict _ => rfl
  rw [Value.hasSurrogate, Value.hasSurrogate]
  induction items with
  | nil => rfl
  | cons item items ih => rw [List.map_cons, Value.membersHaveSurrogate, one, ih, Value.membersHaveSurrogate]

/-- What an address must be. -/
structure Addressed (lib : Library) (items : List (Points × Value)) : Prop where
  keys : (∀ key ∈ requiredKeys, key ∈ items.map Prod.fst) ∧ ∀ key ∈ items.map Prod.fst,
    key ∈ requiredKeys ++ optionalKeys
  required : ∀ item ∈ items, item.1 ∈ requiredKeys → isRequiredText item.2 = true
  optional : ∀ item ∈ items, item.1 ∈ optionalKeys → isOptionalText item.2 = true
  country : ((items.find? fun item => item.1 = Points.ofString "country_code").any fun item =>
    isCountry lib item.2) = true

theorem address_ok {items : List (Points × Value)} (h : Addressed lib items) :
    address lib (.dict items) = .ok (.dict (items.map fun item => (item.1, stripped item.2))) := by
  simp only [address, require]
  rw [if_pos h.keys, if_pos h.required, if_pos h.optional, if_pos h.country]
  rfl

theorem address_cases (lib : Library) (value : Value) :
    (∃ items, value = .dict items ∧ Addressed lib items) ∨ ∃ message code,
      address lib value = .error (.validation message code) := by
  cases value with
  | dict items =>
    by_cases keys : (∀ key ∈ requiredKeys, key ∈ items.map Prod.fst) ∧
        ∀ key ∈ items.map Prod.fst, key ∈ requiredKeys ++ optionalKeys
    · by_cases required : ∀ item ∈ items, item.1 ∈ requiredKeys → isRequiredText item.2 = true
      · by_cases optional : ∀ item ∈ items, item.1 ∈ optionalKeys → isOptionalText item.2 = true
        · by_cases country : ((items.find? fun item => item.1 = Points.ofString "country_code").any fun item =>
              isCountry lib item.2) = true
          · exact .inl ⟨items, rfl, keys, required, optional, country⟩
          · refine .inr ⟨"Use a two-letter country code.", "invalid_application_address", ?_⟩
            simp only [address, require]
            rw [if_pos keys, if_pos required, if_pos optional, if_neg country]
            rfl
        · refine .inr ⟨"Optional address values must be bounded text.", "invalid_application_address", ?_⟩
          simp only [address, require]
          rw [if_pos keys, if_pos required, if_neg optional]
          rfl
      · refine .inr ⟨"Required address values must be bounded text.", "invalid_application_address", ?_⟩
        simp only [address, require]
        rw [if_pos keys, if_neg required]
        rfl
    · refine .inr ⟨"Use the closed address shape.", "invalid_application_address", ?_⟩
      simp only [address, require]
      rw [if_neg keys]
      rfl
  | null | bool _ | int _ | float _ | str _ | list _ => exact .inr ⟨_, _, rfl⟩

/-- Without the white space around its texts an address is one still. -/
theorem Addressed.stripped {items : List (Points × Value)} (h : Addressed lib items) :
    Addressed lib (items.map fun item => (item.1, Applications.stripped item.2)) := by
  have keys : (items.map fun item => (item.1, Applications.stripped item.2)).map Prod.fst = items.map Prod.fst := by
    rw [List.map_map]
    rfl
  refine ⟨by rw [keys]; exact h.keys, fun item hi key => ?_, fun item hi key => ?_, ?_⟩
  · obtain ⟨original, mem, rfl⟩ := List.mem_map.mp hi
    exact isRequiredText_stripped (h.required original mem key)
  · obtain ⟨original, mem, rfl⟩ := List.mem_map.mp hi
    exact isOptionalText_stripped (h.optional original mem key)
  · have country := h.country
    rw [List.find?_map, Option.any_map]
    rw [Option.any_eq_true] at country ⊢
    obtain ⟨item, found, letters⟩ := country
    exact ⟨item, found, isCountry_stripped letters⟩

theorem outcome_address :
    Outcome (address lib) (∃ kept, address lib value = .ok kept) False value (address lib value) := by
  rcases address_cases lib value with ⟨items, rfl, addressed⟩ | ⟨message, code, refused⟩
  · have again := address_ok addressed.stripped
    rw [List.map_map] at again
    simp only [Function.comp_def, stripped_stripped] at again
    rw [address_ok addressed]
    refine .made (by simp) id ?_ fun _ _ _ => again
    simp only [hasSurrogate_stripped, Except.ok.injEq, exists_eq', true_and]
  · rw [refused]
    refine .refuses ?_
    rintro ⟨kept, same⟩
    cases same

/-! ### Choices, files and the rest -/

/-- A branch that gives back what it accepts, and keeps its texts. -/
theorem outcome_kept {field : Value → Except AnswerError Value} {keeps : Prop}
    (same : (field value = .ok value ∧ value ≠ .null ∧ keeps) ∨
      ((∃ message code, field value = .error (.validation message code)) ∧ ¬ keeps)) :
    Outcome field keeps False value (field value) := by
  rcases same with ⟨accepted, some_, keeps⟩ | ⟨⟨message, code, refused⟩, drops⟩
  · rw [accepted]
    exact .kept rfl some_ keeps accepted
  · rw [refused]
    exact .refuses drops

theorem outcome_choice : Outcome (normalizeChoice question) (∃ text ∈ question.options,
    value = .str text) False value (normalizeChoice question value) := by
  refine outcome_kept ?_
  cases value with
  | str s =>
    by_cases offered : s ∈ question.options
    · refine .inl ⟨?_, by simp, s, offered, rfl⟩
      simp only [normalizeChoice, require, if_pos offered]
      rfl
    · refine .inr ⟨⟨"Choose one configured option.", "invalid_application_choice", ?_⟩, ?_⟩
      · simp only [normalizeChoice, require, if_neg offered]
        rfl
      · rintro ⟨text, mem, same⟩
        cases same
        exact offered mem
  | null | bool _ | int _ | float _ | list _ | dict _ =>
    exact .inr ⟨⟨_, _, rfl⟩, fun ⟨_, _, same⟩ => by cases same⟩

theorem outcome_choices : Outcome (normalizeChoices question) (∃ kept,
    normalizeChoices question value = .ok kept) False value (normalizeChoices question value) := by
  refine outcome_kept ?_
  have refused (h : normalizeChoices question value = .error (.validation "Choose a bounded set of configured options."
      "invalid_application_choices")) : (normalizeChoices question value = .ok value ∧
        value ≠ .null ∧ ∃ kept, normalizeChoices question value = .ok kept) ∨
      ((∃ message code, normalizeChoices question value = .error (.validation message code)) ∧
        ¬ ∃ kept, normalizeChoices question value = .ok kept) := by
    refine .inr ⟨⟨_, _, h⟩, ?_⟩
    rintro ⟨kept, same⟩
    rw [h] at same
    cases same
  cases value with
  | list items =>
    cases texts : textsOf items with
    | none =>
      refine refused ?_
      simp only [normalizeChoices, texts]
      rfl
    | some chosen =>
      by_cases bounded : chosen.Nodup ∧ (∀ text ∈ chosen, text ∈ question.options) ∧
          chosen.length ≤ orDefault question.maximumChoices 0
      · have accepted : normalizeChoices question (.list items) = .ok (.list items) := by
          simp only [normalizeChoices, texts, getOr, ok_bind, require, if_pos bounded]
          rfl
        exact .inl ⟨accepted, by simp, _, accepted⟩
      · refine refused ?_
        simp only [normalizeChoices, texts, getOr, ok_bind, require, if_neg bounded]
        rfl
  | null | bool _ | int _ | float _ | str _ | dict _ => exact refused rfl

theorem outcome_boolean : Outcome normalizeBoolean False False value (normalizeBoolean value) := by
  refine outcome_same ?_
  cases value with
  | bool b => exact .inl ⟨rfl, by simp, rfl⟩
  | null | int _ | float _ | str _ | list _ | dict _ => exact .inr ⟨_, _, rfl⟩

theorem outcome_reference : Outcome normalizeReference False False value (normalizeReference value) := by
  refine outcome_same ?_
  rcases canonicalUuid_cases value with ⟨id, accepted, same⟩ | ⟨message, code, refused⟩
  · refine .inl ⟨by rw [normalizeReference, accepted]; rfl, by rw [same]; simp, ?_⟩
    rw [same, Value.hasSurrogate, Value.hasSurrogate_ofString]
  · exact .inr ⟨message, code, by rw [normalizeReference, refused]; rfl⟩

theorem outcome_safeFile : Outcome (normalizeSafeFile receipts question accountId) False False value
    (normalizeSafeFile receipts question accountId value) := by
  refine outcome_same ?_
  rcases canonicalUuid_cases value with ⟨id, accepted, same⟩ | ⟨message, code, refused⟩
  · by_cases clean : ∃ receipt ∈ receipts, receipt.id = id ∧ receipt.organizationId = question.organizationId ∧
        receipt.editionId = question.editionId ∧ receipt.accountId = accountId ∧ receipt.status = .clean
    · refine .inl ⟨?_, by rw [same]; simp, ?_⟩
      · simp only [normalizeSafeFile, accepted, ok_bind, require, if_pos clean]
        rfl
      · rw [same, Value.hasSurrogate, Value.hasSurrogate_ofString]
    · refine .inr ⟨"The safety-checked file receipt is unavailable.", "application_file_unavailable", ?_⟩
      simp only [normalizeSafeFile, accepted, ok_bind, require, if_neg clean]
      rfl
  · exact .inr ⟨message, code, by rw [normalizeSafeFile, refused]; rfl⟩

theorem outcome_bounded : Outcome (normalizeText question) (∃ text,
    boundedString question value = .ok text) False value (normalizeText question value) := by
  have texts : Outcome (normalizeText question) (∃ text, boundedString question value = .ok text ∧ True) False value
      (normalizeText question value) := outcome_text (fun _ => True) (normalizeText question)
    (fun text bounded _ => by rw [normalizeText, bounded]; rfl) (fun _ _ no => absurd trivial no)
    (fun message code refused => by rw [normalizeText, refused]; rfl)
  simpa only [and_true] using texts

theorem outcome_validated (validate : Points → Option (String × String)) :
    Outcome (normalizeValidated question validate) (∃ text,
      boundedString question value = .ok text ∧ validate text = none)
      False value (normalizeValidated question validate value) := by
  refine outcome_text (fun text => validate text = none) _ (fun text bounded accepted => ?_)
    (fun text bounded refused => ?_) fun message code refused => ?_
  · rw [normalizeValidated, bounded]
    simp only [ok_bind, accepted]
    rfl
  · obtain ⟨error, found⟩ := Option.ne_none_iff_exists'.mp refused
    refine ⟨error.1, error.2, ?_⟩
    rw [normalizeValidated, bounded]
    simp only [ok_bind, found]
  · rw [normalizeValidated, refused]
    rfl

theorem outcome_phone : Outcome (normalizePhone question)
    (∃ text, boundedString question value = .ok text ∧ 3 ≤ text.length ∧ text.length ≤ 40) False
      value (normalizePhone question value) := by
  refine outcome_text (fun text => 3 ≤ text.length ∧ text.length ≤ 40) _ (fun text bounded accepted => ?_)
    (fun text bounded refused => ?_) fun message code refused => ?_
  · rw [normalizePhone, bounded]
    simp only [ok_bind, require, if_pos accepted]
    rfl
  · refine ⟨"Enter a bounded phone number.", "invalid_application_phone", ?_⟩
    rw [normalizePhone, bounded]
    simp only [ok_bind, require, if_neg refused]
    rfl
  · rw [normalizePhone, refused]
    rfl

/-! ### Decimal numbers -/

/-- An answer whose text is there escapes only as a number that is read, and that
there is no memory for. -/
theorem unwritten_iff {text : Points} (shape : decimalText value = .ok text) :
    Unwritten lib question value ↔ ∃ negative coefficient exponent,
      Decimal.ofText text = some (.finite negative coefficient exponent) ∧
        Bounded question (.finite negative coefficient exponent) ∧
          lib.memory < Decimal.fixedLength negative coefficient exponent := by
  constructor
  · intro unwritten
    cases unwritten with
    | long digits =>
      rw [decimalText, if_pos digits] at shape
      cases shape
    | wide same read bounded memory =>
      rw [shape] at same
      cases same
      exact ⟨_, _, _, read, bounded, memory⟩
  · rintro ⟨negative, coefficient, exponent, read, bounded, memory⟩
    exact .wide shape read bounded memory

/-- What is written of a number is made of what is written. -/
theorem normalizeDecimal_fixed {text : Points} {negative : Bool} {coefficient : Nat}
    {exponent : Int} (read : Decimal.ofText text = some (.finite negative coefficient exponent))
    (bounded : Bounded question (.finite negative coefficient exponent))
    (memory : Decimal.fixedLength negative coefficient exponent ≤ lib.memory)
    (short : Decimal.fixedLength negative coefficient exponent ≤ Decimal.maxPrecision) :
    normalizeDecimal lib question (.str ((Decimal.fixed negative coefficient exponent).map .ofChar)) =
      .ok (.str ((Decimal.fixed negative coefficient exponent).map .ofChar)) := by
  obtain ⟨c, e, settled, same⟩ := Decimal.fixed_settled negative coefficient exponent
  have again := Decimal.ofText_fixed (Decimal.inRange_of_ofText read) short
  rw [settled] at again
  have value : (Decimal.finite negative c e).value = (Decimal.finite negative coefficient exponent).value := by
    rw [← settled, Decimal.value_settled]
  have stays : Bounded question (.finite negative c e) := by
    unfold Bounded
    rw [value]
    exact bounded
  have length : Decimal.fixedLength negative c e ≤ lib.memory := by
    rw [← Decimal.length_fixed, same, Decimal.length_fixed]
    exact memory
  simp only [normalizeDecimal, decimalText, ok_bind, again, getOr, require]
  rw [if_pos stays, if_pos length, same]
  rfl

theorem outcome_decimal : Outcome (normalizeDecimal lib question) False
    (Unwritten lib question value) value (normalizeDecimal lib question value) := by
  have refused (message code : String) (h : normalizeDecimal lib question value = .error (.validation message code))
      (written : ¬ Unwritten lib question value) : Outcome (normalizeDecimal lib question) False
        (Unwritten lib question value) value (normalizeDecimal lib question value) := by
    rw [h]
    exact .refused id written
  have failed (error : AnswerError) (h : normalizeDecimal lib question value = .error error)
      (other : ∀ message code, error ≠ .validation message code) (escapes : Unwritten lib question value) :
        Outcome (normalizeDecimal lib question) False (Unwritten lib question value) value
          (normalizeDecimal lib question value) := by
    rw [h]
    exact .failed other escapes
  cases shape : decimalText value with
  | error error =>
    have ends : normalizeDecimal lib question value = .error error := by
      rw [normalizeDecimal, shape]
      rfl
    cases value with
    | int n =>
      rw [decimalText] at shape
      split at shape
      · rename_i digits
        cases shape
        exact failed _ ends (fun _ _ other => by cases other) (.long digits)
      · cases shape
    | null | bool _ | list _ | dict _ =>
      cases shape
      refine refused _ _ ends ?_
      intro unwritten
      cases unwritten with
      | wide same _ _ _ => cases same
    | str s => cases shape
    | float r => cases shape
  | ok text =>
    have unwritten : Unwritten lib question value ↔ _ := unwritten_iff shape
    cases read : Decimal.ofText text with
    | none =>
      refine refused "Enter a decimal number." "invalid_application_decimal" ?_ ?_
      · simp only [normalizeDecimal, shape, ok_bind, read]
        rfl
      · simp only [unwritten, read, reduceCtorEq, false_and, exists_false, not_false_eq_true]
    | some number =>
      cases number with
      | special =>
        refine refused "The decimal is outside the configured bounds." "invalid_application_decimal" ?_ ?_
        · simp only [normalizeDecimal, shape, ok_bind, read]
          rfl
        · simp only [unwritten, read, Option.some.injEq, reduceCtorEq, false_and, exists_false, not_false_eq_true]
      | finite negative coefficient exponent =>
        rw [read] at unwritten
        by_cases bounded : Bounded question (.finite negative coefficient exponent)
        · by_cases memory : Decimal.fixedLength negative coefficient exponent ≤ lib.memory
          · have made : normalizeDecimal lib question value =
                .ok (.str ((Decimal.fixed negative coefficient exponent).map .ofChar)) := by
              simp only [normalizeDecimal, shape, ok_bind, read, getOr, require]
              rw [if_pos bounded, if_pos memory]
              rfl
            have written : ¬ Unwritten lib question value := by
              rw [unwritten]
              rintro ⟨n, c, e, same, -, wide⟩
              cases same
              omega
            have plain : Value.hasSurrogate
              (.str ((Decimal.fixed negative coefficient exponent).map .ofChar)) = false := by
              rw [Value.hasSurrogate, Points.hasSurrogate_map]
            rw [made]
            refine .made (by simp) written (by simp only [plain, Bool.false_eq_true, false_and]) ?_
            intro encoded encodes small
            have length := Value.length_le_encode encodes
            rw [List.length_map, Decimal.length_fixed] at length
            have bytes : maxAnswerBytes ≤ Decimal.maxPrecision := by decide
            exact normalizeDecimal_fixed read bounded memory (by omega)
          · refine failed .memory ?_ (fun _ _ other => by cases other) ?_
            · simp only [normalizeDecimal, shape, ok_bind, read, getOr, require]
              rw [if_pos bounded, if_neg memory]
              rfl
            · exact unwritten.mpr ⟨_, _, _, rfl, bounded, Nat.not_le.mp memory⟩
        · refine refused "The decimal is outside the configured bounds." "invalid_application_decimal" ?_ ?_
          · simp only [normalizeDecimal, shape, ok_bind, read, getOr, require]
            rw [if_neg bounded]
            rfl
          · rw [unwritten]
            rintro ⟨n, c, e, same, inside, -⟩
            cases same
            exact bounded inside

/-! ## The function -/

theorem normalizeField_outcome : Outcome (normalizeField lib receipts question accountId) (KeepsText lib question value)
    (question.fieldType = some .decimal ∧ Unwritten lib question value) value
      (normalizeField lib receipts question accountId value) := by
  have branch {keeps : Prop} {field : Value → Except AnswerError Value}
      (other : question.fieldType ≠ some .decimal) (is : normalizeField lib receipts question accountId = field)
      (kept : KeepsText lib question value = keeps) (outcome : Outcome field keeps False value (field value)) :
      Outcome (normalizeField lib receipts question accountId) (KeepsText lib question value)
        (question.fieldType = some .decimal ∧ Unwritten lib question value) value
          (normalizeField lib receipts question accountId value) := by
    have never : (question.fieldType = some .decimal ∧ Unwritten lib question value) = False := by
      simp only [other, false_and]
    rw [is, kept, never]
    exact outcome
  have is {field : Value → Except AnswerError Value}
      (h : ∀ v, normalizeField lib receipts question accountId v = field v) :
      normalizeField lib receipts question accountId = field := funext h
  obtain ⟨fieldType, type⟩ : ∃ fieldType, question.fieldType = fieldType := ⟨_, rfl⟩
  cases fieldType with
  | none =>
    refine branch (by simp [type]) rfl (by rw [KeepsText, type]) ?_
    rw [normalizeField, type]
    exact .refuses id
  | some known =>
    cases known with
    | shortText =>
      exact branch (by simp [type]) (is fun v => by rw [normalizeField, type]) (by rw [KeepsText, type]) outcome_bounded
    | longText =>
      exact branch (by simp [type]) (is fun v => by rw [normalizeField, type]) (by rw [KeepsText, type]) outcome_bounded
    | integer =>
      exact branch (by simp [type]) (is fun v => by rw [normalizeField, type]) (by rw [KeepsText, type])
        (outcome_integer question.minimumValue question.maximumValue)
    | decimal =>
      have field : normalizeField lib receipts question accountId = normalizeDecimal lib question :=
        funext fun v => by rw [normalizeField, type]
      have keeps : KeepsText lib question value = False := by rw [KeepsText, type]
      have outcome : Outcome (normalizeDecimal lib question) False (Unwritten lib question value)
        value (normalizeDecimal lib question value) := outcome_decimal
      rw [field, keeps]
      simpa only [type, true_and] using outcome
    | boolean =>
      exact branch (by simp [type]) (is fun v => by rw [normalizeField, type]) (by rw [KeepsText, type]) outcome_boolean
    | singleChoice =>
      exact branch (by simp [type]) (is fun v => by rw [normalizeField, type]) (by rw [KeepsText, type]) outcome_choice
    | multipleChoice =>
      exact branch (by simp [type]) (is fun v => by rw [normalizeField, type]) (by rw [KeepsText, type]) outcome_choices
    | date =>
      exact branch (by simp [type]) (is fun v => by rw [normalizeField, type]) (by rw [KeepsText, type])
        (outcome_iso _ _ Iso.Date.read_text fun d => Points.hasSurrogate_map d.chars)
    | time =>
      exact branch (by simp [type]) (is fun v => by rw [normalizeField, type]) (by rw [KeepsText, type])
        (outcome_iso _ _ Iso.Time.read_text fun t => Points.hasSurrogate_map t.chars)
    | instant =>
      exact branch (by simp [type]) (is fun v => by rw [normalizeField, type]) (by rw [KeepsText, type]) outcome_instant
    | email =>
      exact branch (by simp [type]) (is fun v => by rw [normalizeField, type]) (by rw [KeepsText, type])
        (outcome_validated lib.validateEmail)
    | phone =>
      exact branch (by simp [type]) (is fun v => by rw [normalizeField, type]) (by rw [KeepsText, type]) outcome_phone
    | url =>
      exact branch (by simp [type]) (is fun v => by rw [normalizeField, type]) (by rw [KeepsText, type])
        (outcome_validated lib.validateHttpsUrl)
    | address =>
      exact branch (by simp [type]) (is fun v => by rw [normalizeField, type]) (by rw [KeepsText, type]) outcome_address
    | personReference =>
      exact branch (by simp [type]) (is fun v => by rw [normalizeField, type])
        (by rw [KeepsText, type]) outcome_reference
    | domainReference =>
      exact branch (by simp [type]) (is fun v => by rw [normalizeField, type])
        (by rw [KeepsText, type]) outcome_reference
    | safeFile =>
      exact branch (by simp [type]) (is fun v => by rw [normalizeField, type]) (by rw [KeepsText, type]) outcome_safeFile

/-- The answer is refused by the program, or what is made of it is made of
itself and is short enough. -/
def Settles (lib : Library) (receipts : List ApplicationFileReceipt)
    (question : ApplicationQuestion) (accountId : Uuid) (value : Value) : Prop :=
  (∃ message code, normalizeAnswerValue lib receipts question accountId value = .error (.validation message code)) ∨
    ∃ normalized encoded, normalizeAnswerValue lib receipts question accountId value = .ok normalized ∧
      normalizeAnswerValue lib receipts question accountId normalized = .ok normalized ∧
        normalized.encode = some encoded ∧ encoded.length ≤ maxAnswerBytes

theorem normalizeAnswerValue_of_ne_null (some_ : value ≠ .null) :
    normalizeAnswerValue lib receipts question accountId value = (do
      let normalized ← normalizeField lib receipts question accountId value
      let encoded ← getOr .unicodeEncode normalized.encode
      require (encoded.length ≤ maxAnswerBytes) (.validation "The answer is too large." "application_answer_too_large")
      return normalized) := by
  cases value with
  | null => exact absurd rfl some_
  | bool _ | int _ | float _ | str _ | list _ | dict _ => rfl

/-- No kind of question keeps no answer. -/
theorem not_escapes_null : ¬ Escapes lib question .null := by
  rintro (⟨-, surrogate⟩ | ⟨-, unwritten⟩)
  · cases surrogate
  · cases unwritten with
    | wide shape _ _ _ => cases shape

/-- Every answer to every question is refused with a `ValidationError` or settled,
exactly unless it escapes. -/
theorem normalizeAnswerValue_settles_iff (lib : Library) (receipts : List ApplicationFileReceipt)
    (question : ApplicationQuestion) (accountId : Uuid) (value : Value) :
    Settles lib receipts question accountId value ↔ ¬ Escapes lib question value := by
  by_cases null : value = .null
  · subst null
    have four : (Value.encode .null).map List.length = some 4 := by decide
    obtain ⟨encoded, encodes, length⟩ := Option.map_eq_some_iff.mp four
    refine ⟨fun _ => not_escapes_null, fun _ => .inr ⟨.null, encoded, rfl, rfl, encodes, ?_⟩⟩
    rw [length]
    decide
  · have outcome : Outcome (normalizeField lib receipts question accountId) (KeepsText lib question value)
        (question.fieldType = some .decimal ∧ Unwritten lib question value) value
          (normalizeField lib receipts question accountId value) := normalizeField_outcome
    have whole : normalizeAnswerValue lib receipts question accountId value = _ := normalizeAnswerValue_of_ne_null null
    unfold Settles Escapes
    generalize normalizeField lib receipts question accountId value = field at outcome whole
    cases outcome with
    | @refused message code dropped written =>
      have refused : normalizeAnswerValue lib receipts question accountId value =
        .error (.validation message code) := whole
      refine ⟨fun _ => ?_, fun _ => .inl ⟨message, code, refused⟩⟩
      rintro (⟨keeps, -⟩ | escapes)
      · exact dropped keeps
      · exact written escapes
    | @failed error not_refused escapes =>
      have failed : normalizeAnswerValue lib receipts question accountId value = .error error := whole
      refine ⟨?_, fun settled => absurd (.inr escapes) settled⟩
      rintro (⟨message, code, refused⟩ | ⟨normalized, encoded, made, -⟩)
      · rw [failed] at refused
        cases refused
        exact absurd rfl (not_refused message code)
      · rw [failed] at made
        cases made
    | @made normalized some_ written surrogates again =>
      rw [ok_bind] at whole
      cases encodes : normalized.encode with
      | none =>
        rw [encodes] at whole
        have failed : normalizeAnswerValue lib receipts question accountId value = .error .unicodeEncode := whole
        refine ⟨?_, fun settled => absurd (.inl (surrogates.mp (Value.encode_eq_none.mp encodes))) settled⟩
        rintro (⟨message, code, refused⟩ | ⟨normalized, encoded, made, -⟩)
        · rw [failed] at refused
          cases refused
        · rw [failed] at made
          cases made
      | some encoded =>
        have plain : ¬ (KeepsText lib question value ∧ value.hasSurrogate = true) := by
          rw [← surrogates, ← Value.encode_eq_none, encodes]
          simp
        have stays : ¬ (KeepsText lib question value ∧ value.hasSurrogate = true ∨
            question.fieldType = some .decimal ∧ Unwritten lib question value) := not_or.mpr ⟨plain, written⟩
        refine ⟨fun _ => stays, fun _ => ?_⟩
        rw [encodes] at whole
        simp only [getOr, ok_bind, require] at whole
        by_cases small : encoded.length ≤ maxAnswerBytes
        · rw [if_pos small] at whole
          have made : normalizeAnswerValue lib receipts question accountId value = .ok normalized := whole
          refine .inr ⟨normalized, encoded, made, ?_, encodes, small⟩
          rw [normalizeAnswerValue_of_ne_null some_, again encoded encodes small, ok_bind, encodes]
          simp only [getOr, ok_bind, require, if_pos small]
          rfl
        · rw [if_neg small] at whole
          exact .inl ⟨_, _, whole⟩

/-- A lone surrogate is a text of one character, and nothing encodes it. -/
theorem lone_surrogate_escapes :
    ¬ ∀ (lib : Library) (receipts : List ApplicationFileReceipt) (question : ApplicationQuestion)
      (accountId : Uuid) (value : Value), Settles lib receipts question accountId value := by
  intro settles
  let lib : Library :=
    { isAlpha := fun _ => false
      isSpace_of_isAlpha := fun _ letter => by cases letter
      validateEmail := fun _ => none
      validateHttpsUrl := fun _ => none
      memory := 1000000 }
  let question : ApplicationQuestion := { fieldType := some .shortText }
  have raised : normalizeAnswerValue lib [] question 0 (.str [0xd800]) = .error .unicodeEncode := rfl
  rcases settles lib [] question 0 (.str [0xd800]) with ⟨message, code, refused⟩ | ⟨normalized, encoded, made, -⟩
  · rw [raised] at refused
    cases refused
  · rw [raised] at made
    cases made

end Maru.Applications
