import Maru.Framework.Decimals
import Maru.Framework.Dict
import Maru.Framework.Except
import Maru.Framework.JsonPoints

/-!
# The questions of a registration

`registration/services.py`: the check of a configuration's questions before it is
activated, and what is made of the answers to them; `registration/question_conditions.py`.
-/

namespace Maru.Registration

/-- `ValidationError`: a message at a field. -/
structure QuestionError where
  field : Points
  message : Points
  code : String

/-- An error at a field of the model. -/
def invalidField {α : Type} (field message code : String) : Except QuestionError α :=
  .error ⟨.ofString field, .ofString message, code⟩

inductive QuestionFieldType
  | shortText | longText | boolean | singleChoice | multipleChoice | integer
  deriving DecidableEq

def QuestionFieldType.text : QuestionFieldType → String
  | .shortText => "short_text"
  | .longText => "long_text"
  | .boolean => "boolean"
  | .singleChoice => "single_choice"
  | .multipleChoice => "multiple_choice"
  | .integer => "integer"

inductive QuestionVisibility
  | attendeeAndStaff | registrationStaff
  deriving DecidableEq

def QuestionVisibility.text : QuestionVisibility → String
  | .attendeeAndStaff => "attendee_and_staff"
  | .registrationStaff => "registration_staff"

inductive QuestionClassification
  | internal | personal

def QuestionClassification.text : QuestionClassification → String
  | .internal => "C1"
  | .personal => "C2"

structure RegistrationSection where
  key : Points
  title : Points
  description : Points
  position : Nat

structure RegistrationQuestion where
  key : Points
  label : Points
  helpText : Points
  fieldType : QuestionFieldType
  required : Bool
  position : Nat
  options : List Points
  purpose : Points
  visibility : QuestionVisibility
  classification : QuestionClassification
  conditionQuestionKey : Points
  conditionValue : Points
  /-- The section, where there is one. -/
  registrationSection : Option RegistrationSection

def maxQuestionOptionLength : Nat := 120

def maxQuestionOptions : Nat := 64

def maxConditionValueLength : Nat := 120

def maxShortAnswerLength : Nat := 500

def maxLongAnswerLength : Nat := 4000

def maxMultipleChoiceValues : Nat := 64

def minSigned32BitInteger : Int := -2 ^ 31

def maxSigned32BitInteger : Int := 2 ^ 31 - 1

def QuestionFieldType.isChoice (t : QuestionFieldType) : Bool := t = .singleChoice ∨ t = .multipleChoice

/-! ## The record -/

/-- `_validate_question_options` -/
def validateQuestionOptions (fieldType : QuestionFieldType) (options : List Points) : Except QuestionError Unit :=
  let normalized := options.map Points.strip
  if ∃ option ∈ options, option.strip = [] ∨ maxQuestionOptionLength < option.length then
    invalidField "options" "Options must be a list of short non-empty labels." "invalid_question_options"
  else if maxQuestionOptions < normalized.length then
    invalidField "options" s!"Choose no more than {maxQuestionOptions} options." "question_option_limit_exceeded"
  else if ¬ normalized.Nodup then
    invalidField "options" "Question option labels must be unique." "duplicate_question_option"
  else if fieldType.isChoice ∧ normalized.length < 2 then
    invalidField "options" "Choice questions require at least two options." "question_options_required"
  else if ¬ fieldType.isChoice ∧ normalized ≠ [] then
    invalidField "options" "Only choice questions may define options." "question_options_not_allowed"
  else return ()

namespace RegistrationQuestion

/-- `AbstractQuestion.clean` -/
def clean (q : RegistrationQuestion) : Except QuestionError Unit := do
  validateQuestionOptions q.fieldType q.options
  if (q.conditionQuestionKey = []) ≠ (q.conditionValue = []) then
    invalidField "__all__" "A conditional question requires both a source key and value." "incomplete_question_condition"
  else if q.conditionQuestionKey = q.key then
    invalidField "condition_question_key" "A question cannot depend on itself." "recursive_question_condition"
  else return ()

/-- What `full_clean` has held of a question that is saved, as far as its answers depend on it. -/
structure Saved (q : RegistrationQuestion) : Prop where
  cleaned : q.clean = .ok ()
  short : q.conditionValue.length ≤ maxConditionValueLength

/-- `_question_values` -/
def values (q : RegistrationQuestion) : List (String × Value) := [
  ("key", .str q.key),
  ("label", .str q.label),
  ("help_text", .str q.helpText),
  ("field_type", .str (.ofString q.fieldType.text)),
  ("required", .bool q.required),
  ("position", .int q.position),
  ("options", .list (q.options.map .str)),
  ("purpose", .str q.purpose),
  ("visibility", .str (.ofString q.visibility.text)),
  ("classification", .str (.ofString q.classification.text)),
  ("condition_question_key", .str q.conditionQuestionKey),
  ("condition_value", .str q.conditionValue)]

/-- `_question_schema_values` -/
def schemaValues (q : RegistrationQuestion) : List (String × Value) :=
  q.values ++ [("section", match q.registrationSection with
    | none => .null
    | some s => .dict [(.ofString "key", .str s.key), (.ofString "title", .str s.title),
        (.ofString "description", .str s.description), (.ofString "position", .int s.position)])]

end RegistrationQuestion

/-! ## Conditions -/

/-- `int(text)`; `none` where `ValueError` is raised. -/
def intOfText (text : Points) : Option Int := do
  let cs ← text.strip.mapM Decimal.asciiOf
  let (negative, cs) := Decimal.signed cs
  let groups := cs.splitOn '_'
  if groups.all (fun ds => ds ≠ [] ∧ ds.all Decimal.isDigit) ∧ groups.flatten.length ≤ Json.maxIntDigits then
    some (if negative then -Decimal.valueOf groups.flatten else Decimal.valueOf groups.flatten)
  else none

/-- `str(n)` -/
def textOfInt (n : Int) : Points := (Json.intChars n).map .ofChar

/-- `condition_value_is_compatible` -/
def conditionValueIsCompatible (fieldType : QuestionFieldType) (options : List Points) (value : Points) : Bool :=
  match fieldType with
  | .boolean => value = .ofString "true" ∨ value = .ofString "false"
  | .integer =>
    match intOfText value with
    | none => false
    | some n => textOfInt n = value ∧ minSigned32BitInteger ≤ n ∧ n ≤ maxSigned32BitInteger
  | .singleChoice => value ∈ options
  | .multipleChoice => false
  | .shortText | .longText => value ≠ [] ∧ value.strip = value

/-- The loop of `_validate_configuration_question_graph`; `prior` has the
questions before, by key. -/
def validateQuestions : List (Points × RegistrationQuestion) → List RegistrationQuestion → Except QuestionError Unit
  | _, [] => return ()
  | prior, q :: questions => do
    if q.conditionQuestionKey = [] then validateQuestions (Dict.update q.key q (fun _ => q) prior) questions
    else
      let notPrior : QuestionError := ⟨.ofString "questions",
        .ofString "Conditional question " ++ q.key ++ .ofString " must depend on an earlier question.",
        "registration_condition_source_not_prior"⟩
      let source ← getOr notPrior (Dict.get? prior q.conditionQuestionKey)
      require (source.position < q.position) notPrior
      require (¬ (q.visibility = .attendeeAndStaff ∧ source.visibility = .registrationStaff)) ⟨.ofString "questions",
        .ofString "Attendee question " ++ q.key ++ .ofString " cannot depend on a staff-only question.",
        "registration_condition_visibility_incompatible"⟩
      require (conditionValueIsCompatible source.fieldType source.options q.conditionValue) ⟨.ofString "questions",
        .ofString "Conditional value for " ++ q.key ++ .ofString " cannot be produced by " ++
          source.key ++ .ofString ".",
        "registration_condition_value_incompatible"⟩
      validateQuestions (Dict.update q.key q (fun _ => q) prior) questions

/-- `_validate_configuration_question_graph` -/
def validateConfigurationQuestionGraph (questions : List RegistrationQuestion) : Except QuestionError Unit :=
  validateQuestions [] questions

/-! ## Answers -/

/-- `_normalized_condition_value`, of what `dict.get` returns. -/
def normalizedConditionValue : Option Value → Points
  | some (.bool b) => .ofString (if b then "true" else "false")
  | some (.int n) => textOfInt n
  | some (.str s) => s.strip
  | _ => []

/-- The items as texts, where all of them are texts. -/
def textItems : List Value → Option (List Points)
  | [] => some []
  | .str s :: items => (textItems items).map (s :: ·)
  | _ :: _ => none

namespace RegistrationQuestion

/-- The question's own message about an answer. -/
def refuse {α : Type} (q : RegistrationQuestion) (message code : String) : Except QuestionError α :=
  .error ⟨q.key, .ofString message, code⟩

/-- The most characters of an answer in text. -/
def maximum (q : RegistrationQuestion) : Nat :=
  if q.fieldType = .longText then maxLongAnswerLength else maxShortAnswerLength

/-- `_normalize_answer` -/
def normalizeAnswer (q : RegistrationQuestion) (value : Value) : Except QuestionError Value :=
  match q.fieldType with
  | .shortText | .longText =>
    match value with
    | .str s =>
      if q.maximum < s.strip.length then
        q.refuse s!"Use no more than {q.maximum} characters." "registration_answer_too_long"
      else return .str s.strip
    | _ => q.refuse "Enter text for this question." "invalid_registration_answer"
  | .boolean =>
    match value with
    | .bool b => return .bool b
    | _ => q.refuse "Choose yes or no." "invalid_registration_answer"
  | .integer =>
    match value with
    | .int n =>
      if minSigned32BitInteger ≤ n ∧ n ≤ maxSigned32BitInteger then return .int n
      else q.refuse "Enter a signed 32-bit whole number." "registration_integer_answer_out_of_range"
    | _ => q.refuse "Enter a whole number." "invalid_registration_answer"
  | .singleChoice =>
    match value with
    | .str s =>
      if s ∈ q.options then return .str s
      else q.refuse "Choose one of the available options." "invalid_registration_answer"
    | _ => q.refuse "Choose one of the available options." "invalid_registration_answer"
  | .multipleChoice =>
    match value with
    | .list items =>
      if (textItems items).any fun texts =>
          texts.length ≤ maxMultipleChoiceValues ∧ texts.Nodup ∧ ∀ text ∈ texts, text ∈ q.options then
        return .list items
      else q.refuse "Choose only available options without duplicates." "invalid_registration_answer"
    | _ => q.refuse "Choose only available options without duplicates." "invalid_registration_answer"

/-- `value in ("", [])` -/
def isBlank : Value → Bool
  | .str [] | .list [] => true
  | _ => false

/-- What is made of an answer that is given: `_normalize_answer`, and not blank where it is
required. -/
def acceptAnswer (q : RegistrationQuestion) (answer : Value) : Except QuestionError Value := do
  let value ← q.normalizeAnswer answer
  if q.required ∧ isBlank value then q.refuse "This question is required." "required_registration_answer"
  else return value

/-- The question applies, given what has been made of the answers before it. -/
def active (q : RegistrationQuestion) (normalized : List (Points × Value)) : Bool :=
  q.conditionQuestionKey = [] ∨ normalizedConditionValue (Dict.get? normalized q.conditionQuestionKey) = q.conditionValue

/-- `_normalize_answer` of the answer to the question, where it is asked and answered. -/
def settleAnswer (answers normalized : List (Points × Value)) (q : RegistrationQuestion) :
    Except QuestionError (List (Points × Value)) :=
  match q.active normalized, Dict.get? answers q.key with
  | false, some _ => q.refuse "This question is not applicable to the current answers." "inactive_registration_question"
  | false, none => return normalized
  | true, none =>
    if q.required then q.refuse "This question is required." "required_registration_answer" else return normalized
  | true, some answer => do
    let value ← q.acceptAnswer answer
    return Dict.update q.key value (fun _ => value) normalized

end RegistrationQuestion

/-- The questions that are asked. -/
def askedQuestions (questions : List RegistrationQuestion) (includeStaffQuestions : Bool) : List RegistrationQuestion :=
  questions.filter fun q => includeStaffQuestions ∨ q.visibility = .attendeeAndStaff

/-- `sorted(keys)[0]` -/
def leastKey (key : Points) (keys : List Points) : Points :=
    keys.foldl (fun least k => if k < least then k else least) key

/-- `validate_registration_answers` -/
def validateRegistrationAnswers (questions : List RegistrationQuestion) (answers : Value)
    (includeStaffQuestions : Bool) :
    Except QuestionError (List (Points × Value) × List (List (String × Value))) :=
  match answers with
  | .dict answers => do
    let asked := askedQuestions questions includeStaffQuestions
    match (answers.map Prod.fst).filter (fun k => ¬ asked.any (·.key = k)) with
    | [] =>
      let normalized ← asked.foldlM (RegistrationQuestion.settleAnswer answers) []
      return (normalized, asked.map (·.schemaValues))
    | key :: keys =>
      .error ⟨.ofString "answers", .ofString "Unknown registration question: " ++ leastKey key keys,
        "unknown_registration_question"⟩
  | _ => invalidField "answers" "Registration answers must be an object." "invalid_registration_answers"

end Maru.Registration
