import Maru.Framework.Decimals
import Maru.Framework.Except
import Maru.Framework.IsoRead
import Maru.Framework.JsonPoints
import Maru.Framework.Uuid

/-!
# Answer values

`applications/answer_values.py`: what a question makes of the answer to it. `UnicodeEncodeError`,
`ValueError` and `MemoryError` are raised by the interpreter, `ValidationError` by the program
and by Django's validators.
-/

namespace Maru.Applications

inductive AnswerError where
  | validation (message code : String)
  | unicodeEncode
  | value
  | memory

/-- What the program calls: Django's validators (`none` where they accept, and otherwise the message
and the code of their `ValidationError`), the letters of the interpreter's Unicode, none of which is
white space, and how long a text there is memory for. -/
structure Library where
  isAlpha : CodePoint → Bool
  isSpace_of_isAlpha : ∀ c, isAlpha c = true → c.isSpace = false
  validateEmail : Points → Option (String × String)
  validateHttpsUrl : Points → Option (String × String)
  memory : Nat

/-- `MAX_ANSWER_BYTES` -/
def maxAnswerBytes : Nat := 65536

/-- `sys.get_int_max_str_digits()` -/
def intMaxStrDigits : Nat := 4300

inductive ApplicationQuestionType where
  | shortText | longText | integer | decimal | boolean | singleChoice | multipleChoice | date | time | instant | email
  | phone | url | address | personReference | domainReference | safeFile
deriving DecidableEq

/-- What of a question its answers depend on; `options` are their codes. The type is `none`
if it is not registered. -/
structure ApplicationQuestion where
  fieldType : Option ApplicationQuestionType
  options : List Points := []
  minimumLength : Option Nat := none
  maximumLength : Option Nat := none
  minimumValue : Option ℚ := none
  maximumValue : Option ℚ := none
  maximumChoices : Option Nat := none
  organizationId : Uuid := 0
  editionId : Uuid := 0

inductive ApplicationFileReceipt.Status where
  | clean | rejected
deriving DecidableEq

structure ApplicationFileReceipt where
  id : Uuid
  organizationId : Uuid
  editionId : Uuid
  accountId : Uuid
  status : ApplicationFileReceipt.Status

/-! ## The shapes of answers -/

/-- `value or default`, for a number that may be missing. -/
def orDefault (value : Option Nat) (default : Nat) : Nat := if value = some 0 then default else value.getD default

/-- `_canonical_uuid`. `UUID` reads other texts too, but none of them is the
text of what it reads. -/
def canonicalUuid (value : Value) : Except AnswerError Uuid :=
  let invalid := AnswerError.validation "Use one canonical UUID." "invalid_application_reference"
  match value with
  | .str s => do
    let parsed ← getOr invalid (Uuid.ofText? s.text)
    require (Points.ofString parsed.text = s) invalid
    return parsed
  | _ => .error invalid

/-- `_bounded_string` -/
def boundedString (question : ApplicationQuestion) (value : Value) : Except AnswerError Points :=
  match value with
  | .str s => do
    let maximum := orDefault question.maximumLength (if question.fieldType = some .shortText then 240 else 16384)
    require (orDefault question.minimumLength 0 ≤ s.length ∧ s.length ≤ maximum)
      (.validation "The answer length is outside the configured bounds." "invalid_application_answer_length")
    return s
  | _ => .error (.validation "Enter text." "invalid_application_answer_type")

def requiredKeys : List Points := ["line_1", "locality", "postal_code", "country_code"].map .ofString

def optionalKeys : List Points := ["line_2", "region"].map .ofString

def isRequiredText : Value → Bool
  | .str s => s.strip ≠ [] && s.length ≤ 200
  | _ => false

def isOptionalText : Value → Bool
  | .str s => s.length ≤ 200
  | _ => false

/-- A country code of two letters. -/
def isCountry (lib : Library) : Value → Bool
  | .str s => s.length = 2 && s.all lib.isAlpha
  | _ => false

/-- `item.strip()` -/
def stripped : Value → Value
  | .str s => .str s.strip
  | v => v

/-- `_address` -/
def address (lib : Library) (value : Value) : Except AnswerError Value :=
  let invalid := fun message => AnswerError.validation message "invalid_application_address"
  match value with
  | .dict items => do
    require ((∀ key ∈ requiredKeys, key ∈ items.map Prod.fst) ∧ ∀ key ∈ items.map Prod.fst,
      key ∈ requiredKeys ++ optionalKeys) (invalid "Use the closed address shape.")
    require (∀ item ∈ items, item.1 ∈ requiredKeys → isRequiredText item.2 = true)
      (invalid "Required address values must be bounded text.")
    require (∀ item ∈ items, item.1 ∈ optionalKeys → isOptionalText item.2 = true)
      (invalid "Optional address values must be bounded text.")
    require (((items.find? fun item => item.1 = Points.ofString "country_code").any fun item =>
      isCountry lib item.2) = true)
      (invalid "Use a two-letter country code.")
    return .dict (items.map fun item => (item.1, stripped item.2))
  | _ => .error (invalid "Use the closed address shape.")

/-- `normalize_integer_answer` -/
def normalizeIntegerAnswer (value : Value) (minimum maximum : Option ℚ) : Except AnswerError Value :=
  let invalid :=
    AnswerError.validation "Enter a whole number within the configured bounds." "invalid_application_integer"
  match value with
  | .int n => do
    require (-2 ^ 31 ≤ n ∧ n < 2 ^ 31 ∧ (∀ m ∈ minimum, m ≤ n) ∧ ∀ m ∈ maximum, (n : ℚ) ≤ m) invalid
    return .int n
  | _ => .error invalid

/-- `str(value)` of an answer to a question for a decimal number. -/
def decimalText (value : Value) : Except AnswerError Points :=
  match value with
  | .str s => .ok s
  | .int n => if intMaxStrDigits < Decimal.width n.natAbs then .error .value else .ok ((Json.intChars n).map .ofChar)
  | .float r => .ok (.ofString r)
  | _ => .error (.validation "Enter a decimal number." "invalid_application_decimal")

/-- A number within the bounds of a question. -/
def Bounded (question : ApplicationQuestion) (number : Decimal) : Prop :=
  (∀ m ∈ question.minimumValue, m ≤ number.value) ∧ ∀ m ∈ question.maximumValue, number.value ≤ m

instance (question : ApplicationQuestion) (number : Decimal) : Decidable (Bounded question number) :=
  inferInstanceAs (Decidable (_ ∧ _))

/-- The branch of `normalize_answer_value` for decimal numbers. -/
def normalizeDecimal (lib : Library) (question : ApplicationQuestion) (value : Value) : Except AnswerError Value := do
  let outside := AnswerError.validation "The decimal is outside the configured bounds." "invalid_application_decimal"
  let text ← decimalText value
  let number ← getOr (.validation "Enter a decimal number." "invalid_application_decimal") (Decimal.ofText text)
  match number with
  | .special => .error outside
  | .finite negative coefficient exponent =>
    require (Bounded question (.finite negative coefficient exponent)) outside
    require (Decimal.fixedLength negative coefficient exponent ≤ lib.memory) .memory
    return .str ((Decimal.fixed negative coefficient exponent).map .ofChar)

/-- The branches of `normalize_answer_value` for dates and times. -/
def normalizeIso {α : Type} (read : Points → Option α) (text : α → Points) (error : AnswerError)
    (value : Value) : Except AnswerError Value :=
  match value with
  | .str s => do
    let parsed ← getOr error (read s)
    return .str (text parsed)
  | _ => .error error

/-- The branch of `normalize_answer_value` for date-times, which must be aware. -/
def normalizeInstant (value : Value) : Except AnswerError Value :=
  let invalid := fun message => AnswerError.validation message "invalid_application_instant"
  match value with
  | .str s => do
    let parsed ← getOr (invalid "Use an ISO date-time with an offset.") (Iso.Stamp.read s)
    require (parsed.time.offset.isSome = true) (invalid "The date-time must include an offset.")
    return .str parsed.text
  | _ => .error (invalid "Use an ISO date-time with an offset.")

/-- The texts of a list of texts. -/
def textsOf (items : List Value) : Option (List Points) :=
  items.mapM fun
    | .str s => some s
    | _ => none

/-- The branch of `normalize_answer_value` for yes and no. -/
def normalizeBoolean (value : Value) : Except AnswerError Value :=
  match value with
  | .bool b => return .bool b
  | _ => .error (.validation "Enter true or false." "invalid_application_boolean")

/-- The branch of `normalize_answer_value` for references to persons and domains. -/
def normalizeReference (value : Value) : Except AnswerError Value := do
  let _ ← canonicalUuid value
  return value

section

variable (lib : Library) (receipts : List ApplicationFileReceipt) (question : ApplicationQuestion) (accountId : Uuid)

/-- The branch of `normalize_answer_value` for texts. -/
def normalizeText (value : Value) : Except AnswerError Value := return .str (← boundedString question value)

/-- The branch of `normalize_answer_value` for phone numbers. -/
def normalizePhone (value : Value) : Except AnswerError Value := do
  let text ← boundedString question value
  require (3 ≤ text.length ∧ text.length ≤ 40) (.validation "Enter a bounded phone number." "invalid_application_phone")
  return .str text

/-- The branch of `normalize_answer_value` for one option. -/
def normalizeChoice (value : Value) : Except AnswerError Value :=
  let invalid := AnswerError.validation "Choose one configured option." "invalid_application_choice"
  match value with
  | .str s => do
    require (s ∈ question.options) invalid
    return .str s
  | _ => .error invalid

/-- The branch of `normalize_answer_value` for several options. -/
def normalizeChoices (value : Value) : Except AnswerError Value :=
  let invalid := AnswerError.validation "Choose a bounded set of configured options." "invalid_application_choices"
  match value with
  | .list items => do
    let texts ← getOr invalid (textsOf items)
    require (texts.Nodup ∧ (∀ text ∈ texts, text ∈ question.options) ∧
      texts.length ≤ orDefault question.maximumChoices 0) invalid
    return .list items
  | _ => .error invalid

/-- The branches of `normalize_answer_value` for texts that a validator of Django accepts. -/
def normalizeValidated (validate : Points → Option (String × String)) (value : Value) : Except AnswerError Value := do
  let text ← boundedString question value
  match validate text with
  | none => return .str text
  | some (message, code) => .error (.validation message code)

/-- The branch of `normalize_answer_value` for files that were found safe. -/
def normalizeSafeFile (value : Value) : Except AnswerError Value := do
  let receiptId ← canonicalUuid value
  require (∃ receipt ∈ receipts, receipt.id = receiptId ∧ receipt.organizationId = question.organizationId ∧
      receipt.editionId = question.editionId ∧ receipt.accountId = accountId ∧ receipt.status = .clean)
    (.validation "The safety-checked file receipt is unavailable." "application_file_unavailable")
  return value

/-- `normalize_answer_value` up to the encoding. -/
def normalizeField (value : Value) : Except AnswerError Value :=
  match question.fieldType with
  | some .shortText | some .longText => normalizeText question value
  | some .integer => normalizeIntegerAnswer value question.minimumValue question.maximumValue
  | some .decimal => normalizeDecimal lib question value
  | some .boolean => normalizeBoolean value
  | some .singleChoice => normalizeChoice question value
  | some .multipleChoice => normalizeChoices question value
  | some .date => normalizeIso Iso.Date.read Iso.Date.text
      (.validation "Use an ISO date." "invalid_application_date") value
  | some .time => normalizeIso Iso.Time.read Iso.Time.text
      (.validation "Use an ISO time." "invalid_application_time") value
  | some .instant => normalizeInstant value
  | some .email => normalizeValidated question lib.validateEmail value
  | some .phone => normalizePhone question value
  | some .url => normalizeValidated question lib.validateHttpsUrl value
  | some .address => address lib value
  | some .personReference | some .domainReference => normalizeReference value
  | some .safeFile => normalizeSafeFile receipts question accountId value
  | none => .error (.validation "Question type is not registered." "unknown_application_question_type")

/-- `normalize_answer_value` -/
def normalizeAnswerValue (value : Value) : Except AnswerError Value :=
  match value with
  | .null => return .null
  | value => do
    let normalized ← normalizeField lib receipts question accountId value
    let encoded ← getOr .unicodeEncode normalized.encode
    require (encoded.length ≤ maxAnswerBytes) (.validation "The answer is too large." "application_answer_too_large")
    return normalized

end

end Maru.Applications
