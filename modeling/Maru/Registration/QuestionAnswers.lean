import Maru.Registration.Questions

/-!
# What is made of the answers

The answers that are returned are to the questions that apply, given what has been made of
the answers before them, and to all of those that are required; validating them again
returns them as they are (`Settles.again`). A condition is met by an accepted answer to its
question (`edgesSatisfiable_iff`), unless it is an option with white space around it: a
choice is kept as it is, but compared without that.
-/

namespace Maru.Registration

open RegistrationQuestion

variable {q : RegistrationQuestion} {questions : List RegistrationQuestion} {answers n n' : List (Points × Value)}

/-! ## One answer -/

/-- What a question makes of an answer that it accepts. -/
inductive Normalizes (q : RegistrationQuestion) : Value → Value → Prop
  | text {s : Points} (kind : q.fieldType = .shortText ∨ q.fieldType = .longText)
      (short : s.strip.length ≤ q.maximum) : Normalizes q (.str s) (.str s.strip)
  | boolean {b : Bool} (kind : q.fieldType = .boolean) : Normalizes q (.bool b) (.bool b)
  | integer {n : Int} (kind : q.fieldType = .integer)
      (range : minSigned32BitInteger ≤ n ∧ n ≤ maxSigned32BitInteger) : Normalizes q (.int n) (.int n)
  | choice {s : Points} (kind : q.fieldType = .singleChoice) (option : s ∈ q.options) : Normalizes q (.str s) (.str s)
  | choices {items : List Value} (kind : q.fieldType = .multipleChoice)
      (options : (textItems items).any fun texts =>
        texts.length ≤ maxMultipleChoiceValues ∧ texts.Nodup ∧ ∀ text ∈ texts, text ∈ q.options) :
      Normalizes q (.list items) (.list items)

theorem normalizeAnswer_eq_ok {answer value : Value} :
    q.normalizeAnswer answer = .ok value ↔ Normalizes q answer value := by
  constructor
  · intro h
    unfold normalizeAnswer at h
    split at h
    case h_1 | h_2 =>
      rename_i kind
      split at h
      · split at h
        · cases h
        · rename_i short
          cases h
          exact .text (by simp only [kind, true_or, or_true]) (Nat.not_lt.mp short)
      · cases h
    case h_3 kind =>
      split at h
      · cases h
        exact .boolean kind
      · cases h
    case h_4 kind =>
      split at h
      · split at h
        · rename_i range
          cases h
          exact .integer kind range
        · cases h
      · cases h
    case h_5 kind =>
      split at h
      · split at h
        · rename_i option
          cases h
          exact .choice kind option
        · cases h
      · cases h
    case h_6 kind =>
      split at h
      · split at h
        · rename_i options
          cases h
          exact .choices kind options
        · cases h
      · cases h
  · intro h
    cases h with
    | text kind short =>
      rcases kind with kind | kind <;>
      · simp only [normalizeAnswer, kind, if_neg (Nat.not_lt.mpr short)]
        rfl
    | boolean kind =>
      simp only [normalizeAnswer, kind]
      rfl
    | integer kind range =>
      simp only [normalizeAnswer, kind, if_pos range]
      rfl
    | choice kind option =>
      simp only [normalizeAnswer, kind, if_pos option]
      rfl
    | choices kind options =>
      simp only [normalizeAnswer, kind, if_pos options]
      rfl

/-- What is made of an answer is made of itself. -/
theorem Normalizes.again {answer value : Value} (h : Normalizes q answer value) : Normalizes q value value := by
  cases h with
  | text kind short =>
    have again := Normalizes.text (q := q) kind ((Points.strip_strip _).symm ▸ short)
    rwa [Points.strip_strip] at again
  | boolean kind => exact .boolean kind
  | integer kind range => exact .integer kind range
  | choice kind option => exact .choice kind option
  | choices kind options => exact .choices kind options

theorem acceptAnswer_eq_ok {answer value : Value} :
    q.acceptAnswer answer = .ok value ↔ Normalizes q answer value ∧ ¬ (q.required = true ∧ isBlank value = true) := by
  simp only [acceptAnswer, bind_eq_ok, normalizeAnswer_eq_ok]
  constructor
  · rintro ⟨made, normalizes, h⟩
    split at h
    · cases h
    · rename_i filled
      cases h
      exact ⟨normalizes, filled⟩
  · rintro ⟨normalizes, filled⟩
    refine ⟨value, normalizes, ?_⟩
    rw [if_neg filled]
    rfl

theorem acceptAnswer_again {answer value : Value} (h : q.acceptAnswer answer = .ok value) :
    q.acceptAnswer value = .ok value := by
  obtain ⟨normalizes, filled⟩ := acceptAnswer_eq_ok.mp h
  exact acceptAnswer_eq_ok.mpr ⟨normalizes.again, filled⟩

/-! ## The answers one after another -/

/-- The run of the loop over the questions. -/
inductive Settles (answers : List (Points × Value)) :
    List RegistrationQuestion → List (Points × Value) → List (Points × Value) → Prop
  | done {n : List (Points × Value)} : Settles answers [] n n
  | inapplicable {q : RegistrationQuestion} {questions : List RegistrationQuestion} {n n' : List (Points × Value)}
      (inactive : q.active n = false) (unanswered : Dict.get? answers q.key = none)
      (rest : Settles answers questions n n') : Settles answers (q :: questions) n n'
  | skipped {q : RegistrationQuestion} {questions : List RegistrationQuestion} {n n' : List (Points × Value)}
      (active : q.active n = true) (unanswered : Dict.get? answers q.key = none) (free : q.required = false)
      (rest : Settles answers questions n n') : Settles answers (q :: questions) n n'
  | answered {q : RegistrationQuestion} {questions : List RegistrationQuestion} {n n' : List (Points × Value)}
      {answer value : Value} (active : q.active n = true) (given : Dict.get? answers q.key = some answer)
      (accepted : q.acceptAnswer answer = .ok value)
      (rest : Settles answers questions (Dict.update q.key value (fun _ => value) n) n') :
      Settles answers (q :: questions) n n'

theorem foldlM_settleAnswer_eq_ok :
    questions.foldlM (settleAnswer answers) n = .ok n' ↔ Settles answers questions n n' := by
  constructor
  · intro h
    induction questions generalizing n with
    | nil =>
      cases h
      exact .done
    | cons q questions ih =>
      rw [List.foldlM_cons, bind_eq_ok] at h
      obtain ⟨m, first, rest⟩ := h
      unfold settleAnswer at first
      split at first
      · cases first
      · rename_i inactive unanswered
        cases first
        exact .inapplicable inactive unanswered (ih rest)
      · rename_i active unanswered
        split at first
        · cases first
        · rename_i free
          cases first
          exact .skipped active unanswered (Bool.eq_false_iff.mpr free) (ih rest)
      · rename_i answer active given
        simp only [bind_eq_ok, pure_eq_ok] at first
        obtain ⟨value, accepted, rfl⟩ := first
        exact .answered active given accepted (ih rest)
  · intro h
    induction h with
    | done => rfl
    | inapplicable inactive unanswered rest ih =>
      simp only [List.foldlM_cons, settleAnswer, inactive, unanswered]
      exact ih
    | skipped active unanswered free rest ih =>
      simp only [List.foldlM_cons, settleAnswer, active, unanswered, free]
      exact ih
    | answered active given accepted rest ih =>
      simp only [List.foldlM_cons, settleAnswer, active, given, accepted]
      exact ih

theorem Settles.append {before after : List RegistrationQuestion} (h : Settles answers (before ++ after) n n') :
    ∃ m, Settles answers before n m ∧ Settles answers after m n' := by
  induction before generalizing n with
  | nil => exact ⟨n, .done, h⟩
  | cons q before ih =>
    cases h with
    | inapplicable inactive unanswered rest =>
      obtain ⟨m, first, second⟩ := ih rest
      exact ⟨m, .inapplicable inactive unanswered first, second⟩
    | skipped active unanswered free rest =>
      obtain ⟨m, first, second⟩ := ih rest
      exact ⟨m, .skipped active unanswered free first, second⟩
    | answered active given accepted rest =>
      obtain ⟨m, first, second⟩ := ih rest
      exact ⟨m, .answered active given accepted first, second⟩

/-- No question still to come has been answered. -/
structure Ahead (questions : List RegistrationQuestion) (n : List (Points × Value)) : Prop where
  distinct : (questions.map (·.key)).Nodup
  unanswered : ∀ k ∈ n.map Prod.fst, k ∉ questions.map (·.key)

theorem Ahead.head (h : Ahead (q :: questions) n) : q.key ∉ n.map Prod.fst := fun hk =>
  h.unanswered _ hk List.mem_cons_self

theorem Ahead.tail (h : Ahead (q :: questions) n) : Ahead questions n :=
  ⟨(List.nodup_cons.mp h.distinct).2, fun k hk hq => h.unanswered k hk (List.mem_cons_of_mem _ hq)⟩

theorem Ahead.answer (h : Ahead (q :: questions) n) (value : Value) : Ahead questions (n ++ [(q.key, value)]) := by
  refine ⟨h.tail.distinct, fun k hk => ?_⟩
  rw [List.map_append, List.mem_append] at hk
  rcases hk with hk | hk
  · exact h.tail.unanswered k hk
  · obtain rfl := List.mem_singleton.mp hk
    exact (List.nodup_cons.mp h.distinct).1

/-- Answers are added, to the questions still to come. -/
theorem Settles.grows (h : Settles answers questions n n') (ahead : Ahead questions n) :
    ∃ added, n' = n ++ added ∧ ∀ k ∈ added.map Prod.fst, k ∈ questions.map (·.key) := by
  induction h with
  | done => exact ⟨[], (List.append_nil _).symm, nofun⟩
  | inapplicable inactive unanswered rest ih =>
    obtain ⟨added, rfl, keys⟩ := ih ahead.tail
    exact ⟨added, rfl, fun k hk => List.mem_cons_of_mem _ (keys k hk)⟩
  | skipped active unanswered free rest ih =>
    obtain ⟨added, rfl, keys⟩ := ih ahead.tail
    exact ⟨added, rfl, fun k hk => List.mem_cons_of_mem _ (keys k hk)⟩
  | @answered q questions n n' answer value active given accepted rest ih =>
    rw [Dict.update_of_not_mem ahead.head] at ih
    obtain ⟨added, rfl, keys⟩ := ih (ahead.answer value)
    refine ⟨(q.key, value) :: added, List.append_assoc .., ?_⟩
    intro k hk
    rcases List.mem_cons.mp hk with rfl | hk
    · exact List.mem_cons_self
    · exact List.mem_cons_of_mem _ (keys k hk)

/-- A question that is not answered has no answer in the end. -/
theorem Settles.get?_none (h : Settles answers questions n n') (ahead : Ahead (q :: questions) n) :
    Dict.get? n' q.key = none := by
  obtain ⟨added, rfl, keys⟩ := h.grows ahead.tail
  rw [Dict.get?_append ahead.head, Dict.get?_eq_none]
  exact fun hk => (List.nodup_cons.mp ahead.distinct).1 (keys _ hk)

/-- The answers that were made are made of themselves. -/
theorem Settles.again (h : Settles answers questions n n') (ahead : Ahead questions n) :
    Settles n' questions n n' := by
  induction h with
  | done => exact .done
  | inapplicable inactive unanswered rest ih => exact .inapplicable inactive (rest.get?_none ahead) (ih ahead.tail)
  | skipped active unanswered free rest ih => exact .skipped active (rest.get?_none ahead) free (ih ahead.tail)
  | @answered q questions n n' answer value active given accepted rest ih =>
    have made : Dict.update q.key value (fun _ => value) n = n ++ [(q.key, value)] := Dict.update_of_not_mem ahead.head
    rw [made] at rest ih
    have there : Dict.get? n' q.key = some value := by
      obtain ⟨added, rfl, -⟩ := rest.grows (ahead.answer value)
      rw [List.append_assoc, Dict.get?_append ahead.head, List.singleton_append, Dict.get?, if_pos rfl]
    exact .answered active there (acceptAnswer_again accepted) (made ▸ ih (ahead.answer value))

/-- The answers to the questions before. -/
def answersTo (before : List RegistrationQuestion) (normalized : List (Points × Value)) : List (Points × Value) :=
  normalized.filter fun e => before.any (·.key = e.1)

/-- A question is answered only where it applies, and where it is required; which questions apply is
decided by the answers before it. -/
theorem Settles.active {before after : List RegistrationQuestion}
    {normalized : List (Points × Value)} (h : Settles answers (before ++ q :: after) [] normalized)
    (distinct : ((before ++ q :: after).map (·.key)).Nodup) :
    (q.key ∈ normalized.map Prod.fst → q.active (answersTo before normalized)) ∧
      (q.active (answersTo before normalized) → q.required → q.key ∈ normalized.map Prod.fst) := by
  obtain ⟨m, first, second⟩ := h.append
  rw [List.map_append, List.nodup_append] at distinct
  obtain ⟨distinctBefore, distinctAfter, apart⟩ := distinct
  have ofBefore : ∀ k ∈ m.map Prod.fst, k ∈ before.map (·.key) := by
    obtain ⟨added, rfl, keys⟩ := first.grows ⟨distinctBefore, nofun⟩
    exact keys
  have ahead : Ahead (q :: after) m := ⟨distinctAfter, fun k hk hq => apart k (ofBefore k hk) k hq rfl⟩
  have earlier : answersTo before normalized = m := by
    obtain ⟨added, rfl, keys⟩ := second.grows ahead
    have kept : m.filter (fun e => before.any (·.key = e.1)) = m := by
      refine List.filter_eq_self.mpr fun e he => ?_
      obtain ⟨r, hr, same⟩ := List.mem_map.mp (ofBefore e.1 (List.mem_map_of_mem he))
      exact List.any_eq_true.mpr ⟨r, hr, decide_eq_true same⟩
    have dropped : added.filter (fun e => before.any (·.key = e.1)) = [] := by
      refine List.filter_eq_nil_iff.mpr fun e he found => ?_
      obtain ⟨r, hr, same⟩ := List.any_eq_true.mp found
      exact apart r.key (List.mem_map_of_mem hr) e.1 (keys e.1 (List.mem_map_of_mem he)) (of_decide_eq_true same)
    rw [answersTo, List.filter_append, kept, dropped, List.append_nil]
  rw [earlier]
  cases second with
  | inapplicable inactive unanswered rest =>
    refine ⟨fun hk => absurd hk (Dict.get?_eq_none.mp (rest.get?_none ahead)), fun active => ?_⟩
    rw [inactive] at active
    cases active
  | skipped active unanswered free rest =>
    refine ⟨fun _ => active, fun _ required => ?_⟩
    rw [free] at required
    cases required
  | @answered _ _ _ _ answer value active given accepted rest =>
    rw [Dict.update_of_not_mem ahead.head] at rest
    obtain ⟨added, rfl, -⟩ := rest.grows (ahead.answer value)
    exact ⟨fun _ => active, fun _ _ => by simp⟩

theorem nodup_askedQuestions (distinct : (questions.map (·.key)).Nodup) (staff : Bool) :
    ((askedQuestions questions staff).map (·.key)).Nodup :=
  (List.filter_sublist.map _).nodup distinct

theorem validateRegistrationAnswers_eq_ok {answers : Value} {staff : Bool}
    {normalized : List (Points × Value)} {schema : List (List (String × Value))} :
    validateRegistrationAnswers questions answers staff = .ok (normalized, schema) ↔
      ∃ items, answers = .dict items ∧ (∀ k ∈ items.map Prod.fst, k ∈ (askedQuestions questions staff).map (·.key)) ∧
        Settles items (askedQuestions questions staff) [] normalized ∧
        schema = (askedQuestions questions staff).map (·.schemaValues) := by
  have known (items : List (Points × Value)) :
      (items.map Prod.fst).filter (fun k => ¬ (askedQuestions questions staff).any (·.key = k)) =
        [] ↔ ∀ k ∈ items.map Prod.fst, k ∈ (askedQuestions questions staff).map (·.key) := by
    simp [List.filter_eq_nil_iff]
  unfold validateRegistrationAnswers
  split
  · rename_i items
    dsimp only
    split
    · rename_i all
      simp only [bind_eq_ok, pure_eq_ok, Prod.mk.injEq, foldlM_settleAnswer_eq_ok]
      constructor
      · rintro ⟨_, settles, rfl, rfl⟩
        exact ⟨items, rfl, (known items).mp all, settles, rfl⟩
      · rintro ⟨_, same, -, settles, rfl⟩
        cases same
        exact ⟨normalized, settles, rfl, rfl⟩
    · rename_i key keys some_
      refine iff_of_false nofun ?_
      rintro ⟨_, same, all, -⟩
      cases same
      rw [(known items).mpr all] at some_
      cases some_
  · rename_i other
    refine iff_of_false nofun ?_
    rintro ⟨items, same, -⟩
    exact other items same

/-- Answers are returned for questions that apply, and for all that are required; which questions
apply is decided by the answers returned to those before. Validating them again returns them. -/
def AnswersSettle (questions : List RegistrationQuestion) : Prop :=
  ∀ answers staff normalized schema, validateRegistrationAnswers questions answers staff = .ok (normalized, schema) →
    (∀ k ∈ normalized.map Prod.fst, k ∈ (askedQuestions questions staff).map (·.key)) ∧
    (∀ before q after, askedQuestions questions staff = before ++ q :: after →
      (q.key ∈ normalized.map Prod.fst → q.active (answersTo before normalized)) ∧
        (q.active (answersTo before normalized) → q.required → q.key ∈ normalized.map Prod.fst)) ∧
    validateRegistrationAnswers questions (.dict normalized) staff = .ok (normalized, schema)

theorem answersSettle (distinct : (questions.map (·.key)).Nodup) : AnswersSettle questions := by
  intro answers staff normalized schema h
  obtain ⟨items, -, -, settles, rfl⟩ := validateRegistrationAnswers_eq_ok.mp h
  have ahead : Ahead (askedQuestions questions staff) [] := ⟨nodup_askedQuestions distinct staff, nofun⟩
  have keys : ∀ k ∈ normalized.map Prod.fst, k ∈ (askedQuestions questions staff).map (·.key) := by
    obtain ⟨added, rfl, keys⟩ := settles.grows ahead
    exact keys
  refine ⟨keys, fun before q after split => ?_, ?_⟩
  · rw [split] at settles
    exact settles.active (split ▸ ahead.distinct)
  · exact validateRegistrationAnswers_eq_ok.mpr ⟨normalized, rfl, keys, settles.again ahead, rfl⟩

/-! ## Conditions that are met -/

/-- An accepted answer to the source meets the question's condition. -/
def MeetsCondition (source q : RegistrationQuestion) : Prop :=
  ∃ answer value, source.acceptAnswer answer = .ok value ∧ normalizedConditionValue (some value) = q.conditionValue

/-- Every conditional edge is satisfiable. -/
def EdgesSatisfiable (questions : List RegistrationQuestion) : Prop :=
  ∀ before q after, questions = before ++ q :: after → q.conditionQuestionKey ≠ [] →
    ∃ source ∈ before, source.key = q.conditionQuestionKey ∧ MeetsCondition source q

/-- A condition on one choice is an option without white space around it. -/
def ChoicesStripped (questions : List RegistrationQuestion) : Prop :=
  ∀ source ∈ questions, ∀ q ∈ questions, source.fieldType = .singleChoice → q.conditionQuestionKey ≠
    [] → q.conditionQuestionKey = source.key → q.conditionValue.strip = q.conditionValue

/-- An accepted condition is met by an accepted answer, unless a choice has
white space around it. -/
theorem meetsCondition_iff {source : RegistrationQuestion}
    (compatible : conditionValueIsCompatible source.fieldType source.options q.conditionValue)
    (some_ : q.conditionValue ≠ []) (short : q.conditionValue.length ≤ maxConditionValueLength) :
    MeetsCondition source q ↔ (source.fieldType = .singleChoice → q.conditionValue.strip = q.conditionValue) := by
  have met {value : Value} (normalizes : Normalizes source value value) (filled : isBlank value = false)
      (same : normalizedConditionValue (some value) = q.conditionValue) : MeetsCondition source q :=
    ⟨value, value, acceptAnswer_eq_ok.mpr ⟨normalizes, fun blank => by simp [filled] at blank⟩, same⟩
  have filled : isBlank (.str q.conditionValue) = false := by
    cases text : q.conditionValue with
    | nil => exact absurd text some_
    | cons c cs => rfl
  cases kind : source.fieldType with
  | shortText | longText =>
    refine iff_of_true ?_ nofun
    have stripped : q.conditionValue.strip = q.conditionValue := by
      simp only [conditionValueIsCompatible, kind, decide_eq_true_eq] at compatible
      exact compatible.2
    have fits : q.conditionValue.strip.length ≤ source.maximum := by
      have least : maxConditionValueLength ≤ source.maximum := by
        unfold RegistrationQuestion.maximum
        split <;> decide
      rw [stripped]
      exact short.trans least
    have normalizes := Normalizes.text (q := source) (by simp only [kind, true_or, or_true]) fits
    rw [stripped] at normalizes
    exact met normalizes filled stripped
  | boolean =>
    refine iff_of_true ?_ nofun
    simp only [conditionValueIsCompatible, kind, decide_eq_true_eq] at compatible
    rcases compatible with yes | no
    · exact @met (.bool true) (.boolean kind) rfl yes.symm
    · exact @met (.bool false) (.boolean kind) rfl no.symm
  | integer =>
    refine iff_of_true ?_ nofun
    simp only [conditionValueIsCompatible, kind] at compatible
    split at compatible
    · cases compatible
    · rename_i n _
      obtain ⟨same, range⟩ := of_decide_eq_true compatible
      exact @met (.int n) (.integer kind range) rfl same
  | singleChoice =>
    simp only [conditionValueIsCompatible, kind, decide_eq_true_eq] at compatible
    constructor
    · rintro ⟨answer, value, accepted, same⟩ -
      -- The answer is an option; what it is compared as has no white space around it.
      cases (acceptAnswer_eq_ok.mp accepted).1 with
      | choice _ option =>
        rw [← same]
        exact Points.strip_strip _
      | text other => simp [kind] at other
      | boolean other | integer other _ | choices other _ =>
        rw [kind] at other
        cases other
    · intro stripped
      exact met (.choice kind compatible) filled (stripped rfl)
  | multipleChoice => simp [conditionValueIsCompatible, kind] at compatible

/-- An accepted condition has its question before it. -/
theorem source_of_validateQuestions {prior : List (Points × RegistrationQuestion)} {seen : List RegistrationQuestion}
    (known : ∀ k source, Dict.get? prior k = some source → source ∈ seen ∧ source.key = k)
    (h : validateQuestions prior questions = .ok ()) {before after : List RegistrationQuestion}
    (split : questions = before ++ q :: after) (conditional : q.conditionQuestionKey ≠ []) :
    ∃ source ∈ seen ++ before, source.key = q.conditionQuestionKey ∧
      conditionValueIsCompatible source.fieldType source.options q.conditionValue := by
  induction questions generalizing prior seen before with
  | nil => simp at split
  | cons r questions ih =>
    have known' : ∀ k source, Dict.get? (Dict.update r.key r (fun _ => r) prior) k = some source →
        source ∈ seen ++ [r] ∧ source.key = k := by
      intro k source found
      rw [Dict.get?_update] at found
      split at found
      · rename_i same
        cases found
        exact ⟨List.mem_append_right _ List.mem_cons_self, same.symm⟩
      · obtain ⟨mem, key⟩ := known k source found
        exact ⟨List.mem_append_left _ mem, key⟩
    have rest : validateQuestions (Dict.update r.key r (fun _ => r) prior) questions = .ok () := by
      unfold validateQuestions at h
      split at h
      · exact h
      · simp only [bind_eq_ok] at h
        obtain ⟨_, -, _, -, _, -, _, -, h⟩ := h
        exact h
    cases before with
    | cons first before =>
      obtain ⟨rfl, tail⟩ := List.cons_eq_cons.mp split
      obtain ⟨source, mem, found⟩ := ih known' rest tail
      exact ⟨source, by rwa [List.append_assoc] at mem, found⟩
    | nil =>
      obtain ⟨rfl, -⟩ := List.cons_eq_cons.mp split
      simp only [validateQuestions, if_neg conditional, bind_eq_ok, getOr_eq_ok, require_eq_ok] at h
      obtain ⟨source, found, _, -, _, -, _, compatible, -⟩ := h
      obtain ⟨mem, key⟩ := known _ source found
      exact ⟨source, List.mem_append_left _ mem, key, compatible⟩

/-- A condition has a value where it has a question. -/
theorem RegistrationQuestion.Saved.conditionValue_ne_nil (h : q.Saved)
    (conditional : q.conditionQuestionKey ≠ []) : q.conditionValue ≠ [] := by
  intro empty
  have cleaned := h.cleaned
  simp only [clean, bind_eq_ok] at cleaned
  obtain ⟨_, -, cleaned⟩ := cleaned
  rw [if_pos (by simp [conditional, empty])] at cleaned
  cases cleaned

/-- The questions of a configuration: each saved, and no two with one key. -/
structure ConfigurationQuestions where
  questions : List RegistrationQuestion
  saved : ∀ q ∈ questions, q.Saved
  distinct : (questions.map (·.key)).Nodup

/-- Every condition is satisfiable exactly if those on one choice are options without
white space around them. -/
theorem edgesSatisfiable_iff (c : ConfigurationQuestions)
    (accepted : validateConfigurationQuestionGraph c.questions = .ok ()) :
    EdgesSatisfiable c.questions ↔ ChoicesStripped c.questions := by
  have edge {before after : List RegistrationQuestion} {q : RegistrationQuestion}
      (split : c.questions = before ++ q :: after) (conditional : q.conditionQuestionKey ≠ []) :
      ∃ source ∈ before, source.key = q.conditionQuestionKey ∧
        (MeetsCondition source q ↔ (source.fieldType = .singleChoice → q.conditionValue.strip = q.conditionValue)) := by
    have saved := c.saved q (by simp [split])
    have none_ : ∀ k source, Dict.get? ([] : List (Points × RegistrationQuestion)) k = some source →
        source ∈ ([] : List RegistrationQuestion) ∧ source.key = k := fun _ _ found => by cases found
    obtain ⟨source, mem, key, compatible⟩ := source_of_validateQuestions none_ accepted split conditional
    exact ⟨source, mem, key, meetsCondition_iff compatible (saved.conditionValue_ne_nil conditional) saved.short⟩
  constructor
  · intro satisfiable source hsource q hq kind conditional key
    obtain ⟨before, after, split⟩ := List.append_of_mem hq
    obtain ⟨other, mem, same, met⟩ := satisfiable before q after split conditional
    obtain ⟨found, mem', same', iff⟩ := edge split conditional
    have unique {r : RegistrationQuestion} (hr : r ∈ before) (keyed : r.key = q.conditionQuestionKey) : r = source :=
      List.inj_on_of_nodup_map c.distinct (by simp [split, hr]) hsource (keyed.trans key)
    obtain rfl := unique mem' same'
    obtain rfl := unique mem same
    exact iff.mp met kind
  · intro stripped before q after split conditional
    obtain ⟨source, mem, key, iff⟩ := edge split conditional
    refine ⟨source, mem, key, iff.mpr fun kind => ?_⟩
    exact stripped source (by simp [split, mem]) q (by simp [split]) kind conditional key.symm

/-- Validated answers settle, for every accepted configuration. Its conditions can all be met
exactly if none of them compares one choice with an option that has white space around it. -/
theorem questions_settle (c : ConfigurationQuestions)
    (accepted : validateConfigurationQuestionGraph c.questions = .ok ()) :
    AnswersSettle c.questions ∧ (EdgesSatisfiable c.questions ↔ ChoicesStripped c.questions) :=
  ⟨answersSettle c.distinct, edgesSatisfiable_iff c accepted⟩

/-- The ticket that is wanted, and the name on its badge where it is `vip`. -/
def ticketQuestion (vip : Points) : RegistrationQuestion where
  key := .ofString "ticket"
  label := .ofString "Ticket"
  helpText := []
  fieldType := .singleChoice
  required := true
  position := 10
  options := [vip, .ofString "Standard"]
  purpose := .ofString "Badges"
  visibility := .attendeeAndStaff
  classification := .personal
  conditionQuestionKey := []
  conditionValue := []
  registrationSection := none

def badgeQuestion (vip : Points) : RegistrationQuestion where
  key := .ofString "badge"
  label := .ofString "Badge"
  helpText := []
  fieldType := .shortText
  required := true
  position := 20
  options := []
  purpose := .ofString "Badges"
  visibility := .attendeeAndStaff
  classification := .personal
  conditionQuestionKey := .ofString "ticket"
  conditionValue := vip
  registrationSection := none

def badges : ConfigurationQuestions where
  questions := [ticketQuestion (.ofString "VIP"), badgeQuestion (.ofString "VIP")]
  saved := List.forall_mem_cons.mpr ⟨⟨rfl, by decide⟩, List.forall_mem_singleton.mpr ⟨rfl, by decide⟩⟩
  distinct := by decide

/-- The same with blanks around the option. -/
def blankBadges : ConfigurationQuestions where
  questions := [ticketQuestion (.ofString " VIP "), badgeQuestion (.ofString " VIP ")]
  saved := List.forall_mem_cons.mpr ⟨⟨rfl, by decide⟩, List.forall_mem_singleton.mpr ⟨rfl, by decide⟩⟩
  distinct := by decide

theorem badges_settle : AnswersSettle badges.questions ∧ EdgesSatisfiable badges.questions := by
  obtain ⟨settles, edges⟩ := questions_settle badges rfl
  refine ⟨settles, edges.mpr ?_⟩
  unfold ChoicesStripped
  decide

/-- No ticket is compared as the option with blanks, so the badge is never asked for. -/
theorem blankBadges_unsatisfiable :
    validateConfigurationQuestionGraph blankBadges.questions = .ok () ∧ ¬ EdgesSatisfiable blankBadges.questions := by
  refine ⟨rfl, fun satisfiable => ?_⟩
  have stripped := (edgesSatisfiable_iff blankBadges rfl).mp satisfiable
  unfold ChoicesStripped at stripped
  revert stripped
  decide

end Maru.Registration
