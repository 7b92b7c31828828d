import Maru.Framework.CodePoints
import Maru.Framework.IsoFormat

/-!
# Reading ISO 8601 texts

`fromisoformat` of dates, times and date-times, as CPython 3.12 reads them: with or without
separators, weeks, a comma for the point of a fraction. The readers are pointers into the UTF-8
bytes of the text, which end with a NUL; a pointer is here what is left of the bytes. What is read
and written again is read the same (`Date.read_text`, `Time.read_text`, `Stamp.read_text`).
-/

namespace Maru.Iso

open Calendar Digits

/-- The NUL behind a text. -/
def nul : Char := Char.ofNat 0

/-- The byte that a pointer points to. -/
def byte (p : List Char) : Char := p.headD nul

def isDigit (c : Char) : Bool := (digitVal? c).isSome

/-! ## Dates -/

structure Date where
  year : Nat
  month : Nat
  day : Nat
  valid : ValidDate year month day

/-- `date.isoformat()` -/
def Date.chars (d : Date) : List Char := pad 4 d.year ++ '-' :: pad 2 d.month ++ '-' :: pad 2 d.day

/-- `weekday`, Monday being 0. -/
def weekday (year month day : Nat) : Nat := (ymdToOrd year month day + 6) % 7

/-- `iso_week1_monday` -/
def isoWeek1Monday (year : Nat) : Nat :=
  let first := weekday year 1 1
  ymdToOrd year 1 1 - first + if 3 < first then 7 else 0

/-- `iso_to_ymd` -/
def isoToYmd (year week day : Nat) : Option (Nat × Nat × Nat) :=
  let long := weekday year 1 1 = 3 ∨ weekday year 1 1 = 2 ∧ isLeap year
  if 1 ≤ year ∧ year ≤ 9999 ∧ 1 ≤ week ∧ (week ≤ 52 ∨ week = 53 ∧ long) ∧ 1 ≤ day ∧ day ≤ 7 then
    some (ordToYmd (isoWeek1Monday year + (week - 1) * 7 + (day - 1)))
  else none

/-- `parse_isoformat_date` of the first `length` bytes. -/
def parseDate (length : Nat) (text : List Char) : Option (Nat × Nat × Nat) := do
  let (year, p) ← readDigits 4 0 text
  let separator := byte p = '-'
  let p := if separator then p.tail else p
  if byte p = 'W' then
    let (week, p) ← readDigits 2 0 p.tail
    if text.length - p.length < length then
      if separator ∧ byte p ≠ '-' then none
      else
        let (day, _) ← readDigits 1 0 (if separator then p.tail else p)
        isoToYmd year week day
    else isoToYmd year week 1
  else
    let (month, p) ← readDigits 2 0 p
    if separator ∧ byte p ≠ '-' then none
    else
      let (day, _) ← readDigits 2 0 (if separator then p.tail else p)
      some (year, month, day)

/-- A date if it is in the calendar. -/
def Date.of (ymd : Nat × Nat × Nat) : Option Date :=
  if h : ValidDate ymd.1 ymd.2.1 ymd.2.2 then some ⟨ymd.1, ymd.2.1, ymd.2.2, h⟩ else none

/-- `date.fromisoformat`; `none` where `ValueError` is raised. -/
def Date.read (text : Points) : Option Date := do
  let bytes ← text.utf8
  if bytes.length = 7 ∨ bytes.length = 8 ∨ bytes.length = 10 then Date.of (← parseDate bytes.length bytes) else none

/-! ## Times -/

/-- A time of day in microseconds, with the offset from UTC if it has one: none below a second but
0. -/
structure Time where
  micros : Nat
  offset : Option Int
  micros_lt : micros < microsPerDay
  offset_lt : ∀ o ∈ offset, -(microsPerDay : Int) < o ∧ o < microsPerDay
  offset_whole : ∀ o ∈ offset, o = 0 ∨ microsPerSecond ≤ o.natAbs

/-- `time.isoformat()` -/
def Time.chars (t : Time) : List Char := clockChars t.micros ++ (t.offset.map offsetChars).getD []

/-- How the loop of `parse_hh_mm_ss_ff` ends: at the end of its bytes, or not quite
(`more`), or before a fraction. -/
inductive PartsEnd where
  | ended (more : Bool)
  | fraction (p : List Char)
deriving DecidableEq

/-- The loop of `parse_hh_mm_ss_ff`, which has still `n` parts to read, over the bytes
before the last `stop`. -/
def parseParts (stop : Nat) : (n : Nat) → (separator : Option Bool) → List Char → Option (List Nat × PartsEnd)
  | 0, _, p => some ([], .fraction p)
  | n + 1, separator, p => do
    let (value, p) ← readDigits 2 0 p
    let separator := separator.getD (byte p = ':')
    if p.tail.length ≤ stop then some ([value], .ended (byte p ≠ nul))
    else if separator ∧ byte p = ':' then
      let (values, rest) ← parseParts stop n (some separator) p.tail
      some (value :: values, rest)
    else if byte p = '.' ∨ byte p = ',' then some ([value], .fraction p.tail)
    else if separator then none
    else
      let (values, rest) ← parseParts stop n (some separator) p
      some (value :: values, rest)

/-- Hours, minutes, seconds and microseconds. -/
structure Parts where
  hour : Nat
  minute : Nat
  second : Nat
  microsecond : Nat

def Parts.of (values : List Nat) (microsecond : Nat) : Parts :=
  ⟨values.getD 0 0, values.getD 1 0, values.getD 2 0, microsecond⟩

/-- `parse_hh_mm_ss_ff` of the bytes before the last `stop`, and whether
something is left of them. -/
def parseHhMmSsFf (stop : Nat) (p : List Char) : Option (Parts × Bool) := do
  match ← parseParts stop 3 none p with
  | (values, .ended more) => some (Parts.of values 0, more)
  | (values, .fraction p) =>
    let width := min (p.length - stop) 6
    let (fraction, p) ← readDigits width 0 p
    some (Parts.of values (fraction * 10 ^ (6 - width)), byte (p.dropWhile isDigit) ≠ nul)

/-- Where the offset starts. -/
def isOffsetStart (c : Char) : Bool := c = '+' ∨ c = '-' ∨ c = 'Z'

/-- `parse_isoformat_time`: the parts of the time, and those of its offset with
whether it is negative. -/
def parseTime (text : List Char) : Option (Parts × Option (Bool × Parts)) := do
  let zone := text.dropWhile fun c => !isOffsetStart c
  let (time, more) ← parseHhMmSsFf zone.length text
  match zone with
  | [] => if more then none else some (time, none)
  | sign :: rest =>
    if sign = 'Z' then if byte rest ≠ nul then none else some (time, some (false, ⟨0, 0, 0, 0⟩))
    else
      let (offset, more) ← parseHhMmSsFf 0 rest
      if more then none else some (time, some (sign = '-', offset))

/-- `tzinfo_from_isoformat_results`: an offset of whole seconds that are 0 is UTC. -/
def offsetMicros (negative : Bool) (parts : Parts) : Int :=
  let seconds := parts.hour * 3600 + parts.minute * 60 + parts.second
  let micros := seconds * microsPerSecond + parts.microsecond
  if seconds = 0 then 0 else if negative then -micros else micros

theorem offsetMicros_whole (negative : Bool) (parts : Parts) :
    offsetMicros negative parts = 0 ∨ microsPerSecond ≤ (offsetMicros negative parts).natAbs := by
  simp only [offsetMicros, microsPerSecond]
  split
  · exact .inl rfl
  · right
    split <;> omega

def Parts.micros (parts : Parts) : Nat :=
  ((parts.hour * 60 + parts.minute) * 60 + parts.second) * microsPerSecond + parts.microsecond

def Parts.InRange (parts : Parts) : Prop :=
  parts.hour < 24 ∧ parts.minute < 60 ∧ parts.second < 60 ∧ parts.microsecond < microsPerSecond

instance (parts : Parts) : Decidable parts.InRange := inferInstanceAs (Decidable (_ ∧ _))

theorem Parts.InRange.micros_lt {parts : Parts} (h : parts.InRange) : parts.micros < microsPerDay := by
  obtain ⟨hour, minute, second, microsecond⟩ := h
  unfold microsPerSecond at microsecond
  unfold Parts.micros microsPerDay microsPerSecond
  omega

/-- A time of day if its parts are in range. -/
def Time.of (parsed : Parts × Option (Bool × Parts)) : Option Time :=
  let offset := parsed.2.map fun offset => offsetMicros offset.1 offset.2
  if h : parsed.1.InRange ∧ ∀ o ∈ offset, -(microsPerDay : Int) < o ∧ o < microsPerDay then
    some ⟨parsed.1.micros, offset, h.1.micros_lt, h.2, fun o ho => by
      obtain ⟨parts, -, rfl⟩ := Option.map_eq_some_iff.mp ho
      exact offsetMicros_whole parts.1 parts.2⟩
  else none

/-- `time.fromisoformat`; `none` where `ValueError` is raised. -/
def Time.read (text : Points) : Option Time := do
  let bytes ← text.utf8
  Time.of (← parseTime (if byte bytes = 'T' then bytes.tail else bytes))

/-! ## Date-times -/

structure Stamp where
  date : Date
  time : Time

/-- `datetime.isoformat()` -/
def Stamp.chars (s : Stamp) : List Char := s.date.chars ++ 'T' :: s.time.chars

/-- `_sanitize_isoformat_str`: where the time begins a surrogate may stand. -/
def sanitize (text : Points) : Points :=
  match [7, 8, 10].find? fun i => text[i]?.any CodePoint.isSurrogate with
  | some i => text.set i (.ofChar 'T')
  | none => text

/-- `_find_isoformat_datetime_separator` -/
def separatorLocation (bytes : List Char) : Option Nat :=
  let byteAt := fun i => bytes.getD i nul
  if bytes.length = 7 then some 7
  else if byteAt 4 = '-' then
    if byteAt 5 = 'W' then
      if 8 < bytes.length ∧ byteAt 8 = '-' then
        if bytes.length = 9 then none else if 10 < bytes.length ∧ isDigit (byteAt 10) then some 8 else some 10
      else some 8
    else some 10
  else if byteAt 4 = 'W' then
    let position := 7 + ((bytes.drop 7).takeWhile isDigit).length
    if position < 9 then some position else if position % 2 = 0 then some 7 else some 8
  else some 8

/-- Behind the code point that a pointer points to. -/
def skipPoint (p : List Char) : List Char :=
  let first := (byte p).toNat
  p.drop (if first < 0x80 then 1 else if first / 16 = 0xe then 3 else if first / 16 = 0xf then 4 else 2)

/-- `datetime.fromisoformat`; `none` where `ValueError` is raised. -/
def Stamp.read (text : Points) : Option Stamp := do
  if text.length < 7 then none
  else
    let bytes ← (sanitize text).utf8
    let location ← separatorLocation bytes
    let ymd ← parseDate location bytes
    let time ← if location < bytes.length then parseTime (skipPoint (bytes.drop location)) else some (⟨0, 0, 0, 0⟩, none)
    some ⟨← Date.of ymd, ← Time.of time⟩

/-! ## What is written is read back -/

/-- Digits are ASCII, and none of the characters between the parts. -/
theorem digitChar_spec : ∀ d < 10, digitChar d ≠ 'W' ∧ digitChar d ≠ 'T' ∧
    isOffsetStart (digitChar d) = false ∧ (digitChar d).toNat < 0x80 := by decide

theorem ascii_pad {width n : Nat} : ∀ c ∈ pad width n, c.toNat < 0x80 := by
  intro c hc
  obtain ⟨d, hd, rfl⟩ := mem_padBase 10 digitChar (by omega) hc
  exact (digitChar_spec d hd).2.2.2

theorem Date.ascii (d : Date) : ∀ c ∈ d.chars, c.toNat < 0x80 := by
  have dash : '-'.toNat < 0x80 := by decide
  intro c hc
  simp only [Date.chars, List.mem_append, List.mem_cons] at hc
  rcases hc with ((h | rfl | h) | rfl | h)
  · exact ascii_pad c h
  · exact dash
  · exact ascii_pad c h
  · exact dash
  · exact ascii_pad c h

theorem Date.length_chars (d : Date) : d.chars.length = 10 := by
  simp only [Date.chars, List.length_append, List.length_cons, length_padBase]

theorem parseDate_chars (d : Date) (length : Nat) (rest : List Char) :
    parseDate length (d.chars ++ rest) = some (d.year, d.month, d.day) := by
  obtain ⟨-, year, -, month, -, day⟩ := d.valid
  have days := daysInMonth_le (isLeap d.year) d.month month
  have noWeek : byte (pad 2 d.month ++ '-' :: (pad 2 d.day ++ rest)) ≠ 'W' :=
    (digitChar_spec (d.month / 10 ^ 1 % 10) (Nat.mod_lt _ (by omega))).1
  have dash (p : List Char) : byte ('-' :: p) = '-' := rfl
  unfold parseDate Date.chars
  simp only [List.append_assoc, List.cons_append, Option.bind_eq_bind, readDigits_pad (show d.year < 10 ^ 4 by omega),
    Option.bind_some, dash, if_true, List.tail_cons, noWeek, if_false, readDigits_pad (show d.month < 10 ^ 2 by omega),
    ne_eq, not_true_eq_false, and_false, readDigits_pad (show d.day < 10 ^ 2 by omega)]

theorem Date.of_self (d : Date) : Date.of (d.year, d.month, d.day) = some d := by
  unfold Date.of
  exact dif_pos d.valid

def Date.text (d : Date) : Points := d.chars.map CodePoint.ofChar

theorem Date.read_text (d : Date) : Date.read d.text = some d := by
  have parsed := parseDate_chars d 10 []
  rw [List.append_nil] at parsed
  have lengths : d.chars.length = 7 ∨ d.chars.length = 8 ∨ d.chars.length = 10 := .inr (.inr d.length_chars)
  unfold Date.read Date.text
  simp only [Points.utf8_map d.ascii, Option.bind_eq_bind, Option.bind_some]
  rw [if_pos lengths, d.length_chars, parsed, Option.bind_some, d.of_self]

/-! ### Parts -/

section

variable {stop n value : Nat} {separator : Option Bool} {p rest : List Char}

theorem parseParts_colon (small : value < 100) (separated : separator ≠ some false)
    (inside : stop < p.length) : parseParts stop (n + 1) separator (pad 2 value ++ ':' :: p) =
      (parseParts stop n (some true) p).map fun parsed => (value :: parsed.1, parsed.2) := by
  have same : separator.getD true = true := by
    cases separator with
    | none => rfl
    | some b => cases b with
      | false => exact absurd rfl separated
      | true => rfl
  have colon : byte (':' :: p) = ':' := rfl
  rw [parseParts]
  simp only [readDigits_pad (show value < 10 ^ 2 from small), Option.bind_eq_bind, Option.bind_some,
    colon, decide_true, same, List.tail_cons, Nat.not_le.mpr inside, if_false, and_self, if_true]
  cases parseParts stop n (some true) p <;> rfl

theorem parseParts_last (small : value < 100) (last : rest.tail.length ≤ stop) :
    parseParts stop (n + 1) separator (pad 2 value ++ rest) = some ([value], .ended (byte rest ≠ nul)) := by
  rw [parseParts]
  simp only [readDigits_pad (show value < 10 ^ 2 from small), Option.bind_eq_bind, Option.bind_some, last, if_true]

theorem parseParts_fraction (small : value < 100) (inside : stop < p.length) :
    parseParts stop (n + 1) (some true) (pad 2 value ++ '.' :: p) = some ([value], .fraction p) := by
  have point : byte ('.' :: p) = '.' := rfl
  have other : ¬ '.' = ':' := by decide
  rw [parseParts]
  simp only [readDigits_pad (show value < 10 ^ 2 from small), Option.bind_eq_bind, Option.bind_some,
    point, List.tail_cons, Nat.not_le.mpr inside, if_false, other, and_false, true_or, if_true]

end

/-- A clock reading and what comes behind it, which goes on with an offset or not at all. -/
theorem parseHhMmSsFf_clockChars {micros : Nat} (small : micros < microsPerDay) (rest : List Char)
    (zone : ∀ c ∈ rest.head?, isOffsetStart c = true) :
    ∃ parts more, parseHhMmSsFf rest.length (clockChars micros ++ rest) = some (parts, more) ∧
      parts.InRange ∧ parts.micros = micros ∧ (rest = [] → more = false) := by
  obtain ⟨s, hs⟩ : ∃ s, micros / microsPerSecond = s := ⟨_, rfl⟩
  obtain ⟨f, hf⟩ : ∃ f, micros % microsPerSecond = f := ⟨_, rfl⟩
  have whole := Nat.div_add_mod' micros microsPerSecond
  rw [hs, hf] at whole
  have fraction : f < microsPerSecond := hf ▸ Nat.mod_lt _ (by decide)
  have seconds : s < 86400 := by
    unfold microsPerDay microsPerSecond at small
    unfold microsPerSecond at whole
    omega
  have tail : rest.tail.length ≤ rest.length := by rw [List.length_tail]; omega
  have micros_eq : ((s / 3600 * 60 + s / 60 % 60) * 60 + s % 60) * microsPerSecond + f = micros := by
    rw [seconds_split, whole]
  have hours : s / 3600 < 24 := by omega
  have inRange : Parts.InRange ⟨s / 3600, s / 60 % 60, s % 60, f⟩ :=
    ⟨hours, Nat.mod_lt _ (by omega), Nat.mod_lt _ (by omega), fraction⟩
  have opening (p : List Char) (inside : rest.length < p.length) :
      parseParts rest.length 3 none (pad 2 (s / 3600) ++ ':' :: (pad 2 (s / 60 % 60) ++ ':' :: p)) =
        (parseParts rest.length 1 (some true) p).map fun parsed =>
          (s / 3600 :: s / 60 % 60 :: parsed.1, parsed.2) := by
    rw [parseParts_colon (by omega) (by simp)
      (by simp only [List.length_append, List.length_cons, length_padBase]; omega),
      parseParts_colon (by omega) (by simp) inside, Option.map_map]
    rfl
  unfold clockChars
  simp only [hs, hf, List.append_assoc, List.cons_append]
  by_cases none_ : f = 0
  · have inside : rest.length < (pad 2 (s % 60) ++ rest).length := by
      rw [List.length_append, length_padBase]
      omega
    refine ⟨⟨s / 3600, s / 60 % 60, s % 60, f⟩, byte rest ≠ nul, ?_, inRange, micros_eq, ?_⟩
    · rw [if_pos none_, List.nil_append, parseHhMmSsFf, opening _ inside, parseParts_last (by omega) tail, none_]
      rfl
    · intro nothing
      rw [nothing]
      rfl
  · have inside : rest.length < (pad 2 (s % 60) ++ ('.' :: (pad 6 f ++ rest))).length := by
      simp only [List.length_append, List.length_cons, length_padBase]
      omega
    have within : rest.length < (pad 6 f ++ rest).length := by
      rw [List.length_append, length_padBase]
      omega
    have six : min ((pad 6 f ++ rest).length - rest.length) 6 = 6 := by
      rw [List.length_append, length_padBase]
      omega
    have kept : rest.dropWhile isDigit = rest := by
      cases rest with
      | nil => rfl
      | cons c rest =>
        refine List.dropWhile_cons_of_neg fun digit => ?_
        have starts := zone c rfl
        simp only [isOffsetStart, decide_eq_true_eq] at starts
        rcases starts with rfl | rfl | rfl
        · cases digit
        · cases digit
        · cases digit
    refine ⟨⟨s / 3600, s / 60 % 60, s % 60, f⟩, byte rest ≠ nul, ?_, inRange, micros_eq, ?_⟩
    · rw [if_neg none_, List.cons_append, parseHhMmSsFf, opening _ inside, parseParts_fraction (by omega) within]
      simp only [Option.map_some, Option.bind_eq_bind, Option.bind_some, six,
        readDigits_pad (show f < 10 ^ 6 from fraction), kept, Nat.sub_self, Nat.pow_zero, Nat.mul_one]
      rfl
    · intro nothing
      rw [nothing]
      rfl

/-- An offset is read as the parts it is written with. -/
theorem parseHhMmSsFf_offset {o : Int} (lower : -(microsPerDay : Int) < o)
    (upper : o < microsPerDay) (whole : o = 0 ∨ microsPerSecond ≤ o.natAbs) :
    ∃ parts, parseHhMmSsFf 0 (offsetChars o).tail = some (parts, false) ∧ offsetMicros (decide (o < 0)) parts = o := by
  obtain ⟨s, hs⟩ : ∃ s, o.natAbs / microsPerSecond = s := ⟨_, rfl⟩
  obtain ⟨f, hf⟩ : ∃ f, o.natAbs % microsPerSecond = f := ⟨_, rfl⟩
  have split := Nat.div_add_mod' o.natAbs microsPerSecond
  rw [hs, hf] at split
  have fraction : f < microsPerSecond := hf ▸ Nat.mod_lt _ (by decide)
  have seconds : s < 86400 := by
    have small : o.natAbs < 86400 * 1000000 := by
      have day : (microsPerDay : Int) = 86400 * 1000000 := rfl
      omega
    unfold microsPerSecond at split
    omega
  have value : offsetMicros (decide (o < 0)) ⟨s / 3600, s / 60 % 60, s % 60, f⟩ = o := by
    have back : s / 3600 * 3600 + s / 60 % 60 * 60 + s % 60 = s := by omega
    simp only [offsetMicros, back, split, decide_eq_true_eq]
    unfold microsPerSecond at whole split fraction
    split_ifs <;> omega
  refine ⟨⟨s / 3600, s / 60 % 60, s % 60, f⟩, ?_, value⟩
  unfold offsetChars
  simp only [hs, hf, List.cons_append, List.append_assoc, List.tail_cons, offsetSecondsChars]
  by_cases short : s % 60 = 0 ∧ f = 0
  · have inside : 0 < (pad 2 (s / 60 % 60) ++ []).length := by
      rw [List.length_append, length_padBase]
      omega
    rw [if_pos short, short.1, short.2, parseHhMmSsFf, parseParts_colon (by omega) (by simp) inside,
      parseParts_last (by omega) (Nat.le_refl 0)]
    rfl
  · rw [if_neg short]
    by_cases none_ : f = 0
    · have last : 0 < (pad 2 (s % 60) ++ []).length := by
        rw [List.length_append, length_padBase]
        omega
      rw [if_pos none_, parseHhMmSsFf, parseParts_colon (by omega) (by simp)
        (by simp only [List.length_append, List.length_cons, length_padBase]; omega),
        parseParts_colon (by omega) (by simp) last, parseParts_last (by omega) (Nat.le_refl 0), none_]
      rfl
    · have some_ : 0 < (pad 6 f).length := by rw [length_padBase]; omega
      have inside : 0 < (pad 2 (s % 60) ++ '.' :: pad 6 f).length := by
        rw [List.length_append, length_padBase]
        omega
      have digits := readDigits_pad (show f < 10 ^ 6 from fraction) []
      rw [List.append_nil] at digits
      rw [if_neg none_, parseHhMmSsFf, parseParts_colon (by omega) (by simp)
        (by simp only [List.length_append, List.length_cons, length_padBase]; omega),
        parseParts_colon (by omega) (by simp) inside, parseParts_fraction (by omega) some_]
      simp only [Option.map_some, Option.bind_eq_bind, Option.bind_some, length_padBase,
        Nat.sub_zero, Nat.min_self, digits, Nat.sub_self, Nat.pow_zero, Nat.mul_one]
      rfl

/-! ### Times -/

theorem ascii_clockChars (micros : Nat) : ∀ c ∈ clockChars micros, isOffsetStart c = false ∧ c.toNat < 0x80 := by
  have plain (c : Char) (h : c = ':' ∨ c = '.') : isOffsetStart c = false ∧ c.toNat < 0x80 := by
    rcases h with rfl | rfl <;> decide
  have digits {width n : Nat} {c : Char} (h : c ∈ pad width n) : isOffsetStart c = false ∧ c.toNat < 0x80 := by
    obtain ⟨d, hd, rfl⟩ := mem_padBase 10 digitChar (by omega) h
    exact (digitChar_spec d hd).2.2
  intro c hc
  unfold clockChars at hc
  simp only [List.mem_append, List.mem_cons] at hc
  rcases hc with ((h | rfl | h) | rfl | h) | h
  · exact digits h
  · exact plain _ (by simp)
  · exact digits h
  · exact plain _ (by simp)
  · exact digits h
  · split at h
    · cases h
    · rcases List.mem_cons.mp h with rfl | h
      · exact plain _ (by simp)
      · exact digits h

theorem ascii_offsetChars (o : Int) : ∀ c ∈ offsetChars o, c.toNat < 0x80 := by
  have plain (c : Char) (h : c = ':' ∨ c = '.' ∨ c = '+' ∨ c = '-') : c.toNat < 0x80 := by
    rcases h with rfl | rfl | rfl | rfl <;> decide
  intro c hc
  unfold offsetChars offsetSecondsChars at hc
  simp only [List.mem_append, List.mem_cons] at hc
  rcases hc with ((rfl | h) | rfl | h) | h
  · split
    · exact plain _ (by simp)
    · exact plain _ (by simp)
  · exact ascii_pad c h
  · exact plain _ (by simp)
  · exact ascii_pad c h
  · split at h
    · cases h
    · rcases List.mem_append.mp h with h | h
      · rcases List.mem_cons.mp h with rfl | h
        · exact plain _ (by simp)
        · exact ascii_pad c h
      · split at h
        · cases h
        · rcases List.mem_cons.mp h with rfl | h
          · exact plain _ (by simp)
          · exact ascii_pad c h

theorem Time.ascii (t : Time) : ∀ c ∈ t.chars, c.toNat < 0x80 := by
  intro c hc
  rcases List.mem_append.mp hc with h | h
  · exact (ascii_clockChars _ c h).2
  · cases offset : t.offset with
    | none =>
      rw [offset] at h
      cases h
    | some o =>
      rw [offset] at h
      exact ascii_offsetChars o c h

theorem Time.of_parsed (t : Time) {parts : Parts} (inRange : parts.InRange) (micros : parts.micros = t.micros)
    {offset : Option (Bool × Parts)} (offsets : offset.map (fun offset => offsetMicros offset.1 offset.2) = t.offset) :
    Time.of (parts, offset) = some t := by
  unfold Time.of
  have range : parts.InRange ∧ ∀ o ∈ offset.map (fun offset => offsetMicros offset.1 offset.2),
      -(microsPerDay : Int) < o ∧ o < microsPerDay := by
    rw [offsets]
    exact ⟨inRange, t.offset_lt⟩
  rw [dif_pos range, Option.some.injEq]
  cases t
  simp only [Time.mk.injEq]
  exact ⟨micros, offsets⟩

theorem parseTime_chars (t : Time) : (parseTime t.chars).bind Time.of = some t := by
  have clock : ∀ c ∈ clockChars t.micros, (!isOffsetStart c) = true := fun c hc => by
    rw [(ascii_clockChars _ c hc).1]
    rfl
  cases zone : t.offset with
  | none =>
    obtain ⟨parts, more, parsed, inRange, micros, ended⟩ :=
      parseHhMmSsFf_clockChars t.micros_lt [] (fun c hc => by cases hc)
    rw [ended rfl, List.append_nil] at parsed
    have nothing : (clockChars t.micros).dropWhile (fun c => !isOffsetStart c) = [] :=
      List.dropWhile_eq_nil_iff.mpr clock
    unfold parseTime Time.chars
    simp only [zone, Option.map_none, Option.getD_none, List.append_nil, nothing, parsed,
      Option.bind_eq_bind, Option.bind_some, Bool.false_eq_true, if_false]
    exact t.of_parsed inRange micros zone.symm
  | some o =>
    obtain ⟨lower, upper⟩ := t.offset_lt o zone
    obtain ⟨offset, offsetParsed, value⟩ := parseHhMmSsFf_offset lower upper (t.offset_whole o zone)
    obtain ⟨sign, starts, isSign⟩ : ∃ sign, offsetChars o = sign :: (offsetChars o).tail ∧
        sign = if o < 0 then '-' else '+' := ⟨_, rfl, rfl⟩
    have other : isOffsetStart sign = true ∧ sign ≠ 'Z' ∧ decide (sign = '-') = decide (o < 0) := by
      rw [isSign]
      split
      · rename_i negative
        exact ⟨rfl, by decide, by simp [negative]⟩
      · rename_i positive
        exact ⟨rfl, by decide, by simp [positive]⟩
    obtain ⟨parts, more, parsed, inRange, micros, -⟩ :=
      parseHhMmSsFf_clockChars t.micros_lt (offsetChars o) fun c hc => by
        rw [starts, List.head?_cons, Option.mem_some_iff] at hc
        exact hc ▸ other.1
    have rest : (clockChars t.micros ++ offsetChars o).dropWhile (fun c => !isOffsetStart c) = offsetChars o := by
      rw [List.dropWhile_append_of_pos clock, starts, List.dropWhile_cons_of_neg (by rw [other.1]; decide)]
    unfold parseTime Time.chars
    simp only [zone, Option.map_some, Option.getD_some, rest, parsed, Option.bind_eq_bind, Option.bind_some]
    rw [starts]
    simp only [other.2.1, if_false, offsetParsed, Option.bind_some, Bool.false_eq_true]
    refine t.of_parsed inRange micros ?_
    rw [Option.map_some, other.2.2, value, zone]

def Time.text (t : Time) : Points := t.chars.map CodePoint.ofChar

theorem Time.byte_chars (t : Time) : byte t.chars ≠ 'T' :=
  (digitChar_spec (t.micros / microsPerSecond / 3600 / 10 ^ 1 % 10) (Nat.mod_lt _ (by omega))).2.1

theorem Time.read_text (t : Time) : Time.read t.text = some t := by
  have parsed := parseTime_chars t
  unfold Time.read Time.text
  simp only [Points.utf8_map t.ascii, Option.bind_eq_bind, Option.bind_some]
  rw [if_neg t.byte_chars]
  exact parsed

/-! ### Date-times -/

theorem Stamp.ascii (s : Stamp) : ∀ c ∈ s.chars, c.toNat < 0x80 := by
  intro c hc
  rcases List.mem_append.mp hc with h | h
  · exact s.date.ascii c h
  · rcases List.mem_cons.mp h with rfl | h
    · decide
    · exact s.time.ascii c h

def Stamp.text (s : Stamp) : Points := s.chars.map CodePoint.ofChar

theorem sanitize_map (cs : List Char) : sanitize (cs.map CodePoint.ofChar) = cs.map CodePoint.ofChar := by
  have none_ : [7, 8, 10].find? (fun i => (cs.map CodePoint.ofChar)[i]?.any CodePoint.isSurrogate) = none := by
    rw [List.find?_eq_none]
    intro i _
    rw [List.getElem?_map]
    cases cs[i]? with
    | none => simp
    | some c => simp
  rw [sanitize, none_]

theorem separatorLocation_chars (s : Stamp) : separatorLocation s.chars = some 10 := by
  have long : s.chars.length ≠ 7 := by
    rw [Stamp.chars, List.length_append, s.date.length_chars]
    omega
  have dash : s.chars.getD 4 nul = '-' := rfl
  have digit : s.chars.getD 5 nul ≠ 'W' :=
    (digitChar_spec (s.date.month / 10 ^ 1 % 10) (Nat.mod_lt _ (by omega))).1
  simp only [separatorLocation, if_neg long, dash, if_true, if_neg digit]

theorem Stamp.read_text (s : Stamp) : Stamp.read s.text = some s := by
  have length : s.chars.length = 11 + s.time.chars.length := by
    rw [Stamp.chars, List.length_append, s.date.length_chars, List.length_cons]
    omega
  have date : parseDate 10 s.chars = some (s.date.year, s.date.month, s.date.day) := parseDate_chars s.date 10 _
  have rest : skipPoint (s.chars.drop 10) = s.time.chars := by
    have drop : s.chars.drop 10 = 'T' :: s.time.chars := by
      rw [Stamp.chars, List.drop_append, s.date.length_chars, List.drop_eq_nil_of_le (by rw [s.date.length_chars])]
      rfl
    rw [drop]
    rfl
  have time := parseTime_chars s.time
  obtain ⟨parsed, parses, ok⟩ := Option.bind_eq_some_iff.mp time
  unfold Stamp.read Stamp.text
  simp only [List.length_map, length, sanitize_map, Points.utf8_map s.ascii,
    separatorLocation_chars, Option.bind_eq_bind, Option.bind_some, date, rest]
  rw [if_neg (by omega), if_pos (by omega), parses, Option.bind_some, s.date.of_self,
    Option.bind_some, ok, Option.bind_some]

end Maru.Iso
