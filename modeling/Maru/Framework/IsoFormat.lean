import Maru.Framework.Calendar
import Maru.Framework.Digits

/-!
# ISO 8601 text of date-times

`isoformat` writes `YYYY-MM-DDTHH:MM:SS[.ffffff][±HH:MM[:SS[.ffffff]]]`; `fromIsoformat`
reads that form back (`fromIsoformat_isoformat`). The parts are read one after another:
each reader takes what its writer put in front and leaves the rest.
-/

namespace Maru.Calendar

open Digits

/-! ## Clock readings -/

/-- `HH:MM:SS[.ffffff]`, the fraction only when there is one. -/
def clockChars (t : Nat) : List Char :=
  let seconds := t / microsPerSecond
  pad 2 (seconds / 3600) ++ ':' :: pad 2 (seconds / 60 % 60) ++ ':' :: pad 2 (seconds % 60) ++
    if t % microsPerSecond = 0 then [] else '.' :: pad 6 (t % microsPerSecond)

/-- The seconds of an offset: `[:SS[.ffffff]]`, only when there are some. -/
def offsetSecondsChars (s f : Nat) : List Char :=
  if s = 0 ∧ f = 0 then [] else ':' :: pad 2 s ++ if f = 0 then [] else '.' :: pad 6 f

/-- An offset from UTC: `±HH:MM[:SS[.ffffff]]`. -/
def offsetChars (o : Int) : List Char :=
  let seconds := o.natAbs / microsPerSecond
  (if o < 0 then '-' else '+') :: pad 2 (seconds / 3600) ++ ':' :: pad 2 (seconds / 60 % 60) ++
    offsetSecondsChars (seconds % 60) (o.natAbs % microsPerSecond)

def dateChars (day : Nat) : List Char :=
  let (y, m, d) := ordToYmd (day + 1)
  pad 4 y ++ '-' :: pad 2 m ++ '-' :: pad 2 d

def DateTime.isoChars (d : DateTime) : List Char :=
  dateChars (d.wall / microsPerDay) ++ 'T' :: clockChars (d.wall % microsPerDay) ++
    (d.offset.map offsetChars).getD []

/-- `datetime.isoformat()`. -/
def DateTime.isoformat (d : DateTime) : String := String.ofList d.isoChars

/-! ## Reading -/

/-- Read the character `c`. -/
def expect (c : Char) : List Char → Option (List Char)
  | [] => none
  | x :: xs => if x = c then some xs else none

@[simp] theorem expect_cons (c : Char) (cs : List Char) : expect c (c :: cs) = some cs := by
  simp [expect]

/-- Read an optional fraction of a second. -/
def readFraction (cs : List Char) : Option (Nat × List Char) :=
  match cs with
  | '.' :: cs => readDigits 6 0 cs
  | cs => some (0, cs)

/-- Read `HH:MM`. -/
def readHourMinute (cs : List Char) : Option (Nat × Nat × List Char) := do
  let (h, cs) ← readDigits 2 0 cs
  let cs ← expect ':' cs
  let (m, cs) ← readDigits 2 0 cs
  if h < 24 ∧ m < 60 then some (h, m, cs) else none

/-- Read `:SS[.ffffff]`. -/
def readSeconds (cs : List Char) : Option (Nat × List Char) := do
  let cs ← expect ':' cs
  let (s, cs) ← readDigits 2 0 cs
  let (f, cs) ← readFraction cs
  if s < 60 then some (s * microsPerSecond + f, cs) else none

def readClock (cs : List Char) : Option (Nat × List Char) := do
  let (h, m, cs) ← readHourMinute cs
  let (s, cs) ← readSeconds cs
  some ((h * 60 + m) * 60 * microsPerSecond + s, cs)

def readSign (cs : List Char) : Option (Int × List Char) :=
  match cs with
  | '+' :: cs => some (1, cs)
  | '-' :: cs => some (-1, cs)
  | _ => none

def readOptionalSeconds (cs : List Char) : Option (Nat × List Char) :=
  match cs with
  | [] => some (0, [])
  | cs => readSeconds cs

/-- Read the offset that ends a date-time, if there is one. -/
def readOffset (cs : List Char) : Option (Option Int) :=
  match cs with
  | [] => some none
  | cs => do
    let (sign, cs) ← readSign cs
    let (h, m, cs) ← readHourMinute cs
    let (s, cs) ← readOptionalSeconds cs
    if cs = [] then some (some (sign * ((h * 60 + m) * 60 * microsPerSecond + s : Nat))) else none

def readDate (cs : List Char) : Option (Nat × List Char) := do
  let (y, cs) ← readDigits 4 0 cs
  let cs ← expect '-' cs
  let (m, cs) ← readDigits 2 0 cs
  let cs ← expect '-' cs
  let (d, cs) ← readDigits 2 0 cs
  if ValidDate y m d then some (ymdToOrd y m d - 1, cs) else none

/-- `datetime.fromisoformat` on the text `isoformat` writes; nothing on any other text. -/
def fromIsoformat (text : String) : Option DateTime := do
  let (day, cs) ← readDate text.toList
  let cs ← expect 'T' cs
  let (clock, cs) ← readClock cs
  let offset ← readOffset cs
  if h : day * microsPerDay + clock < maxMicros ∧
      ∀ o ∈ offset, -(microsPerDay : Int) < o ∧ o < microsPerDay then
    some ⟨day * microsPerDay + clock, offset, h.1, h.2⟩
  else none

/-! ## What is written is read back -/

theorem readDate_dateChars {day : Nat} (h : day < maxOrdinal) (rest : List Char) :
    readDate (dateChars day ++ rest) = some (day, rest) := by
  obtain ⟨hv, ho⟩ := ordToYmd_spec (n := day + 1) (by omega) (by omega)
  unfold dateChars
  generalize ordToYmd (day + 1) = ymd at hv ho ⊢
  obtain ⟨y, m, d⟩ := ymd
  dsimp only at hv ho ⊢
  have hd := daysInMonth_le (isLeap y) m hv.2.2.2.1
  obtain ⟨hy1, hy2, hm1, hm2, hd1, hd2⟩ := hv
  unfold readDate
  simp only [List.append_assoc, List.cons_append, Option.bind_eq_bind,
    readDigits_pad (show y < 10 ^ 4 by omega), readDigits_pad (show m < 10 ^ 2 by omega),
    readDigits_pad (show d < 10 ^ 2 by omega), Option.bind_some, expect_cons]
  rw [if_pos ⟨hy1, hy2, hm1, hm2, hd1, hd2⟩, ho, Nat.add_sub_cancel]

theorem readHourMinute_pad {h m : Nat} (hh : h < 24) (hm : m < 60) (rest : List Char) :
    readHourMinute (pad 2 h ++ ':' :: (pad 2 m ++ rest)) = some (h, m, rest) := by
  unfold readHourMinute
  simp only [Option.bind_eq_bind, readDigits_pad (show h < 10 ^ 2 by omega),
    readDigits_pad (show m < 10 ^ 2 by omega), Option.bind_some, expect_cons]
  exact if_pos ⟨hh, hm⟩

/-- `rest` goes on neither with a fraction nor with a colon. -/
def Ends (rest : List Char) : Prop := ∀ c ∈ rest.head?, c ≠ '.' ∧ c ≠ ':'

theorem readFraction_nil {rest : List Char} (h : Ends rest) : readFraction rest = some (0, rest) := by
  unfold readFraction
  split
  · rename_i cs
    exact absurd rfl (h '.' rfl).1
  · rfl

/-- Seconds with a fraction, as a clock or an offset ends with them. -/
theorem readSeconds_pad {s f : Nat} (hs : s < 60) (hf : f < microsPerSecond) {rest : List Char}
    (h : Ends rest) :
    readSeconds (':' :: (pad 2 s ++ ((if f = 0 then [] else '.' :: pad 6 f) ++ rest))) =
      some (s * microsPerSecond + f, rest) := by
  have hf6 : f < 10 ^ 6 := hf
  unfold readSeconds
  simp only [expect_cons, Option.bind_eq_bind, Option.bind_some, readDigits_pad (show s < 10 ^ 2 by omega)]
  split
  · subst f
    simp only [List.nil_append, readFraction_nil h, Option.bind_some]
  · simp only [List.cons_append, readFraction, readDigits_pad hf6, Option.bind_some]

/-- Whole seconds in hours, minutes and seconds. -/
theorem seconds_split (s : Nat) : (s / 3600 * 60 + s / 60 % 60) * 60 + s % 60 = s := by omega

theorem readClock_clockChars {t : Nat} (ht : t < microsPerDay) {rest : List Char} (h : Ends rest) :
    readClock (clockChars t ++ rest) = some (t, rest) := by
  have hs : t / microsPerSecond < 86400 := Nat.div_lt_of_lt_mul (Nat.mul_comm .. ▸ ht)
  have hf : t % microsPerSecond < microsPerSecond := Nat.mod_lt _ (by decide)
  have ht' : t / microsPerSecond * microsPerSecond + t % microsPerSecond = t := Nat.div_add_mod' ..
  unfold readClock clockChars
  generalize t / microsPerSecond = s at hs ht' ⊢
  generalize t % microsPerSecond = f at hf ht' ⊢
  simp only [List.append_assoc, List.cons_append, Option.bind_eq_bind]
  rw [readHourMinute_pad (by omega) (by omega), Option.bind_some,
    readSeconds_pad (Nat.mod_lt _ (by omega)) hf h, Option.bind_some, ← ht', ← Nat.add_assoc, ← Nat.add_mul,
    seconds_split]

theorem readOptionalSeconds_offset {s f : Nat} (hs : s < 60) (hf : f < microsPerSecond) :
    readOptionalSeconds (offsetSecondsChars s f) = some (s * microsPerSecond + f, []) := by
  unfold offsetSecondsChars
  split
  · rename_i h
    rw [h.1, h.2]
    rfl
  · have ends : Ends [] := by simp [Ends]
    have := readSeconds_pad hs hf ends
    rw [List.append_nil] at this
    exact this

theorem readOffset_offsetChars {o : Int} (h1 : -(microsPerDay : Int) < o) (h2 : o < microsPerDay) :
    readOffset (offsetChars o) = some (some o) := by
  have sign : ∀ cs, readSign ((if o < 0 then '-' else '+') :: cs) = some (if o < 0 then -1 else 1, cs) := by
    intro cs
    split <;> rfl
  have ho : (if o < 0 then -1 else 1) * (o.natAbs : Int) = o := by split <;> omega
  have hday : o.natAbs < microsPerSecond * 86400 := by
    have : (microsPerDay : Int) = 86400000000 := rfl
    have : microsPerSecond = 1000000 := rfl
    omega
  have hs : o.natAbs / microsPerSecond < 86400 := Nat.div_lt_of_lt_mul hday
  have hf : o.natAbs % microsPerSecond < microsPerSecond := Nat.mod_lt _ (by decide)
  have ht : o.natAbs / microsPerSecond * microsPerSecond + o.natAbs % microsPerSecond = o.natAbs :=
    Nat.div_add_mod' ..
  simp only [offsetChars, readOffset]
  generalize o.natAbs / microsPerSecond = s at hs ht ⊢
  generalize o.natAbs % microsPerSecond = f at hf ht ⊢
  simp only [List.cons_append, List.append_assoc, sign, Option.bind_eq_bind, Option.bind_some]
  rw [readHourMinute_pad (by omega) (by omega), Option.bind_some,
    readOptionalSeconds_offset (Nat.mod_lt _ (by omega)) hf, Option.bind_some]
  simp only [if_true, ← Nat.add_assoc, ← Nat.add_mul, seconds_split, ht, ho]

theorem offset_ends (offset : Option Int) : Ends ((offset.map offsetChars).getD []) := by
  cases offset with
  | none => simp [Ends]
  | some o =>
    simp only [Option.map_some, Option.getD_some, offsetChars, List.cons_append, Ends,
      List.head?_cons, Option.mem_def, Option.some.injEq]
    rintro c rfl
    split <;> decide

/-- Every date-time is read back from its ISO text. -/
theorem fromIsoformat_isoformat (d : DateTime) : fromIsoformat d.isoformat = some d := by
  have hday : 0 < microsPerDay := by decide
  have hwall := d.wall_lt
  unfold maxMicros at hwall
  have hoff : readOffset ((d.offset.map offsetChars).getD []) = some d.offset := by
    cases h : d.offset with
    | none => rfl
    | some o =>
      obtain ⟨h1, h2⟩ := d.offset_lt o h
      exact readOffset_offsetChars h1 h2
  unfold fromIsoformat DateTime.isoformat DateTime.isoChars
  simp only [String.toList_ofList, List.append_assoc, List.cons_append, Option.bind_eq_bind]
  rw [readDate_dateChars (Nat.div_lt_of_lt_mul (Nat.mul_comm .. ▸ hwall)), Option.bind_some, expect_cons,
    Option.bind_some, readClock_clockChars (Nat.mod_lt _ hday) (offset_ends _), Option.bind_some, hoff,
    Option.bind_some]
  have hw : d.wall / microsPerDay * microsPerDay + d.wall % microsPerDay = d.wall := Nat.div_add_mod' ..
  rw [dif_pos ⟨by rw [hw]; exact d.wall_lt, d.offset_lt⟩]
  congr 1
  cases d
  simp only [DateTime.mk.injEq, and_true]
  exact hw

/-- The text of a date-time in UTC: a date, a clock reading with at most a
fraction, and `+00:00`. -/
theorem length_isoformat_utc (t : Nat) (h : t < maxMicros) : (DateTime.utc t h).isoformat.length ≤ 32 := by
  have zero : (offsetChars 0).length = 6 := by decide
  have clock : (clockChars (t % microsPerDay)).length ≤ 15 := by
    unfold clockChars
    split <;> simp
  rw [DateTime.isoformat, String.length_ofList, DateTime.isoChars, DateTime.utc]
  simp only [dateChars, Option.map_some, Option.getD_some, List.length_append, List.length_cons,
    length_padBase, zero]
  omega

end Maru.Calendar
