import Mathlib.Tactic.Common
import Mathlib.Algebra.Order.Group.Int

/-!
# Date-times

The proleptic Gregorian calendar and the date-times of a program: a wall-clock reading
in microseconds since `0001-01-01T00:00:00`, with the offset from UTC when it is aware.
Instants are integers, microseconds since that midnight in UTC.
`ordToYmd` gives the date of a day and `ymdToOrd` finds the day again (`ordToYmd_spec`). An
aware date-time converted to UTC (`DateTime.toUtc`) names the same instant
(`toUtc_eq_some`), and converting again changes nothing (`toUtc_toUtc`).
-/

namespace Maru.Calendar

def microsPerSecond : Nat := 1000000

def microsPerDay : Nat := 86400 * microsPerSecond

/-- `timedelta(minutes=n)`. -/
def minutes (n : Int) : Int := 60 * microsPerSecond * n

/-! ## Days -/

def isLeap (year : Nat) : Bool := year % 4 = 0 ∧ (year % 100 ≠ 0 ∨ year % 400 = 0)

/-- Days of the years before `year`, counted from year 1. -/
def daysBeforeYear (year : Nat) : Nat :=
  (year - 1) * 365 + (year - 1) / 4 - (year - 1) / 100 + (year - 1) / 400

/-- Days of a year before its month, in a common year. -/
def daysBeforeMonthCommon (month : Nat) : Nat :=
  [0, 0, 31, 59, 90, 120, 151, 181, 212, 243, 273, 304, 334].getD month 0

def daysBeforeMonth (leap : Bool) (month : Nat) : Nat :=
  daysBeforeMonthCommon month + if month > 2 ∧ leap then 1 else 0

def daysInMonth (leap : Bool) (month : Nat) : Nat :=
  if month = 2 ∧ leap then 29 else [0, 31, 28, 31, 30, 31, 30, 31, 31, 30, 31, 30, 31].getD month 0

/-- The ordinal of a date: `0001-01-01` is day 1. -/
def ymdToOrd (year month day : Nat) : Nat :=
  daysBeforeYear year + daysBeforeMonth (isLeap year) month + day

/-- Month and day of the `n`-th day of a year, counted from 0. -/
def yearDay (leap : Bool) (n : Nat) : Nat × Nat :=
  let month := (n + 50) / 32
  let preceding := daysBeforeMonth leap month
  if preceding > n then (month - 1, n - (preceding - daysInMonth leap (month - 1)) + 1)
  else (month, n - preceding + 1)

/-- The date of an ordinal. -/
def ordToYmd (ordinal : Nat) : Nat × Nat × Nat :=
  let n := ordinal - 1
  let n400 := n / 146097
  let n := n % 146097
  let n100 := n / 36524
  let n := n % 36524
  let n4 := n / 1461
  let n := n % 1461
  let n1 := n / 365
  let n := n % 365
  let year := n400 * 400 + 1 + n100 * 100 + n4 * 4 + n1
  if n1 = 4 ∨ n100 = 4 then (year - 1, 12, 31)
  else (year, yearDay (n1 = 3 ∧ (n4 ≠ 24 ∨ n100 = 3)) n)

/-- The last representable day, `9999-12-31`. -/
def maxOrdinal : Nat := 3652059

theorem yearDay_spec : ∀ leap : Bool, ∀ n < 365 + leap.toNat,
    1 ≤ (yearDay leap n).1 ∧ (yearDay leap n).1 ≤ 12 ∧ 1 ≤ (yearDay leap n).2 ∧
      (yearDay leap n).2 ≤ daysInMonth leap (yearDay leap n).1 ∧
      daysBeforeMonth leap (yearDay leap n).1 + (yearDay leap n).2 = n + 1 := by
  decide +kernel

theorem daysInMonth_le : ∀ leap : Bool, ∀ m ≤ 12, daysInMonth leap m ≤ 31 := by decide

/-- A date of the calendar. -/
def ValidDate (year month day : Nat) : Prop :=
  1 ≤ year ∧ year ≤ 9999 ∧ 1 ≤ month ∧ month ≤ 12 ∧ 1 ≤ day ∧ day ≤ daysInMonth (isLeap year) month

instance (y m d : Nat) : Decidable (ValidDate y m d) := inferInstanceAs (Decidable (_ ∧ _))

/-- The calendar's cycles: year `400a + 100b + 4c + d + 1` starts after the days of `a` whole
cycles of 400 years, `b` centuries, `c` cycles of four years and `d` common years. -/
theorem daysBeforeYear_cycles (a b c d : Nat) (hb : b ≤ 3) (hc : c ≤ 24) (hd : d ≤ 3) :
    daysBeforeYear (a * 400 + 1 + b * 100 + c * 4 + d) = a * 146097 + b * 36524 + c * 1461 + d * 365 := by
  unfold daysBeforeYear
  omega

theorem isLeap_cycles (a b c d : Nat) (hb : b ≤ 3) (hc : c ≤ 24) (hd : d ≤ 3) :
    isLeap (a * 400 + 1 + b * 100 + c * 4 + d) = decide (d = 3 ∧ (c ≠ 24 ∨ b = 3)) := by
  unfold isLeap
  rw [decide_eq_decide]
  omega

/-- The last day of a leap year, which the divisions count as the first of a next year. -/
theorem ymd_lastDay {a b c : Nat} (hb : b ≤ 3) (hc : c ≤ 24) (h : c ≠ 24 ∨ b = 3)
    (hy : a * 400 + 1 + b * 100 + c * 4 + 3 ≤ 9999) :
    ValidDate (a * 400 + 1 + b * 100 + c * 4 + 3) 12 31 ∧
      ymdToOrd (a * 400 + 1 + b * 100 + c * 4 + 3) 12 31 = a * 146097 + b * 36524 + c * 1461 + 1461 := by
  have leap : isLeap (a * 400 + 1 + b * 100 + c * 4 + 3) = true := by
    rw [isLeap_cycles a b c 3 hb hc (by omega)]
    simp only [h, and_self, decide_true]
  refine ⟨⟨by omega, hy, by omega, by omega, by omega, by rw [leap]; decide⟩, ?_⟩
  rw [ymdToOrd, leap, daysBeforeYear_cycles a b c 3 hb hc (by omega),
    show daysBeforeMonth true 12 = 335 from by decide]

/-- The date of an ordinal is a date of the calendar, and has that ordinal. -/
theorem ordToYmd_spec {n : Nat} (h1 : 1 ≤ n) (h2 : n ≤ maxOrdinal) :
    ValidDate (ordToYmd n).1 (ordToYmd n).2.1 (ordToYmd n).2.2 ∧
      ymdToOrd (ordToYmd n).1 (ordToYmd n).2.1 (ordToYmd n).2.2 = n := by
  unfold maxOrdinal at h2
  obtain ⟨k, rfl⟩ : ∃ k, n = k + 1 := ⟨n - 1, by omega⟩
  unfold ordToYmd
  simp only [Nat.add_sub_cancel]
  generalize ha : k / 146097 = a
  generalize hb : k % 146097 / 36524 = b
  generalize hc : k % 146097 % 36524 / 1461 = c
  generalize hd : k % 146097 % 36524 % 1461 / 365 = d
  generalize he : k % 146097 % 36524 % 1461 % 365 = e
  have hk : k = a * 146097 + b * 36524 + c * 1461 + d * 365 + e := by omega
  split
  · rename_i h
    by_cases hb4 : b = 4
    · -- A century too many: the last day of a cycle of 400 years.
      obtain ⟨hv, ho⟩ := ymd_lastDay (a := a) (b := 3) (c := 24) (by omega) (by omega) (by omega) (by omega)
      have hy : a * 400 + 1 + b * 100 + c * 4 + d - 1 = a * 400 + 1 + 3 * 100 + 24 * 4 + 3 := by omega
      rw [hy]
      exact ⟨hv, ho.trans (by omega)⟩
    · -- A common year too many: the last day of a cycle of four.
      obtain ⟨hv, ho⟩ := ymd_lastDay (a := a) (b := b) (c := c) (by omega) (by omega) (by omega) (by omega)
      have hy : a * 400 + 1 + b * 100 + c * 4 + d - 1 = a * 400 + 1 + b * 100 + c * 4 + 3 := by omega
      rw [hy]
      exact ⟨hv, ho.trans (by omega)⟩
  · rename_i h
    rw [not_or] at h
    have hb' : b ≤ 3 := by omega
    have hc' : c ≤ 24 := by omega
    have hd' : d ≤ 3 := by omega
    have leap := isLeap_cycles a b c d hb' hc' hd'
    have days := daysBeforeYear_cycles a b c d hb' hc' hd'
    have spec := yearDay_spec (decide (d = 3 ∧ (c ≠ 24 ∨ b = 3))) e (by omega)
    generalize yearDay (decide (d = 3 ∧ (c ≠ 24 ∨ b = 3))) e = md at spec ⊢
    obtain ⟨hm1, hm2, hd1, hd2, hsum⟩ := spec
    refine ⟨⟨by omega, by omega, hm1, hm2, hd1, by rw [leap]; exact hd2⟩, ?_⟩
    simp only [ymdToOrd, leap, days]
    omega

/-! ## Date-times -/

/-- One past the last representable microsecond of the calendar. -/
def maxMicros : Nat := maxOrdinal * microsPerDay

/-- A `datetime`: a wall-clock reading, and its offset from UTC if it is aware. -/
structure DateTime where
  wall : Nat
  offset : Option Int
  wall_lt : wall < maxMicros
  offset_lt : ∀ o ∈ offset, -(microsPerDay : Int) < o ∧ o < microsPerDay
  deriving DecidableEq

namespace DateTime

/-- The date-time of an instant, in UTC. -/
def utc (t : Nat) (h : t < maxMicros) : DateTime where
  wall := t
  offset := some 0
  wall_lt := h
  offset_lt := by rintro _ ⟨⟩; decide

/-- The instant an aware date-time names. -/
def instant? (d : DateTime) : Option Int := d.offset.map fun o => d.wall - o

/-- `astimezone(UTC)`: nothing for a naive date-time, or one whose UTC reading is out of range. -/
def toUtc (d : DateTime) : Option DateTime :=
  match d.instant? with
  | none => none
  | some t => if h : 0 ≤ t ∧ t < maxMicros then some (utc t.toNat (by omega)) else none

theorem toUtc_eq_some {d u : DateTime} :
    d.toUtc = some u ↔ d.instant? = some (u.wall : Int) ∧ u.offset = some 0 := by
  unfold toUtc
  cases h : d.instant? with
  | none => simp
  | some t =>
    simp only [Option.dite_none_right_eq_some, Option.some.injEq]
    constructor
    · rintro ⟨ht, rfl⟩
      exact ⟨(Int.toNat_of_nonneg ht.1).symm, rfl⟩
    · rintro ⟨rfl, hu⟩
      have := u.wall_lt
      refine ⟨⟨by omega, by omega⟩, ?_⟩
      cases u
      simp_all [utc]

theorem toUtc_utc {t : Nat} (h : t < maxMicros) : (utc t h).toUtc = some (utc t h) :=
  toUtc_eq_some.mpr ⟨by simp [instant?, utc], rfl⟩

/-- A date-time in UTC is the one of its reading. -/
theorem toUtc_eq_utc {d u : DateTime} (h : d.toUtc = some u) : u = utc u.wall u.wall_lt := by
  have := (toUtc_eq_some.mp h).2
  cases u
  simp_all [utc]

theorem toUtc_toUtc {d u : DateTime} (h : d.toUtc = some u) : u.toUtc = some u := by
  rw [toUtc_eq_utc h]
  exact toUtc_utc u.wall_lt

end DateTime

end Maru.Calendar
