import Maru.Framework.IsoFormat
import Mathlib.Order.Basic

/-!
# The order of ISO 8601 texts

Two texts are compared at the first character that differs (`Before`). Numbers with a fixed
number of digits are ordered as their texts, dates as their days, and a clock reading
without a fraction comes before one with a fraction, since `+` comes before `.`. So the
texts of date-times in UTC are ordered as the date-times (`isoformat_lt_iff`).
-/

namespace Maru

/-- `xs` comes before `ys`, and a character decides it. -/
def Before (xs ys : List Char) : Prop :=
  ∃ p c d xs' ys', xs = p ++ c :: xs' ∧ ys = p ++ d :: ys' ∧ c < d

namespace Before

variable {xs ys : List Char}

theorem head {c d : Char} (h : c < d) (xs ys : List Char) : Before (c :: xs) (d :: ys) :=
  ⟨[], c, d, xs, ys, rfl, rfl, h⟩

theorem append (h : Before xs ys) (r s : List Char) : Before (xs ++ r) (ys ++ s) := by
  obtain ⟨p, c, d, xs', ys', rfl, rfl, hcd⟩ := h
  exact ⟨p, c, d, xs' ++ r, ys' ++ s, by simp, by simp, hcd⟩

theorem prepend (h : Before xs ys) (l : List Char) : Before (l ++ xs) (l ++ ys) := by
  obtain ⟨p, c, d, xs', ys', rfl, rfl, hcd⟩ := h
  exact ⟨l ++ p, c, d, xs', ys', by simp, by simp, hcd⟩

theorem cons (h : Before xs ys) (c : Char) : Before (c :: xs) (c :: ys) := h.prepend [c]

theorem lt (h : Before xs ys) : xs < ys := by
  obtain ⟨p, c, d, xs', ys', rfl, rfl, hcd⟩ := h
  exact List.append_left_lt (List.cons_lt_cons_iff.mpr (.inl hcd))

end Before

namespace Digits

/-- Numbers of a fixed number of digits are ordered as their texts. -/
theorem before_padBase {base : Nat} {digit : Nat → Char} (hb : 0 < base)
    (mono : ∀ c d, c < d → d < base → digit c < digit d) (width : Nat) {n m : Nat}
    (h : n % base ^ width < m % base ^ width) : Before (padBase base digit width n) (padBase base digit width m) := by
  induction width with
  | zero =>
    rw [Nat.pow_zero, Nat.mod_one, Nat.mod_one] at h
    omega
  | succ width ih =>
    have hpow : 0 < base ^ width := Nat.pow_pos hb
    have split : ∀ k, k % base ^ (width + 1) = k / base ^ width % base * base ^ width + k % base ^ width := by
      intro k
      rw [Nat.pow_succ, Nat.mod_mul, Nat.add_comm, Nat.mul_comm]
    rw [split n, split m] at h
    have hn := Nat.mod_lt n hpow
    have hm := Nat.mod_lt m hpow
    have hdigit := Nat.mod_lt (m / base ^ width) hb
    rw [padBase, padBase]
    rcases Nat.lt_trichotomy (n / base ^ width % base) (m / base ^ width % base) with hlt | heq | hgt
    · exact Before.head (mono _ _ hlt hdigit) _ _
    · rw [heq] at h ⊢
      exact (ih (by omega)).cons _
    · have : (m / base ^ width % base + 1) * base ^ width ≤ n / base ^ width % base * base ^ width :=
        Nat.mul_le_mul_right _ hgt
      rw [Nat.add_mul, Nat.one_mul] at this
      generalize n % base ^ width = r at h hn
      generalize m % base ^ width = q at h hm
      omega

theorem before_pad {width n m : Nat} (h : n < m) (hm : m < 10 ^ width) : Before (pad width n) (pad width m) := by
  have digit : ∀ d < 10, ∀ c < d, digitChar c < digitChar d := by decide
  refine before_padBase (by omega) (fun c d hc hd => digit d hd c hc) width ?_
  rwa [Nat.mod_eq_of_lt (h.trans hm), Nat.mod_eq_of_lt hm]

end Digits

namespace Calendar

open Digits

/-! ## Dates -/

theorem daysBeforeYear_succ {y : Nat} (hy : 1 ≤ y) :
    daysBeforeYear (y + 1) = daysBeforeYear y + 365 + (isLeap y).toNat := by
  obtain ⟨k, rfl⟩ : ∃ k, y = k + 1 := ⟨y - 1, by omega⟩
  have four : (k + 1) / 4 = k / 4 + if (k + 1) % 4 = 0 then 1 else 0 := by split <;> omega
  have hundred : (k + 1) / 100 = k / 100 + if (k + 1) % 100 = 0 then 1 else 0 := by split <;> omega
  have cycle : (k + 1) / 400 = k / 400 + if (k + 1) % 400 = 0 then 1 else 0 := by split <;> omega
  have order : k / 100 ≤ k / 4 := by omega
  unfold daysBeforeYear isLeap
  simp only [Nat.add_sub_cancel, four, hundred, cycle]
  by_cases h4 : (k + 1) % 4 = 0
  · by_cases h100 : (k + 1) % 100 = 0
    · by_cases h400 : (k + 1) % 400 = 0
      · simp only [h4, h100, h400, ne_eq, not_true, or_true, and_self, decide_true, Bool.toNat_true, if_true]
        omega
      · simp only [h4, h100, h400, ne_eq, not_true, or_self, and_false, decide_false,
          Bool.toNat_false, if_true, if_false]
        omega
    · have h400 : (k + 1) % 400 ≠ 0 := by omega
      simp only [h4, h100, h400, ne_eq, not_false_eq_true, true_or, and_self, decide_true,
        Bool.toNat_true, if_true, if_false]
      omega
  · have h100 : (k + 1) % 100 ≠ 0 := by omega
    have h400 : (k + 1) % 400 ≠ 0 := by omega
    simp only [h4, h100, h400, false_and, decide_false, Bool.toNat_false, if_false]
    omega

theorem daysBeforeYear_mono {y z : Nat} (hy : 1 ≤ y) (h : y ≤ z) : daysBeforeYear y ≤ daysBeforeYear z := by
  induction z, h using Nat.le_induction with
  | base => exact le_refl _
  | succ z hz ih =>
    rw [daysBeforeYear_succ (hy.trans hz)]
    omega

/-- A day of a month is within its year, and before the days of the later months. -/
theorem daysBeforeMonth_bounds : ∀ leap : Bool, ∀ m ≤ 12, 1 ≤ m →
    daysBeforeMonth leap m + daysInMonth leap m ≤ 365 + leap.toNat ∧
      ∀ n ≤ 12, m < n → daysBeforeMonth leap m + daysInMonth leap m ≤ daysBeforeMonth leap n := by
  decide

/-- Year, month and day, compared in this order. -/
def DateLt (a b : Nat × Nat × Nat) : Prop :=
  a.1 < b.1 ∨ a.1 = b.1 ∧ (a.2.1 < b.2.1 ∨ a.2.1 = b.2.1 ∧ a.2.2 < b.2.2)

/-- Earlier dates have smaller ordinals. -/
theorem ymdToOrd_lt {y m d y' m' d' : Nat} (h : ValidDate y m d) (h' : ValidDate y' m' d')
    (hlt : DateLt (y, m, d) (y', m', d')) : ymdToOrd y m d < ymdToOrd y' m' d' := by
  obtain ⟨hy, -, hm, hm', hd, hd'⟩ := h
  obtain ⟨-, -, hn, hn', he, -⟩ := h'
  have bounds := daysBeforeMonth_bounds (isLeap y) m hm' hm
  unfold ymdToOrd
  rcases hlt with year | ⟨year, month | ⟨month, day⟩⟩
  · have succ := daysBeforeYear_succ hy
    have mono := daysBeforeYear_mono (show 1 ≤ y + 1 by omega) (show y + 1 ≤ y' from year)
    have := bounds.1
    dsimp only at year
    omega
  · dsimp only at year month
    subst year
    have := bounds.2 m' hn' month
    omega
  · dsimp only at year month day
    subst year month
    omega

/-- Earlier days have earlier dates. -/
theorem ordToYmd_lt {i j : Nat} (h1 : 1 ≤ i) (hij : i < j) (hj : j ≤ maxOrdinal) :
    DateLt (ordToYmd i) (ordToYmd j) := by
  obtain ⟨hi, oi⟩ := ordToYmd_spec h1 (hij.le.trans hj)
  obtain ⟨hj, oj⟩ := ordToYmd_spec (h1.trans hij.le) hj
  generalize ordToYmd i = a at hi oi ⊢
  generalize ordToYmd j = b at hj oj ⊢
  obtain ⟨y, m, d⟩ := a
  obtain ⟨y', m', d'⟩ := b
  dsimp only at hi oi hj oj
  by_contra not
  have other : DateLt (y', m', d') (y, m, d) ∨ (y', m', d') = (y, m, d) := by
    simp only [DateLt, Prod.mk.injEq] at not ⊢
    omega
  rcases other with other | other
  · have := ymdToOrd_lt hj hi other
    omega
  · cases other
    omega

theorem before_dateChars {i j : Nat} (hij : i < j) (hj : j < maxOrdinal) : Before (dateChars i) (dateChars j) := by
  have hlt := ordToYmd_lt (show 1 ≤ i + 1 by omega) (show i + 1 < j + 1 by omega) (show j + 1 ≤ maxOrdinal by omega)
  obtain ⟨valid, -⟩ := ordToYmd_spec (n := j + 1) (by omega) (by omega)
  unfold dateChars
  generalize ordToYmd (i + 1) = a at hlt ⊢
  generalize ordToYmd (j + 1) = b at hlt valid ⊢
  obtain ⟨y, m, d⟩ := a
  obtain ⟨y', m', d'⟩ := b
  obtain ⟨-, hy, -, hm, -, hd⟩ := valid
  have hdays := daysInMonth_le (isLeap y') m' hm
  dsimp only at *
  simp only [List.append_assoc, List.cons_append]
  rcases hlt with year | ⟨year, month | ⟨month, day⟩⟩
  · exact (before_pad year (by omega)).append _ _
  · dsimp only at year month
    rw [year]
    exact (((before_pad month (by omega)).append _ _).cons _).prepend _
  · dsimp only at year month day
    rw [year, month]
    exact ((((before_pad day (by omega)).cons _).prepend _).cons _).prepend _

/-! ## Clock readings -/

/-- A clock reading, followed by a sign, is ordered as the reading. -/
theorem before_clockChars {s t : Nat} (hst : s < t) (ht : t < microsPerDay) (rest rest' : List Char) :
    Before (clockChars s ++ '+' :: rest) (clockChars t ++ '+' :: rest') := by
  have hday : t / microsPerSecond < 86400 := Nat.div_lt_of_lt_mul (Nat.mul_comm .. ▸ ht)
  have hs : s / microsPerSecond * microsPerSecond + s % microsPerSecond = s := Nat.div_add_mod' ..
  have ht' : t / microsPerSecond * microsPerSecond + t % microsPerSecond = t := Nat.div_add_mod' ..
  have hf : s % microsPerSecond < microsPerSecond := Nat.mod_lt _ (by decide)
  have hg : t % microsPerSecond < microsPerSecond := Nat.mod_lt _ (by decide)
  have micros : microsPerSecond = 10 ^ 6 := rfl
  unfold clockChars
  generalize s / microsPerSecond = a at hs ⊢
  generalize t / microsPerSecond = b at ht' hday ⊢
  generalize s % microsPerSecond = f at hs hf ⊢
  generalize t % microsPerSecond = g at ht' hg ⊢
  simp only [List.append_assoc, List.cons_append]
  have order : a / 3600 < b / 3600 ∨ a / 3600 = b / 3600 ∧ (a / 60 % 60 < b / 60 % 60 ∨
      a / 60 % 60 = b / 60 % 60 ∧ (a % 60 < b % 60 ∨ a % 60 = b % 60 ∧ f < g)) := by
    rw [micros] at hs ht' hf hg
    omega
  rcases order with hour | ⟨hour, minute | ⟨minute, second | ⟨second, fraction⟩⟩⟩
  · exact (before_pad hour (by omega)).append _ _
  · rw [hour]
    exact (((before_pad minute (by omega)).append _ _).cons _).prepend _
  · rw [hour, minute]
    exact (((((before_pad second (by omega)).append _ _).cons _).prepend _).cons _).prepend _
  · rw [hour, minute, second]
    refine Before.prepend (Before.cons (Before.prepend (Before.cons (Before.prepend ?_ _) _) _) _) _
    have hg0 : g ≠ 0 := by omega
    rw [if_neg hg0]
    by_cases hf0 : f = 0
    · rw [if_pos hf0]
      exact Before.head (by decide) _ _
    · rw [if_neg hf0]
      exact ((before_pad fraction (by omega)).append _ _).cons _

/-! ## Date-times in UTC -/

theorem isoformat_lt {s t : Nat} (hs : s < maxMicros) (ht : t < maxMicros) (h : s < t) :
    (DateTime.utc s hs).isoformat < (DateTime.utc t ht).isoformat := by
  have hday : 0 < microsPerDay := by decide
  have ht' := ht
  unfold maxMicros at ht'
  have hj : t / microsPerDay < maxOrdinal := Nat.div_lt_of_lt_mul (Nat.mul_comm .. ▸ ht')
  rw [String.lt_iff, DateTime.isoformat, DateTime.isoformat, String.toList_ofList, String.toList_ofList]
  refine Before.lt ?_
  unfold DateTime.isoChars DateTime.utc
  obtain ⟨rest, plus⟩ : ∃ rest, offsetChars 0 = '+' :: rest := ⟨_, rfl⟩
  simp only [Option.map_some, Option.getD_some, plus, List.append_assoc, List.cons_append]
  rcases Nat.lt_or_eq_of_le (Nat.div_le_div_right h.le : s / microsPerDay ≤ t / microsPerDay) with date | date
  · exact (before_dateChars date hj).append _ _
  · have hs' := Nat.div_add_mod s microsPerDay
    have ht' := Nat.div_add_mod t microsPerDay
    rw [date] at hs'
    rw [date]
    exact ((before_clockChars (by omega) (Nat.mod_lt _ hday) rest rest).cons _).prepend _

/-- The texts of date-times in UTC are ordered as the date-times. -/
theorem isoformat_lt_iff {s t : Nat} (hs : s < maxMicros) (ht : t < maxMicros) :
    (DateTime.utc s hs).isoformat < (DateTime.utc t ht).isoformat ↔ s < t := by
  constructor
  · intro h
    rcases Nat.lt_trichotomy s t with hlt | rfl | hgt
    · exact hlt
    · exact absurd h (String.lt_irrefl _)
    · exact absurd (String.lt_trans h (isoformat_lt ht hs hgt)) (String.lt_irrefl _)
  · exact isoformat_lt hs ht

end Calendar

end Maru
