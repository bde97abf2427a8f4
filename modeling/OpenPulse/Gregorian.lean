import Mathlib.Logic.Function.Iterate
import Mathlib.Tactic.IntervalCases

/-! The proleptic Gregorian calendar: the date after a date, and the days counted from the
first of March of the year 0. Counted so, the day that leap years add is the last of its year. -/
namespace OpenPulse.Gregorian

structure Date where
  year : Nat
  month : Nat
  day : Nat
  deriving DecidableEq, Repr

def isLeap (y : Nat) : Bool := (y % 4 == 0 && y % 100 != 0) || y % 400 == 0

def monthLength (y m : Nat) : Nat :=
  if m = 2 then if isLeap y then 29 else 28 else if m = 4 ∨ m = 6 ∨ m = 9 ∨ m = 11 then 30 else 31

def yearLength (y : Nat) : Nat := if isLeap y then 366 else 365

namespace Date

def next (d : Date) : Date :=
  if d.day < monthLength d.year d.month then { d with day := d.day + 1 }
  else if d.month < 12 then ⟨d.year,d.month + 1,1⟩
  else ⟨d.year + 1,1,1⟩

structure Valid (d : Date) : Prop where
  year : 1 ≤ d.year
  firstMonth : 1 ≤ d.month
  lastMonth : d.month ≤ 12
  firstDay : 1 ≤ d.day
  lastDay : d.day ≤ monthLength d.year d.month

end Date

def marchYear (y m : Nat) : Nat := if m ≤ 2 then y - 1 else y

def marchMonth (m : Nat) : Nat := (m + 9) % 12

def yearDays (y : Nat) : Nat := 365 * y + y / 4 - y / 100 + y / 400
def monthDays (m : Nat) : Nat := (153 * marchMonth m + 2) / 5

def dayNumber (d : Date) : Nat := yearDays (marchYear d.year d.month) + monthDays d.month + (d.day - 1)

theorem leapIff (y : Nat) : isLeap y = true ↔ (y % 4 = 0 ∧ y % 100 ≠ 0) ∨ y % 400 = 0 := by
  simp [isLeap]

theorem yearDaysSucc (y : Nat) : yearDays (y + 1) = yearDays y + yearLength (y + 1) := by
  have below : y / 100 ≤ 365 * y := by omega
  have leap := leapIff (y + 1)
  unfold yearDays yearLength
  by_cases four : (y + 1) % 4 = 0
  · by_cases hundred : (y + 1) % 100 = 0
    · by_cases fourHundred : (y + 1) % 400 = 0
      · rw [if_pos (leap.mpr (.inr fourHundred)), Nat.succ_div_of_mod_eq_zero four, Nat.succ_div_of_mod_eq_zero hundred,
          Nat.succ_div_of_mod_eq_zero fourHundred]
        generalize y / 4 = a, y / 100 = b, y / 400 = c at *
        omega
      · have plain : ¬ isLeap (y + 1) = true := fun long => by
          rcases leap.mp long with ⟨-,other⟩ | whole
          · exact other hundred
          · exact fourHundred whole
        rw [if_neg plain, Nat.succ_div_of_mod_eq_zero four, Nat.succ_div_of_mod_eq_zero hundred,
          Nat.succ_div_of_mod_ne_zero fourHundred]
        generalize y / 4 = a, y / 100 = b, y / 400 = c at *
        omega
    · have fourHundred : (y + 1) % 400 ≠ 0 := by omega
      rw [if_pos (leap.mpr (.inl ⟨four,hundred⟩)), Nat.succ_div_of_mod_eq_zero four, Nat.succ_div_of_mod_ne_zero hundred,
        Nat.succ_div_of_mod_ne_zero fourHundred]
      generalize y / 4 = a, y / 100 = b, y / 400 = c at *
      omega
  · have hundred : (y + 1) % 100 ≠ 0 := by omega
    have fourHundred : (y + 1) % 400 ≠ 0 := by omega
    have plain : ¬ isLeap (y + 1) = true := fun long => by
      rcases leap.mp long with ⟨whole,-⟩ | whole
      · exact four whole
      · exact fourHundred whole
    rw [if_neg plain, Nat.succ_div_of_mod_ne_zero four, Nat.succ_div_of_mod_ne_zero hundred,
      Nat.succ_div_of_mod_ne_zero fourHundred]
    generalize y / 4 = a, y / 100 = b, y / 400 = c at *
    omega

theorem yearLengthFebruary (y : Nat) : yearLength y = 337 + monthLength y 2 := by
  unfold yearLength monthLength
  rw [if_pos rfl]
  split <;> rfl

theorem marchYearLate {m : Nat} (late : 2 < m) (y : Nat) : marchYear y m = y := if_neg (Nat.not_le.mpr late)
theorem marchYearEarly {m : Nat} (early : m ≤ 2) (y : Nat) : marchYear y m = y - 1 := if_pos early

theorem monthGrows {y m : Nat} (first : 1 ≤ m) (last : m < 12) (other : m ≠ 2) : monthDays (m + 1) = monthDays m + monthLength y m := by
  unfold monthLength
  rw [if_neg other]
  interval_cases m <;> first | rfl | exact absurd rfl other

theorem nextMonth {y m : Nat} (year : 1 ≤ y) (first : 1 ≤ m) (last : m < 12) :
    dayNumber ⟨y,m + 1,1⟩ = dayNumber ⟨y,m,1⟩ + monthLength y m := by
  simp only [dayNumber]
  by_cases february : m = 2
  · subst february
    obtain ⟨y,rfl⟩ := Nat.exists_eq_add_of_le' year
    have start : monthDays 2 = 337 := by decide
    have stop : monthDays 3 = 0 := by decide
    rw [marchYearLate (by decide), marchYearEarly (by decide), Nat.add_sub_cancel, yearDaysSucc, yearLengthFebruary, start, stop]
    omega
  · have same : marchYear y (m + 1) = marchYear y m := by
      rcases Nat.lt_or_ge 2 m with late | early
      · rw [marchYearLate (by omega), marchYearLate late]
      · rw [marchYearEarly (by omega), marchYearEarly early]
    rw [same, monthGrows (y := y) first last february]
    omega

theorem nextYear (y : Nat) : dayNumber ⟨y + 1,1,1⟩ = dayNumber ⟨y,12,1⟩ + 31 := by
  have january : monthDays 1 = 306 := by decide
  have december : monthDays 12 = 275 := by decide
  simp only [dayNumber]
  rw [marchYearEarly (by decide : 1 ≤ 2), marchYearLate (by decide : 2 < 12), Nat.add_sub_cancel, january, december]

theorem monthLengthPos (y m : Nat) : 1 ≤ monthLength y m := by
  unfold monthLength
  split
  · split <;> decide
  · split <;> decide

theorem monthLengthDecember (y : Nat) : monthLength y 12 = 31 := rfl

theorem dayNumberDay (y m d : Nat) : dayNumber ⟨y,m,d⟩ = dayNumber ⟨y,m,1⟩ + (d - 1) := by
  simp only [dayNumber, Nat.sub_self, Nat.add_zero]

theorem dayNumberNext {d : Date} (valid : d.Valid) : dayNumber d.next = dayNumber d + 1 := by
  have day := dayNumberDay d.year d.month d.day
  have firstDay := valid.firstDay
  have lastDay := valid.lastDay
  unfold Date.next
  split
  · have later := dayNumberDay d.year d.month (d.day + 1)
    rw [later, day]
    omega
  · split
    · rename_i full month
      rw [nextMonth valid.year valid.firstMonth month, day]
      omega
    · rename_i full month
      have december : d.month = 12 := Nat.le_antisymm valid.lastMonth (Nat.not_lt.mp month)
      have whole : dayNumber d = dayNumber ⟨d.year,12,1⟩ + (d.day - 1) := by rw [← december, ← day]
      rw [december, monthLengthDecember] at full lastDay
      rw [nextYear, whole]
      omega

theorem validNext {d : Date} (valid : d.Valid) : d.next.Valid := by
  unfold Date.next
  split
  · rename_i inside
    exact ⟨valid.year,valid.firstMonth,valid.lastMonth,Nat.le_add_left 1 _,inside⟩
  · split
    · rename_i month
      exact ⟨valid.year,Nat.le_add_left 1 _,month,Nat.le_refl 1,monthLengthPos _ _⟩
    · exact ⟨Nat.le_add_left 1 _,Nat.le_refl 1,(by decide : 1 ≤ 12),Nat.le_refl 1,monthLengthPos _ _⟩

def Date.after (d : Date) (n : Nat) : Date := Date.next^[n] d

theorem afterSucc (d : Date) (n : Nat) : d.after (n + 1) = (d.after n).next := Function.iterate_succ_apply' ..

theorem validAfter {d : Date} (valid : d.Valid) (n : Nat) : (d.after n).Valid := by
  induction n with
  | zero => exact valid
  | succ n ih =>
    rw [afterSucc]
    exact validNext ih

theorem dayNumberAfter {d : Date} (valid : d.Valid) (n : Nat) : dayNumber (d.after n) = dayNumber d + n := by
  induction n with
  | zero => rfl
  | succ n ih => rw [afterSucc, dayNumberNext (validAfter valid n), ih, Nat.add_assoc]

def dayOfYear (d : Date) : Nat := monthDays d.month + (d.day - 1)

theorem leapPeriod (y e : Nat) : isLeap (y + 400 * e) = isLeap y := by
  rw [Bool.eq_iff_iff, leapIff, leapIff]
  omega

theorem yearDaysPeriod (y e : Nat) : yearDays (y + 400 * e) = yearDays y + 146097 * e := by
  have four : (y + 400 * e) / 4 = y / 4 + 100 * e := by omega
  have hundred : (y + 400 * e) / 100 = y / 100 + 4 * e := by omega
  have fourHundred : (y + 400 * e) / 400 = y / 400 + e := by omega
  have below : y / 100 ≤ 365 * y := by omega
  rw [yearDays, yearDays, four, hundred, fourHundred]
  generalize y / 4 = a, y / 100 = b, y / 400 = c at *
  omega

theorem dayOfYearFits {d : Date} (valid : d.Valid) : dayOfYear d < yearLength (marchYear d.year d.month + 1) := by
  have firstDay := valid.firstDay
  have lastDay := valid.lastDay
  unfold dayOfYear
  by_cases february : d.month = 2
  · have start : monthDays 2 = 337 := by decide
    have year : d.year - 1 + 1 = d.year := Nat.sub_add_cancel valid.year
    rw [february] at lastDay ⊢
    rw [marchYearEarly (by decide), year, yearLengthFebruary, start]
    omega
  · have grown : monthDays d.month + monthLength d.year d.month ≤ 337 := by
      have early := valid.firstMonth
      have late := valid.lastMonth
      unfold monthLength
      rw [if_neg february]
      generalize d.month = m at *
      interval_cases m <;> first | decide | exact absurd rfl february
    have long : 365 ≤ yearLength (marchYear d.year d.month + 1) := by
      unfold yearLength
      split <;> decide
    omega

end OpenPulse.Gregorian
