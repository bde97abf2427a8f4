import OpenPulse.Gregorian

/-! The two places that turn a Unix time into a date: the logbook of `openpulse-core/src/adif.rs`
by a closed form, and the gateway of `openpulse-gateway/src/main.rs` by taking off years and
months. A subtraction below zero stops the program, here as `none`. -/
namespace OpenPulse.Calendars
open Gregorian

def minus (a b : Nat) : Option Nat := if b ≤ a then some (a - b) else none

def padded (width n : Nat) : String := String.ofList ((Nat.toDigits 10 n).leftpad width '0')

def paddedInt (width : Nat) (n : Int) : String := if 0 ≤ n then padded width n.toNat else "-" ++ padded (width - 1) n.natAbs

def yearOfEra (doe : Nat) : Option Nat := do
  let rest ← minus doe (doe / 1460)
  let rest ← minus (rest + doe / 36524) (doe / 146096)
  return rest / 365

def monthOf (mp : Nat) : Option Nat := if mp < 10 then some (mp + 3) else minus mp 9

def civilFromDays (z : Int) : Option (Int × Nat × Nat) := do
  let z := z + 719468
  let era := (if 0 ≤ z then z else z - 146096).tdiv 146097
  let doe := (z - era * 146097).toNat
  let yoe ← yearOfEra doe
  let y := (yoe : Int) + era * 400
  let doy ← minus doe (← minus (365 * yoe + yoe / 4) (yoe / 100))
  let mp := (5 * doy + 2) / 153
  let d := (← minus doy ((153 * mp + 2) / 5)) + 1
  let m ← monthOf mp
  return (if m ≤ 2 then y + 1 else y,m,d)

def utcDateTime (unixMs : Nat) : Option (String × String) := do
  let secs := unixMs / 1000
  let days := secs / 86400
  let rem := secs % 86400
  let (y,mo,d) ← civilFromDays days
  return (paddedInt 4 y ++ padded 2 mo ++ padded 2 d,padded 2 (rem / 3600) ++ padded 2 (rem % 3600 / 60) ++ padded 2 (rem % 60))

theorem yearLengthPos (y : Nat) : 0 < yearLength y := by
  unfold yearLength
  split <;> decide

theorem minusSome {a b c : Nat} : minus a b = some c ↔ b ≤ a ∧ c = a - b := by
  unfold minus
  split
  · rename_i fits
    simp [fits, eq_comm]
  · rename_i below
    simp [below]

def yearLoop (year days : Nat) : Option (Nat × Nat) :=
  if days < yearLength year then some (year,days)
  else
    match _ : minus days (yearLength year) with
    | none => none
    | some rest => yearLoop (year + 1) rest
termination_by days
decreasing_by
  rename_i taken
  obtain ⟨_,rfl⟩ := minusSome.mp taken
  have some' := yearLengthPos year
  omega

def monthLoop : List Nat → Nat → Nat → Option (Nat × Nat)
  | [], month, days => some (month,days)
  | md::rest, month, days => if days < md then some (month,days) else do monthLoop rest (month + 1) (← minus days md)

def monthTable (year : Nat) : List Nat := [31,if isLeap year then 29 else 28,31,30,31,30,31,31,30,31,30,31]

/- The count of days is a 32-bit number. -/
def nowDateStr (secs : Nat) : Option String := do
  let s := secs % 86400
  let days := secs / 86400 % 2 ^ 32
  let (year,days) ← yearLoop 1970 days
  let (month,days) ← monthLoop (monthTable year) 1 days
  return padded 4 year ++ "/" ++ padded 2 month ++ "/" ++ padded 2 (days + 1) ++ " " ++ padded 2 (s / 3600) ++ ":" ++
    padded 2 (s % 3600 / 60)

theorem minusOf {a b : Nat} (fits : b ≤ a) : minus a b = some (a - b) := if_pos fits

def even (doe : Nat) : Nat := doe - doe / 1460 + doe / 36524 - doe / 146096

theorem evenGrows {a b : Nat} (fits : a ≤ b) (inside : b < 146097) : even a ≤ even b := by
  unfold even
  have first : b / 1460 ≤ a / 1460 + (b - a) := by omega
  have second : a / 36524 ≤ b / 36524 := Nat.div_le_div_right fits
  have small : a / 1460 ≤ a := Nat.div_le_self a 1460
  rcases Nat.lt_or_ge b 146096 with early | last
  · have none : b / 146096 = 0 := Nat.div_eq_of_lt early
    omega
  · obtain rfl : b = 146096 := by omega
    rcases Nat.lt_or_ge a 146096 with below | same
    · have third : a / 36524 ≤ 3 := by omega
      omega
    · obtain rfl : a = 146096 := by omega
      exact Nat.le_refl _

theorem yearOfEraEven {doe : Nat} (inside : doe < 146097) : yearOfEra doe = some (even doe / 365) := by
  have first : doe / 1460 ≤ doe := Nat.div_le_self doe 1460
  have second : doe / 146096 ≤ doe - doe / 1460 + doe / 36524 := by omega
  rw [yearOfEra, minusOf first, Option.bind_eq_bind, Option.bind_some, minusOf second]
  rfl

theorem eraEnds : (List.range 400).all (fun r => 365 * r ≤ even (yearDays r) &&
    even (yearDays r + yearLength (r + 1) - 1) < 365 * (r + 1) && yearDays r + yearLength (r + 1) ≤ 146097) = true := by decide +kernel

theorem eraPeriod {r : Nat} (small : r < 400) {doy : Nat} (fits : doy < yearLength (r + 1)) :
    yearDays r + doy < 146097 ∧ yearOfEra (yearDays r + doy) = some r := by
  have ends := List.all_eq_true.mp eraEnds r (List.mem_range.mpr small)
  rw [Bool.and_eq_true, Bool.and_eq_true, decide_eq_true_iff, decide_eq_true_iff, decide_eq_true_iff] at ends
  obtain ⟨⟨first,last⟩,whole⟩ := ends
  have inside : yearDays r + doy < 146097 := by omega
  have low := evenGrows (Nat.le_add_right (yearDays r) doy) inside
  have high := evenGrows (show yearDays r + doy ≤ yearDays r + yearLength (r + 1) - 1 by omega) (by omega)
  refine ⟨inside,?_⟩
  rw [yearOfEraEven inside]
  exact congrArg some (by omega)

theorem monthLengthMost (y m : Nat) : monthLength y m ≤ if m = 2 then 29 else if m = 4 ∨ m = 6 ∨ m = 9 ∨ m = 11 then 30 else 31 := by
  unfold monthLength
  split
  · split <;> decide
  · exact Nat.le_refl _

theorem monthOfDay {y m day : Nat} (first : 1 ≤ m) (last : m ≤ 12) (some' : 1 ≤ day) (fits : day ≤ monthLength y m) :
    (5 * (monthDays m + (day - 1)) + 2) / 153 = marchMonth m := by
  have most := Nat.le_trans fits (monthLengthMost y m)
  clear fits
  unfold monthDays marchMonth
  interval_cases m <;> simp only [Nat.reduceAdd, Nat.reduceMod, Nat.reduceMul, Nat.reduceDiv, Nat.reduceEqDiff, reduceIte, or_true,
    or_self, or_false] at most ⊢ <;> omega

theorem monthBack {m : Nat} (first : 1 ≤ m) (last : m ≤ 12) : monthOf (marchMonth m) = some m := by
  interval_cases m <;> rfl

theorem civilOfEra {e r doy : Nat} (small : r < 400) (fits : doy < yearLength (r + 1)) :
    civilFromDays (((146097 * e + (yearDays r + doy) : Nat) : Int) - 719468) = (do
      let d := (← minus doy ((153 * ((5 * doy + 2) / 153) + 2) / 5)) + 1
      let m ← monthOf ((5 * doy + 2) / 153)
      return (if m ≤ 2 then ((r + 400 * e : Nat) : Int) + 1 else ((r + 400 * e : Nat) : Int),m,d)) := by
  obtain ⟨inside,found⟩ := eraPeriod small fits
  generalize whole : 146097 * e + (yearDays r + doy) = n
  have cancel : (n : Int) - 719468 + 719468 = (n : Int) := by omega
  have quotient : (n : Int).tdiv 146097 = (e : Int) := by
    refine (Int.ofNat_tdiv n 146097).symm.trans (congrArg Nat.cast ?_)
    omega
  have doe : ((n : Int) - (e : Int) * 146097).toNat = yearDays r + doy := by omega
  have years : (r : Int) + (e : Int) * 400 = ((r + 400 * e : Nat) : Int) := by omega
  have fewer : r / 100 ≤ 365 * r + r / 4 := by omega
  have none : r / 400 = 0 := Nat.div_eq_of_lt small
  have days : yearDays r = 365 * r + r / 4 - r / 100 := by rw [yearDays, none, Nat.add_zero]
  have left : minus (yearDays r + doy) (365 * r + r / 4 - r / 100) = some doy := by
    rw [days, minusOf (Nat.le_add_right _ _), Nat.add_sub_cancel_left]
  unfold civilFromDays
  simp only [cancel, if_pos (Int.natCast_nonneg n), quotient, doe, found, years, minusOf fewer, left, Option.bind_eq_bind,
    Option.bind_some]

theorem civilFromDate {d : Date} (valid : d.Valid) :
    civilFromDays ((dayNumber d : Int) - 719468) = some ((d.year : Int),d.month,d.day) := by
  have era := Nat.div_add_mod (marchYear d.year d.month) 400
  have fits := dayOfYearFits valid
  have month : (5 * dayOfYear d + 2) / 153 = marchMonth d.month := monthOfDay valid.firstMonth valid.lastMonth valid.firstDay valid.lastDay
  have year : (if d.month ≤ 2 then (marchYear d.year d.month : Int) + 1 else (marchYear d.year d.month : Int)) = (d.year : Int) := by
    have positive := valid.year
    unfold marchYear
    split <;> omega
  generalize years : marchYear d.year d.month = yy at era fits year
  have small : yy % 400 < 400 := Nat.mod_lt _ (by decide)
  have length : yearLength (yy + 1) = yearLength (yy % 400 + 1) := by
    have same := leapPeriod (yy % 400 + 1) (yy / 400)
    rw [show yy % 400 + 1 + 400 * (yy / 400) = yy + 1 by omega] at same
    rw [yearLength, yearLength, same]
  have number : dayNumber d = 146097 * (yy / 400) + (yearDays (yy % 400) + dayOfYear d) := by
    have period := yearDaysPeriod (yy % 400) (yy / 400)
    rw [show yy % 400 + 400 * (yy / 400) = yy by omega] at period
    rw [dayNumber, years, period, dayOfYear]
    omega
  have whole : yy % 400 + 400 * (yy / 400) = yy := by omega
  have day : minus (dayOfYear d) ((153 * marchMonth d.month + 2) / 5) = some (d.day - 1) := by
    rw [dayOfYear, monthDays, minusOf (Nat.le_add_right _ _), Nat.add_sub_cancel_left]
  have first : d.day - 1 + 1 = d.day := Nat.sub_add_cancel valid.firstDay
  have back := monthBack valid.firstMonth valid.lastMonth
  rw [number, civilOfEra small (length ▸ fits), whole]
  simp only [month, day, back, first, year, Option.bind_eq_bind, Option.bind_some]
  rfl

theorem yearOfMonths {y : Nat} (positive : 1 ≤ y) : dayNumber ⟨y + 1,1,1⟩ = dayNumber ⟨y,1,1⟩ + yearLength y := by
  obtain ⟨y,rfl⟩ := Nat.exists_eq_add_of_le' positive
  have january : ∀ y, dayNumber ⟨y,1,1⟩ = yearDays (y - 1) + 306 := fun y => by
    have start : monthDays 1 = 306 := by decide
    simp only [dayNumber, start, marchYearEarly (by decide : 1 ≤ 2)]
  rw [january, january, Nat.add_sub_cancel, Nat.add_sub_cancel, yearDaysSucc]
  omega

theorem yearLoopEnds {year days : Nat} (positive : 1 ≤ year) : ∃ year' days', yearLoop year days = some (year',days') ∧
    1 ≤ year' ∧ days' < yearLength year' ∧ dayNumber ⟨year',1,1⟩ + days' = dayNumber ⟨year,1,1⟩ + days := by
  induction days using Nat.strong_induction_on generalizing year with
  | h days ih =>
    rw [yearLoop]
    by_cases inside : days < yearLength year
    · rw [if_pos inside]
      exact ⟨year,days,rfl,positive,inside,rfl⟩
    · have taken : minus days (yearLength year) = some (days - yearLength year) := minusOf (Nat.not_lt.mp inside)
      have some' := yearLengthPos year
      obtain ⟨year',days',found,positive',inside',number⟩ := @ih (days - yearLength year) (by omega) (year + 1) (by omega)
      refine ⟨year',days',?_,positive',inside',?_⟩
      · rw [if_neg inside]
        split
        · rename_i none
          rw [taken] at none
          cases none
        · rename_i rest same
          rw [taken] at same
          cases same
          exact found
      · rw [number, yearOfMonths positive]
        omega

theorem afterMonths (y : Nat) : dayNumber ⟨y,13,1⟩ = dayNumber ⟨y + 1,1,1⟩ := by
  have thirteenth : monthDays 13 = monthDays 1 := by decide
  simp only [dayNumber, marchYearLate (by decide : 2 < 13), marchYearEarly (by decide : 1 ≤ 2), thirteenth, Nat.add_sub_cancel]

theorem monthStep {y m : Nat} (positive : 1 ≤ y) (first : 1 ≤ m) (last : m ≤ 12) :
    dayNumber ⟨y,m + 1,1⟩ = dayNumber ⟨y,m,1⟩ + monthLength y m := by
  rcases Nat.lt_or_eq_of_le last with before | rfl
  · exact nextMonth positive first before
  · exact (afterMonths y).trans (nextYear y)

theorem monthLoopEnds {y : Nat} (positive : 1 ≤ y) {k month days : Nat} (first : 1 ≤ month) (last : month + k = 13)
    (fits : dayNumber ⟨y,month,1⟩ + days < dayNumber ⟨y + 1,1,1⟩) :
    ∃ month' days', monthLoop ((List.range' month k).map (monthLength y)) month days = some (month',days') ∧
      1 ≤ month' ∧ month' ≤ 12 ∧ days' < monthLength y month' ∧ dayNumber ⟨y,month',1⟩ + days' = dayNumber ⟨y,month,1⟩ + days := by
  induction k generalizing month days with
  | zero =>
    obtain rfl : month = 13 := last
    rw [afterMonths] at fits
    omega
  | succ k ih =>
    rw [List.range'_succ, List.map_cons, monthLoop]
    by_cases inside : days < monthLength y month
    · rw [if_pos inside]
      exact ⟨month,days,rfl,first,by omega,inside,rfl⟩
    · have step := monthStep positive first (by omega : month ≤ 12)
      obtain ⟨month',days',found,first',last',inside',number⟩ := @ih (month + 1) (days - monthLength y month) (by omega) (by omega)
        (by omega)
      refine ⟨month',days',?_,first',last',inside',by omega⟩
      rw [if_neg inside, minusOf (Nat.not_lt.mp inside)]
      exact found

def dateOf (n : Nat) : Date := (Date.mk 1970 1 1).after n

theorem epochValid : (Date.mk 1970 1 1).Valid := ⟨by decide,by decide,by decide,by decide,by decide⟩

theorem dateOfNumber (n : Nat) : dayNumber (dateOf n) = 719468 + n := by
  have epoch : dayNumber ⟨1970,1,1⟩ = 719468 := by decide
  rw [dateOf, dayNumberAfter epochValid, epoch]

theorem civilDate (n : Nat) : civilFromDays n = some (((dateOf n).year : Int),(dateOf n).month,(dateOf n).day) := by
  have read := civilFromDate (validAfter epochValid n)
  rw [show dayNumber ((Date.mk 1970 1 1).after n) = 719468 + n from dateOfNumber n] at read
  rwa [show ((719468 + n : Nat) : Int) - 719468 = (n : Int) by omega] at read

theorem dateOfValid {d : Date} (valid : d.Valid) {n : Nat} (number : dayNumber d = 719468 + n) : d = dateOf n := by
  have read := civilFromDate valid
  rw [number, show ((719468 + n : Nat) : Int) - 719468 = (n : Int) by omega, civilDate] at read
  obtain ⟨year,rest⟩ := Prod.mk.inj (Option.some.inj read)
  obtain ⟨month,day⟩ := Prod.mk.inj rest
  obtain ⟨y,m,k⟩ := d
  simp only at year month day
  rw [← Int.natCast_inj.mp year, ← month, ← day]

theorem loopsDate (n : Nat) : ∃ days, yearLoop 1970 n = some ((dateOf n).year,days) ∧
    ∃ rest, monthLoop (monthTable (dateOf n).year) 1 days = some ((dateOf n).month,rest) ∧ rest + 1 = (dateOf n).day := by
  have epoch : dayNumber ⟨1970,1,1⟩ = 719468 := by decide
  obtain ⟨year,days,years,positive,inside,number⟩ := @yearLoopEnds 1970 n (by decide)
  have fits : dayNumber ⟨year,1,1⟩ + days < dayNumber ⟨year + 1,1,1⟩ := by
    rw [yearOfMonths positive]
    omega
  obtain ⟨month,rest,months,first,last,within,count⟩ := monthLoopEnds positive (k := 12) (Nat.le_refl 1) rfl fits
  have valid : (Date.mk year month (rest + 1)).Valid := ⟨positive,first,last,Nat.le_add_left 1 _,within⟩
  have same : Date.mk year month (rest + 1) = dateOf n := by
    refine dateOfValid valid ?_
    rw [dayNumberDay, Nat.add_sub_cancel, count, number, epoch]
  have table : monthTable year = (List.range' 1 12).map (monthLength year) := rfl
  rw [← same]
  exact ⟨days,years,rest,table ▸ months,rfl⟩

theorem earlyDays {n : Nat} (early : (dateOf n).year < 10000) : n < 2 ^ 32 := by
  have number := dateOfNumber n
  have lastDay := (validAfter epochValid n).lastDay
  have short : monthLength (dateOf n).year (dateOf n).month ≤ 31 := by
    unfold monthLength
    split
    · split <;> decide
    · split <;> decide
  have months : marchMonth (dateOf n).month < 12 := Nat.mod_lt _ (by decide)
  have years : marchYear (dateOf n).year (dateOf n).month ≤ (dateOf n).year := by
    unfold marchYear
    split <;> omega
  have day : (dateOf n).day ≤ 31 := Nat.le_trans lastDay short
  unfold dayNumber yearDays monthDays at number
  omega

/-- The logbook and the gateway write one date and one time, that of the calendar counted day by day. -/
theorem calendarsAgree {unixMs : Nat} (early : (dateOf (unixMs / 1000 / 86400)).year < 10000) :
    dateOf 0 = ⟨1970,1,1⟩ ∧ (∀ n, dateOf (n + 1) = (dateOf n).next) ∧
    ∃ d, d = dateOf (unixMs / 1000 / 86400) ∧ ∃ h mi s, h < 24 ∧ mi < 60 ∧ s < 60 ∧
      h * 3600 + mi * 60 + s = unixMs / 1000 % 86400 ∧
      utcDateTime unixMs = some (padded 4 d.year ++ padded 2 d.month ++ padded 2 d.day,padded 2 h ++ padded 2 mi ++ padded 2 s) ∧
      nowDateStr (unixMs / 1000) = some (padded 4 d.year ++ "/" ++ padded 2 d.month ++ "/" ++ padded 2 d.day ++ " " ++
        padded 2 h ++ ":" ++ padded 2 mi) := by
  refine ⟨rfl,fun n => afterSucc _ n,_,rfl,unixMs / 1000 % 86400 / 3600,unixMs / 1000 % 86400 % 3600 / 60,
    unixMs / 1000 % 86400 % 60,by omega,by omega,by omega,by omega,?_,?_⟩
  · rw [utcDateTime]
    simp only [civilDate, Option.bind_eq_bind, Option.bind_some]
    rw [paddedInt, if_pos (Int.natCast_nonneg _), Int.toNat_natCast]
    rfl
  · obtain ⟨days,years,rest,months,day⟩ := loopsDate (unixMs / 1000 / 86400)
    rw [nowDateStr, Nat.mod_eq_of_lt (earlyDays early)]
    simp only [years, months, Option.bind_eq_bind, Option.bind_some, day]
    rfl

theorem calendarsAgreeNovember : ∃ d, d = dateOf 19675 ∧ ∃ h mi s, h < 24 ∧ mi < 60 ∧ s < 60 ∧ h * 3600 + mi * 60 + s = 80000 ∧
    utcDateTime 1700000000000 =
      some (padded 4 d.year ++ padded 2 d.month ++ padded 2 d.day,padded 2 h ++ padded 2 mi ++ padded 2 s) ∧
    nowDateStr 1700000000 = some (padded 4 d.year ++ "/" ++ padded 2 d.month ++ "/" ++ padded 2 d.day ++ " " ++
        padded 2 h ++ ":" ++ padded 2 mi) := by
  have november : (⟨2023,11,14⟩ : Date) = dateOf 19675 := dateOfValid ⟨by decide,by decide,by decide,by decide,by decide⟩ (by decide)
  exact (@calendarsAgree 1700000000000 (by rw [← november]; decide)).2.2

end OpenPulse.Calendars
