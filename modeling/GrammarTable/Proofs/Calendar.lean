import GrammarTable.Calendar
import Mathlib.Algebra.Group.Nat.Defs

/-!
# Dates and the text of a moment

From 1 January 1970 the dates follow each other as the months and leap years of the Gregorian
calendar have it, in both directions. The text of a moment in the years 0 to 9999 has the form
`YYYY-MM-DDThh:mm:ssZ`.
-/

namespace GrammarTable.Calendar

/-! ## Months and years -/

/-- Every fourth year has a leap day, but of the full centuries only every fourth. -/
def IsLeap (year : Int) : Prop :=
  year % 4 = 0 ∧ (year % 100 ≠ 0 ∨ year % 400 = 0)

instance (year : Int) : Decidable (IsLeap year) :=
  inferInstanceAs (Decidable (_ ∧ _))

def monthLength (year : Int) (month : Nat) : Nat :=
  if month = 2 then if IsLeap year then 29 else 28
  else if month = 4 ∨ month = 6 ∨ month = 9 ∨ month = 11 then 30 else 31

namespace Date

def next (date : Date) : Date :=
  if date.day < monthLength date.year date.month then { date with day := date.day + 1 }
  else if date.month < 12 then ⟨date.year, date.month + 1, 1⟩
  else ⟨date.year + 1, 1, 1⟩

structure Valid (date : Date) : Prop where
  month_pos : 1 ≤ date.month
  month_le : date.month ≤ 12
  day_pos : 1 ≤ date.day
  day_le : date.day ≤ monthLength date.year date.month

end Date

/-! ## Months from March -/

def monthStart (month : Nat) : Nat :=
  (153 * month + 2) / 5

/-- The day behind so many others of a month from March. January and February are in the next
year. -/
def ofMonthDay (year : Int) (month before : Nat) : Date :=
  if month < 10 then ⟨year, month + 3, before + 1⟩ else ⟨year + 1, month - 9, before + 1⟩

def ofYearDay (year : Int) (day : Nat) : Date :=
  let month := (5 * day + 2) / 153
  ofMonthDay year month (day - monthStart month)

/-- The days of the year that starts with March. The leap day at its end is that of the next
year. -/
def yearLength (year : Int) : Nat :=
  if IsLeap (year + 1) then 366 else 365

theorem yearLength_cases (year : Int) : yearLength year = 365 ∨ yearLength year = 366 := by
  unfold yearLength
  by_cases hleap : IsLeap (year + 1)
  · exact .inr (if_pos hleap)
  · exact .inl (if_neg hleap)

theorem monthStart_le {month later : Nat} (h : month ≤ later) :
    monthStart month ≤ monthStart later := by
  unfold monthStart
  omega

theorem monthStart_lt_succ (month : Nat) : monthStart month < monthStart (month + 1) := by
  unfold monthStart
  omega

theorem ofYearDay_eq {month day : Nat} (year : Int) (hlow : monthStart month ≤ day)
    (hhigh : day < monthStart (month + 1)) :
    ofYearDay year day = ofMonthDay year month (day - monthStart month) := by
  have hmonth : (5 * day + 2) / 153 = month := by
    unfold monthStart at hlow hhigh
    omega
  simp only [ofYearDay, hmonth]

theorem exists_month {day : Nat} (h : day < 366) :
    ∃ month < 12, monthStart month ≤ day ∧ day < monthStart (month + 1) := by
  unfold monthStart
  exact ⟨(5 * day + 2) / 153, by omega, by omega, by omega⟩

/-- The months from March are as long as the calendar has them, up to January. -/
theorem monthLength_ofMonthDay {month : Nat} (year : Int) (before : Nat) (h : month < 11) :
    monthLength (ofMonthDay year month before).year (ofMonthDay year month before).month =
      monthStart (month + 1) - monthStart month := by
  have hmonths : month = 0 ∨ month = 1 ∨ month = 2 ∨ month = 3 ∨ month = 4 ∨ month = 5 ∨
      month = 6 ∨ month = 7 ∨ month = 8 ∨ month = 9 ∨ month = 10 := by omega
  rcases hmonths with rfl | rfl | rfl | rfl | rfl | rfl | rfl | rfl | rfl | rfl | rfl <;>
    simp [ofMonthDay, monthLength, monthStart]

/-- February has what is left of the year. -/
theorem monthLength_february (year : Int) (before : Nat) :
    monthLength (ofMonthDay year 11 before).year (ofMonthDay year 11 before).month =
      yearLength year - monthStart 11 := by
  by_cases hleap : IsLeap (year + 1) <;>
    simp [ofMonthDay, monthLength, monthStart, yearLength, hleap]

theorem next_of_lt {year : Int} {month before : Nat}
    (h : before + 1 < monthLength (ofMonthDay year month before).year
      (ofMonthDay year month before).month) :
    (ofMonthDay year month before).next = ofMonthDay year month (before + 1) := by
  unfold ofMonthDay at h ⊢
  by_cases hmonth : month < 10
  · simp only [hmonth, if_true] at h ⊢
    exact if_pos h
  · simp only [hmonth, if_false] at h ⊢
    exact if_pos h

/-- Behind the last day of a month comes the first of the next one. -/
theorem next_of_last {year : Int} {month before : Nat}
    (h : before + 1 = monthLength (ofMonthDay year month before).year
      (ofMonthDay year month before).month) (hmonth : month < 12) :
    (ofMonthDay year month before).next =
      if month = 11 then ofMonthDay (year + 1) 0 0 else ofMonthDay year (month + 1) 0 := by
  unfold ofMonthDay at h ⊢
  by_cases hspring : month < 10
  · simp only [hspring, if_true] at h ⊢
    have hlast : ¬ before + 1 < monthLength year (month + 3) := by omega
    have hnot : month ≠ 11 := by omega
    rw [Date.next, if_neg hlast, if_neg hnot]
    by_cases hdecember : month = 9
    · simp [hdecember]
    · have hless : month + 3 < 12 := by omega
      have hearly : month + 1 < 10 := by omega
      simp [hless, hearly]
  · simp only [hspring, if_false] at h ⊢
    have hlast : ¬ before + 1 < monthLength (year + 1) (month - 9) := by omega
    have hcases : month = 10 ∨ month = 11 := by omega
    rw [Date.next, if_neg hlast]
    rcases hcases with rfl | rfl <;> simp

/-- Behind a day comes the next one of the year, and behind the last one the first of March. -/
theorem next_ofYearDay {year : Int} {day : Nat} (h : day < yearLength year) :
    (ofYearDay year day).next =
      if day + 1 < yearLength year then ofYearDay year (day + 1) else ofYearDay (year + 1) 0 := by
  have hlength := yearLength_cases year
  have hshort : day < 366 := by omega
  have ⟨month, hmonth, hlow, hhigh⟩ := exists_month hshort
  have hfirst : ∀ year, ofYearDay year 0 = ofMonthDay year 0 0 := fun _ => rfl
  have hnext := monthStart_lt_succ month
  rw [ofYearDay_eq year hlow hhigh, hfirst]
  by_cases hfebruary : month = 11
  · rw [hfebruary] at hlow hhigh ⊢
    have hdays := monthLength_february year (day - monthStart 11)
    have hend : yearLength year ≤ monthStart (11 + 1) := by
      have hstart : monthStart (11 + 1) = 367 := rfl
      omega
    by_cases hmore : day + 1 < yearLength year
    · have hbehind : monthStart 11 ≤ day + 1 := by omega
      have hinside : day + 1 < monthStart (11 + 1) := by omega
      rw [if_pos hmore, next_of_lt (by omega), ofYearDay_eq year hbehind hinside,
        Nat.sub_add_comm hlow]
    · rw [if_neg hmore, next_of_last (by omega) (by decide), if_pos rfl]
  · have hspring : month < 11 := by omega
    have hdays := monthLength_ofMonthDay year (day - monthStart month) hspring
    have hmore : day + 1 < yearLength year := by
      have hjanuary : monthStart (month + 1) ≤ monthStart 11 := monthStart_le hspring
      have hstart : monthStart 11 = 337 := rfl
      omega
    rw [if_pos hmore]
    by_cases hlast : day + 1 < monthStart (month + 1)
    · rw [next_of_lt (by omega), ofYearDay_eq year (by omega) hlast, Nat.sub_add_comm hlow]
    · have hstart : day + 1 = monthStart (month + 1) := by omega
      have hbehind := monthStart_lt_succ (month + 1)
      rw [next_of_last (by omega) hmonth, if_neg hfebruary, hstart,
        ofYearDay_eq year (Nat.le_refl _) hbehind, Nat.sub_self]

theorem valid_ofMonthDay {year : Int} {month before : Nat} (hmonth : month < 12)
    (h : before < monthLength (ofMonthDay year month before).year
      (ofMonthDay year month before).month) :
    (ofMonthDay year month before).Valid := by
  unfold ofMonthDay at h ⊢
  by_cases hspring : month < 10
  · simp only [hspring, if_true] at h ⊢
    exact ⟨by simp, by simp; omega, by simp, h⟩
  · simp only [hspring, if_false] at h ⊢
    exact ⟨by simp; omega, by simp; omega, by simp, h⟩

theorem valid_ofYearDay {year : Int} {day : Nat} (h : day < yearLength year) :
    (ofYearDay year day).Valid := by
  have hlength := yearLength_cases year
  have hshort : day < 366 := by omega
  have ⟨month, hmonth, hlow, hhigh⟩ := exists_month hshort
  rw [ofYearDay_eq year hlow hhigh]
  apply valid_ofMonthDay hmonth
  by_cases hfebruary : month = 11
  · rw [hfebruary] at hlow ⊢
    rw [monthLength_february]
    omega
  · rw [monthLength_ofMonthDay year _ (by omega)]
    omega

/-! ## Eras -/

def yearStart (year : Nat) : Nat :=
  365 * year + year / 4 - year / 100

theorem yearLength_era (era : Int) (year : Nat) :
    yearLength (year + era * 400) = yearLength year := by
  have hleap : IsLeap (year + era * 400 + 1) ↔ IsLeap (year + 1) := by
    unfold IsLeap
    omega
  simp only [yearLength, hleap]

theorem yearStart_succ {year : Nat} (h : year + 1 < 400) :
    yearStart (year + 1) = yearStart year + yearLength year := by
  unfold yearStart yearLength
  by_cases hleap : IsLeap (year + 1)
  · rw [if_pos hleap]
    unfold IsLeap at hleap
    omega
  · rw [if_neg hleap]
    unfold IsLeap at hleap
    omega

/-- An era ends with its last year, which has a leap day. -/
theorem yearStart_last : yearStart 399 + yearLength (399 : Nat) = daysPerEra := by
  decide

/-- A day of an era is a day of one of its years. -/
theorem exists_yearDay {dayOfEra : Nat} (h : dayOfEra < daysPerEra) :
    ∃ year < 400, ∃ day < yearLength (year : Nat), dayOfEra = yearStart year + day := by
  induction dayOfEra with
  | zero => exact ⟨0, by decide, 0, by decide, rfl⟩
  | succ dayOfEra ih =>
      have ⟨year, hyear, day, hday, hsum⟩ := ih (Nat.lt_of_succ_lt h)
      by_cases hmore : day + 1 < yearLength year
      · exact ⟨year, hyear, day + 1, hmore, by omega⟩
      · by_cases hnext : year + 1 < 400
        · have hstart := yearStart_succ hnext
          have hlength := yearLength_cases ((year + 1 : Nat) : Int)
          exact ⟨year + 1, hnext, 0, by omega, by omega⟩
        · -- Behind the last day of the last year the era is over.
          have hyears : year = 399 := by omega
          have hera := yearStart_last
          rw [hyears] at hsum hmore
          omega

/-- By centuries, fours of years and years: only the last of each may be a day longer. -/
theorem yearOfEra_of_parts {century four year day : Nat} (hcentury : century < 4)
    (hfour : four < 25) (hyear : year < 4) (hday : day < 366)
    (hleap : day = 365 → year = 3 ∧ (four = 24 → century = 3)) :
    yearOfEra (36524 * century + 1461 * four + 365 * year + day) =
      100 * century + 4 * four + year := by
  unfold yearOfEra
  by_cases hlast : century = 3 ∧ four = 24 ∧ year = 3 ∧ day = 365
  · have ⟨hcentury', hfour', hyear', hday'⟩ := hlast
    rw [hcentury', hfour', hyear', hday']
  · -- Before the last day of the era the terms for centuries and for the era count whole ones.
    have hcenturies : (36524 * century + 1461 * four + 365 * year + day) / 36524 = century := by
      omega
    have heras : (36524 * century + 1461 * four + 365 * year + day) / 146096 = 0 := by omega
    have hfours : (36524 * century + 1461 * four + 365 * year + day) / 1460 =
        25 * century + four + (24 * century + four + 365 * year + day) / 1460 := by omega
    rw [hcenturies, heras, hfours]
    omega

theorem yearOfEra_eq {year day : Nat} (hyear : year < 400) (hday : day < yearLength year) :
    yearOfEra (yearStart year + day) = year := by
  have hparts : year = 100 * (year / 100) + 4 * (year % 100 / 4) + year % 4 := by omega
  have hstart : yearStart year =
      36524 * (year / 100) + 1461 * (year % 100 / 4) + 365 * (year % 4) := by
    unfold yearStart
    omega
  have hlength := yearLength_cases year
  have hleap : day = 365 → year % 4 = 3 ∧ (year % 100 / 4 = 24 → year / 100 = 3) := by
    intro hlast
    have hlong : IsLeap (year + 1) := by
      by_cases h : IsLeap (year + 1)
      · exact h
      · rw [yearLength, if_neg h] at hday
        omega
    unfold IsLeap at hlong
    omega
  have hcentury : year / 100 < 4 := by omega
  have hfour : year % 100 / 4 < 25 := by omega
  have hone : year % 4 < 4 := by omega
  have hshort : day < 366 := by omega
  rw [hstart, yearOfEra_of_parts hcentury hfour hone hshort hleap, ← hparts]

/-! ## Days -/

/-- The days that 1 January 1970 lies behind the first of March of the year 0. -/
def epoch : Int :=
  719468

theorem ofDays_eq {days era : Int} {year day : Nat} (hyear : year < 400)
    (hday : day < yearLength year)
    (h : days + epoch = era * daysPerEra + (yearStart year + day : Nat)) :
    Date.ofDays days = ofYearDay (year + era * 400) day := by
  have hlength := yearLength_cases year
  have hlt : yearStart year + day < 146097 := by
    unfold yearStart
    omega
  have hera : (days + 719468) / 146097 = era := by
    unfold epoch daysPerEra at h
    omega
  have hrest : ((days + 719468) % 146097).toNat = yearStart year + day := by
    unfold epoch daysPerEra at h
    omega
  have hyearDay : yearStart year + day - (365 * year + year / 4 - year / 100) = day := by
    unfold yearStart
    omega
  have hcast : (daysPerEra : Int) = 146097 := rfl
  unfold Date.ofDays ofYearDay ofMonthDay monthStart
  simp only [hcast, hera, hrest, yearOfEra_eq hyear hday, hyearDay]
  have hmonth : (5 * day + 2) / 153 < 12 := by omega
  generalize (5 * day + 2) / 153 = month at hmonth
  by_cases hspring : month < 10
  · simp [hspring]
  · have hearly : month - 9 ≤ 2 := by omega
    simp [hspring, hearly]

/-- Each day of an era is a day of a year. -/
theorem exists_ofDays (days : Int) :
    ∃ era : Int, ∃ year < 400, ∃ day < yearLength (year : Nat),
      days + epoch = era * daysPerEra + (yearStart year + day : Nat) := by
  have hlt : ((days + epoch) % daysPerEra).toNat < daysPerEra := by
    unfold daysPerEra
    omega
  have ⟨year, hyear, day, hday, hsum⟩ := exists_yearDay hlt
  refine ⟨(days + epoch) / daysPerEra, year, hyear, day, hday, ?_⟩
  rw [← hsum]
  unfold daysPerEra
  omega

namespace Date

theorem ofDays_zero : ofDays 0 = ⟨1970, 1, 1⟩ := by
  decide

/-- A day later is the next date. -/
theorem ofDays_succ (days : Int) : ofDays (days + 1) = (ofDays days).next := by
  have ⟨era, year, hyear, day, hday, hsum⟩ := exists_ofDays days
  have hlength := yearLength_era era year
  rw [ofDays_eq hyear hday hsum, next_ofYearDay (by rw [hlength]; exact hday), hlength]
  by_cases hmore : day + 1 < yearLength year
  · rw [if_pos hmore]
    exact ofDays_eq hyear hmore (by omega)
  · rw [if_neg hmore]
    by_cases hnext : year + 1 < 400
    · have hstart := yearStart_succ hnext
      have hfirst : 0 < yearLength ((year + 1 : Nat) : Int) := by
        have hcases := yearLength_cases ((year + 1 : Nat) : Int)
        omega
      have hbehind : days + 1 + epoch =
          era * daysPerEra + (yearStart (year + 1) + 0 : Nat) := by omega
      rw [ofDays_eq hnext hfirst hbehind]
      congr 1
      omega
    · have hlast : year = 399 := by omega
      have hera := yearStart_last
      rw [hlast] at hsum hmore hday ⊢
      have hfirst : 0 < yearLength ((0 : Nat) : Int) := by decide
      have hzero : yearStart 0 = 0 := rfl
      have hbehind : days + 1 + epoch =
          (era + 1) * daysPerEra + (yearStart 0 + 0 : Nat) := by
        rw [hzero]
        unfold daysPerEra at hsum hera ⊢
        omega
      rw [ofDays_eq (by decide) hfirst hbehind]
      congr 1
      omega

theorem valid_ofDays (days : Int) : (ofDays days).Valid := by
  have ⟨era, year, hyear, day, hday, hsum⟩ := exists_ofDays days
  rw [ofDays_eq hyear hday hsum]
  apply valid_ofYearDay
  rw [yearLength_era]
  exact hday

end Date

/-! ## Texts -/

/-- So many decimal digits that stand for a number. -/
structure Figures (width n : Nat) (digits : List Char) : Prop where
  length_eq : digits.length = width
  isDigit : ∀ c ∈ digits, c.isDigit = true
  value_eq : Nat.ofDigitChars 10 digits 0 = n

theorem figures_padded {width n : Nat} (hwidth : 0 < width) (h : n < 10 ^ width) :
    Figures width n (padded width n).toList := by
  have hfits : (Nat.toDigits 10 n).length ≤ width :=
    (Nat.length_toDigits_le_iff (by decide) hwidth).mpr h
  have hdigits : (padded width n).toList =
      List.replicate (width - (Nat.toDigits 10 n).length) '0' ++ Nat.toDigits 10 n := by
    simp [padded, Nat.repr_eq_ofList_toDigits]
  rw [hdigits]
  constructor
  case length_eq =>
    rw [List.length_append, List.length_replicate]
    omega
  case isDigit =>
    intro c hc
    rcases List.mem_append.mp hc with hzero | hdigit
    · rw [List.eq_of_mem_replicate hzero]
      decide
    · exact Nat.isDigit_of_mem_toDigits (by decide) (by decide) hdigit
  case value_eq =>
    rw [Nat.ofDigitChars_append, Nat.ofDigitChars_replicate_zero, Nat.mul_zero,
      Nat.ofDigitChars_ten_toDigits]

/-- The form `YYYY-MM-DDThh:mm:ssZ`. -/
def Stamped (date : Date) (hour minute second : Nat) (text : String) : Prop :=
  ∃ year month day hours minutes seconds,
    text.toList = year ++ '-' :: month ++ '-' :: day ++ 'T' :: hours ++ ':' :: minutes ++
      ':' :: seconds ++ ['Z'] ∧
    Figures 4 date.year.toNat year ∧ Figures 2 date.month month ∧ Figures 2 date.day day ∧
    Figures 2 hour hours ∧ Figures 2 minute minutes ∧ Figures 2 second seconds

theorem monthLength_le (year : Int) (month : Nat) : monthLength year month ≤ 31 := by
  unfold monthLength
  split
  · split <;> decide
  · split <;> decide

/-- A moment is a day, an hour, a minute and a second. -/
theorem Moment.exists_time (moment : Moment) :
    ∃ days hour minute second, hour < 24 ∧ minute < 60 ∧ second < 60 ∧
      moment.seconds = 86400 * days + (3600 * hour + 60 * minute + second : Nat) := by
  refine ⟨moment.seconds / 86400, (moment.seconds % 86400).toNat / 3600,
    (moment.seconds % 86400).toNat / 60 % 60, (moment.seconds % 86400).toNat % 60, ?_⟩
  omega

/-- The text shows the day and the time of day. A leap second is one more than the second that
is counted. -/
theorem Moment.stamped_text {moment : Moment} {days : Int} {hour minute second : Nat}
    (hhour : hour < 24) (hminute : minute < 60) (hsecond : second < 60)
    (hseconds : moment.seconds = 86400 * days + (3600 * hour + 60 * minute + second : Nat))
    (hyear : 0 ≤ (Date.ofDays days).year ∧ (Date.ofDays days).year ≤ 9999) :
    Stamped (Date.ofDays days) hour minute
      (second + if 1000000000 ≤ moment.nanos then 1 else 0) moment.text := by
  have hdays : moment.seconds / 86400 = days := by omega
  have htime : (moment.seconds % 86400).toNat = 3600 * hour + 60 * minute + second := by omega
  have hhours : (3600 * hour + 60 * minute + second) / 3600 = hour := by omega
  have hminutes : (3600 * hour + 60 * minute + second) / 60 % 60 = minute := by omega
  have hleft : (3600 * hour + 60 * minute + second) % 60 = second := by omega
  have hvalid := Date.valid_ofDays days
  have hmonth := hvalid.month_le
  have hday := Nat.le_trans hvalid.day_le (monthLength_le _ _)
  have hsecond' : (second + if 1000000000 ≤ moment.nanos then 1 else 0) < 10 ^ 2 := by
    split <;> omega
  refine ⟨_, _, _, _, _, _, ?_, figures_padded (by decide) (by omega),
    figures_padded (by decide) (by omega), figures_padded (by decide) (by omega),
    figures_padded (by decide) (by omega), figures_padded (by decide) (by omega),
    figures_padded (by decide) hsecond'⟩
  simp only [Moment.text, hdays, htime, hhours, hminutes, hleft, yearText, if_pos hyear,
    String.toList_append]
  simp

/-- A leap second at the end of a day. -/
example : Moment.text ⟨1483228799, 1000000000⟩ = "2016-12-31T23:59:60Z" := by
  decide +kernel

end GrammarTable.Calendar
