import Courier.Time.Instant

set_option autoImplicit false

/-! # Days and dates

Days are numbered without gaps, and each number belongs to one date: `Date.ofDayNumber` and
`Date.dayNumber` undo each other, on all numbers and on all dates that the calendar has.

Both are sums over an *era*: four hundred years, the first of which begins on the first of March of a
year that is divisible by four hundred. A day of an era is told by its year `y` of the era and the
number `d` of days since that year began; `Date.ofEra` is the date of such a day. -/

namespace Courier

/-! ## Years of an era -/

/-- The number of days of an era before one of its years. -/
def Era.start (y : Int) : Int := 365 * y + y / 4 - y / 100

/-- The number of days of a year of an era. Its last day is the leap day, if there is one. -/
def Era.length (y : Int) : Int := if Date.isLeapYear (y + 1) then 366 else 365

/-- A day of an era: the `d`-th of a year of it. -/
structure Era.HasDay (y d : Int) : Prop where
  year_nonneg : 0 ≤ y
  year_lt : y < 400
  day_nonneg : 0 ≤ d
  day_lt : d < Era.length y

theorem Date.isLeapYear_iff {y : Int} :
    Date.isLeapYear y = true ↔ y % 4 = 0 ∧ (y % 100 ≠ 0 ∨ y % 400 = 0) := by
  simp [Date.isLeapYear]

theorem Era.length_cases (y : Int) :
    (y + 1) % 4 = 0 ∧ ((y + 1) % 100 ≠ 0 ∨ (y + 1) % 400 = 0) ∧ Era.length y = 366 ∨
      ¬((y + 1) % 4 = 0 ∧ ((y + 1) % 100 ≠ 0 ∨ (y + 1) % 400 = 0)) ∧ Era.length y = 365 := by
  unfold Era.length
  by_cases h : Date.isLeapYear (y + 1) = true
  · rw [if_pos h]
    exact .inl ⟨(Date.isLeapYear_iff.1 h).1, (Date.isLeapYear_iff.1 h).2, rfl⟩
  · rw [if_neg h]
    exact .inr ⟨mt Date.isLeapYear_iff.2 h, rfl⟩

/-- The centuries of an era, the groups of four years of a century, and the years of a group. -/
structure Era.Splits (y c q r : Int) : Prop where
  year_eq : y = 100 * c + 4 * q + r
  century : 0 ≤ c ∧ c < 4
  group : 0 ≤ q ∧ q < 25
  year : 0 ≤ r ∧ r < 4

theorem Era.Splits.start_eq {y c q r : Int} (h : Era.Splits y c q r) :
    Era.start y = 36524 * c + 1461 * q + 365 * r := by
  obtain ⟨rfl, _, _, _⟩ := h
  unfold Era.start
  omega

/-- The last year of a group has a leap day, but not at the end of the first three centuries. -/
theorem Era.Splits.lt_length_iff {y c q r d : Int} (h : Era.Splits y c q r) :
    d < Era.length y ↔ d < 365 ∨ d = 365 ∧ r = 3 ∧ (q < 24 ∨ c = 3) := by
  obtain ⟨rfl, _, _, _⟩ := h
  obtain ⟨_, _, hlen⟩ | ⟨_, hlen⟩ := Era.length_cases (100 * c + 4 * q + r) <;> omega

/-- Every day of an era lies in one of its years. -/
theorem Era.exists_day {n : Int} (h0 : 0 ≤ n) (h1 : n < 146097) :
    ∃ y d, Era.HasDay y d ∧ n = Era.start y + d := by
  -- the last day of the era is the only one that would begin a fifth century or year of a group
  let c := min (n / 36524) 3
  let q := (n - 36524 * c) / 1461
  let r := min ((n - 36524 * c - 1461 * q) / 365) 3
  let d := n - 36524 * c - 1461 * q - 365 * r
  have hsplit : Era.Splits (100 * c + 4 * q + r) c q r := ⟨rfl, by omega, by omega, by omega⟩
  refine ⟨100 * c + 4 * q + r, d, ⟨by omega, by omega, by omega, ?_⟩, ?_⟩
  · rw [hsplit.lt_length_iff]
    omega
  · rw [hsplit.start_eq]
    omega

/-- The year that a day of an era lies in, from the number of the day alone. -/
theorem Era.year_eq {y d : Int} (h : Era.HasDay y d) :
    ((Era.start y + d) - (Era.start y + d) / 1460 + (Era.start y + d) / 36524 -
      (Era.start y + d) / 146096) / 365 = y := by
  obtain ⟨h0, h1, hd, hlt⟩ := h
  obtain ⟨c, q, r, hsplit⟩ : ∃ c q r, Era.Splits y c q r :=
    ⟨y / 100, y % 100 / 4, y % 4, by omega, by omega, by omega, by omega⟩
  rw [hsplit.start_eq]
  rw [hsplit.lt_length_iff] at hlt
  obtain ⟨rfl, _, _, _⟩ := hsplit
  by_cases hend : c = 3 ∧ q = 24 ∧ r = 3 ∧ d = 365
  · obtain ⟨rfl, rfl, rfl, rfl⟩ := hend
    omega
  · have hcentury : (36524 * c + 1461 * q + 365 * r + d) / 36524 = c := by omega
    have hera : (36524 * c + 1461 * q + 365 * r + d) / 146096 = 0 := by omega
    omega

/-! ## Dates in a year

Years that are reckoned from March, so that months have their first days at `(153 * m + 2) / 5`. -/

/-- The date of a day of an era. `era` counts the eras from the one with the year 0. January and
    February are the last months of a year here, and belong to the next one. -/
def Date.ofEra (era y d : Int) : Date :=
  let m := (5 * d + 2) / 153
  ⟨if m < 10 then y + era * 400 else y + 1 + era * 400,
    (if m < 10 then m + 3 else m - 9).toNat, (d - (153 * m + 2) / 5 + 1).toNat⟩

theorem Era.HasDay.month_bounds {y d : Int} (h : Era.HasDay y d) :
    0 ≤ (5 * d + 2) / 153 ∧ (5 * d + 2) / 153 < 12 := by
  obtain ⟨_, _, h0, h1⟩ := h
  obtain ⟨_, _, hlen⟩ | ⟨_, hlen⟩ := Era.length_cases y <;> omega

theorem Date.ofDayNumber_eq {n era y d : Int} (h : Era.HasDay y d)
    (hn : n + 719468 = era * 146097 + (Era.start y + d)) :
    Date.ofDayNumber n = Date.ofEra era y d := by
  have hdays : 0 ≤ Era.start y + d ∧ Era.start y + d < 146097 := by
    obtain ⟨h0, h1, hd, hlt⟩ := h
    obtain ⟨_, _, hlen⟩ | ⟨_, hlen⟩ := Era.length_cases y <;> unfold Era.start <;> omega
  have hera : (n + 719468).fdiv 146097 = era := by
    rw [Int.fdiv_eq_ediv_of_nonneg _ (by decide)]
    omega
  have hday : n + 719468 - era * 146097 = Era.start y + d := by omega
  have hstart : Era.start y + d - (365 * y + y / 4 - y / 100) = d := by
    unfold Era.start
    omega
  unfold Date.ofDayNumber Date.ofEra
  dsimp only
  rw [hera, hday, Era.year_eq h, hstart]
  obtain ⟨hm, _⟩ := h.month_bounds
  congr 1
  split <;> split <;> omega

/-- Every number is the number of a day of some era. -/
theorem Era.exists_day_of_number (n : Int) :
    ∃ era y d, Era.HasDay y d ∧ n + 719468 = era * 146097 + (Era.start y + d) := by
  obtain ⟨y, d, hday, heq⟩ := Era.exists_day (n := (n + 719468) % 146097) (by omega) (by omega)
  exact ⟨(n + 719468) / 146097, y, d, hday, by omega⟩

theorem Date.isReal_iff {d : Date} :
    d.isReal = true ↔ 1 ≤ d.day ∧ d.day ≤ Date.daysInMonth d.year d.month := by
  simp [Date.isReal]

theorem Date.month_of_isReal {d : Date} (h : d.isReal = true) : 1 ≤ d.month ∧ d.month ≤ 12 := by
  obtain ⟨h1, h2⟩ := Date.isReal_iff.1 h
  unfold Date.daysInMonth at h2
  split at h2 <;> omega

theorem Date.day_of_isReal {d : Date} (h : d.isReal = true) : 1 ≤ d.day ∧ d.day ≤ 31 := by
  obtain ⟨h1, h2⟩ := Date.isReal_iff.1 h
  unfold Date.daysInMonth at h2
  split at h2 <;> try split at h2
  all_goals omega

theorem Date.isLeapYear_ofEra (y era : Int) :
    Date.isLeapYear (y + era * 400) = Date.isLeapYear y := by
  rw [Bool.eq_iff_iff, Date.isLeapYear_iff, Date.isLeapYear_iff]
  omega

/-- The length of a month of a year of an era, both reckoned from March. -/
def Era.monthLength (y m : Int) : Int :=
  if m = 11 then (if Date.isLeapYear (y + 1) then 29 else 28)
  else (153 * (m + 1) + 2) / 5 - (153 * m + 2) / 5

theorem Date.daysInMonth_ofMarch (era y : Int) {m : Int} (h0 : 0 ≤ m) (h1 : m < 12) :
    ((Date.daysInMonth (if m < 10 then y + era * 400 else y + 1 + era * 400)
      (if m < 10 then m + 3 else m - 9).toNat : Nat) : Int) = Era.monthLength y m := by
  unfold Era.monthLength
  by_cases hlast : m = 11
  · subst hlast
    show ((if Date.isLeapYear (y + 1 + era * 400) then 29 else 28 : Nat) : Int) =
      if Date.isLeapYear (y + 1) then 29 else 28
    rw [Date.isLeapYear_ofEra]
    cases Date.isLeapYear (y + 1) <;> rfl
  · rw [if_neg hlast]
    obtain h | h | h | h | h | h | h | h | h | h | h : m = 0 ∨ m = 1 ∨ m = 2 ∨ m = 3 ∨ m = 4 ∨
      m = 5 ∨ m = 6 ∨ m = 7 ∨ m = 8 ∨ m = 9 ∨ m = 10 := by omega
    all_goals subst h; rfl

theorem Date.isReal_ofEra {era y d : Int} (h : Era.HasDay y d) :
    (Date.ofEra era y d).isReal = true := by
  obtain ⟨hm0, hm⟩ := h.month_bounds
  obtain ⟨_, _, h0, h1⟩ := h
  rw [Date.isReal_iff]
  refine ⟨?_, Int.ofNat_le.1 ?_⟩
  · show 1 ≤ (d - (153 * ((5 * d + 2) / 153) + 2) / 5 + 1).toNat
    omega
  · refine Int.le_trans ?_ (Int.le_of_eq (Date.daysInMonth_ofMarch era y hm0 hm).symm)
    show (((d - (153 * ((5 * d + 2) / 153) + 2) / 5 + 1).toNat : Nat) : Int) ≤ _
    unfold Era.monthLength
    unfold Era.length at h1
    by_cases hlast : (5 * d + 2) / 153 = 11
    · rw [if_pos hlast]
      split at h1 <;> rename_i hleap
      · rw [if_pos hleap]
        omega
      · rw [if_neg hleap]
        omega
    · rw [if_neg hlast]
      omega

/-- The day number counts the days of whole eras, of whole years and since the year began. -/
theorem Date.dayNumber_ofEra (era : Int) {y d : Int} (h : Era.HasDay y d) :
    (Date.ofEra era y d).dayNumber + 719468 = era * 146097 + (Era.start y + d) := by
  have hm := h.month_bounds
  obtain ⟨hy0, hy1, h0, h1⟩ := h
  unfold Date.ofEra Date.dayNumber Era.start
  dsimp only
  rw [Int.fdiv_eq_ediv_of_nonneg _ (by decide)]
  by_cases hlate : (5 * d + 2) / 153 < 10
  · simp only [if_pos hlate]
    rw [if_neg (by omega), if_neg (by omega)]
    omega
  · simp only [if_neg hlate]
    rw [if_pos (by omega), if_pos (by omega)]
    omega

/-- A day of a month is a day of its year, and the month is found from the day. -/
theorem Era.hasDay_of_month {y m day : Int} (hy0 : 0 ≤ y) (hy : y < 400) (hm0 : 0 ≤ m) (hm : m < 12)
    (hday0 : 1 ≤ day) (hday : day ≤ Era.monthLength y m) :
    Era.HasDay y ((153 * m + 2) / 5 + day - 1) ∧
      (5 * ((153 * m + 2) / 5 + day - 1) + 2) / 153 = m := by
  unfold Era.monthLength at hday
  refine ⟨⟨hy0, hy, by omega, ?_⟩, ?_⟩
  · unfold Era.length
    by_cases hleap : Date.isLeapYear (y + 1) = true
    · rw [if_pos hleap] at hday ⊢
      omega
    · rw [if_neg hleap] at hday ⊢
      omega
  · by_cases hlast : m = 11
    · have hfebruary : day ≤ 29 := by
        rw [if_pos hlast] at hday
        split at hday <;> omega
      omega
    · rw [if_neg hlast] at hday
      omega

/-- A month and a year, reckoned from March instead. -/
theorem Date.exists_ofMarch (year : Int) {month : Nat} (hlow : 1 ≤ month) (hhigh : month ≤ 12) :
    ∃ era y m : Int, 0 ≤ y ∧ y < 400 ∧ 0 ≤ m ∧ m < 12 ∧
      month = (if m < 10 then m + 3 else m - 9).toNat ∧
      year = if m < 10 then y + era * 400 else y + 1 + era * 400 := by
  by_cases hearly : month ≤ 2
  · refine ⟨(year - 1) / 400, (year - 1) % 400, month + 9, by omega, by omega, by omega, by omega,
      ?_, ?_⟩
    · rw [if_neg (by omega)]
      omega
    · rw [if_neg (by omega)]
      omega
  · refine ⟨year / 400, year % 400, month - 3, by omega, by omega, by omega, by omega, ?_, ?_⟩
    · rw [if_pos (by omega)]
      omega
    · rw [if_pos (by omega)]
      omega

/-- Every date of the calendar is a day of some era. -/
theorem Date.exists_ofEra {date : Date} (h : date.isReal = true) :
    ∃ era y d, Era.HasDay y d ∧ date = Date.ofEra era y d := by
  obtain ⟨hlow, hhigh⟩ := Date.month_of_isReal h
  obtain ⟨hday0, hday⟩ := Date.isReal_iff.1 h
  obtain ⟨year, month, day⟩ := date
  dsimp only at hlow hhigh hday0 hday
  obtain ⟨era, y, m, hy0, hy, hm0, hm, hmonth, hyear⟩ := Date.exists_ofMarch year hlow hhigh
  have hlength : (day : Int) ≤ Era.monthLength y m := by
    rw [← Date.daysInMonth_ofMarch era y hm0 hm, ← hyear, ← hmonth]
    exact Int.ofNat_le.2 hday
  obtain ⟨hhas, hback⟩ := Era.hasDay_of_month hy0 hy hm0 hm (by omega) hlength
  refine ⟨era, y, (153 * m + 2) / 5 + day - 1, hhas, ?_⟩
  unfold Date.ofEra
  dsimp only
  rw [hback, ← hmonth]
  congr 1
  omega

/-! ## Day numbers and dates -/

/-- Every day number belongs to a date that the calendar has. -/
theorem Date.isReal_ofDayNumber (n : Int) : (Date.ofDayNumber n).isReal = true := by
  obtain ⟨era, y, d, hday, hn⟩ := Era.exists_day_of_number n
  rw [Date.ofDayNumber_eq hday hn]
  exact Date.isReal_ofEra hday

theorem Date.dayNumber_ofDayNumber (n : Int) : (Date.ofDayNumber n).dayNumber = n := by
  obtain ⟨era, y, d, hday, hn⟩ := Era.exists_day_of_number n
  have hnumber := Date.dayNumber_ofEra era hday
  rw [Date.ofDayNumber_eq hday hn]
  omega

/-- A date that the calendar has is the date of its day number. -/
theorem Date.ofDayNumber_dayNumber {date : Date} (h : date.isReal = true) :
    Date.ofDayNumber date.dayNumber = date := by
  obtain ⟨era, y, d, hday, rfl⟩ := Date.exists_ofEra h
  exact Date.ofDayNumber_eq hday (Date.dayNumber_ofEra era hday)

end Courier
