import GitReadout.Log.Date

/-!
# Days and dates

A number of days is counted in cycles of 400 years, in centuries, in cycles of four years and in
years, all of which begin in March, and the days that remain are a day of such a year. Of the parts
of one length only the last of its cycle may be longer than the others, by a leap day, or shorter,
without one.

* `toDays_ofDayOfYear`, `isValid_ofDayOfYear`: the days of one year.
* `exists_dayOfYear`: the year and the day of the year that a number of days leads to.
* `toDays_ofDays`, `isValid_ofDays`: every number of days has a date, which leads back to it.
-/

set_option autoImplicit false

namespace GitReadout.Log.Date

/-- The date on a day, counted from zero, of the year that begins in March of `year`. -/
def ofDayOfYear (year : Int) (dayOfYear : Nat) : Date :=
  let month := (5 * dayOfYear + 2) / 153
  { year := if month < 10 then year else year + 1
    month := if month < 10 then month + 3 else month - 9
    day := dayOfYear - (153 * month + 2) / 5 + 1 }

/-- The number of days before the year that begins in March of `year`. -/
def daysBeforeYear (year : Int) : Int :=
  365 * year + year / 4 - year / 100 + year / 400 - 719468

variable {year : Int} {dayOfYear : Nat}

theorem toDays_ofDayOfYear (h : dayOfYear ≤ 365) :
    (ofDayOfYear year dayOfYear).toDays = daysBeforeYear year + dayOfYear := by
  obtain ⟨month, hmonth⟩ : ∃ month, (5 * dayOfYear + 2) / 153 = month := ⟨_, rfl⟩
  have hstart : (153 * month + 2) / 5 ≤ dayOfYear := by omega
  unfold ofDayOfYear toDays daysBeforeYear
  simp only [hmonth]
  by_cases hlt : month < 10
  · have hmod : (month + 3 + 9) % 12 = month := by omega
    simp only [hlt, if_true, hmod]
    rw [if_neg (by omega)]
    omega
  · have hmod : (month - 9 + 9) % 12 = month := by omega
    simp only [hlt, if_false, hmod]
    rw [if_pos (by omega), Int.add_sub_cancel]
    omega

/-- The last day of a year that begins in March is the leap day. -/
theorem isValid_ofDayOfYear
    (h : dayOfYear ≤ 364 ∨ dayOfYear = 365 ∧ isLeapYear (year + 1)) :
    (ofDayOfYear year dayOfYear).isValid = true := by
  obtain hd | ⟨rfl, hleap⟩ := h
  · unfold ofDayOfYear isValid daysInMonth
    by_cases hmonth : (5 * dayOfYear + 2) / 153 < 10
    · simp only [hmonth, if_true, Bool.and_eq_true, decide_eq_true_eq]
      rw [if_neg (by omega)]
      split <;> omega
    · simp only [hmonth, if_false, Bool.and_eq_true, decide_eq_true_eq]
      split
      · split <;> omega
      · split <;> omega
  · simp [ofDayOfYear, isValid, daysInMonth, hleap]

/-- Of four parts of one length the last may be longer by a day. -/
theorem exists_part (length days : Nat) (hlength : 0 < length) (h : days ≤ 4 * length) :
    ∃ part rest, min 3 (days / length) = part ∧ days - length * part = rest ∧ part ≤ 3 ∧
      days = length * part + rest ∧ (rest < length ∨ rest = length ∧ part = 3) := by
  have hdiv := Nat.div_add_mod days length
  have hmod := Nat.mod_lt days hlength
  refine ⟨_, _, rfl, rfl, ?_⟩
  by_cases hpart : days / length ≤ 3
  · rw [Nat.min_eq_right hpart]
    omega
  · -- then all four have passed, so only the additional day is left
    have hall : length * 4 ≤ length * (days / length) := Nat.mul_le_mul_left _ (by omega)
    rw [Nat.min_eq_left (by omega)]
    omega

/-- The year and the day of the year that a number of days leads to. -/
theorem exists_dayOfYear (days : Int) : ∃ (year : Int) (dayOfYear : Nat),
    ofDays days = ofDayOfYear year dayOfYear ∧ days = daysBeforeYear year + dayOfYear ∧
      (dayOfYear ≤ 364 ∨ dayOfYear = 365 ∧ isLeapYear (year + 1)) := by
  obtain ⟨era, hera⟩ : ∃ era, (days + 719468) / 146097 = era := ⟨_, rfl⟩
  obtain ⟨dayOfEra, hdayOfEra⟩ : ∃ day, ((days + 719468) % 146097).toNat = day := ⟨_, rfl⟩
  obtain ⟨century, dayOfCentury, hcentury, hrest, hcentury3, hdays, hlong⟩ :=
    exists_part 36524 dayOfEra (by decide) (by omega)
  obtain ⟨quad, hquad⟩ : ∃ quad, dayOfCentury / 1461 = quad := ⟨_, rfl⟩
  obtain ⟨yearOfQuad, dayOfYear, hyear, hrest', hyear3, hdays', hlong'⟩ :=
    exists_part 365 (dayOfCentury - 1461 * quad) (by decide) (by omega)
  obtain ⟨year, hyearEq⟩ :
      ∃ year, 400 * era + (100 * century + 4 * quad + yearOfQuad : Nat) = year := ⟨_, rfl⟩
  refine ⟨year, dayOfYear, ?_, ?_, ?_⟩
  · simp only [ofDays, hera, hdayOfEra, hcentury, hrest, hquad, hyear, hrest', hyearEq]
    rfl
  · have hfour : year / 4 = 100 * era + 25 * century + quad := by omega
    have hhundred : year / 100 = 4 * era + century := by omega
    have hera' : year / 400 = era := by omega
    rw [daysBeforeYear, hfour, hhundred, hera']
    omega
  · obtain hshort | ⟨rfl, rfl⟩ := hlong'
    · exact .inl (by omega)
    · -- the day is there only if the last year of a century begins its fourth
      have hfour : (year + 1) % 4 = 0 := by omega
      have hhundred : (year + 1) % 100 ≠ 0 ∨ (year + 1) % 400 = 0 := by omega
      exact .inr ⟨rfl, by simpa [isLeapYear, hfour] using hhundred⟩

theorem toDays_ofDays (days : Int) : (ofDays days).toDays = days := by
  obtain ⟨year, dayOfYear, hdate, hdays, hday⟩ := exists_dayOfYear days
  rw [hdate, toDays_ofDayOfYear (by omega), hdays]

theorem isValid_ofDays (days : Int) : (ofDays days).isValid = true := by
  obtain ⟨year, dayOfYear, hdate, -, hday⟩ := exists_dayOfYear days
  rw [hdate, isValid_ofDayOfYear hday]

theorem lt_of_isValid {date : Date} (h : date.isValid = true) :
    date.month < 100 ∧ date.day < 100 := by
  have hdays : daysInMonth date.year date.month ≤ 31 := by
    unfold daysInMonth
    split
    · split <;> decide
    · split <;> decide
  simp only [isValid, Bool.and_eq_true, decide_eq_true_eq] at h
  omega

/-- No year before year 0 begins less than 719468 days before 1970. -/
theorem year_ofDays_nonneg {days : Int} (h : -719468 ≤ days) : 0 ≤ (ofDays days).year := by
  obtain ⟨year, dayOfYear, hdate, hdays, hday⟩ := exists_dayOfYear days
  have hyear : 0 ≤ year := by
    unfold daysBeforeYear at hdays
    omega
  rw [hdate, ofDayOfYear]
  dsimp only
  split <;> omega

end GitReadout.Log.Date
