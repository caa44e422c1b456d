/-
# The countdown to a birthday

A birthday is celebrated once in every year (`celebrations`), and what `computeFacts`
says of the days until then is what holds of anything yearly: `nextBday` is the first
celebration that is not in the past, and the countdown goes by a day at a time, from
365 at most. The functions of migration 005 count the same days.
-/
import BirthdayRole.BdaySql
import BirthdayRole.Lib.Yearly

namespace BirthdayRole

open Calendar

/-- The celebrations of a birthday. -/
def celebrations (month day : ℕ) : Yearly where
  on y := effectiveBday y month day
  year_on y := by
    unfold effectiveBday
    by_cases hf : month = 2 ∧ day = 29 ∧ (!isLeapYear y) = true
    · rw [if_pos hf]
      rfl
    · rw [if_neg hf]
      cases hd : Date.ofYmd? y month day with
      | some x => exact (Date.ofYmd?_eq_some.mp hd).1
      | none =>
        cases h1 : Date.ofYmd? y month 1 with
        | some x => exact (Date.ofYmd?_eq_some.mp h1).1
        | none => rfl

/-- From March on, a leap year is a day ahead. -/
theorem daysBefore_leap (m : ℕ) : daysBefore true m = daysBefore false m + if 2 < m then 1 else 0 := by
  induction m with
  | zero => rfl
  | succ m ih =>
    simp only [daysBefore, ih]
    by_cases hm : m = 2
    · subst hm
      rfl
    · rw [daysIn_of_ne_two true false hm]
      split_ifs <;> omega

section

variable {month day : ℤ} {year : Option ℤ} (h : ValidBirthday month day year)

include h

theorem toDays_effectiveBday (y : ℤ) : (effectiveBday y month.toNat day.toNat).toDays =
    daysBeforeYear y + daysBefore (isLeap y) month.toNat + day.toNat -
      if month.toNat = 2 ∧ day.toNat = 29 ∧ isLeap y = false then 1 else 0 := by
  rcases effectiveBday_cases h y with ⟨hm, hd, hl, he⟩ | ⟨hno, he⟩
  · rw [he, if_pos ⟨hm, hd, hl⟩, hm, hd]
    show daysBeforeYear y + daysBefore (isLeap y) 2 + 28 = _
    omega
  · obtain ⟨hy, hm, hd⟩ := Date.ofYmd?_eq_some.mp he
    rw [if_neg hno]
    simp only [Date.toDays, hy, hm, hd]
    omega

/-- Two celebrations in a row are a year apart, one way or another. -/
theorem effectiveBday_gap (y : ℤ) : (effectiveBday (y + 1) month.toNat day.toNat).toDays ≤
    (effectiveBday y month.toNat day.toNat).toDays + 366 := by
  rw [toDays_effectiveBday h, toDays_effectiveBday h, daysBeforeYear_succ]
  have hfeb := daysBefore_leap month.toNat
  by_cases hm : 2 < month.toNat
  · have hno : month.toNat ≠ 2 := by omega
    rw [if_pos hm] at hfeb
    cases isLeap y <;> cases isLeap (y + 1) <;> simp [hfeb, hno] <;> omega
  · rw [if_neg hm] at hfeb
    cases isLeap y <;> cases isLeap (y + 1) <;> simp [hfeb] <;> omega

theorem celebrations_daysUntil_le (today : Date) :
    (celebrations month.toNat day.toNat).daysUntil today ≤ 365 := by
  have hgap : ∀ y, ((celebrations month.toNat day.toNat).on (y + 1)).toDays ≤
      ((celebrations month.toNat day.toNat).on y).toDays + 366 := by
    intro y
    unfold celebrations
    exact effectiveBday_gap h y
  exact Yearly.daysUntil_le _ hgap today

theorem effectiveBday_month (y : ℤ) :
    (effectiveBday y month.toNat day.toNat).month = month.toNat := by
  rcases effectiveBday_cases h y with ⟨hm, -, -, he⟩ | ⟨-, he⟩
  · rw [he, hm]
    rfl
  · exact (Date.ofYmd?_eq_some.mp he).2.1

end

/-! ### The facts -/

section

variable {thisYear month day : ℤ} {year : Option ℤ} {tz : String}

/-- The facts of a birthday on a date. -/
def factsOn (month day : ℤ) (year : Option ℤ) (tz : String) (today : Date) : Facts :=
  computeFacts (fun _ => today) ⟨month, day, year, tz⟩

theorem factsOn_daysUntil (today : Date) : (factsOn month day year tz today).daysUntil =
    (celebrations month.toNat day.toNat).daysUntil today := rfl

theorem factsOn_isToday (today : Date) : (factsOn month day year tz today).isToday = true ↔
    today = effectiveBday today.year month.toNat day.toNat := by
  show ((factsOn month day year tz today).daysUntil == 0) = true ↔ _
  rw [beq_iff_eq, factsOn_daysUntil, Yearly.daysUntil_eq_zero]
  rfl

theorem factsOn_isThisWeek (today : Date) : (factsOn month day year tz today).isThisWeek = true ↔
    ∃ y k, 0 ≤ k ∧ k ≤ 6 ∧ today.toDays + k = (effectiveBday y month.toNat day.toNat).toDays := by
  show decide (0 ≤ (factsOn month day year tz today).daysUntil ∧
    (factsOn month day year tz today).daysUntil ≤ 6) = true ↔ _
  rw [decide_eq_true_eq, factsOn_daysUntil, Yearly.daysUntil_le_iff,
    and_iff_right (Yearly.daysUntil_nonneg _ _)]
  rfl

theorem factsOn_isThisMonth (today : Date) :
    (factsOn month day year tz today).isThisMonth = true ↔ today.month = month.toNat := beq_iff_eq

/-- One day of every year is the birthday. -/
theorem factsOn_isToday_unique (h : ValidBirthday month day year) (y : ℤ) :
    ∃! today : Date, today.year = y ∧ (factsOn month day year tz today).isToday = true := by
  refine ⟨effectiveBday y month.toNat day.toNat, ⟨effectiveBday_year h y, ?_⟩, ?_⟩
  · rw [factsOn_isToday, effectiveBday_year h]
  · rintro today ⟨hyear, htoday⟩
    rw [factsOn_isToday, hyear] at htoday
    exact htoday

/-- It is in the month of the birthday. -/
theorem factsOn_isToday_month (h : ValidBirthday month day year) {today : Date}
    (htoday : (factsOn month day year tz today).isToday = true) : today.month = month.toNat := by
  rw [factsOn_isToday] at htoday
  rw [htoday]
  exact effectiveBday_month h _

/-- The function of migration 005 counts the same days. -/
theorem bdayDaysUntil_factsOn (h : ValidBirthday month day year) {today : Date} {n : ℤ}
    (hn : bdayDaysUntil month day today = .ok n) : n = (factsOn month day year tz today).daysUntil := by
  rw [bdayDaysUntil_ok h hn, factsOn_daysUntil]
  rfl

theorem bdayDaysUntil_eq_ok (h : ValidBirthday month day year) {today : Date} (hr : InRange today) :
    bdayDaysUntil month day today = .ok (factsOn month day year tz today).daysUntil := by
  obtain ⟨n, hn⟩ := bdayDaysUntil_isOk h hr
  rw [hn]
  exact congrArg Except.ok (bdayDaysUntil_factsOn h hn)

/-- What the facts of a date say of the next celebration. -/
theorem factsOn_celebrates (h : validateDate thisYear month day year = .ok ()) :
    (∀ today, IsLeast {x | today ≤ x ∧ ∃ y, x = effectiveBday y month.toNat day.toNat}
        (nextBday today month.toNat day.toNat) ∧
      (factsOn month day year tz today).daysUntil =
        (nextBday today month.toNat day.toNat).toDays - today.toDays) ∧
    (∀ today, 0 ≤ (factsOn month day year tz today).daysUntil ∧
      (factsOn month day year tz today).daysUntil ≤ 365) ∧
    (∀ today, 0 < (factsOn month day year tz today).daysUntil →
      (factsOn month day year tz today.tomorrow).daysUntil =
        (factsOn month day year tz today).daysUntil - 1) ∧
    (∀ y, ∃! today : Date, today.year = y ∧ (factsOn month day year tz today).isToday = true) ∧
    (∀ today, (factsOn month day year tz today).isToday = true →
      today.month = month.toNat ∧ (factsOn month day year tz today).isThisMonth = true) ∧
    (∀ today, (factsOn month day year tz today).isThisWeek = true ↔ ∃ y k, 0 ≤ k ∧ k ≤ 6 ∧
      today.toDays + k = (effectiveBday y month.toNat day.toNat).toDays) ∧
    ∀ today, (∀ n, bdayDaysUntil month day today = .ok n →
        n = (factsOn month day year tz today).daysUntil) ∧
      (InRange today →
        bdayDaysUntil month day today = .ok (factsOn month day year tz today).daysUntil) := by
  have hvalid := (validateDate_spec h).1
  refine ⟨?_, ?_, ?_, factsOn_isToday_unique hvalid, ?_, factsOn_isThisWeek, ?_⟩
  · exact fun today => ⟨(celebrations month.toNat day.toNat).isLeast_next today, factsOn_daysUntil today⟩
  · intro today
    rw [factsOn_daysUntil]
    exact ⟨Yearly.daysUntil_nonneg _ _, celebrations_daysUntil_le hvalid today⟩
  · intro today hpos
    rw [factsOn_daysUntil] at hpos
    rw [factsOn_daysUntil, factsOn_daysUntil, Yearly.daysUntil_tomorrow _ hpos]
  · intro today htoday
    have hmonth := factsOn_isToday_month hvalid htoday
    exact ⟨hmonth, (factsOn_isThisMonth today).mpr hmonth⟩
  · exact fun today => ⟨fun n => bdayDaysUntil_factsOn hvalid, bdayDaysUntil_eq_ok hvalid⟩

/-- A birthday on February 29 waits the longest, after February 28 of a year before a leap year. -/
theorem factsOn_celebrates_leapDay : (factsOn 2 29 none "UTC" (feb28 2023)).isToday = true ∧
    (factsOn 2 29 none "UTC" (feb28 2023).tomorrow).daysUntil = 365 ∧
    ∀ today, 0 ≤ (factsOn 2 29 none "UTC" today).daysUntil ∧
      (factsOn 2 29 none "UTC" today).daysUntil ≤ 365 :=
  ⟨by decide, by decide, (factsOn_celebrates (show validateDate 2024 2 29 none = .ok () by rfl)).2.1⟩

end

end BirthdayRole
