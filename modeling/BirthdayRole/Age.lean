/-
# The age of a member

`computeFacts` works out the completed years, the age of the next celebration and the
days until then from comparisons of its own. They agree: the completed years are counted
by the celebrations (`ageOn`), so they go up on the day that `isToday` names and on no
other, and the next celebration brings the age that is one more until it is the day
itself (`factsOn_age`). The functions of migration 005 follow the same law.

Whether a member is born yet is another matter. `validateDate` looks at the year in UTC
and nothing else, so a date that is still ahead in the current year is accepted, and the
age is negative until the member's own calendar has come to it (`age_notNegative_iff`).

Key definitions: `ageOn`, `TimeZones`, `localToday`.
Key theorems: `factsOn_age`, `age_notNegative_iff`.
-/
import BirthdayRole.Celebration

namespace BirthdayRole

open Calendar

/-! ### Completed years -/

/-- The celebrations since the birth year. -/
def ageOn (month day birthYear : ℤ) (today : Date) : ℤ :=
  (celebrations month.toNat day.toNat).lastYear today - birthYear

def turningOn (month day birthYear : ℤ) (today : Date) : ℤ :=
  (nextBday today month.toNat day.toNat).year - birthYear

section

variable {thisYear month day birthYear : ℤ} {tz : String}

theorem ageOn_eq (today : Date) : ageOn month day birthYear today = today.year - birthYear -
    if effectiveBday today.year month.toNat day.toNat > today then 1 else 0 := by
  show today.year - (if effectiveBday today.year month.toNat day.toNat > today then 1 else 0) -
    birthYear = _
  omega

theorem factsOn_ageYears (today : Date) :
    (factsOn month day (some birthYear) tz today).ageYears = some (ageOn month day birthYear today) := by
  rw [ageOn_eq]
  rfl

theorem factsOn_ageTurning (today : Date) :
    (factsOn month day (some birthYear) tz today).ageTurning =
      some (turningOn month day birthYear today) := rfl

theorem factsOn_isToday_eq (today : Date) : (factsOn month day (some birthYear) tz today).isToday = true ↔
    (celebrations month.toNat day.toNat).daysUntil today = 0 := by
  rw [factsOn_isToday, Yearly.daysUntil_eq_zero]
  rfl

theorem ageOn_tomorrow (today : Date) : ageOn month day birthYear today.tomorrow =
    ageOn month day birthYear today +
      if (factsOn month day (some birthYear) tz today.tomorrow).isToday = true then 1 else 0 := by
  simp only [factsOn_isToday_eq]
  unfold ageOn
  rw [Yearly.lastYear_tomorrow]
  omega

theorem turningOn_eq (today : Date) : turningOn month day birthYear today =
    if (factsOn month day (some birthYear) tz today).isToday = true
    then ageOn month day birthYear today else ageOn month day birthYear today + 1 := by
  have hyear := (celebrations month.toNat day.toNat).year_next today
  simp only [factsOn_isToday_eq]
  show ((celebrations month.toNat day.toNat).next today).year - birthYear = _
  unfold ageOn
  split_ifs at hyear ⊢ <;> omega

theorem ageOn_mono : Monotone (ageOn month day birthYear) := fun _ _ h =>
  Int.sub_le_sub_right ((celebrations month.toNat day.toNat).lastYear_mono h) _

theorem ageOn_lt_tomorrow (today : Date) :
    ageOn month day birthYear today < ageOn month day birthYear today.tomorrow ↔
      today.tomorrow = effectiveBday today.tomorrow.year month.toNat day.toNat :=
  (Int.sub_lt_sub_right_iff).trans (Yearly.lastYear_lt_tomorrow _)

/-- In a year without the day, February 28 is the one. -/
theorem celebratedDay (h : ValidBirthday month day (some birthYear)) (y : ℤ) :
    if month = 2 ∧ day = 29 ∧ isLeapYear y = false
    then (effectiveBday y month.toNat day.toNat).month = 2 ∧
      (effectiveBday y month.toNat day.toNat).day = 28
    else ((effectiveBday y month.toNat day.toNat).month : ℤ) = month ∧
      ((effectiveBday y month.toNat day.toNat).day : ℤ) = day := by
  have hmonth := h.1
  have hday := h.2.2.1
  rw [isLeapYear_eq]
  rcases effectiveBday_cases h y with ⟨hm, hd, hl, he⟩ | ⟨hno, he⟩
  · rw [if_pos ⟨by omega, by omega, hl⟩, he]
    exact ⟨rfl, rfl⟩
  · obtain ⟨-, hm, hd⟩ := Date.ofYmd?_eq_some.mp he
    have hother : ¬(month = 2 ∧ day = 29 ∧ isLeap y = false) := by
      rintro ⟨rfl, rfl, hl⟩
      exact hno ⟨rfl, rfl, hl⟩
    rw [if_neg hother, hm, hd]
    omega

/-! ### The functions of migration 005 -/

theorem bdayIsToday_factsOn {year : Option ℤ} (h : ValidBirthday month day year) {today : Date}
    {b : Bool} (hb : bdayIsToday month day today = .ok b) :
    b = (factsOn month day year tz today).isToday := by
  obtain ⟨n, hn, rfl⟩ := Result.map_ok hb
  rw [bdayDaysUntil_factsOn h hn]
  rfl

theorem bdayAge_ageOn (h : ValidBirthday month day (some birthYear)) {today : Date} {a : Option ℤ}
    (ha : bdayAge (some birthYear) month day today = .ok a) :
    a = some (ageOn month day birthYear today) := by
  rw [bdayAge_ok h ha, ageOn_eq]
  rfl

theorem bdayAgeTurning_turningOn (h : ValidBirthday month day (some birthYear)) {today : Date}
    {a : Option ℤ} (ha : bdayAgeTurning (some birthYear) month day today = .ok a) :
    a = some (turningOn month day birthYear today) := bdayAgeTurning_ok h ha

theorem bdayAge_eq_ok (h : ValidBirthday month day (some birthYear)) {today : Date}
    (hr : InRange today) :
    bdayAge (some birthYear) month day today = .ok (some (ageOn month day birthYear today)) := by
  obtain ⟨a, ha⟩ := bdayAge_isOk h hr (some birthYear)
  rw [ha, bdayAge_ageOn h ha]

theorem bdayAgeTurning_eq_ok (h : ValidBirthday month day (some birthYear)) {today : Date}
    (hr : InRange today) : bdayAgeTurning (some birthYear) month day today =
      .ok (some (turningOn month day birthYear today)) := by
  obtain ⟨a, ha⟩ := bdayAgeTurning_isOk h hr (some birthYear)
  rw [ha, bdayAgeTurning_turningOn h ha]

/-- The age goes by the celebrations, in both languages. -/
theorem factsOn_age (h : validateDate thisYear month day (some birthYear) = .ok ()) :
    ∃ age turning : Date → ℤ,
      (∀ today, (factsOn month day (some birthYear) tz today).ageYears = some (age today) ∧
        (factsOn month day (some birthYear) tz today).ageTurning = some (turning today)) ∧
      (∀ today, age today.tomorrow = age today +
        if (factsOn month day (some birthYear) tz today.tomorrow).isToday = true then 1 else 0) ∧
      (∀ today, turning today =
        if (factsOn month day (some birthYear) tz today).isToday = true then age today
        else age today + 1) ∧
      Monotone age ∧
      (∀ y, ∃! today : Date, today.tomorrow.year = y ∧ age today < age today.tomorrow) ∧
      (∀ today, age today < age today.tomorrow → age today.tomorrow = age today + 1 ∧
        if month = 2 ∧ day = 29 ∧ isLeapYear today.tomorrow.year = false
        then today.tomorrow.month = 2 ∧ today.tomorrow.day = 28
        else (today.tomorrow.month : ℤ) = month ∧ (today.tomorrow.day : ℤ) = day) ∧
      ∀ today,
        (∀ b, bdayIsToday month day today = .ok b →
          b = (factsOn month day (some birthYear) tz today).isToday) ∧
        (∀ a, bdayAge (some birthYear) month day today = .ok a → a = some (age today)) ∧
        (∀ a, bdayAgeTurning (some birthYear) month day today = .ok a → a = some (turning today)) ∧
        (InRange today → bdayAge (some birthYear) month day today = .ok (some (age today)) ∧
          bdayAgeTurning (some birthYear) month day today = .ok (some (turning today))) := by
  have hvalid := (validateDate_spec h).1
  refine ⟨ageOn month day birthYear, turningOn month day birthYear, ?_, ageOn_tomorrow,
    turningOn_eq, ageOn_mono, ?_, ?_, ?_⟩
  · exact fun today => ⟨factsOn_ageYears today, factsOn_ageTurning today⟩
  · intro y
    have hnight := (celebrations month.toNat day.toNat).existsUnique_lastYear_lt y
    simpa only [ageOn, Int.sub_lt_sub_right_iff] using hnight
  · intro today hup
    have hday := celebratedDay hvalid today.tomorrow.year
    rw [← (ageOn_lt_tomorrow today).mp hup] at hday
    refine ⟨?_, hday⟩
    have hstep : ageOn month day birthYear today.tomorrow = ageOn month day birthYear today +
        if (factsOn month day (some birthYear) tz today.tomorrow).isToday = true then 1 else 0 :=
      ageOn_tomorrow today
    split_ifs at hstep <;> omega
  · intro today
    exact ⟨fun _ => bdayIsToday_factsOn hvalid, fun _ => bdayAge_ageOn hvalid,
      fun _ => bdayAgeTurning_turningOn hvalid,
      fun hr => ⟨bdayAge_eq_ok hvalid hr, bdayAgeTurning_eq_ok hvalid hr⟩⟩

/-- In a leap year the age of February 29 goes up a day later than in the others. -/
theorem factsOn_age_leapDay : ∃ age : Date → ℤ, Monotone age ∧
    age (feb28 2023) = 23 ∧ age (feb28 2024) = 23 ∧ age (feb28 2024).tomorrow = 24 := by
  obtain ⟨age, turning, hfacts, -, -, hmono, -⟩ :=
    @factsOn_age 2026 2 29 2000 "UTC" (by rfl)
  exact ⟨age, hmono, Option.some_inj.mp ((hfacts _).1.symm.trans rfl),
    Option.some_inj.mp ((hfacts _).1.symm.trans rfl), Option.some_inj.mp ((hfacts _).1.symm.trans rfl)⟩

end

/-! ### The clock -/

/-- The date on a clock `offset` seconds ahead of UTC. Instants are nanoseconds since
the first of January 1970, the day with the number 719163. -/
def dateAt (offset instant : ℤ) : Date :=
  Date.ofDays ((instant + offset * 1000000000) / (86400 * 1000000000) + 719163)

/-- How far the zones are ahead of UTC, in seconds: less than a day, whichever the sign. -/
structure TimeZones where
  offset : String → ℤ → ℤ
  offset_gt : ∀ tz instant, -86400 < offset tz instant
  offset_lt : ∀ tz instant, offset tz instant < 86400

/-- UTC for every zone. -/
def TimeZones.utc : TimeZones where
  offset _ _ := 0
  offset_gt _ _ := by decide
  offset_lt _ _ := by decide

/-- The date `Utc::now()` has. -/
def utcToday (now : ℤ) : Date := dateAt 0 now

def localToday (C : Crates) (Z : TimeZones) (now : ℤ) (tzName : String) : Date :=
  dateAt (Z.offset ((C.parseTz tzName).getD "UTC") now) now

/-- No clock is more than a day behind UTC. -/
theorem utcToday_le_succ {t u offset : ℤ} (htu : t ≤ u) (hoffset : -86400 < offset) :
    (utcToday t).toDays ≤ (dateAt offset u).toDays + 1 := by
  unfold utcToday dateAt
  rw [Date.toDays_ofDays, Date.toDays_ofDays]
  omega

/-! ### Born yet -/

/-- A day of the calendar that a date has not come to. -/
def Ahead (year month day : ℤ) (today : Date) : Prop :=
  today.year < year ∨ today.year = year ∧
    ((today.month : ℤ) < month ∨ (today.month : ℤ) = month ∧ (today.day : ℤ) < day)

def NotNegative (age : Option ℤ) : Prop := ∀ a, age = some a → 0 ≤ a

section

variable {month day birthYear : ℤ}

/-- The birthday of the birth year is the date of birth. -/
theorem effectiveBday_birthYear (h : ValidBirthday month day (some birthYear)) :
    Date.ofYmd? birthYear month.toNat day.toNat =
      some (effectiveBday birthYear month.toNat day.toNat) := by
  rcases effectiveBday_cases h birthYear with ⟨hm, hd, hl, -⟩ | ⟨-, he⟩
  · have hday := h.2.2.2
    rw [Option.map_some, Option.getD_some, hm, hd, hl] at hday
    exact absurd hday (by decide)
  · exact he

theorem lt_effectiveBday_iff (h : ValidBirthday month day (some birthYear)) (today : Date) :
    today < effectiveBday birthYear month.toNat day.toNat ↔ Ahead birthYear month day today := by
  have hmonth := h.1
  have hday := h.2.2.1
  obtain ⟨hy, hm, hd⟩ := Date.ofYmd?_eq_some.mp (effectiveBday_birthYear h)
  rw [Date.lt_iff, hy, hm, hd]
  unfold Ahead
  omega

theorem ageOn_nonneg (h : ValidBirthday month day (some birthYear)) (today : Date) :
    0 ≤ ageOn month day birthYear today ↔ ¬Ahead birthYear month day today := by
  rw [← lt_effectiveBday_iff h, not_lt]
  exact Int.sub_nonneg.trans (Yearly.le_lastYear _)

/-- A birthday of an earlier year is behind every clock. -/
theorem not_ahead_of_year_lt (h : ValidBirthday month day (some birthYear)) {t u offset : ℤ}
    (htu : t ≤ u) (hoffset : -86400 < offset) (hyear : birthYear < (utcToday t).year) :
    ¬Ahead birthYear month day (dateAt offset u) := by
  have hborn := (effectiveBday birthYear month.toNat day.toNat).toDays_le
  rw [effectiveBday_year h] at hborn
  have hjan := daysBeforeYear_mono hyear
  have hnow := (utcToday t).lt_toDays
  have hclock := utcToday_le_succ htu hoffset
  rw [← lt_effectiveBday_iff h, not_lt, ← Date.toDays_le_toDays]
  omega

/-- So the ones that may be ahead are those of the year. -/
theorem ahead_iff {year : Option ℤ} {t u offset : ℤ}
    (h : validateDate (utcToday t).year month day year = .ok ()) (htu : t ≤ u)
    (hoffset : -86400 < offset) :
    (∀ y, year = some y → ¬Ahead y month day (dateAt offset u)) ↔
      (year = some (utcToday t).year →
        ¬Ahead (utcToday t).year month day (dateAt offset u)) := by
  obtain ⟨hvalid, hbound⟩ := validateDate_spec h
  constructor
  · exact fun hall => hall _
  · rintro hthis y rfl
    rcases (hbound y rfl).2.lt_or_eq with hlt | rfl
    · exact not_ahead_of_year_lt hvalid htu hoffset hlt
    · exact hthis rfl

/-- An accepted age is negative while a birthday of the current year is ahead. -/
theorem age_notNegative_iff (C : Crates) (Z pgZones : TimeZones) {year : Option ℤ} {t u : ℤ}
    (h : validateDate (utcToday t).year month day year = .ok ()) (htu : t ≤ u) (tz : String) :
    (NotNegative (computeFacts (localToday C Z u) ⟨month, day, year, tz⟩).ageYears ↔
      (year = some (utcToday t).year →
        ¬Ahead (utcToday t).year month day (localToday C Z u tz))) ∧
    ∀ age, bdayAge year month day (dateAt (pgZones.offset tz u) u) = .ok age →
      (NotNegative age ↔ (year = some (utcToday t).year →
        ¬Ahead (utcToday t).year month day (dateAt (pgZones.offset tz u) u))) := by
  have hvalid := (validateDate_spec h).1
  have hages : ∀ today, NotNegative (year.map fun y => ageOn month day y today) ↔
      ∀ y, year = some y → ¬Ahead y month day today := by
    intro today
    cases year with
    | none => simp [NotNegative]
    | some y => simp [NotNegative, ageOn_nonneg hvalid]
  constructor
  · have hfacts : (computeFacts (localToday C Z u) ⟨month, day, year, tz⟩).ageYears =
        year.map fun y => ageOn month day y (localToday C Z u tz) := by
      simp only [ageOn_eq]
      rfl
    rw [hfacts, hages]
    exact ahead_iff h htu (Z.offset_gt _ _)
  · intro age hage
    rw [← ahead_iff h htu (pgZones.offset_gt _ _), ← hages, bdayAge_ok hvalid hage]
    simp only [ageOn_eq]

/-- Noon of the first of January 2026, in UTC. -/
def newYearsNoon : ℤ := 1767268800 * 1000000000

/-- A birthday in the following December is accepted then, and the age is -1. -/
theorem december_notBorn : validateDate (utcToday newYearsNoon).year 12 31 (some 2026) = .ok () ∧
    (computeFacts (localToday Crates.ascii TimeZones.utc newYearsNoon)
      ⟨12, 31, some 2026, "UTC"⟩).ageYears = some (-1) ∧
    bdayAge (some 2026) 12 31 (utcToday newYearsNoon) = .ok (some (-1)) := by
  refine ⟨by rfl, by rfl, by rfl⟩

theorem age_notNegative_newYear :
    NotNegative (computeFacts (localToday Crates.ascii TimeZones.utc newYearsNoon)
        ⟨12, 31, some 2025, "UTC"⟩).ageYears ∧
      ∀ age, bdayAge (some 2025) 12 31 (dateAt 0 newYearsNoon) = .ok age → NotNegative age := by
  have h := age_notNegative_iff Crates.ascii TimeZones.utc TimeZones.utc
    (show validateDate (utcToday newYearsNoon).year 12 31 (some 2025) = .ok () by rfl) le_rfl "UTC"
  exact ⟨h.1.mpr fun hyear => absurd hyear (by decide),
    fun age hage => (h.2 age hage).mpr fun hyear => absurd hyear (by decide)⟩

end

end BirthdayRole
