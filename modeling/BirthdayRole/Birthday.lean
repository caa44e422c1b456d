/-
# Birthday arithmetic (`services/birthday.rs`)

The dates a birthday is celebrated on, what is derived from it once and for
all (`computeDerived`, stored on the row), and the facts of a day
(`computeFacts`). A February 29 birthday is celebrated on February 28 in
years without one.

The clock is an argument: `thisYear` is the UTC year `validate_date` reads,
and `localToday` the local date of a time zone at the instant of the call.

Key theorems: `validateDate_spec` (what an accepted birthday is),
`effectiveBday_year`, `le_nextBday`.
-/
import BirthdayRole.Lib.Calendar
import BirthdayRole.Models

namespace BirthdayRole

open Calendar

/-- The part of a submitted birthday that is kept. -/
structure BirthdayInput where
  birthMonth : ℤ
  birthDay : ℤ
  birthYear : Option ℤ
  tz : String

/-- The facts that never change, stored on the row. -/
structure Derived where
  zodiac : String
  chineseZodiac : Option String
  season : String
  birthstone : String
  birthWeekday : Option String
  deriving DecidableEq

def zodiacSigns : List String :=
  ["capricorn", "aquarius", "pisces", "aries", "taurus", "gemini", "cancer", "leo", "virgo", "libra",
    "scorpio", "sagittarius"]

def chineseZodiacs : List String :=
  ["rat", "ox", "tiger", "rabbit", "dragon", "snake", "horse", "goat", "monkey", "rooster", "dog",
    "pig"]

def seasons : List String := ["winter", "spring", "summer", "autumn"]

def birthstones : List String :=
  ["garnet", "amethyst", "aquamarine", "diamond", "emerald", "pearl", "ruby", "peridot", "sapphire",
    "opal", "topaz", "turquoise"]

def weekdays : List String :=
  ["monday", "tuesday", "wednesday", "thursday", "friday", "saturday", "sunday"]

/-! ### Dates -/

/-- `is_leap`; Rust's `%` keeps the sign of the dividend. -/
def isLeapYear (year : ℤ) : Bool :=
  year.tmod 4 == 0 && (year.tmod 100 != 0 || year.tmod 400 == 0)

theorem isLeapYear_eq (year : ℤ) : isLeapYear year = isLeap year := by
  simp only [isLeapYear, isLeap, Bool.beq_eq_decide_eq, bne, ← Int.dvd_iff_tmod_eq_zero,
    ← decide_not, ← Bool.decide_or, ← Bool.decide_and]

def daysInMonth (month : ℕ) (leap : Bool) : ℕ :=
  match month with
  | 1 | 3 | 5 | 7 | 8 | 10 | 12 => 31
  | 4 | 6 | 9 | 11 => 30
  | 2 => if leap then 29 else 28
  | _ => 0

theorem daysInMonth_eq (month : ℕ) (leap : Bool) : daysInMonth month leap = daysIn leap month := rfl

/-- The first of January, which every year has. -/
def janFirst (year : ℤ) : Date := ⟨year, 1, 1, by cases isLeap year <;> decide⟩

/-- The last day February is sure to have. -/
def feb28 (year : ℤ) : Date := ⟨year, 2, 28, by cases isLeap year <;> decide⟩

/-- The date a birthday is celebrated on in a year. -/
def effectiveBday (year : ℤ) (month day : ℕ) : Date :=
  if month = 2 ∧ day = 29 ∧ !isLeapYear year then feb28 year
  else ((Date.ofYmd? year month day).or (Date.ofYmd? year month 1)).getD (janFirst year)

/-- `validate_date`, in a UTC year. -/
def validateDate (thisYear month day : ℤ) (year : Option ℤ) : Except String Unit :=
  if ¬(1 ≤ month ∧ month ≤ 12) then
    .error "Month must be between 1 and 12."
  else if year.any fun y => !(1900 ≤ y && y ≤ thisYear) then
    .error s!"Year must be between 1900 and {thisYear}."
  else
    let leap := (year.map isLeapYear).getD true
    let max := daysInMonth month.toNat leap
    if day < 1 ∨ day.toNat > max then
      .error (s!"Day must be between 1 and {max} for that month" ++
        (if month = 2 ∧ year.isSome then " (this year is not a leap year)" else "") ++ ".")
    else .ok ()

def normalizeTz (C : Crates) (input : String) : String :=
  let trimmed := Text.trim input
  if trimmed = "" then "UTC" else (C.parseTz trimmed).getD "UTC"

/-! ### Facts that never change -/

def zodiac (month day : ℕ) : String :=
  match month with
  | 1 => if day ≤ 19 then "capricorn" else "aquarius"
  | 2 => if day ≤ 18 then "aquarius" else "pisces"
  | 3 => if day ≤ 20 then "pisces" else "aries"
  | 4 => if day ≤ 19 then "aries" else "taurus"
  | 5 => if day ≤ 20 then "taurus" else "gemini"
  | 6 => if day ≤ 20 then "gemini" else "cancer"
  | 7 => if day ≤ 22 then "cancer" else "leo"
  | 8 => if day ≤ 22 then "leo" else "virgo"
  | 9 => if day ≤ 22 then "virgo" else "libra"
  | 10 => if day ≤ 22 then "libra" else "scorpio"
  | 11 => if day ≤ 21 then "scorpio" else "sagittarius"
  | 12 => if day ≤ 21 then "sagittarius" else "capricorn"
  | _ => "capricorn"

/-- The animal of a year; `rem_euclid` is Lean's `%`. -/
def chineseZodiac (year : ℤ) : String := chineseZodiacs.getD ((year - 4) % 12).toNat ""

def season (month : ℕ) : String :=
  match month with
  | 3 | 4 | 5 => "spring"
  | 6 | 7 | 8 => "summer"
  | 9 | 10 | 11 => "autumn"
  | _ => "winter"

def birthstone (month : ℕ) : String :=
  match month with
  | 1 => "garnet"
  | 2 => "amethyst"
  | 3 => "aquamarine"
  | 4 => "diamond"
  | 5 => "emerald"
  | 6 => "pearl"
  | 7 => "ruby"
  | 8 => "peridot"
  | 9 => "sapphire"
  | 10 => "opal"
  | 11 => "topaz"
  | 12 => "turquoise"
  | _ => "garnet"

def weekdayName (date : Date) : String := weekdays.getD date.weekday.toNat ""

def computeDerived (month day : ℤ) (year : Option ℤ) : Derived :=
  let m := month.toNat
  let d := day.toNat
  { zodiac := zodiac m d
    chineseZodiac := year.map chineseZodiac
    season := season m
    birthstone := birthstone m
    birthWeekday := year.map fun y => weekdayName ((Date.ofYmd? y m d).getD (effectiveBday y m d)) }

/-! ### The facts of a day -/

/-- The next celebration on or after `today`. -/
def nextBday (today : Date) (month day : ℕ) : Date :=
  if effectiveBday today.year month day ≥ today then effectiveBday today.year month day
  else effectiveBday (today.year + 1) month day

def computeFacts (localToday : String → Date) (input : BirthdayInput) : Facts :=
  let m := input.birthMonth.toNat
  let d := input.birthDay.toNat
  let today := localToday input.tz
  let effThis := effectiveBday today.year m d
  let next := nextBday today m d
  let daysUntil := next.toDays - today.toDays
  let derived := computeDerived input.birthMonth input.birthDay input.birthYear
  { hasBirthday := true
    hasYear := input.birthYear.isSome
    isToday := daysUntil == 0
    isThisWeek := decide (0 ≤ daysUntil ∧ daysUntil ≤ 6)
    isThisMonth := today.month == m
    daysUntil := daysUntil
    ageYears := input.birthYear.map fun by_ => today.year - by_ - if effThis > today then 1 else 0
    ageTurning := input.birthYear.map fun by_ => next.year - by_
    birthMonth := input.birthMonth
    birthDay := input.birthDay
    birthYear := input.birthYear
    zodiac := derived.zodiac
    chineseZodiac := derived.chineseZodiac
    season := derived.season
    birthstone := derived.birthstone
    weekday := derived.birthWeekday }

/-! ### What an accepted birthday is -/

/-- A birthday that some year has: the month is one, the day is in the month of
the birth year, or of a leap year when there is none. -/
def ValidBirthday (month day : ℤ) (year : Option ℤ) : Prop :=
  1 ≤ month ∧ month ≤ 12 ∧ 1 ≤ day ∧
    day.toNat ≤ daysIn ((year.map isLeap).getD true) month.toNat

theorem validateDate_spec {thisYear month day : ℤ} {year : Option ℤ}
    (h : validateDate thisYear month day year = .ok ()) :
    ValidBirthday month day year ∧ ∀ y, year = some y → 1900 ≤ y ∧ y ≤ thisYear := by
  unfold validateDate at h
  split at h
  · cases h
  rename_i hm
  split at h
  · cases h
  rename_i hy
  simp only at h
  split at h
  · cases h
  rename_i hd
  push Not at hm hd
  refine ⟨⟨hm.1, hm.2, hd.1, ?_⟩, fun y hyy => ?_⟩
  · rw [daysInMonth_eq, funext isLeapYear_eq] at hd
    exact hd.2
  · subst hyy
    simpa using hy

/-- A valid birthday is a date of every leap year, and of every year if it is
not February 29. -/
theorem ValidBirthday.day_le {month day : ℤ} {year : Option ℤ} (h : ValidBirthday month day year)
    {y : ℤ} (hy : isLeap y = true ∨ ¬(month.toNat = 2 ∧ day.toNat = 29)) :
    1 ≤ month.toNat ∧ month.toNat ≤ 12 ∧ 1 ≤ day.toNat ∧
      day.toNat ≤ daysIn (isLeap y) month.toNat := by
  obtain ⟨h1, h2, h3, h4⟩ := h
  refine ⟨by omega, by omega, by omega, ?_⟩
  generalize (year.map isLeap).getD true = l at h4
  by_cases h2 : month.toNat = 2
  · rw [h2] at h4 hy ⊢
    rcases hy with hy | hy
    · rw [hy]
      cases l <;> simp only [daysIn, if_true, Bool.false_eq_true, if_false] at h4 ⊢ <;> omega
    · cases l <;> cases isLeap y <;>
        simp only [daysIn, if_true, Bool.false_eq_true, if_false] at h4 ⊢ <;> omega
  · rwa [daysIn_of_ne_two l (isLeap y) h2] at h4

/-- The two ways a valid birthday is celebrated. -/
theorem effectiveBday_cases {month day : ℤ} {year : Option ℤ} (h : ValidBirthday month day year)
    (y : ℤ) :
    (month.toNat = 2 ∧ day.toNat = 29 ∧ isLeap y = false ∧
        effectiveBday y month.toNat day.toNat = feb28 y) ∨
      (¬(month.toNat = 2 ∧ day.toNat = 29 ∧ isLeap y = false) ∧
        Date.ofYmd? y month.toNat day.toNat = some (effectiveBday y month.toNat day.toNat)) := by
  unfold effectiveBday
  simp only [isLeapYear_eq, Bool.not_eq_true']
  by_cases hc : month.toNat = 2 ∧ day.toNat = 29 ∧ isLeap y = false
  · exact Or.inl ⟨hc.1, hc.2.1, hc.2.2, if_pos hc⟩
  · refine Or.inr ⟨hc, ?_⟩
    have hv := h.day_le (y := y) (by
      by_cases hl : isLeap y = true
      · exact Or.inl hl
      · exact Or.inr fun hmd => hc ⟨hmd.1, hmd.2, by simpa using hl⟩)
    rw [if_neg hc, Date.ofYmd?_isSome hv]
    rfl

theorem effectiveBday_year {month day : ℤ} {year : Option ℤ} (h : ValidBirthday month day year)
    (y : ℤ) : (effectiveBday y month.toNat day.toNat).year = y := by
  rcases effectiveBday_cases h y with ⟨-, -, -, he⟩ | ⟨-, he⟩
  · rw [he]; rfl
  · exact (Date.ofYmd?_eq_some.mp he).1

/-- The next celebration is not in the past. -/
theorem le_nextBday {month day : ℤ} {year : Option ℤ} (h : ValidBirthday month day year)
    (today : Date) : today ≤ nextBday today month.toNat day.toNat := by
  unfold nextBday
  split
  · assumption
  · refine (Date.lt_of_year_lt ?_).le
    rw [effectiveBday_year h]
    omega

end BirthdayRole
