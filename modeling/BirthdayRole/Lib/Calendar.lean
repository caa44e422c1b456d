/-
# Dates of the Gregorian calendar

A `Date` carries its own well-formedness, so the thirtieth of February cannot
be built; `Date.ofYmd?` is the only way in from three numbers. Dates are
ordered as year, month, day, and numbered by `Date.toDays`, the days since the
last day of year 0. The two agree: `toDays_lt_toDays`. So a comparison made
on the fields and one made on the numbers give the same answer, and a
difference of numbers is not negative when the fields are in order. `Date.ofDays` is
the date a number belongs to (`Date.toDays_ofDays`).

Years are unbounded integers: neither end of a library's range is modelled.

Key definitions: `Date`, `Date.ofYmd?`, `Date.toDays`, `Date.ofDays`, `Date.weekday`.
Key theorems: `daysBeforeYear_succ`, `Date.toDays_lt_toDays`, `Date.toDays_ofDays`.
-/
import Mathlib.Algebra.Order.Ring.Int
import Mathlib.Data.Prod.Lex
import Mathlib.Order.Monotone.Basic
import Mathlib.Tactic.IntervalCases

namespace Calendar

def isLeap (y : ℤ) : Bool := decide (4 ∣ y ∧ (¬ 100 ∣ y ∨ 400 ∣ y))

/-- The length of a month; 0 for a number that is no month. -/
def daysIn (leap : Bool) : ℕ → ℕ
  | 1 | 3 | 5 | 7 | 8 | 10 | 12 => 31
  | 4 | 6 | 9 | 11 => 30
  | 2 => if leap then 29 else 28
  | _ => 0

/-- Only February depends on the year. -/
theorem daysIn_of_ne_two (l l' : Bool) {m : ℕ} (h : m ≠ 2) : daysIn l m = daysIn l' m := by
  unfold daysIn
  split <;> first | rfl | exact absurd rfl h

/-- A day of the calendar. -/
structure Date where
  year : ℤ
  month : ℕ
  day : ℕ
  valid : 1 ≤ month ∧ month ≤ 12 ∧ 1 ≤ day ∧ day ≤ daysIn (isLeap year) month
  deriving DecidableEq

/-- The date with these numbers, if there is one. -/
def Date.ofYmd? (year : ℤ) (month day : ℕ) : Option Date :=
  if h : 1 ≤ month ∧ month ≤ 12 ∧ 1 ≤ day ∧ day ≤ daysIn (isLeap year) month then
    some ⟨year, month, day, h⟩
  else none

namespace Date

theorem ofYmd?_eq_some {y : ℤ} {m d : ℕ} {x : Date} :
    ofYmd? y m d = some x ↔ x.year = y ∧ x.month = m ∧ x.day = d := by
  unfold ofYmd?
  constructor
  · intro h
    split at h
    · cases h; exact ⟨rfl, rfl, rfl⟩
    · cases h
  · rintro ⟨rfl, rfl, rfl⟩
    rw [dif_pos x.valid]

theorem ofYmd?_isSome {y : ℤ} {m d : ℕ}
    (h : 1 ≤ m ∧ m ≤ 12 ∧ 1 ≤ d ∧ d ≤ daysIn (isLeap y) m) :
    ofYmd? y m d = some ⟨y, m, d, h⟩ := dif_pos h

/-- The fields a date is compared by. -/
def key (x : Date) : ℤ ×ₗ ℕ ×ₗ ℕ := toLex (x.year, toLex (x.month, x.day))

theorem key_injective : Function.Injective key := by
  rintro ⟨y, m, d, h⟩ ⟨y', m', d', h'⟩ he
  simp only [key, EmbeddingLike.apply_eq_iff_eq, Prod.mk.injEq] at he
  obtain ⟨rfl, rfl, rfl⟩ := he
  rfl

instance : LinearOrder Date := LinearOrder.lift' key key_injective

theorem lt_iff {a b : Date} : a < b ↔ a.year < b.year ∨
    a.year = b.year ∧ (a.month < b.month ∨ a.month = b.month ∧ a.day < b.day) := by
  show key a < key b ↔ _
  simp [key, Prod.Lex.toLex_lt_toLex]

end Date

/-! ### Day numbers -/

/-- The days before the first of January of year `y`, counted from year 1. -/
def daysBeforeYear (y : ℤ) : ℤ := 365 * (y - 1) + (y - 1) / 4 - (y - 1) / 100 + (y - 1) / 400

/-- The days of the year before month `m`. -/
def daysBefore (leap : Bool) : ℕ → ℕ
  | 0 => 0
  | m + 1 => daysBefore leap m + daysIn leap m

/-- The number of a date: 1 is the first of January of year 1. -/
def Date.toDays (x : Date) : ℤ :=
  daysBeforeYear x.year + daysBefore (isLeap x.year) x.month + x.day

/-- The day of the week, 0 for a Monday. -/
def Date.weekday (x : Date) : ℤ := (x.toDays - 1) % 7

theorem daysBeforeYear_succ (y : ℤ) :
    daysBeforeYear (y + 1) = daysBeforeYear y + if isLeap y then 366 else 365 := by
  unfold daysBeforeYear isLeap
  simp only [decide_eq_true_eq]
  split <;> omega

theorem daysBeforeYear_mono {a b : ℤ} (h : a ≤ b) : daysBeforeYear a ≤ daysBeforeYear b := by
  unfold daysBeforeYear; omega

theorem daysBefore_mono (leap : Bool) {m m' : ℕ} (h : m ≤ m') :
    daysBefore leap m ≤ daysBefore leap m' := by
  induction h with
  | refl => exact le_rfl
  | step _ ih => exact ih.trans (Nat.le_add_right _ _)

theorem daysBefore_year (leap : Bool) : daysBefore leap 13 = if leap then 366 else 365 := by
  cases leap <;> rfl

namespace Date

/-- A day lies in its month. -/
theorem daysBefore_add_day_le (x : Date) :
    daysBefore (isLeap x.year) x.month + x.day ≤ daysBefore (isLeap x.year) (x.month + 1) :=
  Nat.add_le_add_left x.valid.2.2.2 _

/-- A day lies in its year. -/
theorem toDays_le (x : Date) : x.toDays ≤ daysBeforeYear (x.year + 1) := by
  have h1 := x.daysBefore_add_day_le
  have h2 := daysBefore_mono (isLeap x.year) (show x.month + 1 ≤ 13 by have := x.valid.2.1; omega)
  rw [daysBefore_year] at h2
  rw [daysBeforeYear_succ]
  unfold toDays
  split_ifs at h2 ⊢ <;> omega

theorem lt_toDays (x : Date) : daysBeforeYear x.year < x.toDays := by
  have := x.valid.2.2.1
  unfold toDays
  omega

theorem toDays_lt_of_lt {a b : Date} (h : a < b) : a.toDays < b.toDays := by
  rcases lt_iff.mp h with hy | ⟨hy, hm⟩
  · calc a.toDays ≤ daysBeforeYear (a.year + 1) := a.toDays_le
      _ ≤ daysBeforeYear b.year := daysBeforeYear_mono hy
      _ < b.toDays := b.lt_toDays
  · have ha := a.daysBefore_add_day_le
    have hb := b.valid.2.2.1
    unfold toDays
    rw [← hy] at *
    rcases hm with hm | ⟨hm, hd⟩
    · have := daysBefore_mono (isLeap a.year) (show a.month + 1 ≤ b.month from hm)
      omega
    · rw [hm]
      omega

theorem toDays_le_toDays {a b : Date} : a.toDays ≤ b.toDays ↔ a ≤ b :=
  StrictMono.le_iff_le fun _ _ h => toDays_lt_of_lt h

theorem toDays_lt_toDays {a b : Date} : a.toDays < b.toDays ↔ a < b :=
  StrictMono.lt_iff_lt fun _ _ h => toDays_lt_of_lt h

theorem lt_of_year_lt {a b : Date} (h : a.year < b.year) : a < b := lt_iff.mpr (Or.inl h)

theorem year_le_of_le {a b : Date} (h : a ≤ b) : a.year ≤ b.year := by
  by_contra hc
  exact absurd h (not_le.mpr (lt_of_year_lt (by omega)))

end Date

/-! ### The date with a number -/

/-- The year a day number lies in; the average year is off by one at most. -/
def yearOfDays (n : ℤ) : ℤ :=
  let y := 400 * (n - 1) / 146097 + 1
  if n ≤ daysBeforeYear y then y - 1 else if daysBeforeYear (y + 1) < n then y + 1 else y

theorem yearOfDays_spec (n : ℤ) :
    daysBeforeYear (yearOfDays n) < n ∧ n ≤ daysBeforeYear (yearOfDays n + 1) := by
  unfold yearOfDays daysBeforeYear
  simp only
  split_ifs <;> omega

def dayOfYear (n : ℤ) : ℕ := (n - daysBeforeYear (yearOfDays n)).toNat

theorem dayOfYear_spec (n : ℤ) :
    1 ≤ dayOfYear n ∧ dayOfYear n ≤ daysBefore (isLeap (yearOfDays n)) 13 := by
  obtain ⟨hlo, hhi⟩ := yearOfDays_spec n
  rw [daysBeforeYear_succ] at hhi
  rw [daysBefore_year]
  unfold dayOfYear
  split_ifs at hhi ⊢ <;> omega

/-- The month of a day of the year, if it is one of the first `k`. -/
def monthOfDay (leap : Bool) (d : ℕ) : ℕ → ℕ
  | 0 => 0
  | k + 1 => if daysBefore leap (k + 1) < d then k + 1 else monthOfDay leap d k

theorem monthOfDay_spec (leap : Bool) {d k : ℕ} (hpos : 1 ≤ d) (hle : d ≤ daysBefore leap (k + 1)) :
    monthOfDay leap d k ≤ k ∧ daysBefore leap (monthOfDay leap d k) < d ∧
      d ≤ daysBefore leap (monthOfDay leap d k + 1) := by
  induction k with
  | zero => exact ⟨le_rfl, hpos, hle⟩
  | succ k ih =>
    unfold monthOfDay
    by_cases h : daysBefore leap (k + 1) < d
    · rw [if_pos h]
      exact ⟨le_rfl, h, hle⟩
    · rw [if_neg h]
      obtain ⟨hk, hs⟩ := ih (not_lt.mp h)
      exact ⟨hk.trans (Nat.le_succ k), hs⟩

def monthOfDays (n : ℤ) : ℕ := monthOfDay (isLeap (yearOfDays n)) (dayOfYear n) 12

def dayOfDays (n : ℤ) : ℕ := dayOfYear n - daysBefore (isLeap (yearOfDays n)) (monthOfDays n)

theorem valid_ofDays (n : ℤ) : 1 ≤ monthOfDays n ∧ monthOfDays n ≤ 12 ∧ 1 ≤ dayOfDays n ∧
    dayOfDays n ≤ daysIn (isLeap (yearOfDays n)) (monthOfDays n) := by
  obtain ⟨hpos, hle⟩ := dayOfYear_spec n
  obtain ⟨h12, hlo, hhi⟩ := monthOfDay_spec _ hpos hle
  have hone : 1 ≤ monthOfDays n := by
    by_contra hzero
    have hz : monthOfDay (isLeap (yearOfDays n)) (dayOfYear n) 12 = 0 := Nat.lt_one_iff.mp
      (not_le.mp hzero)
    rw [hz] at hhi
    exact absurd hhi (not_le.mpr hpos)
  rw [daysBefore] at hhi
  refine ⟨hone, h12, ?_, ?_⟩ <;> unfold dayOfDays monthOfDays <;> omega

/-- The date with a day number. -/
def Date.ofDays (n : ℤ) : Date := ⟨yearOfDays n, monthOfDays n, dayOfDays n, valid_ofDays n⟩

@[simp] theorem Date.toDays_ofDays (n : ℤ) : (Date.ofDays n).toDays = n := by
  obtain ⟨hpos, hle⟩ := dayOfYear_spec n
  have hlo := (monthOfDay_spec _ hpos hle).2.1
  have hyear := (yearOfDays_spec n).1
  show daysBeforeYear (yearOfDays n) + daysBefore (isLeap (yearOfDays n)) (monthOfDays n) +
    dayOfDays n = n
  unfold dayOfDays monthOfDays
  unfold dayOfYear at hlo ⊢
  omega

end Calendar
