/-
# The SQL functions of migration 005

`bday_*` are the birthday arithmetic of `services/birthday.rs` written a
second time, in SQL, for the bulk path. They raise where `make_date` does: on
a date that does not exist or a year outside PostgreSQL's range. A date of SQL
is its day number, so dates are compared and subtracted by `toDays`.

For a valid birthday every result is the one of the Rust side
(`bdayDaysUntil_ok`, `bdayAge_ok`, `bdayAgeTurning_ok`), and on a local date in
the range nothing raises (`bdayDaysUntil_isOk` and so on).
-/
import BirthdayRole.Lib.Result
import BirthdayRole.Lib.Sql
import BirthdayRole.Birthday

namespace BirthdayRole

open Calendar

abbrev SqlM := Except Sql.Error

def bdayIsLeap (year : ℤ) : Bool :=
  year.tmod 4 == 0 && (year.tmod 100 != 0 || year.tmod 400 == 0)

/-- The last year a date of PostgreSQL can have. -/
def maxDateYear : ℤ := 5874897

/-- `make_date`, for the years of our era. -/
def makeDate (year month day : ℤ) : SqlM Date :=
  if 1 ≤ year ∧ year ≤ maxDateYear then
    match Date.ofYmd? year month.toNat day.toNat with
    | some d => .ok d
    | none => .error .dateOutOfRange
  else .error .dateOutOfRange

def bdayEffective (year month day : ℤ) : SqlM Date :=
  if month = 2 ∧ day = 29 ∧ !bdayIsLeap year then makeDate year 2 28 else makeDate year month day

def bdayDaysUntil (month day : ℤ) (localDate : Date) : SqlM ℤ := do
  let this ← bdayEffective localDate.year month day
  if this.toDays ≥ localDate.toDays then .ok (this.toDays - localDate.toDays)
  else
    let next ← bdayEffective (localDate.year + 1) month day
    .ok (next.toDays - localDate.toDays)

def bdayIsToday (month day : ℤ) (localDate : Date) : SqlM Bool :=
  (bdayDaysUntil month day localDate).map (· == 0)

def bdayAge (year : Option ℤ) (month day : ℤ) (localDate : Date) : SqlM (Option ℤ) :=
  match year with
  | none => .ok none
  | some y => do
    let this ← bdayEffective localDate.year month day
    .ok (some (localDate.year - y - if this.toDays > localDate.toDays then 1 else 0))

def bdayAgeTurning (year : Option ℤ) (month day : ℤ) (localDate : Date) : SqlM (Option ℤ) :=
  match year with
  | none => .ok none
  | some y => do
    let this ← bdayEffective localDate.year month day
    .ok (some ((if this.toDays ≥ localDate.toDays then localDate.year else localDate.year + 1) - y))

/-! ### Agreement with `services/birthday.rs` -/

/-- A local date on which the functions stay inside PostgreSQL's range. -/
def InRange (localDate : Date) : Prop := 1 ≤ localDate.year ∧ localDate.year < maxDateYear

section Agreement

variable {month day : ℤ} {year : Option ℤ} (h : ValidBirthday month day year)

include h

/-- In the range, the celebrated date is the Rust one; outside, it raises. -/
theorem bdayEffective_eq (y : ℤ) : bdayEffective y month day =
    if 1 ≤ y ∧ y ≤ maxDateYear then .ok (effectiveBday y month.toNat day.toNat)
    else .error .dateOutOfRange := by
  have hm : month = 2 ↔ month.toNat = 2 := by have := h.1; omega
  have hd : day = 29 ↔ day.toNat = 29 := by have := h.2.2.1; omega
  have hl : bdayIsLeap y = isLeap y := isLeapYear_eq y
  unfold bdayEffective makeDate
  simp only [hm, hd, hl, Bool.not_eq_true']
  rcases effectiveBday_cases h y with ⟨h1, h2, h3, he⟩ | ⟨hc, he⟩
  · have h28 : Date.ofYmd? y (2 : ℤ).toNat (28 : ℤ).toNat = some (feb28 y) :=
      Date.ofYmd?_eq_some.mpr ⟨rfl, rfl, rfl⟩
    rw [if_pos ⟨h1, h2, h3⟩, h28, he]
  · rw [if_neg hc, he]

/-- The celebrated date of this year. -/
theorem bdayEffective_this {localDate : Date} (hr : InRange localDate) :
    bdayEffective localDate.year month day =
      .ok (effectiveBday localDate.year month.toNat day.toNat) := by
  rw [bdayEffective_eq h, if_pos ⟨hr.1, hr.2.le⟩]

theorem bdayEffective_next {localDate : Date} (hr : InRange localDate) :
    bdayEffective (localDate.year + 1) month day =
      .ok (effectiveBday (localDate.year + 1) month.toNat day.toNat) := by
  have := hr.1
  have := hr.2
  rw [bdayEffective_eq h, if_pos ⟨by omega, by omega⟩]

/-- A celebrated date that exists is the Rust one. -/
theorem bdayEffective_ok {y : ℤ} {d : Date} (hd : bdayEffective y month day = .ok d) :
    d = effectiveBday y month.toNat day.toNat := by
  rw [bdayEffective_eq h] at hd
  obtain ⟨-, hd⟩ := Result.require_ok hd
  cases hd
  rfl

theorem bdayDaysUntil_ok {localDate : Date} {n : ℤ}
    (hn : bdayDaysUntil month day localDate = .ok n) :
    n = (nextBday localDate month.toNat day.toNat).toDays - localDate.toDays := by
  obtain ⟨this, ht, hn⟩ := Result.bind_ok hn
  have ht := bdayEffective_ok h ht
  subst ht
  unfold nextBday
  simp only [ge_iff_le, Date.toDays_le_toDays] at hn
  split at hn
  · cases hn
    rw [if_pos ‹_›]
  · obtain ⟨next, hx, hn⟩ := Result.bind_ok hn
    have hx := bdayEffective_ok h hx
    subst hx
    cases hn
    rw [if_neg ‹_›]

theorem bdayAge_ok {localDate : Date} {a : Option ℤ} (ha : bdayAge year month day localDate = .ok a) :
    a = year.map fun y => localDate.year - y -
      if effectiveBday localDate.year month.toNat day.toNat > localDate then 1 else 0 := by
  cases year with
  | none => cases ha; rfl
  | some y =>
    obtain ⟨this, ht, ha⟩ := Result.bind_ok ha
    have ht := bdayEffective_ok h ht
    subst ht
    cases ha
    simp only [gt_iff_lt, Date.toDays_lt_toDays, Option.map_some]

theorem bdayAgeTurning_ok {localDate : Date} {a : Option ℤ}
    (ha : bdayAgeTurning year month day localDate = .ok a) :
    a = year.map fun y => (nextBday localDate month.toNat day.toNat).year - y := by
  cases year with
  | none => cases ha; rfl
  | some y =>
    obtain ⟨this, ht, ha⟩ := Result.bind_ok ha
    have ht := bdayEffective_ok h ht
    subst ht
    cases ha
    unfold nextBday
    simp only [ge_iff_le, Date.toDays_le_toDays, Option.map_some, Option.some.injEq]
    split <;> rw [effectiveBday_year h]

/-- In the range, nothing raises. -/
theorem bdayDaysUntil_isOk {localDate : Date} (hr : InRange localDate) :
    ∃ n, bdayDaysUntil month day localDate = .ok n := by
  unfold bdayDaysUntil
  rw [bdayEffective_this h hr, bdayEffective_next h hr]
  simp only [bind, Except.bind]
  split <;> exact ⟨_, rfl⟩

theorem bdayAge_isOk {localDate : Date} (hr : InRange localDate) (birthYear : Option ℤ) :
    ∃ a, bdayAge birthYear month day localDate = .ok a := by
  cases birthYear with
  | none => exact ⟨_, rfl⟩
  | some y =>
    unfold bdayAge
    rw [bdayEffective_this h hr]
    exact ⟨_, rfl⟩

theorem bdayAgeTurning_isOk {localDate : Date} (hr : InRange localDate) (birthYear : Option ℤ) :
    ∃ a, bdayAgeTurning birthYear month day localDate = .ok a := by
  cases birthYear with
  | none => exact ⟨_, rfl⟩
  | some y =>
    unfold bdayAgeTurning
    rw [bdayEffective_this h hr]
    exact ⟨_, rfl⟩

end Agreement

end BirthdayRole
