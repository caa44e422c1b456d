/-
# Something that happens once a year

A `Yearly` event has one date in every year. The next time it happens is on this
year's date or on the next year's (`Yearly.next`), and that is the first of all its
dates that is not in the past (`Yearly.isLeast_next`). Counting down to it therefore
goes by one a day (`Yearly.next_tomorrow`), starts anew after the event, and never from
more than a year if no two dates in a row are further apart (`Yearly.daysUntil_le`).

The year of the last time (`Yearly.lastYear`) is the count of what such an event adds up
to: it is one more on the day of the event and the same on every other day
(`Yearly.lastYear_tomorrow`).
-/
import Mathlib.Data.Int.ConditionallyCompleteOrder
import Mathlib.Order.Bounds.Basic
import BirthdayRole.Lib.Calendar

namespace Calendar

/-! ### The day after -/

namespace Date

theorem toDays_injective : Function.Injective toDays :=
  StrictMono.injective fun _ _ h => toDays_lt_of_lt h

theorem toDays_inj {a b : Date} : a.toDays = b.toDays ↔ a = b := toDays_injective.eq_iff

theorem one_le_daysIn (leap : Bool) {m : ℕ} (h1 : 1 ≤ m) (h12 : m ≤ 12) : 1 ≤ daysIn leap m := by
  interval_cases m <;> cases leap <;> decide

def tomorrow (x : Date) : Date :=
  if hd : x.day + 1 ≤ daysIn (isLeap x.year) x.month then
    ⟨x.year, x.month, x.day + 1, x.valid.1, x.valid.2.1, Nat.le_add_left _ _, hd⟩
  else if hm : x.month + 1 ≤ 12 then
    ⟨x.year, x.month + 1, 1, Nat.le_add_left _ _, hm, le_rfl, one_le_daysIn _ (by omega) hm⟩
  else ⟨x.year + 1, 1, 1, by cases isLeap (x.year + 1) <;> decide⟩

theorem toDays_tomorrow (x : Date) : x.tomorrow.toDays = x.toDays + 1 := by
  have hday := x.valid.2.2.2
  unfold tomorrow
  by_cases hd : x.day + 1 ≤ daysIn (isLeap x.year) x.month
  · rw [dif_pos hd]
    simp only [toDays]
    omega
  · have hlast : x.day = daysIn (isLeap x.year) x.month := by omega
    rw [dif_neg hd]
    by_cases hm : x.month + 1 ≤ 12
    · rw [dif_pos hm]
      simp only [toDays, daysBefore]
      omega
    · have hdec : x.month = 12 := by have := x.valid.2.1; omega
      have hyear := daysBefore_year (isLeap x.year)
      have hjan : daysBefore (isLeap (x.year + 1)) 1 = 0 := rfl
      rw [show (13 : ℕ) = 12 + 1 from rfl, daysBefore] at hyear
      rw [hdec] at hlast
      rw [dif_neg hm]
      simp only [toDays, daysBeforeYear_succ, hdec, hjan]
      split_ifs at hyear ⊢ <;> omega

theorem lt_iff_tomorrow_le {a b : Date} : a < b ↔ a.tomorrow ≤ b := by
  rw [← toDays_lt_toDays, ← toDays_le_toDays, toDays_tomorrow]
  omega

end Date

/-! ### Yearly events -/

structure Yearly where
  /-- the date of a year -/
  on : ℤ → Date
  year_on : ∀ y, (on y).year = y

namespace Yearly

variable (c : Yearly) {today : Date}

/-- The next time, today included. -/
def next (today : Date) : Date :=
  if today ≤ c.on today.year then c.on today.year else c.on (today.year + 1)

def daysUntil (today : Date) : ℤ := (c.next today).toDays - today.toDays

theorem on_le_on {y y' : ℤ} (h : y ≤ y') : c.on y ≤ c.on y' := by
  rcases h.eq_or_lt with rfl | hlt
  · exact le_rfl
  · refine (Date.lt_of_year_lt ?_).le
    rwa [c.year_on, c.year_on]

/-- The next time is the first that is not in the past. -/
theorem isLeast_next (today : Date) :
    IsLeast {x | today ≤ x ∧ ∃ y, x = c.on y} (c.next today) := by
  have hyear : ∀ y, today ≤ c.on y → today.year ≤ y := fun y hy => by
    have := Date.year_le_of_le hy
    rwa [c.year_on] at this
  unfold next
  by_cases hthis : today ≤ c.on today.year
  · rw [if_pos hthis]
    refine ⟨⟨hthis, _, rfl⟩, ?_⟩
    rintro _ ⟨hle, y, rfl⟩
    exact c.on_le_on (hyear y hle)
  · rw [if_neg hthis]
    have hnext : today < c.on (today.year + 1) := Date.lt_of_year_lt (by rw [c.year_on]; omega)
    refine ⟨⟨hnext.le, _, rfl⟩, ?_⟩
    rintro _ ⟨hle, y, rfl⟩
    have hne : today.year ≠ y := fun he => hthis (he ▸ hle)
    have := hyear y hle
    exact c.on_le_on (by omega)

theorem le_next (today : Date) : today ≤ c.next today := (c.isLeast_next today).1.1

theorem next_le {y : ℤ} (h : today ≤ c.on y) : c.next today ≤ c.on y :=
  (c.isLeast_next today).2 ⟨h, y, rfl⟩

theorem exists_next (today : Date) : ∃ y, c.next today = c.on y := (c.isLeast_next today).1.2

theorem daysUntil_nonneg (today : Date) : 0 ≤ c.daysUntil today :=
  sub_nonneg.mpr (Date.toDays_le_toDays.mpr (c.le_next today))

/-- It is today if and only if today is the date of the year. -/
theorem daysUntil_eq_zero : c.daysUntil today = 0 ↔ today = c.on today.year := by
  unfold daysUntil
  rw [sub_eq_zero, Date.toDays_inj]
  constructor
  · intro h
    obtain ⟨y, hy⟩ := c.exists_next today
    have hyear : today.year = y := by rw [← h, hy, c.year_on]
    rw [hyear, ← hy, h]
  · intro h
    exact le_antisymm ((c.next_le h.le).trans h.ge) (c.le_next today)

/-- The wait goes by. -/
theorem next_tomorrow (h : today < c.next today) : c.next today.tomorrow = c.next today := by
  obtain ⟨y, hy⟩ := c.exists_next today
  obtain ⟨y', hy'⟩ := c.exists_next today.tomorrow
  have hstill : c.next today.tomorrow ≤ c.next today := by
    rw [hy] at h ⊢
    exact c.next_le (Date.lt_iff_tomorrow_le.mp h)
  have hlater : today ≤ c.on y' := by
    rw [← hy']
    exact (Date.lt_iff_tomorrow_le.mpr (c.le_next _)).le
  refine le_antisymm hstill ?_
  rw [hy']
  exact c.next_le hlater

theorem daysUntil_tomorrow (h : 0 < c.daysUntil today) :
    c.daysUntil today.tomorrow = c.daysUntil today - 1 := by
  unfold daysUntil at h ⊢
  rw [c.next_tomorrow (Date.toDays_lt_toDays.mp (by omega)), Date.toDays_tomorrow]
  omega

/-- It happens within so many days if and only if one of its dates is that close. -/
theorem daysUntil_le_iff (n : ℤ) : c.daysUntil today ≤ n ↔
    ∃ y k, 0 ≤ k ∧ k ≤ n ∧ today.toDays + k = (c.on y).toDays := by
  constructor
  · intro h
    obtain ⟨y, hy⟩ := c.exists_next today
    refine ⟨y, c.daysUntil today, c.daysUntil_nonneg today, h, ?_⟩
    rw [← hy]
    unfold daysUntil
    omega
  · rintro ⟨y, k, hk, hkn, he⟩
    have hle : today ≤ c.on y := Date.toDays_le_toDays.mp (by omega)
    have := Date.toDays_le_toDays.mpr (c.next_le hle)
    unfold daysUntil
    omega

/-- The wait is no longer than the longest time between two dates in a row. -/
theorem daysUntil_le (hgap : ∀ y, (c.on (y + 1)).toDays ≤ (c.on y).toDays + 366) (today : Date) :
    c.daysUntil today ≤ 365 := by
  unfold daysUntil next
  by_cases hthis : today ≤ c.on today.year
  · rw [if_pos hthis]
    have h1 := (c.on today.year).toDays_le
    have h2 := today.lt_toDays
    rw [c.year_on, daysBeforeYear_succ] at h1
    split_ifs at h1 <;> omega
  · rw [if_neg hthis]
    have h1 := hgap today.year
    have h2 := Date.toDays_lt_toDays.mpr (not_le.mp hthis)
    omega

/-! ### The last time -/

/-- The year of the last time, today included. -/
def lastYear (today : Date) : ℤ := today.year - if c.on today.year > today then 1 else 0

theorem isGreatest_lastYear (today : Date) :
    IsGreatest {y | c.on y ≤ today} (c.lastYear today) := by
  have hyear : ∀ y, c.on y ≤ today → y ≤ today.year := fun y hy => by
    have := Date.year_le_of_le hy
    rwa [c.year_on] at this
  unfold lastYear
  by_cases hlater : c.on today.year > today
  · rw [if_pos hlater]
    have hbefore : c.on (today.year - 1) < today := Date.lt_of_year_lt (by rw [c.year_on]; omega)
    refine ⟨hbefore.le, fun y hy => ?_⟩
    have hne : y ≠ today.year := fun he => absurd hlater (not_lt.mpr (he ▸ hy))
    have := hyear y hy
    omega
  · rw [if_neg hlater, sub_zero]
    exact ⟨not_lt.mp hlater, fun y hy => hyear y hy⟩

/-- A year is over the event as soon as it is not in the future. -/
theorem le_lastYear {y : ℤ} : y ≤ c.lastYear today ↔ c.on y ≤ today :=
  ⟨fun h => (c.on_le_on h).trans (c.isGreatest_lastYear today).1,
    fun h => (c.isGreatest_lastYear today).2 h⟩

theorem lastYear_mono : Monotone c.lastYear := fun _ _ h =>
  c.le_lastYear.mpr ((c.le_lastYear.mp le_rfl).trans h)

/-- The year of the last time goes up on the day of the event, by one, and on no other. -/
theorem lastYear_tomorrow (today : Date) : c.lastYear today.tomorrow =
    c.lastYear today + if c.daysUntil today.tomorrow = 0 then 1 else 0 := by
  have hstep : ∀ y, c.on y ≤ today ↔ c.on y < today.tomorrow := fun y => by
    rw [← Date.toDays_le_toDays, ← Date.toDays_lt_toDays, Date.toDays_tomorrow]
    omega
  by_cases hday : c.daysUntil today.tomorrow = 0
  · rw [if_pos hday]
    rw [daysUntil_eq_zero] at hday
    have hnow : c.lastYear today.tomorrow = today.tomorrow.year := by
      unfold lastYear
      rw [← hday, if_neg (lt_irrefl _), sub_zero]
    have hold : c.lastYear today < today.tomorrow.year := by
      rw [← not_le, le_lastYear, hstep, ← hday]
      exact lt_irrefl _
    have hprev : today.tomorrow.year - 1 ≤ c.lastYear today := by
      rw [le_lastYear, hstep]
      exact Date.lt_of_year_lt (by rw [c.year_on]; omega)
    omega
  · rw [if_neg hday, add_zero]
    refine le_antisymm ?_ (c.lastYear_mono ?_)
    · rw [le_lastYear, hstep]
      refine lt_of_le_of_ne (c.le_lastYear.mp le_rfl) fun he => hday ?_
      rw [daysUntil_eq_zero, ← he, c.year_on]
    · rw [← Date.toDays_le_toDays, Date.toDays_tomorrow]
      omega

/-- The next time is in the year after the last one, unless it is today. -/
theorem year_next (today : Date) : (c.next today).year =
    c.lastYear today + if c.daysUntil today = 0 then 0 else 1 := by
  unfold next lastYear
  by_cases hday : c.daysUntil today = 0
  · rw [if_pos hday]
    rw [daysUntil_eq_zero] at hday
    rw [if_pos hday.le, if_neg (not_lt.mpr hday.ge), c.year_on]
    omega
  · rw [if_neg hday]
    rw [daysUntil_eq_zero] at hday
    by_cases hlater : c.on today.year > today
    · rw [if_pos hlater, if_pos hlater.le, c.year_on]
      omega
    · have hover : ¬today ≤ c.on today.year := fun hle =>
        hday (le_antisymm hle (not_lt.mp hlater))
      rw [if_neg hlater, if_neg hover, c.year_on]
      omega

theorem lastYear_lt_tomorrow :
    c.lastYear today < c.lastYear today.tomorrow ↔ today.tomorrow = c.on today.tomorrow.year := by
  rw [c.lastYear_tomorrow today, ← daysUntil_eq_zero]
  split_ifs with htoday
  · simp [htoday]
  · simp [htoday]

/-- One night of every year is the one in which the year of the last time goes up. -/
theorem existsUnique_lastYear_lt (y : ℤ) : ∃! today : Date,
    today.tomorrow.year = y ∧ c.lastYear today < c.lastYear today.tomorrow := by
  have htomorrow : (Date.ofDays ((c.on y).toDays - 1)).tomorrow = c.on y := by
    rw [← Date.toDays_inj, Date.toDays_tomorrow, Date.toDays_ofDays]
    omega
  refine ⟨Date.ofDays ((c.on y).toDays - 1), ⟨?_, ?_⟩, ?_⟩
  · rw [htomorrow, c.year_on]
  · rw [lastYear_lt_tomorrow, htomorrow, c.year_on]
  · rintro today ⟨hyear, hup⟩
    rw [lastYear_lt_tomorrow, hyear] at hup
    rw [← Date.toDays_inj, Date.toDays_ofDays, ← hup, Date.toDays_tomorrow]
    omega

end Yearly

end Calendar
