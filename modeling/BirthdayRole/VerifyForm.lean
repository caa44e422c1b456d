/-
# The birthday form (`templates/verify.html`, `verify_status`, `verify_save`)

A member can have the verify page open any number of times, fill the form in on each, save and
remove the birthday, in any order and while the years pass. The script of the page knows the days
of a month by a rule of its own, and offers no other days; it takes 2000 for a year that is
blank or zero. The server has the rule a second time, in `validate_date`.

The two agree (`reached_agrees`): whatever is done, the server never refuses a form but for its
year, and then exactly if that is not blank and not a whole number of its range; and a form that
is loaded and saved as it is leaves the birthday as it is.
-/
import Mathlib.Data.Rat.Lemmas
import BirthdayRole.RuleAgreement
import BirthdayRole.Routes
import BirthdayRole.Lib.Reach

namespace BirthdayRole

open Text Calendar

/-- What `Tz::from_str` does: the name of a zone is that of the zone, and it is no blank one. -/
structure Crates.NamesZones (C : Crates) : Prop where
  idem : ∀ s name, C.parseTz s = some name → C.parseTz name = some name
  plain : ∀ s name, C.parseTz s = some name → trim name = name ∧ name ≠ ""
  utc : C.parseTz "UTC" = some "UTC"

/-! ### The script of the page -/

/-- The fields of the form. A year that is blank, or no number, is none. -/
structure BirthdayForm where
  month : ℕ
  day : ℕ
  year : Option ℚ
  tz : String
  showYear : Bool

namespace BirthdayForm

/-- Before anything is filled in. -/
def blank : BirthdayForm := ⟨1, 0, none, "", false⟩

/-- `a||b` -/
def orElse (a b : ℕ) : ℕ := if a = 0 then b else a

/-- `y%k===0` -/
def divides (k : ℕ) (y : ℚ) : Bool := y.den = 1 && decide ((k : ℤ) ∣ y.num)

/-- `Number(year)||2000` -/
def assumedYear : Option ℚ → ℚ
  | some y => if y = 0 then 2000 else y
  | none => 2000

/-- `y%4===0&&(y%100!==0||y%400===0)` -/
def leaps (y : ℚ) : Bool := divides 4 y && (!divides 100 y || divides 400 y)

/-- The days of the month that is chosen. -/
def dim (month : ℕ) (year : Option ℚ) : ℕ :=
  [31, if leaps (assumedYear year) then 29 else 28, 31, 30, 31, 30, 31, 31, 30, 31, 30, 31].getD
    (month - 1) 0

def fillDays (f : BirthdayForm) (sel : ℕ) : BirthdayForm :=
  { f with day := min (orElse (orElse sel f.day) 1) (dim f.month f.year) }

def fillMonths (f : BirthdayForm) (sel : ℕ) : BirthdayForm :=
  { f with month := orElse sel 1 }.fillDays 0

/-- The zone that is saved, or the one the browser is in. -/
def fillTz (f : BirthdayForm) (guess sel : String) : BirthdayForm :=
  { f with tz := if sel = "" then guess else sel }

/-- The form as `refresh` shows it. -/
def refresh (f : BirthdayForm) (guess : String) (birthday : Option VerifyBirthday) : BirthdayForm :=
  let f := f.fillMonths (birthday.elim 0 fun b => b.month.toNat)
  let year := (birthday.bind VerifyBirthday.year).filter (· ≠ 0)
  let f := { f with year := year.map Int.cast }
  let f := f.fillDays (birthday.elim 0 fun b => b.day.toNat)
  let f := f.fillTz guess (birthday.elim "" VerifyBirthday.tz)
  { f with showYear := birthday.any VerifyBirthday.showYear }

/-- A number of JSON read as an `i32`. -/
def readI32 (q : ℚ) : Option ℤ :=
  if q.den = 1 ∧ -2 ^ 31 ≤ q.num ∧ q.num < 2 ^ 31 then some q.num else none

/-- What is sent, as serde reads it. -/
def body (f : BirthdayForm) : Option SaveBody :=
  match f.year with
  | none => some ⟨f.month, f.day, none, some (if f.tz = "" then "UTC" else f.tz), f.showYear⟩
  | some q => (readI32 q).map fun y =>
      ⟨f.month, f.day, some y, some (if f.tz = "" then "UTC" else f.tz), f.showYear⟩

/-- The form holds a day that the page offers. -/
structure Offered (f : BirthdayForm) : Prop where
  month : 1 ≤ f.month ∧ f.month ≤ 12
  day : 1 ≤ f.day ∧ f.day ≤ dim f.month f.year

/-! ### The days of a month, twice -/

theorem divides_int (k : ℕ) (y : ℤ) : divides k (y : ℚ) = decide ((k : ℤ) ∣ y) := by
  unfold divides
  rw [Rat.den_intCast, Rat.num_intCast]
  rfl

theorem leaps_int (y : ℤ) : leaps (y : ℚ) = isLeap y := by
  rw [leaps, divides_int, divides_int, divides_int, isLeap]
  simp

theorem dim_eq_daysIn {month : ℕ} (hm : 1 ≤ month ∧ month ≤ 12) (year : Option ℚ) :
    dim month year = daysIn (leaps (assumedYear year)) month := by
  obtain ⟨h1, h12⟩ := hm
  unfold dim
  generalize leaps (assumedYear year) = leap
  interval_cases month <;> rfl

/-- The page and the server agree on the days of a month. -/
theorem dim_eq {month : ℕ} (hm : 1 ≤ month ∧ month ≤ 12) {year : Option ℤ} (hy : year ≠ some 0) :
    dim month (year.map Int.cast) = daysIn ((year.map isLeap).getD true) month := by
  rw [dim_eq_daysIn hm]
  congr 1
  cases year with
  | none => exact (leaps_int 2000).trans (by decide)
  | some y =>
    have hne : ((y : ℤ) : ℚ) ≠ 0 := by
      intro h
      exact hy (congrArg some (by exact_mod_cast h))
    simp only [Option.map_some, assumedYear, if_neg hne, Option.getD_some]
    exact leaps_int y

theorem dim_bounds {month : ℕ} (hm : 1 ≤ month ∧ month ≤ 12) (year : Option ℚ) :
    28 ≤ dim month year ∧ dim month year ≤ 31 := by
  rw [dim_eq_daysIn hm]
  obtain ⟨h1, h12⟩ := hm
  generalize leaps (assumedYear year) = leap
  cases leap <;> interval_cases month <;> decide

/-! ### What the form holds -/

variable {f : BirthdayForm}

theorem orElse_one_pos (n : ℕ) : 1 ≤ orElse n 1 := by
  unfold orElse
  split <;> omega

/-- The days are offered anew, and one of them is chosen. -/
theorem fillDays_offered (hm : 1 ≤ f.month ∧ f.month ≤ 12) (sel : ℕ) : (f.fillDays sel).Offered := by
  have hdim := (dim_bounds hm f.year).1
  have hone := orElse_one_pos (orElse sel f.day)
  refine ⟨hm, ?_, Nat.min_le_right _ _⟩
  show 1 ≤ min _ _
  omega

theorem refresh_offered (guess : String) {birthday : Option VerifyBirthday}
    (hb : ∀ b, birthday = some b → 1 ≤ b.month ∧ b.month ≤ 12) :
    (f.refresh guess birthday).Offered := by
  have hm : 1 ≤ orElse (birthday.elim 0 fun b => b.month.toNat) 1 ∧
      orElse (birthday.elim 0 fun b => b.month.toNat) 1 ≤ 12 := by
    refine ⟨orElse_one_pos _, ?_⟩
    unfold orElse
    split
    · decide
    · cases birthday with
      | none => exact Nat.zero_le _
      | some b =>
        have := hb b rfl
        show b.month.toNat ≤ 12
        omega
  have hoffered := fillDays_offered (f := { f.fillMonths _ with
    year := ((birthday.bind VerifyBirthday.year).filter (· ≠ 0)).map Int.cast }) hm
    (birthday.elim 0 fun b => b.day.toNat)
  exact ⟨hoffered.month, hoffered.day⟩

/-! ### What is saved -/

variable {C : Crates} {thisYear : ℤ} {now : Time} {id name : String}

/-- What `verify_save` makes of the form, if it can be read. -/
def save (C : Crates) (thisYear : ℤ) (now : Time) (id name : String) (f : BirthdayForm) :
    Option (Except AppError BirthdayRow) :=
  f.body.map (verifySaveRow C thisYear now id name)

theorem readI32_int {q : ℚ} {y : ℤ} (h : readI32 q = some y) : q = y := by
  unfold readI32 at h
  split at h
  · rename_i hq
    cases h
    exact ((Rat.den_eq_one_iff q).mp hq.1).symm
  · cases h

theorem readI32_cast {y : ℤ} (h : -2 ^ 31 ≤ y ∧ y < 2 ^ 31) : readI32 y = some y := by
  unfold readI32
  exact if_pos ⟨Rat.den_intCast y, h⟩

theorem body_some {b : SaveBody} (h : f.body = some b) : f.year = b.year.map Int.cast ∧
    b = ⟨f.month, f.day, b.year, some (if f.tz = "" then "UTC" else f.tz), f.showYear⟩ := by
  unfold body at h
  cases hy : f.year with
  | none =>
    rw [hy] at h
    cases h
    exact ⟨rfl, rfl⟩
  | some q =>
    rw [hy] at h
    obtain ⟨y, hq, rfl⟩ := Option.map_eq_some_iff.mp h
    exact ⟨congrArg some (readI32_int hq), rfl⟩

/-- Of a day that the page offers the server only checks the year. -/
theorem validateDate_offered (hf : f.Offered) {year : Option ℤ} (hy : f.year = year.map Int.cast) :
    validateDate thisYear f.month f.day year =
      if year.any fun y => !(1900 ≤ y && y ≤ thisYear) then
        .error s!"Year must be between 1900 and {thisYear}."
      else .ok () := by
  obtain ⟨⟨h1, h12⟩, hd1, hd⟩ := hf
  have hmonth : 1 ≤ (f.month : ℤ) ∧ (f.month : ℤ) ≤ 12 := by omega
  unfold validateDate
  rw [if_neg (not_not.mpr hmonth)]
  by_cases hyear : (year.any fun y => !(1900 ≤ y && y ≤ thisYear)) = true
  · rw [if_pos hyear, if_pos hyear]
  · rw [if_neg hyear, if_neg hyear]
    have hne : year ≠ some 0 := by
      rintro rfl
      exact hyear (by simp)
    have hleap : (year.map isLeapYear).getD true = (year.map isLeap).getD true := by
      cases year with
      | none => rfl
      | some y => exact isLeapYear_eq y
    rw [hy, dim_eq ⟨h1, h12⟩ hne] at hd
    simp only [daysInMonth_eq, hleap, Int.toNat_natCast]
    exact if_neg (by omega)

/-- The row of a save. -/
def savedRow (C : Crates) (now : Time) (id name : String) (b : SaveBody) : BirthdayRow :=
  let derived := computeDerived b.month b.day b.year
  ⟨id, some name, b.month, b.day, b.year, normalizeTz C (b.tz.getD "UTC"), b.showYear, derived.zodiac,
    derived.chineseZodiac, derived.season, derived.birthstone, derived.birthWeekday, now⟩

theorem verifySaveRow_eq (b : SaveBody) : verifySaveRow C thisYear now id name b =
    (validateDate thisYear b.month b.day b.year).mapError .badRequest >>= fun _ =>
      if (savedRow C now id name b).Check then .ok (savedRow C now id name b)
      else .error (.database "new row violates check constraint") := rfl

/-- The years that are saved: `verify_save` checks the present one, the table 2100. -/
def YearFits (thisYear : ℤ) (year : Option ℤ) : Prop := ∀ y, year = some y → 1900 ≤ y ∧ y ≤ thisYear ∧ y ≤ 2100

theorem check_savedRow (hf : f.Offered) {b : SaveBody} (hb : f.body = some b) :
    (savedRow C now id name b).Check ↔ ∀ y, b.year = some y → 1900 ≤ y ∧ y ≤ 2100 := by
  obtain ⟨⟨h1, h12⟩, hd1, hd⟩ := hf
  have hdim := (dim_bounds ⟨h1, h12⟩ f.year).2
  obtain ⟨-, hb⟩ := body_some hb
  rw [hb]
  have hmonth : 1 ≤ (f.month : ℤ) ∧ (f.month : ℤ) ≤ 12 := by omega
  have hday : 1 ≤ (f.day : ℤ) ∧ (f.day : ℤ) ≤ 31 := by omega
  constructor
  · exact fun h => h.2.2
  · exact fun h => ⟨hmonth, hday, h⟩

/-- A form that can be read is saved, or its year is out of a range. -/
theorem verifySaveRow_offered (hf : f.Offered) {b : SaveBody} (hb : f.body = some b) :
    (YearFits thisYear b.year ∧
        verifySaveRow C thisYear now id name b = .ok (savedRow C now id name b)) ∨
      (¬YearFits thisYear b.year ∧ (verifySaveRow C thisYear now id name b =
          .error (.badRequest s!"Year must be between 1900 and {thisYear}.") ∨
        2100 < thisYear ∧ verifySaveRow C thisYear now id name b =
          .error (.database "new row violates check constraint"))) := by
  obtain ⟨hy, hb'⟩ := body_some hb
  have hcheck : (savedRow C now id name b).Check ↔ ∀ y, b.year = some y → 1900 ≤ y ∧ y ≤ 2100 :=
    check_savedRow hf hb
  have hmonth : b.month = f.month := by rw [hb']
  have hday : b.day = f.day := by rw [hb']
  rw [verifySaveRow_eq, hmonth, hday, validateDate_offered hf hy]
  by_cases hyear : (b.year.any fun y => !(1900 ≤ y && y ≤ thisYear)) = true
  · rw [if_pos hyear]
    refine Or.inr ⟨fun hfits => ?_, Or.inl rfl⟩
    cases hsome : b.year with
    | none => simp [hsome] at hyear
    | some y =>
      obtain ⟨h1900, hthis, -⟩ := hfits y hsome
      simp [hsome, h1900, hthis] at hyear
  · rw [if_neg hyear]
    have hin : ∀ y, b.year = some y → 1900 ≤ y ∧ y ≤ thisYear := by
      intro y hsome
      rw [hsome] at hyear
      simpa using hyear
    show (YearFits thisYear b.year ∧ (if _ then _ else _) = _) ∨ (_ ∧ (_ ∨ _ ∧ (if _ then _ else _) = _))
    by_cases hok : (savedRow C now id name b).Check
    · rw [if_pos hok]
      exact Or.inl ⟨fun y hsome => ⟨(hin y hsome).1, (hin y hsome).2, (hcheck.mp hok y hsome).2⟩, rfl⟩
    · rw [if_neg hok]
      refine Or.inr ⟨fun hfits => hok (hcheck.mpr fun y hsome => ?_), Or.inr ⟨?_, rfl⟩⟩
      · exact ⟨(hfits y hsome).1, (hfits y hsome).2.2⟩
      · by_contra hthis
        refine hok (hcheck.mpr fun y hsome => ⟨(hin y hsome).1, ?_⟩)
        have := (hin y hsome).2
        omega

/-- A form is saved if its year is blank, or whole and in the range. -/
theorem save_iff (hf : f.Offered) : (∃ row, f.save C thisYear now id name = some (.ok row)) ↔
    ∀ q, f.year = some q → ∃ y : ℤ, q = y ∧ 1900 ≤ y ∧ y ≤ thisYear ∧ y ≤ 2100 := by
  constructor
  · rintro ⟨row, h⟩ q hq
    obtain ⟨b, hb, hrow⟩ := Option.map_eq_some_iff.mp h
    rcases verifySaveRow_offered hf hb with ⟨hfits, -⟩ | ⟨-, h | ⟨-, h⟩⟩
    · obtain ⟨hy, -⟩ := body_some hb
      rw [hq] at hy
      obtain ⟨y, hsome, hcast⟩ := Option.map_eq_some_iff.mp hy.symm
      exact ⟨y, hcast.symm, hfits y hsome⟩
    · cases hrow.symm.trans h
    · cases hrow.symm.trans h
  · intro hyear
    obtain ⟨b, hb⟩ : ∃ b, f.body = some b := by
      unfold body
      cases hq : f.year with
      | none => exact ⟨_, rfl⟩
      | some q =>
        obtain ⟨y, rfl, h1900, -, h2100⟩ := hyear q hq
        have hread : readI32 y = some y := readI32_cast (by omega)
        simp [hread]
    have hfits : YearFits thisYear b.year := by
      intro y hsome
      obtain ⟨y', hcast, hrange⟩ := hyear y (by rw [(body_some hb).1, hsome]; rfl)
      have heq : y = y' := by exact_mod_cast hcast
      rwa [heq]
    rcases verifySaveRow_offered hf hb with ⟨-, h⟩ | ⟨hnot, -⟩
    · exact ⟨_, by rw [save, hb, Option.map_some, h]⟩
    · exact absurd hfits hnot

/-- What the server refuses a form for. -/
theorem save_refused (hf : f.Offered) {e : AppError}
    (h : f.save C thisYear now id name = some (.error e)) :
    e = .badRequest s!"Year must be between 1900 and {thisYear}." ∨
      2100 < thisYear ∧ e = .database "new row violates check constraint" := by
  obtain ⟨b, hb, hrow⟩ := Option.map_eq_some_iff.mp h
  rcases verifySaveRow_offered hf hb with ⟨-, h⟩ | ⟨-, h | ⟨hlate, h⟩⟩
  · cases hrow.symm.trans h
  · cases hrow.symm.trans h
    exact Or.inl rfl
  · cases hrow.symm.trans h
    exact Or.inr ⟨hlate, rfl⟩

/-! ### The saved birthday in the form -/

/-- A row that was saved for a member, in a year that has come. -/
def Kept (C : Crates) (thisYear : ℤ) (id : String) (row : BirthdayRow) : Prop :=
  ∃ year now name b, year ≤ thisYear ∧ verifySaveRow C year now id name b = .ok row

theorem Kept.valid {row : BirthdayRow} (h : Kept C thisYear id row) : row.Valid C := by
  obtain ⟨year, now, name, b, -, h⟩ := h
  exact BirthdayRow.Saved.valid ⟨year, now, id, name, b, h⟩

theorem Kept.year {row : BirthdayRow} (h : Kept C thisYear id row) :
    row.discordId = id ∧ row.Check ∧ YearFits thisYear row.birthYear := by
  obtain ⟨year, now, name, b, hle, h⟩ := h
  rw [verifySaveRow_eq] at h
  obtain ⟨u, hdate, h⟩ := Result.bind_ok h
  obtain ⟨hcheck, h⟩ := Result.require_ok h
  cases h
  have hdate : validateDate year b.month b.day b.year = .ok () := by
    cases hv : validateDate year b.month b.day b.year with
    | error e => rw [hv] at hdate; cases hdate
    | ok v => rfl
  refine ⟨rfl, hcheck, fun y hy => ?_⟩
  have hrange := (validateDate_spec hdate).2 y hy
  have h2100 := (hcheck.2.2 y hy).2
  exact ⟨hrange.1, hrange.2.trans hle, h2100⟩

theorem normalizeTz_kept (hC : C.NamesZones) {row : BirthdayRow} (h : row.Valid C) :
    normalizeTz C row.tz = row.tz ∧ row.tz ≠ "" := by
  have hzone : ∃ s, C.parseTz s = some row.tz := by
    rcases h.tz with hutc | hs
    · exact ⟨"UTC", by rw [hutc, hC.utc]⟩
    · exact hs
  obtain ⟨s, hs⟩ := hzone
  obtain ⟨htrim, hne⟩ := hC.plain s row.tz hs
  refine ⟨?_, hne⟩
  unfold normalizeTz
  simp only [htrim, if_neg hne, hC.idem s row.tz hs, Option.getD_some]

/-- The form shows the birthday as it is saved. -/
theorem refresh_kept {row : BirthdayRow} (h : Kept C thisYear id row) (htz : row.tz ≠ "")
    (guess : String) (around : Surroundings) :
    (f.refresh guess (some (Routes.verifyBirthday around row))).body =
      some ⟨row.birthMonth, row.birthDay, row.birthYear, some row.tz, row.showYear⟩ := by
  obtain ⟨hm1, hm12, hd1, hd⟩ := h.valid.date
  obtain ⟨-, -, hyear⟩ := h.year
  have hm : 1 ≤ row.birthMonth.toNat ∧ row.birthMonth.toNat ≤ 12 := by omega
  have hmonth : orElse row.birthMonth.toNat 1 = row.birthMonth.toNat := if_neg (by omega)
  have hday : ∀ d, orElse (orElse row.birthDay.toNat d) 1 = row.birthDay.toNat := by
    intro d
    have hne : row.birthDay.toNat ≠ 0 := by omega
    rw [orElse, orElse, if_neg hne, if_neg hne]
  have hne : row.birthYear ≠ some 0 := by
    intro hzero
    have := (hyear 0 hzero).1
    omega
  have hdim := dim_eq hm hne
  have hsome : row.birthYear.filter (· ≠ 0) = row.birthYear := by
    cases hy : row.birthYear with
    | none => rfl
    | some y =>
      have hy0 : y ≠ 0 := fun h => hne (by rw [hy, h])
      simp [hy0]
  have hform : f.refresh guess (some (Routes.verifyBirthday around row)) =
      ⟨row.birthMonth.toNat, row.birthDay.toNat, row.birthYear.map Int.cast, row.tz, row.showYear⟩ := by
    show BirthdayForm.mk (orElse row.birthMonth.toNat 1) (min (orElse (orElse row.birthDay.toNat _) 1)
      (dim (orElse row.birthMonth.toNat 1) ((row.birthYear.filter (· ≠ 0)).map Int.cast)))
      ((row.birthYear.filter (· ≠ 0)).map Int.cast) (if row.tz = "" then guess else row.tz)
      row.showYear = _
    rw [hsome, hmonth, hday, hdim, if_neg htz, Nat.min_eq_left hd]
  rw [hform]
  unfold body
  have hm' : (row.birthMonth.toNat : ℤ) = row.birthMonth := by omega
  have hd' : (row.birthDay.toNat : ℤ) = row.birthDay := by omega
  cases hy : row.birthYear with
  | none => simp [htz, hm', hd']
  | some y =>
    obtain ⟨h1900, -, h2100⟩ := hyear y hy
    have hread : readI32 y = some y := readI32_cast (by omega)
    simp [htz, hm', hd', hread]

/-- Saved as it is shown, the birthday stays as it is. -/
theorem save_refresh (hC : C.NamesZones) {row : BirthdayRow} (h : Kept C thisYear id row)
    (guess : String) (around : Surroundings) :
    (f.refresh guess (some (Routes.verifyBirthday around row))).save C thisYear now id name =
      some (.ok { row with discordName := some name, updatedAt := now }) := by
  obtain ⟨htz, hne⟩ := normalizeTz_kept hC h.valid
  obtain ⟨hid, hcheck, hyear⟩ := h.year
  have hderived := h.valid.derived
  unfold BirthdayRow.Derives at hderived
  have hbody := refresh_kept (f := f) h hne guess around
  have hmonth : ∀ b, (some (Routes.verifyBirthday around row)) = some b → 1 ≤ b.month ∧ b.month ≤ 12 := by
    intro b hb
    cases hb
    exact hcheck.1
  have hoffered := refresh_offered (f := f) guess hmonth
  have hrow : savedRow C now id name
      ⟨row.birthMonth, row.birthDay, row.birthYear, some row.tz, row.showYear⟩ =
      { row with discordName := some name, updatedAt := now } := by
    simp only [savedRow, hderived, Option.getD_some, htz, ← hid]
  rcases verifySaveRow_offered hoffered hbody with ⟨-, hsaved⟩ | ⟨hnot, -⟩
  · rw [save, hbody, Option.map_some, hsaved, hrow]
  · exact absurd hyear hnot

end BirthdayForm

/-! ### The pages of a member -/

inductive VerifyAction where
  | newYear
  | leave (p : ℕ)
  /-- the form is shown, for a new birthday or to edit the saved one -/
  | refresh (p : ℕ) (guess : String) (around : Surroundings)
  | chooseMonth (p month : ℕ)
  | chooseDay (p day : ℕ)
  | typeYear (p : ℕ) (year : Option ℚ)
  | chooseTz (p : ℕ) (tz : String)
  | tickShowYear (p : ℕ) (checked : Bool)
  | save (p : ℕ) (now : Time) (name : String)
  | unlink

/-- The birthday of a member, and the pages on which a form is shown. -/
structure VerifyPages where
  thisYear : ℤ
  row : Option BirthdayRow
  forms : ℕ → Option BirthdayForm

namespace VerifyPages

open BirthdayForm

variable (C : Crates) (id : String)

def start (thisYear : ℤ) : VerifyPages := ⟨thisYear, none, fun _ => none⟩

def setForm (s : VerifyPages) (p : ℕ) (f : Option BirthdayForm) : VerifyPages :=
  { s with forms := Function.update s.forms p f }

def step (s : VerifyPages) : VerifyAction → Option VerifyPages
  | .newYear => some { s with thisYear := s.thisYear + 1 }
  | .leave p => some (s.setForm p none)
  | .refresh p guess around =>
    some (s.setForm p (some (((s.forms p).getD blank).refresh guess
      (s.row.map (Routes.verifyBirthday around)))))
  | .chooseMonth p month => do
    let f ← s.forms p
    if 1 ≤ month ∧ month ≤ 12 then some (s.setForm p (some ({ f with month := month }.fillDays 0)))
    else none
  | .chooseDay p day => do
    let f ← s.forms p
    if 1 ≤ day ∧ day ≤ dim f.month f.year then some (s.setForm p (some { f with day := day }))
    else none
  | .typeYear p year => do
    let f ← s.forms p
    some (s.setForm p (some ({ f with year := year }.fillDays 0)))
  | .chooseTz p tz => do
    let f ← s.forms p
    some (s.setForm p (some { f with tz := tz }))
  | .tickShowYear p checked => do
    let f ← s.forms p
    some (s.setForm p (some { f with showYear := checked }))
  | .save p now name => do
    let f ← s.forms p
    match f.save C s.thisYear now id name with
    | some (.ok row) => some { s with row := some row }
    | _ => some s
  | .unlink => some { s with row := none }

structure Inv (s : VerifyPages) : Prop where
  row : ∀ row, s.row = some row → Kept C s.thisYear id row
  forms : ∀ p f, s.forms p = some f → f.Offered

variable {C id} {s s' : VerifyPages}

theorem Inv.setForm (h : s.Inv C id) (p : ℕ) {f : Option BirthdayForm}
    (hf : ∀ g, f = some g → g.Offered) : (s.setForm p f).Inv C id := by
  refine ⟨h.row, fun q g hg => ?_⟩
  have hg : Function.update s.forms p f q = some g := hg
  by_cases hq : q = p
  · subst hq
    rw [Function.update_self] at hg
    exact hf g hg
  · rw [Function.update_of_ne hq] at hg
    exact h.forms q g hg

/-- A form changes. -/
theorem Inv.edit (h : s.Inv C id) (p : ℕ) {f : BirthdayForm} (hf : f.Offered) :
    (s.setForm p (some f)).Inv C id :=
  h.setForm p fun g hg => by
    cases hg
    exact hf

theorem inv_step {a : VerifyAction} (h : s.Inv C id) (hstep : s.step C id a = some s') :
    s'.Inv C id := by
  cases a with
  | newYear =>
    cases hstep
    refine ⟨fun row hrow => ?_, h.forms⟩
    obtain ⟨year, now, name, b, hle, hsaved⟩ := h.row row hrow
    exact ⟨year, now, name, b, hle.trans (by show s.thisYear ≤ s.thisYear + 1; omega), hsaved⟩
  | leave p =>
    cases hstep
    exact h.setForm p fun g hg => by cases hg
  | refresh p guess around =>
    cases hstep
    refine h.edit p (refresh_offered guess fun b hb => ?_)
    obtain ⟨row, hrow, rfl⟩ := Option.map_eq_some_iff.mp hb
    exact (h.row row hrow).year.2.1.1
  | chooseMonth p month =>
    obtain ⟨f, hf, hstep⟩ := Option.bind_eq_some_iff.mp hstep
    split at hstep
    · rename_i hmonth
      cases hstep
      exact h.edit p (fillDays_offered hmonth 0)
    · cases hstep
  | chooseDay p day =>
    obtain ⟨f, hf, hstep⟩ := Option.bind_eq_some_iff.mp hstep
    split at hstep
    · rename_i hday
      cases hstep
      exact h.edit p ⟨(h.forms p f hf).month, hday⟩
    · cases hstep
  | typeYear p year =>
    obtain ⟨f, hf, hstep⟩ := Option.bind_eq_some_iff.mp hstep
    cases hstep
    exact h.edit p (fillDays_offered (f := { f with year := year }) (h.forms p f hf).month 0)
  | chooseTz p tz =>
    obtain ⟨f, hf, hstep⟩ := Option.bind_eq_some_iff.mp hstep
    cases hstep
    exact h.edit p ⟨(h.forms p f hf).month, (h.forms p f hf).day⟩
  | tickShowYear p checked =>
    obtain ⟨f, hf, hstep⟩ := Option.bind_eq_some_iff.mp hstep
    cases hstep
    exact h.edit p ⟨(h.forms p f hf).month, (h.forms p f hf).day⟩
  | save p now name =>
    obtain ⟨f, hf, hstep⟩ := Option.bind_eq_some_iff.mp hstep
    split at hstep
    · rename_i row hrow
      cases hstep
      refine ⟨fun row' hrow' => ?_, h.forms⟩
      cases hrow'
      obtain ⟨b, -, hsaved⟩ := Option.map_eq_some_iff.mp hrow
      exact ⟨s.thisYear, now, name, b, le_rfl, hsaved⟩
    · cases hstep
      exact h
  | unlink =>
    cases hstep
    exact ⟨fun row hrow => (by cases hrow), h.forms⟩

/-- What the server makes of a form, and what a form makes of what the server has saved. -/
structure Agrees (C : Crates) (id : String) (s : VerifyPages) (f : BirthdayForm) : Prop where
  saved : ∀ now name, (∃ row, f.save C s.thisYear now id name = some (.ok row)) ↔
    ∀ q, f.year = some q → ∃ y : ℤ, q = y ∧ 1900 ≤ y ∧ y ≤ s.thisYear ∧ y ≤ 2100
  refused : ∀ now name e, f.save C s.thisYear now id name = some (.error e) →
    e = .badRequest s!"Year must be between 1900 and {s.thisYear}." ∨
      2100 < s.thisYear ∧ e = .database "new row violates check constraint"
  kept : ∀ row, s.row = some row → ∀ guess around now name,
    (f.refresh guess (some (Routes.verifyBirthday around row))).save C s.thisYear now id name =
      some (.ok { row with discordName := some name, updatedAt := now })

/-- However many pages a member has open, whatever is filled in, and while the years pass. -/
theorem reached_agrees (hC : C.NamesZones) {thisYear : ℤ}
    (h : Lts.Reached (step C id) (fun _ _ => True) (start thisYear) s) {p : ℕ} {f : BirthdayForm}
    (hf : s.forms p = some f) : Agrees C id s f := by
  have hstart : (start thisYear).Inv C id :=
    ⟨fun _ hrow => (by cases hrow), fun _ _ hf => (by cases hf)⟩
  have hs : s.Inv C id := h.invariant hstart fun _ _ _ hs _ => inv_step hs
  have hoffered := hs.forms p f hf
  exact ⟨fun now name => save_iff hoffered, fun now name e => save_refused hoffered,
    fun row hrow guess around now name => save_refresh hC (hs.row row hrow) guess around⟩

theorem namesZones_ascii : Crates.ascii.NamesZones where
  idem s name h := by
    simp only [Crates.ascii] at h ⊢
    split at h
    · cases h
      rename_i hs
      rw [if_pos hs, hs]
    · cases h
  plain s name h := by
    simp only [Crates.ascii] at h
    split at h
    · cases h
      rename_i hs
      subst hs
      decide
    · cases h
  utc := rfl

/-- February 29 is chosen with no year, and the year of birth is no leap year. -/
def leaplingRun : List VerifyAction :=
  [.refresh 0 "UTC" (.silent 0), .chooseMonth 0 2, .chooseDay 0 29, .typeYear 0 (some 1999),
    .save 0 0 "Ada"]

theorem reached_agrees_leapling : ∃ s f, Lts.run (step .ascii "d") (start 2026) leaplingRun = some s ∧
    s.forms 0 = some f ∧ f.day = 28 ∧ Agrees .ascii "d" s f := by
  refine ⟨_, _, rfl, rfl, rfl, ?_⟩
  have hrun : Lts.Reached (step .ascii "d") (fun _ _ => True) (start 2026) _ :=
    Lts.Reached.refl.of_run (fun a _ _ => trivial) (show Lts.run _ (start 2026) leaplingRun = some _ from rfl)
  exact reached_agrees (p := 0) namesZones_ascii hrun rfl

end VerifyPages

end BirthdayRole
