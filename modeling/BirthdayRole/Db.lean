/-
# Rows of the database (migrations 001 to 004)

The columns the program reads or writes. A timestamp is a number of
microseconds; keys, defaults and checks are with the statements that use them.
-/
import BirthdayRole.Birthday
import BirthdayRole.Lib.Result
import BirthdayRole.Lib.Table

namespace BirthdayRole

/-- A timestamp. -/
abbrev Time := ℕ

/-- A row of `birthdays`. -/
structure BirthdayRow where
  discordId : String
  discordName : Option String
  birthMonth : ℤ
  birthDay : ℤ
  birthYear : Option ℤ
  tz : String
  showYear : Bool
  zodiac : String
  chineseZodiac : Option String
  season : String
  birthstone : String
  birthWeekday : Option String
  updatedAt : Time
  deriving DecidableEq

/-- The columns `sync_for_player` reads. -/
def BirthdayRow.input (row : BirthdayRow) : BirthdayInput :=
  ⟨row.birthMonth, row.birthDay, row.birthYear, row.tz⟩

/-- `CHECK (birth_year IS NULL OR birth_year BETWEEN 1900 AND 2100)`, and the
same of month and day. -/
def BirthdayRow.Check (row : BirthdayRow) : Prop :=
  (1 ≤ row.birthMonth ∧ row.birthMonth ≤ 12) ∧ (1 ≤ row.birthDay ∧ row.birthDay ≤ 31) ∧
    ∀ y ∈ row.birthYear, 1900 ≤ y ∧ y ≤ 2100

instance (row : BirthdayRow) : Decidable row.Check := by unfold BirthdayRow.Check; infer_instance

/-! ### The row `verify_save` writes -/

structure SaveBody where
  month : ℤ
  day : ℤ
  year : Option ℤ
  tz : Option String
  showYear : Bool

/-- The values `verify_save` binds for a member, in a UTC year. -/
def verifySaveRow (C : Crates) (thisYear : ℤ) (now : Time) (discordId discordName : String)
    (body : SaveBody) : Except AppError BirthdayRow := do
  (validateDate thisYear body.month body.day body.year).mapError .badRequest
  let tz := normalizeTz C (body.tz.getD "UTC")
  let derived := computeDerived body.month body.day body.year
  let row : BirthdayRow :=
    { discordId := discordId
      discordName := some discordName
      birthMonth := body.month
      birthDay := body.day
      birthYear := body.year
      tz := tz
      showYear := body.showYear
      zodiac := derived.zodiac
      chineseZodiac := derived.chineseZodiac
      season := derived.season
      birthstone := derived.birthstone
      birthWeekday := derived.birthWeekday
      updatedAt := now }
  if row.Check then .ok row else .error (.database "new row violates check constraint")

/-- A row some save has written. -/
def BirthdayRow.Saved (C : Crates) (row : BirthdayRow) : Prop :=
  ∃ thisYear now id name body, verifySaveRow C thisYear now id name body = .ok row

/-- Every column that `compute_derived` fills is the one it fills for the row's date. -/
def BirthdayRow.Derives (row : BirthdayRow) : Prop :=
  computeDerived row.birthMonth row.birthDay row.birthYear =
    ⟨row.zodiac, row.chineseZodiac, row.season, row.birthstone, row.birthWeekday⟩

theorem BirthdayRow.Saved.derives {C : Crates} {row : BirthdayRow} (h : row.Saved C) :
    row.Derives := by
  obtain ⟨thisYear, now, id, name, body, h⟩ := h
  obtain ⟨u, -, h⟩ := Result.bind_ok h
  obtain ⟨-, h⟩ := Result.require_ok h
  cases h
  rfl

/-- The same row, saved with another birth year. -/
def BirthdayRow.withYear (row : BirthdayRow) (year : Option ℤ) : BirthdayRow :=
  let derived := computeDerived row.birthMonth row.birthDay year
  { row with
    birthYear := year
    zodiac := derived.zodiac
    chineseZodiac := derived.chineseZodiac
    season := derived.season
    birthstone := derived.birthstone
    birthWeekday := derived.birthWeekday }

/-- A member born on 1 August 2000 who does not show the year. -/
def leoRow : BirthdayRow :=
  ⟨"1", some "a", 8, 1, some 2000, "UTC", false, "leo", some "dragon", "summer", "peridot",
    some "tuesday", 0⟩

theorem leoRow_saved : leoRow.Saved Crates.ascii :=
  ⟨2024, 0, "1", "a", ⟨8, 1, some 2000, none, false⟩, by rfl⟩

abbrev Birthdays := Table BirthdayRow.discordId

/-! ### Settings -/

/-- A row of `guild_settings`. -/
structure GuildSettings where
  guildId : String
  viewPermission : String
  updatedAt : Time
  deriving DecidableEq

end BirthdayRole
