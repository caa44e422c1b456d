/-
# The public list (`routes/users.rs`)

`usersData` is what a viewer sees of a guild: its members' birthdays in calendar
order, with the year and the age only of those who show them.

What the list says of a hidden year is one thing: the animal of the Chinese zodiac,
a column that is derived from the year when the row is saved and that the handler
returns as it is. So two tables that differ in hidden years only give a viewer the
same list exactly when no listed member's animal differs (`usersData_withHidden`).
-/
import Mathlib.Data.List.Sort
import BirthdayRole.Db

namespace BirthdayRole

open Calendar

/-- What the Auth Gateway says of a viewer. -/
structure GuildPermission where
  isMember : Bool
  isManager : Bool

/-- The gateway's answers to a viewer: `guild_permission` and `guild_members`. -/
structure Viewer where
  permission : Except AppError GuildPermission
  members : Except AppError (List String × Option String)

/-- An entry of the list. -/
structure UserEntry where
  discordId : String
  discordName : Option String
  month : ℤ
  day : ℤ
  year : Option ℤ
  age : Option ℤ
  zodiac : String
  chineseZodiac : Option String
  season : String
  birthstone : String
  daysUntil : ℤ
  isToday : Bool
  deriving DecidableEq

structure UsersResponse where
  guildId : String
  guildName : Option String
  count : ℕ
  users : List UserEntry
  deriving DecidableEq

def userEntry (localToday : String → Date) (r : BirthdayRow) : UserEntry :=
  let f := computeFacts localToday r.input
  let (year, age) := if r.showYear then (r.birthYear, f.ageYears) else (none, none)
  { discordId := r.discordId
    discordName := r.discordName
    month := r.birthMonth
    day := r.birthDay
    year := year
    age := age
    zodiac := r.zodiac
    chineseZodiac := r.chineseZodiac
    season := r.season
    birthstone := r.birthstone
    daysUntil := f.daysUntil
    isToday := f.isToday }

/-- `ORDER BY birth_month, birth_day` -/
def calendarLe (a b : BirthdayRow) : Prop :=
  a.birthMonth < b.birthMonth ∨ (a.birthMonth = b.birthMonth ∧ a.birthDay ≤ b.birthDay)

instance : DecidableRel calendarLe := fun a b => by unfold calendarLe; infer_instance

/-- The rows of the query; equal days come as they lie in the table. -/
def listedRows (birthdays : Birthdays) (memberIds : List String) : List BirthdayRow :=
  ((birthdays.rows.filter fun r : BirthdayRow => r.discordId ∈ memberIds).insertionSort calendarLe).take 2000

/-- What is checked under a view permission, and the guild's members and name. -/
def viewerAccess (viewPermission : String) (viewer : Viewer) :
    Except AppError (List String × Option String) := do
  if viewPermission = "disabled" then
    .error (.forbidden "The birthdays page is disabled for this server.")
  else
    let perm ← viewer.permission
    if !perm.isMember then .error (.forbidden "You're not a member of this server.")
    else if viewPermission = "managers" ∧ !perm.isManager then
      .error (.forbidden "This list is visible to server managers only.")
    else viewer.members

/-- What is checked before the list is read. -/
def usersAccess (settings : Table GuildSettings.guildId) (viewer : Viewer) (guildId : String) :
    Except AppError (List String × Option String) :=
  viewerAccess (((settings.get? guildId).map GuildSettings.viewPermission).getD "managers") viewer

def usersResponse (localToday : String → Date) (guildId : String) (guildName : Option String)
    (rows : List BirthdayRow) : UsersResponse :=
  let users := rows.map (userEntry localToday)
  ⟨guildId, guildName, users.length, users⟩

/-- The handler where its two statements are carried out; `Requests.usersData` has those that
fail. -/
def usersData (settings : Table GuildSettings.guildId) (birthdays : Birthdays) (viewer : Viewer)
    (localToday : String → Date) (guildId : String) : Except AppError UsersResponse := do
  let (memberIds, guildName) ← usersAccess settings viewer guildId
  .ok (usersResponse localToday guildId guildName (listedRows birthdays memberIds))

/-! ### Hidden years -/

/-- A row with another hidden year; a year that is shown stays. -/
def BirthdayRow.withHidden (year : String → Option ℤ) (r : BirthdayRow) : BirthdayRow :=
  if r.showYear then r else r.withYear (year r.discordId)

theorem withHidden_discordId (year : String → Option ℤ) (r : BirthdayRow) :
    (r.withHidden year).discordId = r.discordId := by
  unfold BirthdayRow.withHidden
  split <;> rfl

/-- The table with other hidden years. -/
def Birthdays.withHidden (birthdays : Birthdays) (year : String → Option ℤ) : Birthdays :=
  birthdays.modify (BirthdayRow.withHidden year) (withHidden_discordId year)

/-- Two years that nobody can tell apart by their animal, or none at all. -/
def SameAnimal (y y' : Option ℤ) : Prop :=
  match y, y' with
  | some y, some y' => y % 12 = y' % 12
  | none, none => True
  | _, _ => False

theorem chineseZodiac_inj {y y' : ℤ} : chineseZodiac y = chineseZodiac y' ↔ y % 12 = y' % 12 := by
  have key : ∀ i j : Fin 12, chineseZodiacs.getD i "" = chineseZodiacs.getD j "" → i = j := by decide
  constructor
  · intro h
    have hi : ((y - 4) % 12).toNat < 12 := by omega
    have hj : ((y' - 4) % 12).toNat < 12 := by omega
    have := Fin.mk.inj_iff.mp (key ⟨_, hi⟩ ⟨_, hj⟩ h)
    omega
  · intro h
    have : (y - 4) % 12 = (y' - 4) % 12 := by omega
    rw [chineseZodiac, chineseZodiac, this]

theorem sameAnimal_iff (y y' : Option ℤ) :
    y.map chineseZodiac = y'.map chineseZodiac ↔ SameAnimal y y' := by
  cases y <;> cases y' <;> simp [SameAnimal, chineseZodiac_inj]

/-- An entry changes with a hidden year exactly when the animal does. -/
theorem userEntry_withHidden (localToday : String → Date) (year : String → Option ℤ)
    {r : BirthdayRow} (h : r.Derives) :
    userEntry localToday (r.withHidden year) = userEntry localToday r ↔
      (r.showYear = false → SameAnimal (year r.discordId) r.birthYear) := by
  unfold BirthdayRow.withHidden
  by_cases hs : r.showYear = true
  · rw [if_pos hs]
    simp [hs]
  · have hs : r.showYear = false := by simpa using hs
    unfold BirthdayRow.Derives computeDerived at h
    simp only [Derived.mk.injEq] at h
    obtain ⟨hz, hc, hse, hb, -⟩ := h
    rw [if_neg (by simp [hs]), ← sameAnimal_iff, hc]
    simp [userEntry, BirthdayRow.withYear, hs, computeDerived, hz, hse, hb, computeFacts,
      BirthdayRow.input]

/-- The query lists the same members, whatever the hidden years. -/
theorem listedRows_withHidden (birthdays : Birthdays) (year : String → Option ℤ)
    (memberIds : List String) : listedRows (birthdays.withHidden year) memberIds =
      (listedRows birthdays memberIds).map (BirthdayRow.withHidden year) := by
  have hle : ∀ a b : BirthdayRow, calendarLe a b ↔
      calendarLe (a.withHidden year) (b.withHidden year) := by
    intro a b
    unfold BirthdayRow.withHidden
    split <;> split <;> rfl
  unfold listedRows Birthdays.withHidden Table.modify
  simp only [List.filter_map, Function.comp_def, withHidden_discordId]
  rw [List.map_take, List.map_insertionSort calendarLe calendarLe _ _ fun a _ b _ => hle a b]

/-- A viewer sees the same under other hidden years exactly when the viewer sees
no list, or every listed member with a hidden year keeps the animal. -/
theorem usersData_withHidden (settings : Table GuildSettings.guildId) (birthdays : Birthdays)
    (hderives : ∀ r ∈ birthdays.rows, r.Derives) (year : String → Option ℤ) (viewer : Viewer)
    (localToday : String → Date) (guildId : String) :
    usersData settings (birthdays.withHidden year) viewer localToday guildId =
        usersData settings birthdays viewer localToday guildId ↔
      ∀ memberIds guildName, usersAccess settings viewer guildId = .ok (memberIds, guildName) →
        ∀ r ∈ listedRows birthdays memberIds, r.showYear = false →
          SameAnimal (year r.discordId) r.birthYear := by
  unfold usersData
  cases ha : usersAccess settings viewer guildId with
  | error e => simp [bind, Except.bind]
  | ok access =>
    obtain ⟨memberIds, guildName⟩ := access
    have hlisted : ∀ r ∈ listedRows birthdays memberIds, r.Derives := by
      intro r hr
      have hr := List.mem_of_mem_take hr
      rw [List.mem_insertionSort] at hr
      exact hderives r (List.mem_filter.mp hr).1
    simp only [bind, Except.bind, usersResponse, listedRows_withHidden, List.map_map, List.length_map,
      Except.ok.injEq, UsersResponse.mk.injEq, true_and, Prod.mk.injEq, List.map_inj_left,
      Function.comp_apply]
    constructor
    · rintro h _ _ ⟨rfl, rfl⟩ r hr
      exact (userEntry_withHidden localToday year (hlisted r hr)).mp (h r hr)
    · intro h r hr
      exact (userEntry_withHidden localToday year (hlisted r hr)).mpr
        (h memberIds guildName ⟨rfl, rfl⟩ r hr)

def shyTable : Birthdays := ⟨[leoRow], by decide⟩

/-- A member of the guild, whose list is open to members. -/
def memberViewer : Viewer := ⟨.ok ⟨true, false⟩, .ok (["1", "2"], some "guild")⟩

def openSettings : Table GuildSettings.guildId := ⟨[⟨"g", "members", 0⟩], by decide⟩

theorem shyTable_derives : ∀ r ∈ shyTable.rows, r.Derives := by
  intro r hr
  rw [List.mem_singleton.mp hr]
  exact leoRow_saved.derives

theorem usersData_withHidden_shy :
    usersData openSettings (shyTable.withHidden fun _ => some 2012) memberViewer
        (fun _ => janFirst 2024) "g" =
        usersData openSettings shyTable memberViewer (fun _ => janFirst 2024) "g" ↔
      ∀ memberIds guildName, usersAccess openSettings memberViewer "g" = .ok (memberIds, guildName) →
        ∀ r ∈ listedRows shyTable memberIds, r.showYear = false →
          SameAnimal ((fun _ => some 2012) r.discordId) r.birthYear :=
  usersData_withHidden openSettings shyTable shyTable_derives (fun _ => some 2012) memberViewer
    (fun _ => janFirst 2024) "g"

/-- A hidden year shows: without one, the dragon is gone from the list. -/
theorem usersData_shows_hidden :
    leoRow.Saved Crates.ascii ∧ (leoRow.withHidden fun _ => none).Saved Crates.ascii ∧
      usersData openSettings (shyTable.withHidden fun _ => none) memberViewer
          (fun _ => janFirst 2024) "g" ≠
        usersData openSettings shyTable memberViewer (fun _ => janFirst 2024) "g" := by
  refine ⟨leoRow_saved, ⟨2024, 0, "1", "a", ⟨8, 1, none, none, false⟩, by rfl⟩, ?_⟩
  decide

end BirthdayRole
