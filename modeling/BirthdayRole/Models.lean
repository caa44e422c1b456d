/-
# Rules, facts and errors

The data of `models/condition.rs`, `models/rule.rs`, `models/facts.rs` and
`error.rs`: what a rule can ask about a member, how it can compare, the rule
tree (an OR of AND-groups), the facts a rule is judged on, and the errors a
request or a sync run ends with.
-/
import BirthdayRole.Lib.Json

namespace BirthdayRole

open Json

/-- What the program takes from its crates and from Rust's Unicode tables. -/
structure Crates where
  /-- `str::to_lowercase` -/
  toLowercase : String → String
  /-- `RegexBuilder::build` under the size limits, and `is_match` of the result -/
  regex : String → Option (String → Bool)
  /-- `chrono_tz`: the canonical name of a time zone -/
  parseTz : String → Option String

/-- A part of the crates that computes: ASCII letters, patterns of letters only,
which match where they occur, and UTC. -/
def Crates.ascii : Crates where
  toLowercase := Text.toAsciiLowercase
  regex p := if p.toList.all Char.isAlpha then some fun s => Text.contains s p else none
  parseTz s := if s = "UTC" then some s else none

/-! ### Conditions -/

inductive TargetKind where
  | bool | int | string
  deriving DecidableEq

inductive ConditionTarget where
  | hasBirthdaySet | hasBirthYear
  | isBirthdayToday | isBirthdayWeek | isBirthdayMonth
  | daysUntilBirthday | ageYears | ageTurningThisYear
  | birthMonth | birthDay | birthYear
  | zodiacSign | chineseZodiac | birthSeason | birthstone | birthWeekday
  deriving DecidableEq

namespace ConditionTarget

def kind : ConditionTarget → TargetKind
  | hasBirthdaySet | hasBirthYear | isBirthdayToday | isBirthdayWeek | isBirthdayMonth => .bool
  | daysUntilBirthday | ageYears | ageTurningThisYear | birthMonth | birthDay | birthYear => .int
  | zodiacSign | chineseZodiac | birthSeason | birthstone | birthWeekday => .string

def asStr : ConditionTarget → String
  | hasBirthdaySet => "has_birthday_set"
  | hasBirthYear => "has_birth_year"
  | isBirthdayToday => "is_birthday_today"
  | isBirthdayWeek => "is_birthday_week"
  | isBirthdayMonth => "is_birthday_month"
  | daysUntilBirthday => "days_until_birthday"
  | ageYears => "age_years"
  | ageTurningThisYear => "age_turning_this_year"
  | birthMonth => "birth_month"
  | birthDay => "birth_day"
  | birthYear => "birth_year"
  | zodiacSign => "zodiac_sign"
  | chineseZodiac => "chinese_zodiac"
  | birthSeason => "birth_season"
  | birthstone => "birthstone"
  | birthWeekday => "birth_weekday"

def fromKey : String → Option ConditionTarget
  | "has_birthday_set" => some hasBirthdaySet
  | "has_birth_year" => some hasBirthYear
  | "is_birthday_today" => some isBirthdayToday
  | "is_birthday_week" => some isBirthdayWeek
  | "is_birthday_month" => some isBirthdayMonth
  | "days_until_birthday" => some daysUntilBirthday
  | "age_years" => some ageYears
  | "age_turning_this_year" => some ageTurningThisYear
  | "birth_month" => some birthMonth
  | "birth_day" => some birthDay
  | "birth_year" => some birthYear
  | "zodiac_sign" => some zodiacSign
  | "chinese_zodiac" => some chineseZodiac
  | "birth_season" => some birthSeason
  | "birthstone" => some birthstone
  | "birth_weekday" => some birthWeekday
  | _ => none

theorem fromKey_asStr (t : ConditionTarget) : fromKey t.asStr = some t := by
  cases t <;> rfl

end ConditionTarget

inductive ConditionOperator where
  | eq | neq | gt | gte | lt | lte | between | contains | regex | in_ | notIn
  deriving DecidableEq

namespace ConditionOperator

def asStr : ConditionOperator → String
  | eq => "eq"
  | neq => "neq"
  | gt => "gt"
  | gte => "gte"
  | lt => "lt"
  | lte => "lte"
  | between => "between"
  | contains => "contains"
  | regex => "regex"
  | in_ => "in"
  | notIn => "not_in"

def fromKey : String → Option ConditionOperator
  | "eq" => some eq
  | "neq" => some neq
  | "gt" => some gt
  | "gte" => some gte
  | "lt" => some lt
  | "lte" => some lte
  | "between" => some between
  | "contains" => some contains
  | "regex" => some regex
  | "in" => some in_
  | "not_in" => some notIn
  | _ => none

theorem fromKey_asStr (o : ConditionOperator) : fromKey o.asStr = some o := by
  cases o <;> rfl

/-- The operators that make a predicate on a kind of target. -/
def validFor (o : ConditionOperator) : TargetKind → Bool
  | .bool => o ∈ [eq]
  | .int => o ∈ [eq, neq, gt, gte, lt, lte, between, in_, notIn]
  | .string => o ∈ [eq, neq, contains, regex, in_, notIn]

end ConditionOperator

/-- One row of an AND-group. -/
structure Condition where
  target : ConditionTarget
  operator : ConditionOperator
  value : Value
  valueEnd : Option Value

/-! ### Rule trees -/

def maxGroups : ℕ := 8
def maxConditionsPerGroup : ℕ := 12

structure ConditionGroup where
  conditions : List Condition

structure RuleTree where
  grantOnAnyBirthday : Bool
  groups : List ConditionGroup

/-- `RuleTree::default`, the unconfigured rule: it grants to nobody. -/
instance : Inhabited RuleTree := ⟨⟨false, []⟩⟩

/-! ### Facts -/

/-- What is known of a member on a day. -/
structure Facts where
  hasBirthday : Bool
  hasYear : Bool
  isToday : Bool
  isThisWeek : Bool
  isThisMonth : Bool
  daysUntil : ℤ
  ageYears : Option ℤ
  ageTurning : Option ℤ
  birthMonth : ℤ
  birthDay : ℤ
  birthYear : Option ℤ
  zodiac : String
  chineseZodiac : Option String
  season : String
  birthstone : String
  weekday : Option String
  deriving DecidableEq

/-! ### Errors -/

inductive AppError where
  | database (e : String)
  | roleLogic (e : String)
  | roleLinkNotFound
  | roleLinkDisabled
  | roleLinkRemovalHeld (previous next : ℕ)
  | userLimitReached (limit : ℕ)
  | badRequest (msg : String)
  | unauthorized
  | unauthorizedWith (msg : String)
  | forbidden (msg : String)
  | notFound (msg : String)
  | staleVersion
  | internal (e : String)
  deriving DecidableEq

end BirthdayRole
