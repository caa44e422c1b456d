/-
# A member's verdict (`services/condition_eval.rs`)

The evaluation of a rule tree on the facts of one member, as
`sync_for_player` makes it. A number that is missing fails every comparison;
a text that is missing matches `neq` only.
-/
import BirthdayRole.Models

namespace BirthdayRole

open Json Text

def boolMatch (c : Condition) (actual : Bool) : Bool :=
  if c.operator ≠ .eq then false else (c.value.asBool.map (· == actual)).getD false

def intList (value : Value) : List ℤ :=
  ((value.asArray.map fun a => a.filterMap Value.asI64).getD []).map Subtype.val

def intMatch (c : Condition) (actual : Option ℤ) : Bool :=
  match actual with
  | none => false
  | some a =>
    let v := c.value.asI64
    match c.operator with
    | .eq => (v.map fun n => a == n.1).getD false
    | .neq => (v.map fun n => a != n.1).getD false
    | .gt => (v.map fun n => decide (a > n.1)).getD false
    | .gte => (v.map fun n => decide (a ≥ n.1)).getD false
    | .lt => (v.map fun n => decide (a < n.1)).getD false
    | .lte => (v.map fun n => decide (a ≤ n.1)).getD false
    | .between =>
      match v, c.valueEnd.bind Value.asI64 with
      | some lo, some hi => decide (a ≥ lo.1 ∧ a ≤ hi.1)
      | _, _ => false
    | .in_ => (intList c.value).contains a
    | .notIn => !(intList c.value).contains a
    | _ => false

def strListContains (value : Value) (needle : String) : Bool :=
  (value.asArray.map fun arr => (arr.filterMap Value.asStr).any (· == needle)).getD false

def stringMatch (C : Crates) (c : Condition) (actual : Option String) : Bool :=
  match actual with
  | none => c.operator == .neq
  | some a =>
    let v := c.value.asStr
    match c.operator with
    | .eq => (v.map fun s => a == s).getD false
    | .neq => (v.map fun s => a != s).getD false
    | .contains => (v.map fun s => Text.contains a s).getD false
    | .regex =>
      match v with
      | none => false
      | some pattern =>
        match C.regex pattern with
        | none => false
        | some isMatch => isMatch a
    | .in_ => strListContains c.value a
    | .notIn => !strListContains c.value a
    | _ => false

def evaluateSingle (C : Crates) (c : Condition) (f : Facts) : Bool :=
  match c.target with
  | .hasBirthdaySet => boolMatch c f.hasBirthday
  | .hasBirthYear => boolMatch c f.hasYear
  | .isBirthdayToday => boolMatch c f.isToday
  | .isBirthdayWeek => boolMatch c f.isThisWeek
  | .isBirthdayMonth => boolMatch c f.isThisMonth
  | .daysUntilBirthday => intMatch c (some f.daysUntil)
  | .ageYears => intMatch c f.ageYears
  | .ageTurningThisYear => intMatch c f.ageTurning
  | .birthMonth => intMatch c (some f.birthMonth)
  | .birthDay => intMatch c (some f.birthDay)
  | .birthYear => intMatch c f.birthYear
  | .zodiacSign => stringMatch C c (some f.zodiac)
  | .chineseZodiac => stringMatch C c f.chineseZodiac
  | .birthSeason => stringMatch C c (some f.season)
  | .birthstone => stringMatch C c (some f.birthstone)
  | .birthWeekday => stringMatch C c f.weekday

/-- The verdict of a rule tree: some group has conditions and all of them hold. -/
def evaluate (C : Crates) (tree : RuleTree) (facts : Facts) : Bool :=
  if tree.grantOnAnyBirthday then true
  else if tree.groups.isEmpty then false
  else tree.groups.any fun g =>
    !g.conditions.isEmpty && g.conditions.all fun c => evaluateSingle C c facts

end BirthdayRole
