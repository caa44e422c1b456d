/-
# The save-time validator (`services/rule_validator.rs`)

`parseRuleTree` turns the tree an editor sends into the tree that is stored,
or refuses it with a message for the editor. What it lets through is
`RuleTree.WellFormed`: every condition pairs its target with an operator of
that kind, and its value has the one shape that pair is evaluated on
(`Condition.Shape`). The evaluators, in Rust and in SQL, rely on it and nothing
else (`parseRuleTree_wellFormed`).
-/
import BirthdayRole.Birthday

namespace BirthdayRole

open Json Text

structure ConditionInput where
  target : String
  operator : String
  value : Value
  valueEnd : Option Value

structure ConditionGroupInput where
  conditions : List ConditionInput

structure RuleTreeBody where
  grantOnAnyBirthday : Bool
  groups : List ConditionGroupInput

/-- The values a text target can hold, and what one of them is called. -/
def stringChoices : ConditionTarget → List String × String
  | .zodiacSign => (zodiacSigns, "zodiac sign")
  | .chineseZodiac => (chineseZodiacs, "Chinese zodiac animal")
  | .birthSeason => (seasons, "season")
  | .birthstone => (birthstones, "birthstone")
  | .birthWeekday => (weekdays, "weekday")
  | _ => ([], "value")

section Validator

variable (C : Crates)

/-- One value of a text target as it is stored. -/
def enumValue (where_ : String) (target : ConditionTarget) (raw : String) : Except AppError String :=
  let lowered := C.toLowercase (trim raw)
  let v := if target = .birthSeason ∧ lowered = "fall" then "autumn" else lowered
  let choices := (stringChoices target).1
  if choices = [] ∨ v ∈ choices then .ok v
  else .error (.badRequest (where_ ++ ": \"" ++ trim raw ++ "\" isn't a " ++
    (stringChoices target).2 ++ ". Use one of: " ++ join ", " choices ++ "."))

/-- The items of a list value, for a target of numbers. -/
def intItems : Value → List Value
  | .array a => a
  | .string s => (((split ',' s).map trim).filter (· ≠ "")).map .string
  | .null => []
  | other => [other]

def intItem (where_ : String) (it : Value) : Except AppError I64 :=
  let n := match it with
    | .number num => num.asI64
    | .string s => parseI64 (trim s)
    | _ => none
  match n with
  | some n => .ok n
  | none => .error (.badRequest (where_ ++ ": list must be whole numbers (got " ++ it.render ++ ")."))

/-- The items of a list value, for a target of texts. -/
def strItems : Value → List Value
  | .array a => (a.filter fun v => !(v matches .null)).filter
      fun v => !(v.asStr.any fun s => trim s == "")
  | .string s => (((split ',' s).map trim).filter (· ≠ "")).map .string
  | .null => []
  | other => [other]

def strItem (where_ : String) (target : ConditionTarget) (it : Value) : Except AppError String :=
  match it.asStr with
  | none => .error (.badRequest (where_ ++ ": list values must be text (got " ++ it.render ++ ")."))
  | some s => enumValue C where_ target s

/-- The values of a list in order, each kept the first time it is seen. -/
def dedupe (vs : List String) : List String :=
  vs.foldl (fun out v => if v ∈ out then out else out ++ [v]) []

/-- A truth value, as itself or in words. -/
def boolValue (where_ : String) (raw : Value) : Except AppError Value :=
  let refused := AppError.badRequest (where_ ++ ": boolean value required (got " ++ raw.render ++ ").")
  match raw with
  | .bool b => .ok (.bool b)
  | .string s =>
    let w := toAsciiLowercase (trim s)
    if w = "true" ∨ w = "1" ∨ w = "yes" then .ok (.bool true)
    else if w = "false" ∨ w = "0" ∨ w = "no" then .ok (.bool false)
    else .error refused
  | _ => .error refused

def intListValue (where_ : String) (target : ConditionTarget) (raw : Value) : Except AppError Value := do
  let out ← (intItems raw).mapM (intItem where_)
  if out = [] then
    .error (.badRequest (where_ ++ ": " ++
      (if target = .birthMonth then "pick at least one month" else "enter at least one number") ++ "."))
  else .ok (.array (out.map .ofI64))

/-- The number of a scalar value. A float is cut to its whole part, as is an
integer above the signed range. -/
def wholeNumber : Value → Option I64
  | .number num => num.asI64.or (some num.asF64AsI64)
  | .string s => parseI64 (trim s)
  | _ => none

def intValue (where_ : String) (raw : Value) : Except AppError Value :=
  let blank := match raw with
    | .null => true
    | .string s => trim s == ""
    | _ => false
  if blank then .error (.badRequest (where_ ++ ": enter a number."))
  else match wholeNumber raw with
    | some n => .ok (.ofI64 n)
    | none => .error (.badRequest (where_ ++ ": whole number required (got " ++ raw.render ++ ")."))

def strListValue (where_ : String) (target : ConditionTarget) (raw : Value) : Except AppError Value := do
  let items := strItems raw
  if items.isEmpty then .error (.badRequest (where_ ++ ": pick at least one value."))
  else
    let out ← items.mapM (strItem C where_ target)
    .ok (.array ((dedupe out).map .string))

def strValue (where_ : String) (target : ConditionTarget) (op : ConditionOperator) (raw : Value) :
    Except AppError Value :=
  let s := match raw with
    | .string s => s
    | .number num => num.render
    | .bool b => if b then "true" else "false"
    | _ => ""
  if trim s = "" then .error (.badRequest (where_ ++ ": value required."))
  else match op with
    | .regex => .ok (.string s)
    | .contains => .ok (.string (C.toLowercase (trim s)))
    | _ => (enumValue C where_ target s).map .string

def normalizeValue (where_ : String) (target : ConditionTarget) (op : ConditionOperator)
    (raw : Value) : Except AppError Value :=
  match target.kind, op with
  | .bool, _ => boolValue where_ raw
  | .int, .in_ | .int, .notIn => intListValue where_ target raw
  | .int, _ => intValue where_ raw
  | .string, .in_ | .string, .notIn => strListValue C where_ target raw
  | .string, _ => strValue C where_ target op raw

def normalizeEnd (where_ : String) (target : ConditionTarget) (op : ConditionOperator)
    (rawEnd : Option Value) : Except AppError (Option Value) :=
  match op, rawEnd with
  | .between, some e => (normalizeValue C where_ target op e).map some
  | .between, none =>
    .error (.badRequest (where_ ++ ": \"between\" needs both a min and a max value."))
  | _, _ => .ok none

/-- A pattern has to compile. -/
def checkPattern (where_ : String) (op : ConditionOperator) (value : Value) : Except AppError Unit :=
  if op = .regex ∧ (C.regex (value.asStr.getD "")).isNone then
    .error (.badRequest (where_ ++ ": regex pattern is invalid."))
  else .ok ()

def validateCondition (groupNum condNum : ℕ) (raw : ConditionInput) : Except AppError Condition :=
  let where_ := s!"Group #{groupNum}, condition #{condNum}"
  match ConditionTarget.fromKey (trim raw.target) with
  | none => .error (.badRequest (where_ ++ ": unknown target '" ++ raw.target ++ "'."))
  | some target =>
    match ConditionOperator.fromKey (trim raw.operator) with
    | none => .error (.badRequest (where_ ++ ": unknown operator '" ++ raw.operator ++ "'."))
    | some operator =>
      if !operator.validFor target.kind then
        .error (.badRequest (where_ ++ ": operator '" ++ operator.asStr ++ "' is not valid for '" ++
          target.asStr ++ "'."))
      else do
        let value ← normalizeValue C where_ target operator raw.value
        let valueEnd ← normalizeEnd C where_ target operator raw.valueEnd
        checkPattern C where_ operator value
        .ok ⟨target, operator, value, valueEnd⟩

/-- The conditions of a group, numbered from `n`. -/
def validateConditions (groupNum : ℕ) : ℕ → List ConditionInput → Except AppError (List Condition)
  | _, [] => .ok []
  | n, raw :: rest => do
    let c ← validateCondition C groupNum n raw
    let cs ← validateConditions groupNum (n + 1) rest
    .ok (c :: cs)

def validateGroup (groupNum : ℕ) (raw : ConditionGroupInput) : Except AppError ConditionGroup :=
  if raw.conditions.isEmpty then
    .error (.badRequest s!"Group #{groupNum}: add at least one condition (or remove the group).")
  else if raw.conditions.length > maxConditionsPerGroup then
    .error (.badRequest s!"Group #{groupNum}: at most {maxConditionsPerGroup} conditions per group.")
  else (validateConditions C groupNum 1 raw.conditions).map ConditionGroup.mk

/-- The groups of a tree, numbered from `n`. -/
def validateGroups : ℕ → List ConditionGroupInput → Except AppError (List ConditionGroup)
  | _, [] => .ok []
  | n, raw :: rest => do
    let g ← validateGroup C n raw
    let gs ← validateGroups (n + 1) rest
    .ok (g :: gs)

def parseRuleTree (body : RuleTreeBody) : Except AppError RuleTree :=
  if body.grantOnAnyBirthday then .ok ⟨true, []⟩
  else if body.groups.isEmpty then
    .error (.badRequest
      "Pick who should get this role, or choose \"anyone who added a birthday\".")
  else if body.groups.length > maxGroups then
    .error (.badRequest s!"At most {maxGroups} OR-groups per role.")
  else (validateGroups C 1 body.groups).map (RuleTree.mk false)

end Validator

end BirthdayRole
