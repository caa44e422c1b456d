/-
# The WHERE clause of a rule (`services/rule_sql.rs`)

`buildRuleWhere` writes a rule tree as a condition on the `bt` row, with its
parameters numbered from `bindOffset + 1`. The condition is kept as an
expression; its text, the one the program sends, is `Expr.render Atom.name`.

The two queries around it are `qualifyingQuery`, of `sync_for_role_link`, and
`matchingQuery`, of `preview_count_for`.
-/
import BirthdayRole.BdaySql
import BirthdayRole.Db

namespace BirthdayRole

open Json Text Sql

/-- The member's local date. -/
def localText : String := "((now() AT TIME ZONE bt.tz)::date)"

inductive Bind where
  | bool (b : Bool)
  | int (n : I64)
  | text (s : String)
  | intArray (ns : List I64)
  | textArray (ss : List String)

/-- `target_expr`. -/
def targetExpr : ConditionTarget → String
  | .hasBirthdaySet => "TRUE"
  | .hasBirthYear => "(bt.birth_year IS NOT NULL)"
  | .isBirthdayToday => "bday_is_today(bt.birth_month, bt.birth_day, " ++ localText ++ ")"
  | .isBirthdayWeek => "(bday_days_until(bt.birth_month, bt.birth_day, " ++ localText ++ ") <= 6)"
  | .isBirthdayMonth => "(EXTRACT(MONTH FROM " ++ localText ++ ")::int = bt.birth_month)"
  | .daysUntilBirthday => "bday_days_until(bt.birth_month, bt.birth_day, " ++ localText ++ ")"
  | .ageYears => "bday_age(bt.birth_year, bt.birth_month, bt.birth_day, " ++ localText ++ ")"
  | .ageTurningThisYear =>
    "bday_age_turning(bt.birth_year, bt.birth_month, bt.birth_day, " ++ localText ++ ")"
  | .birthMonth => "bt.birth_month"
  | .birthDay => "bt.birth_day"
  | .birthYear => "bt.birth_year"
  | .zodiacSign => "bt.zodiac"
  | .chineseZodiac => "bt.chinese_zodiac"
  | .birthSeason => "bt.season"
  | .birthstone => "bt.birthstone"
  | .birthWeekday => "bt.birth_weekday"

/-- What a condition refers to on a row. -/
inductive Atom where
  | target (t : ConditionTarget)
  | discordId

def Atom.name : Atom → String
  | target t => targetExpr t
  | discordId => "bt.discord_id"

abbrev Clause := Expr Atom

def escapeLike (s : String) : String :=
  .ofList (replaceChar '_' ['\\', '_']
    (replaceChar '%' ['\\', '%'] (replaceChar '\\' ['\\', '\\'] s.toList)))

def intArray (c : Condition) : List I64 :=
  (c.value.asArray.map fun a => a.filterMap Value.asI64).getD []

def strArray (c : Condition) : List String :=
  (c.value.asArray.map fun a => a.filterMap Value.asStr).getD []

/-- A condition, and the binds so far with its own after them. -/
def buildCondition (c : Condition) (bindOffset : ℕ) (binds : List Bind) : Clause × List Bind :=
  let expr : Clause := .atom (.target c.target)
  let i := bindOffset + binds.length + 1
  let compare (op : CmpOp) : Clause × List Bind :=
    let n := c.value.asI64.getD 0
    (.cmp op (.paren expr) (.param i .none), binds ++ [.int n])
  match c.operator with
  | .eq =>
    match c.target.kind with
    | .bool =>
      let b := c.value.asBool.getD false
      (.cmp .eq (.paren expr) (.param i .none), binds ++ [.bool b])
    | .int => compare .eq
    | .string => (.cmp .eq expr (.param i .none), binds ++ [.text (c.value.asStr.getD "")])
  | .neq =>
    if c.target.kind = .int then compare .ne
    else (.isDistinctFrom expr (.param i .none), binds ++ [.text (c.value.asStr.getD "")])
  | .gt => compare .gt
  | .gte => compare .ge
  | .lt => compare .lt
  | .lte => compare .le
  | .between =>
    let lo := c.value.asI64.getD 0
    let hi := (c.valueEnd.bind Value.asI64).getD lo
    (.paren (.and (.cmp .ge (.paren expr) (.param i .none))
      (.cmp .le (.paren expr) (.param (i + 1) .none))), binds ++ [.int lo, .int hi])
  | .contains =>
    let v := c.value.asStr.getD ""
    (.like expr (.param i .none), binds ++ [.text ("%" ++ escapeLike v ++ "%")])
  | .regex => (.regex expr (.param i .none), binds ++ [.text (c.value.asStr.getD "")])
  | .in_ =>
    if c.target.kind = .int then
      let arr := intArray c
      if arr = [] then (.lit false, binds)
      else (.eqAny (.paren expr) (.param i .ints4), binds ++ [.intArray arr])
    else
      let arr := strArray c
      if arr = [] then (.lit false, binds)
      else (.eqAny expr (.param i .texts), binds ++ [.textArray arr])
  | .notIn =>
    if c.target.kind = .int then
      let arr := intArray c
      if arr = [] then (.lit true, binds)
      else (.paren (.and (.isNotNull (.paren expr)) (.neAll (.paren expr) (.param i .ints4))),
        binds ++ [.intArray arr])
    else
      let arr := strArray c
      if arr = [] then (.lit true, binds)
      else (.paren (.and (.isNotNull expr) (.neAll expr (.param i .texts))), binds ++ [.textArray arr])

def buildConditions (bindOffset : ℕ) : List Condition → List Bind → List Clause × List Bind
  | [], binds => ([], binds)
  | c :: cs, binds =>
    let (e, binds) := buildCondition c bindOffset binds
    let (es, binds) := buildConditions bindOffset cs binds
    (e :: es, binds)

def buildGroup (group : ConditionGroup) (bindOffset : ℕ) (binds : List Bind) : Clause × List Bind :=
  match group.conditions with
  | [] => (.lit false, binds)
  | c :: cs =>
    let (e, binds) := buildCondition c bindOffset binds
    let (es, binds) := buildConditions bindOffset cs binds
    (.paren (.joinAnd e es), binds)

def buildGroups (bindOffset : ℕ) : List ConditionGroup → List Bind → List Clause × List Bind
  | [], binds => ([], binds)
  | g :: gs, binds =>
    let (e, binds) := buildGroup g bindOffset binds
    let (es, binds) := buildGroups bindOffset gs binds
    (e :: es, binds)

def buildRuleWhere (tree : RuleTree) (bindOffset : ℕ) : Clause × List Bind :=
  if tree.grantOnAnyBirthday then (.lit true, [])
  else match tree.groups with
    | [] => (.lit false, [])
    | g :: gs =>
      let (e, binds) := buildGroup g bindOffset []
      let (es, binds) := buildGroups bindOffset gs binds
      (.paren (.joinOr e es), binds)

/-! ### Evaluation on a row -/

/-- What a query takes from PostgreSQL at the instant it runs. -/
structure Postgres where
  /-- `(now() AT TIME ZONE tz)::date` -/
  localDate : String → Except Error Calendar.Date
  /-- `text ~ pattern`, from the pattern and the text -/
  regex : String → String → Except Error Bool

/-- `Crates.ascii` seen from PostgreSQL, at an instant with one local date. -/
def Postgres.ascii (localDate : Calendar.Date) : Postgres where
  localDate tz := if tz = "UTC" then .ok localDate else .error .datatypeMismatch
  regex p s := if p.toList.all Char.isAlpha then .ok (Text.contains s p) else .error .invalidRegex

def Bind.val : Bind → Val
  | bool b => .bool b
  | int n => .int n
  | text s => .text s
  | intArray ns => .ints (ns.map Subtype.val)
  | textArray ss => .texts ss

/-- The value of a target on a row, on the member's local date. -/
def targetValue (row : BirthdayRow) (localDate : Except Error Calendar.Date) :
    ConditionTarget → Outcome
  | .hasBirthdaySet => .ok (.bool true)
  | .hasBirthYear => .ok (.bool row.birthYear.isSome)
  | .isBirthdayToday => do
    .ok (.bool (← bdayIsToday row.birthMonth row.birthDay (← localDate)))
  | .isBirthdayWeek => do
    .ok (.bool (decide ((← bdayDaysUntil row.birthMonth row.birthDay (← localDate)) ≤ 6)))
  | .isBirthdayMonth => do .ok (.bool (((← localDate).month : ℤ) == row.birthMonth))
  | .daysUntilBirthday => do .ok (.int (← bdayDaysUntil row.birthMonth row.birthDay (← localDate)))
  | .ageYears => do
    .ok (Val.ofInt? (← bdayAge row.birthYear row.birthMonth row.birthDay (← localDate)))
  | .ageTurningThisYear => do
    .ok (Val.ofInt? (← bdayAgeTurning row.birthYear row.birthMonth row.birthDay (← localDate)))
  | .birthMonth => .ok (.int row.birthMonth)
  | .birthDay => .ok (.int row.birthDay)
  | .birthYear => .ok (Val.ofInt? row.birthYear)
  | .zodiacSign => .ok (.text row.zodiac)
  | .chineseZodiac => .ok (Val.ofText? row.chineseZodiac)
  | .birthSeason => .ok (.text row.season)
  | .birthstone => .ok (.text row.birthstone)
  | .birthWeekday => .ok (Val.ofText? row.birthWeekday)

/-- A row, with the parameters `$1`, `$2` and so on. -/
def rowEnv (pg : Postgres) (params : List Val) (row : BirthdayRow) : Env Atom where
  atom
    | .target t => targetValue row (pg.localDate row.tz) t
    | .discordId => .ok (.text row.discordId)
  param i := if i = 0 then none else params[i - 1]?
  regex := pg.regex

theorem rowEnv_param (pg : Postgres) (params : List Val) (row : BirthdayRow) (n : ℕ) :
    (rowEnv pg params row).param (n + 1) = params[n]? := rfl

/-! ### The queries -/

/-- A `usize`. -/
abbrev Usize := {n : ℕ // n < 2 ^ 64}

/-- `as i64` of a `usize`: the upper half of the range is negative. -/
def Usize.asI64 (n : Usize) : ℤ := if n.1 < 2 ^ 63 then n else (n : ℤ) - 2 ^ 64

/-- A query of `birthdays bt`: its filter, its parameters and its `LIMIT`. -/
structure Query where
  filter : Clause
  params : List Val
  limit : Option ℤ

def memberClause : Clause := .eqAny (.atom .discordId) (.param 1 .texts)

/-- The query of `sync_for_role_link`. -/
def qualifyingQuery (tree : RuleTree) (memberIds : List String) (userLimit : Usize) : Query :=
  let limit := userLimit.asI64
  if tree.grantOnAnyBirthday then ⟨memberClause, [.texts memberIds, .int limit], some limit⟩
  else
    let (ruleWhere, binds) := buildRuleWhere tree 1
    ⟨.and memberClause (.paren ruleWhere), .texts memberIds :: binds.map Bind.val ++ [.int limit],
      some limit⟩

/-- The query of `preview_count_for`. -/
def matchingQuery (tree : RuleTree) (memberIds : List String) : Query :=
  let (ruleWhere, binds) := buildRuleWhere tree 1
  ⟨.and memberClause (.paren ruleWhere), .texts memberIds :: binds.map Bind.val, none⟩

/-- Some execution of the query on some rows raises. -/
def Query.Raises (q : Query) (pg : Postgres) (rows : List BirthdayRow) : Prop :=
  (∃ p ∈ q.params, Val.hasNul p = true) ∨ (∃ n ∈ q.limit, n < 0) ∨
    ∃ row ∈ rows, CanRaise (rowEnv pg q.params row) q.filter

end BirthdayRole
