/-
# The rule editor (`templates/role_config.html`, the catalogues of `routes/admin.rs`)

The role page edits a rule in the browser: from a preset, with a few selections, or condition by
condition with widgets that the catalogues of the server decide on. An `Editor` is what the
script of the page holds of it, and `step` is what an event makes of that; an event needs its
widget to be on the page.

Whatever is done, the rule stays one the widgets can show (`Editor.Inv`, `Editor.step_inv`): targets and
operators come from the catalogues, the operator is one for the target, and a value has the form
that the two ask for.
-/
import BirthdayRole.RuleValidator
import BirthdayRole.RuleMeaning

namespace BirthdayRole

open Json Text

/-! ### The catalogues -/

def kindStr : TargetKind → String
  | .bool => "bool"
  | .int => "int"
  | .string => "string"

/-- An object of `target_catalog`. -/
structure TargetEntry where
  key : String
  label : String
  kind : String
  group : String
  optionsKey : String

def targetEntry : ConditionTarget × String × String × String → TargetEntry
  | (t, label, group, opts) => ⟨t.asStr, label, kindStr t.kind, group, opts⟩

def targetCatalog : List TargetEntry :=
  [(.isBirthdayToday, "It's their birthday today", "when", ""),
    (.isBirthdayWeek, "Birthday is within 7 days", "when", ""),
    (.isBirthdayMonth, "Birthday is this month", "when", ""),
    (.daysUntilBirthday, "Days until their birthday", "when", ""),
    (.birthMonth, "Birth month (1–12)", "date", ""),
    (.birthDay, "Birth day of month (1–31)", "date", ""),
    (.birthYear, "Birth year", "date", ""),
    (.ageYears, "Current age (self-reported)", "age", ""),
    (.ageTurningThisYear, "Age turning on next birthday", "age", ""),
    (.hasBirthYear, "Provided a birth year", "age", ""),
    (.hasBirthdaySet, "Has saved a birthday", "presence", ""),
    (.zodiacSign, "Western zodiac sign", "calendar", "zodiac"),
    (.chineseZodiac, "Chinese zodiac animal", "calendar", "chinese"),
    (.birthSeason, "Birth season", "calendar", "season"),
    (.birthstone, "Birthstone", "calendar", "birthstone"),
    (.birthWeekday, "Weekday they were born", "calendar", "weekday")].map targetEntry

/-- An object of `operator_catalog`. -/
structure OperatorEntry where
  key : String
  label : String
  validForBool : Bool
  validForInt : Bool
  validForString : Bool
  needsValueEnd : Bool
  valueIsList : Bool

def operatorEntry : ConditionOperator × String → OperatorEntry
  | (op, label) =>
    { key := op.asStr
      label := label
      validForBool := op.validFor .bool
      validForInt := op.validFor .int
      validForString := op.validFor .string
      needsValueEnd := op = .between
      valueIsList := op = .in_ ∨ op = .notIn }

/-- `valid_for[kind]` -/
def OperatorEntry.validFor (o : OperatorEntry) : String → Bool
  | "bool" => o.validForBool
  | "int" => o.validForInt
  | "string" => o.validForString
  | _ => false

def operatorCatalog : List OperatorEntry :=
  [(.eq, "equals"), (.neq, "not equals"), (.gt, "greater than"), (.gte, "at least"),
    (.lt, "less than"), (.lte, "at most"), (.between, "between"), (.contains, "contains"),
    (.regex, "matches regex"), (.in_, "is one of"), (.notIn, "is not one of")].map operatorEntry

def valueOptions : List (String × List String) :=
  [("zodiac", zodiacSigns), ("chinese", chineseZodiacs), ("season", seasons),
    ("birthstone", birthstones), ("weekday", weekdays)]

/-! ### The script of the page -/

/-- A condition as the page holds it; `value_end` is null where there is none. -/
structure EditCondition where
  target : String
  operator : String
  value : Value
  valueEnd : Value

structure Edit where
  grantOnAnyBirthday : Bool
  groups : List (List EditCondition)

inductive Preset where
  | anyone | anyoneUnset | today | week | month | zodiac | months | age | custom
  deriving DecidableEq

/-- `state` as far as the rule goes: `_edit`, `_preset`, and the selections `_z`, `_m`, `_age`. -/
structure Editor where
  edit : Edit
  preset : Preset
  z : List Value
  m : List Value
  age : Number

namespace Editor

/-- `c(t, o, v)` -/
def c (t o : String) (v : Value) : EditCondition := ⟨t, o, v, .null⟩

def targetByKey (k : String) : Option TargetEntry := targetCatalog.find? (·.key = k)

def opByKey (k : String) : Option OperatorEntry := operatorCatalog.find? (·.key = k)

def opsForKind (k : String) : List OperatorEntry := operatorCatalog.filter (·.validFor k)

def valOptions (t : TargetEntry) : Option (List String) :=
  if t.optionsKey = "" then none else valueOptions.lookup t.optionsKey

def ofNat (n : ℕ) : Value := .ofI64 (Number.saturate n)

/-- What a list of a target can tick, if it is not typed. -/
def listChoices (t : TargetEntry) : Option (List Value) :=
  if t.key = "birth_month" then some ((List.range' 1 12).map ofNat)
  else (valOptions t).map (·.map .string)

/-- `(opByKey(key)||{}).value_is_list` -/
def isList (key : String) : Bool := (opByKey key).any (·.valueIsList)

/-- `(opByKey(key)||{}).needs_value_end` -/
def needsEnd (key : String) : Bool := (opByKey key).any (·.needsValueEnd)

/-- What a row shows to enter a value with (`condRow`, `valWidget`). -/
inductive Widget where
  | yesNo
  | chips (choices : List Value)
  | typedList
  | range
  | select (opts : List String)
  | number
  | text

def widget (t : TargetEntry) (operator : String) : Widget :=
  if t.kind = "bool" then .yesNo
  else if isList operator then
    match listChoices t with
    | some choices => .chips choices
    | none => .typedList
  else if needsEnd operator then .range
  else
    match valOptions t with
    | some opts => .select opts
    | none => if t.kind = "int" then .number else .text

/-- The condition a new group starts with. -/
def birthdayToday : EditCondition := c "is_birthday_today" "eq" (.bool true)

def isZero : Number → Bool
  | .int n _ => n = 0
  | .float q _ => q = 0

def eighteen : Number := .int 18 (by decide)

/-- `Number(v)||18`, where `v` is what a rule of the age holds: a number or a list of numbers. -/
def ageOf : Value → Number
  | .number n | .array [.number n] => if isZero n then eighteen else n
  | _ => eighteen

/-- `value===true` -/
def isTrue : Value → Bool
  | .bool b => b
  | _ => false

def detectPreset (cfg : Edit) : Preset :=
  if cfg.grantOnAnyBirthday then .anyone
  else match cfg.groups with
    | [] => .anyoneUnset
    | [[cc]] =>
      let onlyBool (t : String) : Bool :=
        cc.target = t && cc.operator = "eq" && isTrue cc.value
      if onlyBool "is_birthday_today" then .today
      else if onlyBool "is_birthday_week" then .week
      else if onlyBool "is_birthday_month" then .month
      else if cc.target = "zodiac_sign" ∧ cc.operator = "in" then .zodiac
      else if cc.target = "birth_month" ∧ cc.operator = "in" then .months
      else if cc.target = "age_years" ∧ cc.operator = "gte" then .age
      else .custom
    | _ => .custom

/-- The first condition of a rule. -/
def first (cfg : Edit) : Option EditCondition := cfg.groups.head?.bind List.head?

/-- `_z`, `_m` and `_age` as `seedSelections` leaves them. -/
def seedZ (cfg : Edit) : List Value :=
  match first cfg with
  | some ⟨"zodiac_sign", _, .array (v :: vs), _⟩ => v :: vs
  | _ => [.string "aries"]

def seedM (cfg : Edit) : List Value :=
  match first cfg with
  | some ⟨"birth_month", _, .array (v :: vs), _⟩ => v :: vs
  | _ => [6, 7, 8].map ofNat

def seedAge (cfg : Edit) : Number :=
  match first cfg with
  | some ⟨"age_years", _, v, _⟩ => ageOf v
  | _ => eighteen

/-- The rule of a preset; the advanced one has none of its own. -/
def buildPreset (s : Editor) : Preset → Option Edit
  | .anyone => some ⟨true, []⟩
  | .today => some ⟨false, [[c "is_birthday_today" "eq" (.bool true)]]⟩
  | .week => some ⟨false, [[c "is_birthday_week" "eq" (.bool true)]]⟩
  | .month => some ⟨false, [[c "is_birthday_month" "eq" (.bool true)]]⟩
  | .zodiac => some ⟨false, [[c "zodiac_sign" "in" (.array s.z)]]⟩
  | .months => some ⟨false, [[c "birth_month" "in" (.array s.m)]]⟩
  | .age => some ⟨false, [[c "age_years" "gte" (.number (ageOf (.number s.age)))]]⟩
  | .anyoneUnset | .custom => none

/-- A rule without groups gets one. -/
def withGroup : List (List EditCondition) → List (List EditCondition)
  | [] => [[birthdayToday]]
  | groups => groups

def applyPreset (s : Editor) (id : Preset) : Editor :=
  if id = .custom then { s with edit := ⟨false, withGroup s.edit.groups⟩ }
  else { s with edit := (s.buildPreset id).getD s.edit }

/-- The page is loaded with a rule. -/
def load (config : Edit) : Editor :=
  let preset := detectPreset config
  if preset = .anyoneUnset then ⟨⟨true, []⟩, .anyone, seedZ config, seedM config, seedAge config⟩
  else ⟨config, preset, seedZ config, seedM config, seedAge config⟩

/-! ### Events -/

/-- What is done to a row. A field of numbers can be blank, and of the choices of a list some are
ticked. -/
inductive RowEvent where
  | setTarget (key : String)
  | setOperator (key : String)
  | setBool (b : Bool)
  | typeNumber (n : Option Number)
  | typeEnd (n : Option Number)
  | typeList (text : String)
  | pick (v : String)
  | typeText (text : String)
  | tick (checked : Value → Bool)

inductive Event where
  | choose (id : Preset)
  | zodiacChips (checked : Value → Bool)
  | monthChips (checked : Value → Bool)
  | typeAge (n : Option Number)
  | removeGroup (g : ℕ)
  | addCondition (g : ℕ)
  | addGroup
  | removeCondition (g i : ℕ)
  | row (g i : ℕ) (e : RowEvent)

/-- `String.prototype.trim` -/
def jsTrim (s : String) : String :=
  let blank (ch : Char) : Bool :=
    let n := ch.toNat
    (9 ≤ n && n ≤ 13) || n = 32 || n = 0xA0 || n = 0x1680 || (0x2000 ≤ n && n ≤ 0x200A) ||
      n = 0x2028 || n = 0x2029 || n = 0x202F || n = 0x205F || n = 0x3000 || n = 0xFEFF
  .ofList ((s.toList.dropWhile blank).reverse.dropWhile blank).reverse

theorem one_inRange : (-2 ^ 63 ≤ (1 : ℤ)) ∧ (1 : ℤ) < 2 ^ 64 := by decide

def jsOne : Number := .int 1 one_inRange

/-- `Math.max(1, Number(v)||1)` -/
def atLeastOne : Option Number → Number
  | some (.int n h) => if 1 ≤ n then .int n h else jsOne
  | some (.float q text) => if 1 ≤ q then .float q text else jsOne
  | none => jsOne

/-- The value that a single field starts with. -/
def firstOption (t : TargetEntry) : Value :=
  match valOptions t with
  | some opts => .string (opts.headD "")
  | none => .string ""

/-- Another target: the operator stays if it can. -/
def setTarget (cc : EditCondition) (t : TargetEntry) : EditCondition :=
  if t.kind = "bool" then ⟨t.key, "eq", .bool true, .null⟩
  else
    let v := opsForKind t.kind
    let operator := if v.any (·.key = cc.operator) then cc.operator else (v.map (·.key)).headD ""
    ⟨t.key, operator, if isList operator then .array [] else firstOption t, .null⟩

/-- Another operator: the value is carried over between a list and a single field. -/
def setOperator (cc : EditCondition) (t : TargetEntry) (key : String) : EditCondition :=
  let value := match isList key, cc.value with
    | true, .array a => .array a
    | true, .string "" | true, .null => .array []
    | true, v => .array [v]
    | false, .array (v :: _) => v
    | false, .array [] => firstOption t
    | false, v => v
  { cc with operator := key, value := value, valueEnd := .null }

/-- What an event makes of a condition, if its row has what it takes. -/
def react (cc : EditCondition) (t : TargetEntry) : RowEvent → Option EditCondition
  | .setTarget key => (targetByKey key).map (setTarget cc)
  | .setOperator key =>
    if t.kind ≠ "bool" ∧ (opsForKind t.kind).any (·.key = key) then some (setOperator cc t key)
    else none
  | .setBool b =>
    match widget t cc.operator with
    | .yesNo => some { cc with operator := "eq", value := .bool b }
    | _ => none
  | .typeNumber n =>
    match widget t cc.operator with
    | .range | .number => some { cc with value := n.elim (.string "") .number }
    | _ => none
  | .typeEnd n =>
    match widget t cc.operator with
    | .range => some { cc with valueEnd := n.elim .null .number }
    | _ => none
  | .typeList text =>
    match widget t cc.operator with
    | .typedList =>
      let items := ((split ',' text).map jsTrim).filter (· ≠ "")
      some { cc with value := .array (items.map .string) }
    | _ => none
  | .pick v =>
    match widget t cc.operator with
    | .select opts => if v ∈ opts then some { cc with value := .string v } else none
    | _ => none
  | .typeText text =>
    match widget t cc.operator with
    | .text => some { cc with value := .string text }
    | _ => none
  | .tick checked =>
    match widget t cc.operator with
    | .chips choices => some { cc with value := .array (choices.filter checked) }
    | _ => none

/-- An event in the advanced rule, which is drawn again after it. -/
def drawn (s : Editor) (groups : List (List EditCondition)) : Editor :=
  { s with edit := { s.edit with groups := withGroup groups } }

def step (s : Editor) : Event → Option Editor
  | .choose id =>
    if id = .anyoneUnset then none else some (applyPreset { s with preset := id } id)
  | .zodiacChips checked =>
    if s.preset = .zodiac then
      some (applyPreset { s with z := (zodiacSigns.map .string).filter checked } .zodiac)
    else none
  | .monthChips checked =>
    if s.preset = .months then
      some (applyPreset { s with m := ((List.range' 1 12).map ofNat).filter checked } .months)
    else none
  | .typeAge n =>
    if s.preset = .age then some (applyPreset { s with age := atLeastOne n } .age) else none
  | .removeGroup g =>
    if s.preset = .custom ∧ g < s.edit.groups.length then some (s.drawn (s.edit.groups.eraseIdx g))
    else none
  | .addCondition g =>
    match s.edit.groups[g]? with
    | some cs =>
      if s.preset = .custom then some (s.drawn (s.edit.groups.set g (cs ++ [birthdayToday]))) else none
    | none => none
  | .addGroup =>
    if s.preset = .custom ∧ s.edit.groups.length < maxGroups then
      some (s.drawn (s.edit.groups ++ [[birthdayToday]]))
    else none
  | .removeCondition g i =>
    match s.edit.groups[g]? with
    | some cs =>
      if s.preset = .custom ∧ i < cs.length then
        let rest := cs.eraseIdx i
        some (s.drawn (if rest = [] then s.edit.groups.eraseIdx g else s.edit.groups.set g rest))
      else none
    | none => none
  | .row g i e => do
    let cs ← s.edit.groups[g]?
    let cc ← cs[i]?
    let t ← targetByKey cc.target
    let cc' ← react cc t e
    if s.preset = .custom then some (s.drawn (s.edit.groups.set g (cs.set i cc'))) else none

/-! ### What the catalogues offer -/

/-- An entry is that of a target. -/
structure Describes (e : TargetEntry) (t : ConditionTarget) : Prop where
  key : e.key = t.asStr
  kind : e.kind = kindStr t.kind
  options : valOptions e = if t.kind = .string then some (stringChoices t).1 else none

variable {t : ConditionTarget} {op : ConditionOperator} {e : TargetEntry} {k : String}

theorem describes_of_targetByKey (h : targetByKey k = some e) : ∃ t, k = t.asStr ∧ Describes e t := by
  have hkey : e.key = k := by simpa using List.find?_some h
  obtain ⟨⟨t, label, group, opts⟩, hp, rfl⟩ := List.mem_map.mp (List.mem_of_find?_eq_some h)
  refine ⟨t, hkey.symm, rfl, rfl, ?_⟩
  simp only [List.mem_cons, Prod.mk.injEq, List.not_mem_nil, or_false] at hp
  rcases hp with h | h | h | h | h | h | h | h | h | h | h | h | h | h | h | h <;>
    obtain ⟨rfl, rfl, rfl, rfl⟩ := h <;> rfl

/-- Whether an operator takes a list. -/
def takesList (op : ConditionOperator) : Bool := op = .in_ ∨ op = .notIn

@[simp] theorem isList_asStr (op : ConditionOperator) : isList op.asStr = takesList op := by
  cases op <;> rfl

@[simp] theorem needsEnd_asStr (op : ConditionOperator) : needsEnd op.asStr = decide (op = .between) := by
  cases op <;> rfl

theorem opByKey_asStr (op : ConditionOperator) : ∃ o, opByKey op.asStr = some o ∧ o.key = op.asStr ∧
    ∀ kind, o.validFor (kindStr kind) = op.validFor kind := by
  cases op <;> exact ⟨_, rfl, rfl, fun kind => by cases kind <;> rfl⟩

/-- The operators of a kind are those that are valid for it. -/
theorem mem_opsForKind (kind : TargetKind) (key : String) :
    (opsForKind (kindStr kind)).any (·.key = key) = true ↔
      ∃ op : ConditionOperator, key = op.asStr ∧ op.validFor kind = true := by
  have hvalid : ∀ p : ConditionOperator × String,
      (operatorEntry p).validFor (kindStr kind) = p.1.validFor kind := by
    intro p
    cases kind <;> rfl
  unfold opsForKind operatorCatalog
  rw [List.any_eq_true]
  constructor
  · rintro ⟨o, ho, hkey⟩
    obtain ⟨ho, hv⟩ := List.mem_filter.mp ho
    obtain ⟨p, -, rfl⟩ := List.mem_map.mp ho
    rw [hvalid] at hv
    exact ⟨p.1, (of_decide_eq_true hkey).symm, hv⟩
  · rintro ⟨op, rfl, hv⟩
    obtain ⟨o, ho, hkey, hvo⟩ := opByKey_asStr op
    refine ⟨o, List.mem_filter.mpr ⟨List.mem_of_find?_eq_some ho, ?_⟩, decide_eq_true hkey⟩
    rw [hvo]
    exact hv

theorem firstOp (kind : TargetKind) : ((opsForKind (kindStr kind)).map (·.key)).headD "" = "eq" := by
  cases kind <;> rfl

/-! ### The rule on the page -/

/-- What a field of numbers holds. -/
def Entered : Value → Prop
  | .number _ | .string _ => True
  | _ => False

/-- A value has the form that its target and operator ask for. -/
def ValueFits (t : ConditionTarget) (op : ConditionOperator) (v : Value) : Prop :=
  match t.kind, takesList op with
  | .bool, _ => ∃ b, v = .bool b
  | .int, true => ∃ items : List Value, v = .array items ∧ ∀ x ∈ items, Entered x
  | .int, false => Entered v
  | .string, true =>
    ∃ vs : List String, v = .array (vs.map .string) ∧ ∀ x ∈ vs, x ∈ (stringChoices t).1
  | .string, false => ∃ x ∈ (stringChoices t).1, v = .string x

def EndFits : Value → Prop
  | .null | .number _ => True
  | _ => False

/-- A condition that its row can show. -/
structure Shows (cc : EditCondition) (t : ConditionTarget) (op : ConditionOperator) : Prop where
  target : cc.target = t.asStr
  operator : cc.operator = op.asStr
  valid : op.validFor t.kind = true
  value : ValueFits t op cc.value
  valueEnd : EndFits cc.valueEnd

def Fits (cc : EditCondition) : Prop := ∃ t op, Shows cc t op

theorem birthdayToday_fits : Fits birthdayToday :=
  ⟨.isBirthdayToday, .eq, rfl, rfl, rfl, ⟨true, rfl⟩, trivial⟩

theorem stringChoices_headD (hk : t.kind = .string) :
    (stringChoices t).1.headD "" ∈ (stringChoices t).1 := by
  cases hc : (stringChoices t).1 with
  | nil => exact absurd hc (stringChoices_ne_nil hk)
  | cons v vs => simp

/-- What a single field starts with. -/
theorem firstOption_fits (he : Describes e t) (hk : t.kind ≠ .bool) (hop : takesList op = false) :
    ValueFits t op (firstOption e) := by
  unfold firstOption
  rw [he.options]
  cases hkind : t.kind with
  | bool => exact absurd hkind hk
  | int => simp [ValueFits, hkind, hop, Entered]
  | string =>
    simp only [ValueFits, hkind, hop, if_true]
    exact ⟨_, stringChoices_headD hkind, rfl⟩

theorem kind_ne_bool (he : Describes e t) : e.kind ≠ "bool" ↔ t.kind ≠ .bool := by
  rw [he.kind]
  cases t.kind <;> decide

/-- An empty list fits wherever a list does. -/
theorem nil_fits (hk : t.kind ≠ .bool) (hop : takesList op = true) : ValueFits t op (.array []) := by
  cases hkind : t.kind with
  | bool => exact absurd hkind hk
  | int => simp [ValueFits, hkind, hop]
  | string => exact (by simp [ValueFits, hkind, hop] : ValueFits t op (.array []))

theorem setTarget_fits (cc : EditCondition) (he : Describes e t) : Fits (setTarget cc e) := by
  unfold setTarget
  by_cases hk : t.kind = .bool
  · rw [if_pos (by rw [he.kind, hk]; rfl)]
    refine ⟨t, .eq, he.key, rfl, by rw [hk]; rfl, ?_, trivial⟩
    simp [ValueFits, hk]
  · rw [if_neg ((kind_ne_bool he).mpr hk), he.kind]
    -- the operator it has, or the first one
    obtain ⟨op, hop, hvalid⟩ : ∃ op : ConditionOperator,
        (if (opsForKind (kindStr t.kind)).any (·.key = cc.operator) then cc.operator
          else ((opsForKind (kindStr t.kind)).map (·.key)).headD "") = op.asStr ∧
        op.validFor t.kind = true := by
      by_cases hany : (opsForKind (kindStr t.kind)).any (·.key = cc.operator) = true
      · obtain ⟨op, hop, hvalid⟩ := (mem_opsForKind t.kind cc.operator).mp hany
        exact ⟨op, by rw [if_pos hany, hop], hvalid⟩
      · refine ⟨.eq, by rw [if_neg hany, firstOp]; rfl, ?_⟩
        cases t.kind <;> rfl
    show Fits ⟨e.key, _, if isList _ then _ else _, .null⟩
    rw [hop, isList_asStr]
    refine ⟨t, op, he.key, rfl, hvalid, ?_, trivial⟩
    cases hlist : takesList op with
    | true => exact nil_fits hk hlist
    | false => exact firstOption_fits he hk hlist

/-- A value is carried over to another operator. -/
theorem setOperator_fits {cc : EditCondition} {op' : ConditionOperator} (he : Describes e t)
    (hcc : Shows cc t op) (hk : t.kind ≠ .bool) (hvalid : op'.validFor t.kind = true) :
    Fits (setOperator cc e op'.asStr) := by
  have hvalue := hcc.value
  refine ⟨t, op', hcc.target, rfl, hvalid, ?_, trivial⟩
  unfold setOperator
  rw [isList_asStr]
  show ValueFits t op' (match takesList op', cc.value with
    | true, .array a => .array a
    | true, .string "" | true, .null => .array []
    | true, v => .array [v]
    | false, .array (v :: _) => v
    | false, .array [] => firstOption e
    | false, v => v)
  cases hkind : t.kind with
  | bool => exact absurd hkind hk
  | int =>
    simp only [ValueFits, hkind] at hvalue
    cases hold : takesList op with
    | true =>
      rw [hold] at hvalue
      obtain ⟨items, hitems, hall⟩ := hvalue
      rw [hitems]
      cases hnew : takesList op' with
      | true =>
        simp only [ValueFits, hkind, hnew]
        exact ⟨items, rfl, hall⟩
      | false =>
        cases items with
        | nil => exact firstOption_fits he hk hnew
        | cons x items =>
          simp only [ValueFits, hkind, hnew]
          exact hall x List.mem_cons_self
    | false =>
      rw [hold] at hvalue
      cases hnew : takesList op' with
      | true =>
        simp only [ValueFits, hkind, hnew]
        cases hv : cc.value with
        | number n => exact ⟨[.number n], rfl, fun x hx => by rw [List.mem_singleton.mp hx]; trivial⟩
        | string x =>
          by_cases hx : x = ""
          · subst hx
            exact ⟨[], rfl, fun x hx => absurd hx List.not_mem_nil⟩
          · refine ⟨[.string x], by simp [hx], fun y hy => ?_⟩
            rw [List.mem_singleton.mp hy]
            trivial
        | null | bool | array | object => rw [hv] at hvalue; exact absurd hvalue id
      | false =>
        simp only [ValueFits, hkind, hnew]
        cases hv : cc.value with
        | number n => trivial
        | string x => trivial
        | null | bool | array | object => rw [hv] at hvalue; exact absurd hvalue id
  | string =>
    simp only [ValueFits, hkind] at hvalue
    cases hold : takesList op with
    | true =>
      rw [hold] at hvalue
      obtain ⟨vs, hvs, hall⟩ := hvalue
      rw [hvs]
      cases hnew : takesList op' with
      | true =>
        simp only [ValueFits, hkind, hnew]
        exact ⟨vs, rfl, hall⟩
      | false =>
        cases vs with
        | nil => exact firstOption_fits he hk hnew
        | cons x vs =>
          simp only [ValueFits, hkind, hnew]
          exact ⟨x, hall x List.mem_cons_self, rfl⟩
    | false =>
      rw [hold] at hvalue
      obtain ⟨x, hx, hv⟩ := hvalue
      rw [hv]
      cases hnew : takesList op' with
      | true =>
        simp only [ValueFits, hkind, hnew]
        by_cases hblank : x = ""
        · subst hblank
          exact ⟨[], rfl, fun x hx => absurd hx List.not_mem_nil⟩
        · refine ⟨[x], by simp [hblank], fun y hy => ?_⟩
          rw [List.mem_singleton.mp hy]
          exact hx
      | false =>
        simp only [ValueFits, hkind, hnew]
        exact ⟨x, hx, rfl⟩

def months : List Value := (List.range' 1 12).map ofNat

theorem months_entered {x : Value} (h : x ∈ months) : Entered x := by
  obtain ⟨n, -, rfl⟩ := List.mem_map.mp h
  trivial

/-- What a row shows, by its target and its operator. -/
theorem widget_cases (he : Describes e t) (hvalid : op.validFor t.kind = true) :
    (t.kind = .bool ∧ widget e op.asStr = .yesNo) ∨
      (t.kind = .int ∧ takesList op = true ∧
        (widget e op.asStr = .typedList ∨ widget e op.asStr = .chips months)) ∨
      (t.kind = .int ∧ takesList op = false ∧
        (widget e op.asStr = .range ∨ widget e op.asStr = .number)) ∨
      (t.kind = .string ∧ takesList op = true ∧
        widget e op.asStr = .chips ((stringChoices t).1.map .string)) ∨
      (t.kind = .string ∧ takesList op = false ∧ widget e op.asStr = .select (stringChoices t).1) := by
  have hoptions := he.options
  unfold widget listChoices
  rw [isList_asStr, needsEnd_asStr, hoptions, he.kind, he.key]
  cases hkind : t.kind with
  | bool => exact Or.inl ⟨rfl, if_pos rfl⟩
  | int =>
    rw [if_neg (by decide)]
    refine Or.inr ?_
    cases hlist : takesList op with
    | true =>
      refine Or.inl ⟨rfl, rfl, ?_⟩
      by_cases hmonth : t.asStr = "birth_month"
      · exact Or.inr (by simp [hmonth, months])
      · exact Or.inl (by simp [hmonth])
    | false =>
      refine Or.inr (Or.inl ⟨rfl, rfl, ?_⟩)
      by_cases hop : op = .between
      · exact Or.inl (by simp [hop])
      · exact Or.inr (by simp [hop, kindStr])
  | string =>
    rw [if_neg (by decide)]
    have hmonth : t.asStr ≠ "birth_month" := by
      intro h
      cases t <;> first | exact absurd h (by decide) | cases hkind
    have hop : op ≠ .between := by
      rintro rfl
      rw [hkind] at hvalid
      exact absurd hvalid (by decide)
    refine Or.inr (Or.inr (Or.inr ?_))
    cases hlist : takesList op with
    | true => exact Or.inl ⟨rfl, rfl, by simp [hmonth]⟩
    | false => exact Or.inr ⟨rfl, rfl, by simp [hop]⟩

/-- What is done to a row leaves a condition that its row can show. -/
theorem react_fits {cc cc' : EditCondition} {ev : RowEvent} (he : Describes e t) (hcc : Shows cc t op)
    (h : react cc e ev = some cc') : Fits cc' := by
  obtain ⟨htarget, hoperator, hvalid, hvalue, hend⟩ := hcc
  -- a new value, with the target and the operator that were there
  have hnew : ∀ v, ValueFits t op v → Fits { cc with value := v } :=
    fun v hv => ⟨t, op, htarget, hoperator, hvalid, hv, hend⟩
  have hw := widget_cases he hvalid
  rw [← hoperator] at hw
  cases ev with
  | setTarget key =>
    obtain ⟨e', he', rfl⟩ := Option.map_eq_some_iff.mp h
    obtain ⟨t', -, hd⟩ := describes_of_targetByKey he'
    exact setTarget_fits cc hd
  | setOperator key =>
    simp only [react] at h
    split at h
    · rename_i hcond
      cases h
      rw [he.kind] at hcond
      obtain ⟨op', rfl, hvalid'⟩ := (mem_opsForKind t.kind key).mp hcond.2
      have hk : t.kind ≠ .bool := (kind_ne_bool he).mp (by rw [he.kind]; exact hcond.1)
      exact setOperator_fits he ⟨htarget, hoperator, hvalid, hvalue, hend⟩ hk hvalid'
    · cases h
  | setBool b =>
    rcases hw with ⟨hk, hw⟩ | ⟨-, -, hw | hw⟩ | ⟨-, -, hw | hw⟩ | ⟨-, -, hw⟩ | ⟨-, -, hw⟩ <;>
      simp only [react, hw] at h <;> cases h
    exact ⟨t, .eq, htarget, rfl, by rw [hk]; rfl, by simp [ValueFits, hk], hend⟩
  | typeNumber n =>
    rcases hw with ⟨-, hw⟩ | ⟨-, -, hw | hw⟩ | ⟨hk, hlist, hw | hw⟩ | ⟨-, -, hw⟩ | ⟨-, -, hw⟩ <;>
      simp only [react, hw] at h <;> cases h
    all_goals
      refine hnew _ ?_
      simp only [ValueFits, hk, hlist]
      cases n <;> trivial
  | typeEnd n =>
    rcases hw with ⟨-, hw⟩ | ⟨-, -, hw | hw⟩ | ⟨hk, hlist, hw | hw⟩ | ⟨-, -, hw⟩ | ⟨-, -, hw⟩ <;>
      simp only [react, hw] at h <;> cases h
    refine ⟨t, op, htarget, hoperator, hvalid, hvalue, ?_⟩
    cases n <;> trivial
  | typeList text =>
    rcases hw with ⟨-, hw⟩ | ⟨hk, hlist, hw | hw⟩ | ⟨-, -, hw | hw⟩ | ⟨-, -, hw⟩ | ⟨-, -, hw⟩ <;>
      simp only [react, hw] at h <;> cases h
    refine hnew _ ?_
    simp only [ValueFits, hk, hlist]
    refine ⟨_, rfl, fun x hx => ?_⟩
    obtain ⟨item, -, rfl⟩ := List.mem_map.mp hx
    trivial
  | pick v =>
    rcases hw with ⟨-, hw⟩ | ⟨-, -, hw | hw⟩ | ⟨-, -, hw | hw⟩ | ⟨-, -, hw⟩ | ⟨hk, hlist, hw⟩ <;>
      simp only [react, hw] at h
    case' inr.inr.inr.inr =>
      split at h
    all_goals cases h
    rename_i hv
    refine hnew _ ?_
    simp only [ValueFits, hk, hlist]
    exact ⟨v, hv, rfl⟩
  | typeText text =>
    rcases hw with ⟨-, hw⟩ | ⟨-, -, hw | hw⟩ | ⟨-, -, hw | hw⟩ | ⟨-, -, hw⟩ | ⟨-, -, hw⟩ <;>
      simp only [react, hw] at h <;> cases h
  | tick checked =>
    rcases hw with ⟨-, hw⟩ | ⟨hk, hlist, hw | hw⟩ | ⟨-, -, hw | hw⟩ | ⟨hk, hlist, hw⟩ | ⟨-, -, hw⟩ <;>
      simp only [react, hw] at h <;> cases h
    · refine hnew _ ?_
      simp only [ValueFits, hk, hlist]
      exact ⟨_, rfl, fun x hx => months_entered (List.mem_filter.mp hx).1⟩
    · refine hnew _ ?_
      simp only [ValueFits, hk, hlist]
      refine ⟨(stringChoices t).1.filter fun x => checked (.string x), ?_, fun x hx => ?_⟩
      · rw [List.filter_map]
        rfl
      · exact (List.mem_filter.mp hx).1

/-- Conditions that their rows can show. -/
def GroupFits (cs : List EditCondition) : Prop := cs ≠ [] ∧ ∀ cc ∈ cs, Fits cc

/-- A rule that was made with the editor. -/
structure Built (cfg : Edit) : Prop where
  groups : ∀ cs ∈ cfg.groups, GroupFits cs
  atMost : cfg.groups.length ≤ maxGroups

structure Inv (s : Editor) : Prop where
  built : Built s.edit
  given : s.edit.grantOnAnyBirthday = false → s.edit.groups ≠ []
  preset : s.preset = .custom ∨ detectPreset s.edit = s.preset
  z : ∃ vs : List String, s.z = vs.map .string ∧ ∀ x ∈ vs, x ∈ zodiacSigns
  m : ∀ x ∈ s.m, Entered x

variable {s s' : Editor}

theorem asStr_inj {t t' : ConditionTarget} (h : t.asStr = t'.asStr) : t = t' := by
  have hkey := congrArg ConditionTarget.fromKey h
  rw [ConditionTarget.fromKey_asStr, ConditionTarget.fromKey_asStr] at hkey
  exact Option.some.inj hkey

theorem withGroup_ne_nil (groups : List (List EditCondition)) : withGroup groups ≠ [] := by
  cases groups <;> exact List.cons_ne_nil _ _

theorem withGroup_built {groups : List (List EditCondition)} (hfit : ∀ cs ∈ groups, GroupFits cs)
    (hmost : groups.length ≤ maxGroups) (grant : Bool) : Built ⟨grant, withGroup groups⟩ := by
  cases groups with
  | nil =>
    refine ⟨fun cs hcs => ?_, by show 1 ≤ maxGroups; decide⟩
    rw [List.mem_singleton.mp hcs]
    refine ⟨List.cons_ne_nil _ _, fun cc hcc => ?_⟩
    rw [List.mem_singleton.mp hcc]
    exact birthdayToday_fits
  | cons g gs => exact ⟨hfit, hmost⟩

/-! ### Loading -/

theorem first_fits {cfg : Edit} (hcfg : Built cfg) {cc : EditCondition} (h : first cfg = some cc) :
    Fits cc := by
  unfold first at h
  obtain ⟨cs, hcs, hcc⟩ := Option.bind_eq_some_iff.mp h
  exact (hcfg.groups cs (List.mem_of_head? hcs)).2 cc (List.mem_of_head? hcc)

theorem seedZ_signs {cfg : Edit} (hcfg : Built cfg) :
    ∃ vs : List String, seedZ cfg = vs.map .string ∧ ∀ x ∈ vs, x ∈ zodiacSigns := by
  have hdefault : ∃ vs : List String, [Value.string "aries"] = vs.map .string ∧
      ∀ x ∈ vs, x ∈ zodiacSigns := ⟨["aries"], rfl, by decide⟩
  unfold seedZ
  split
  · rename_i op v vs ve hfirst
    obtain ⟨t, op, htarget, -, -, hvalue, -⟩ := first_fits hcfg hfirst
    have ht : t = .zodiacSign := asStr_inj htarget.symm
    subst ht
    cases hlist : takesList op with
    | true =>
      simp only [ValueFits, ConditionTarget.kind, hlist] at hvalue
      obtain ⟨signs, hsigns, hall⟩ := hvalue
      exact ⟨signs, Value.array.inj hsigns, hall⟩
    | false =>
      simp only [ValueFits, ConditionTarget.kind, hlist] at hvalue
      obtain ⟨x, -, hx⟩ := hvalue
      cases hx
  · exact hdefault

theorem seedM_entered {cfg : Edit} (hcfg : Built cfg) : ∀ x ∈ seedM cfg, Entered x := by
  unfold seedM
  split
  · rename_i op v vs ve hfirst
    obtain ⟨t, op, htarget, -, -, hvalue, -⟩ := first_fits hcfg hfirst
    have ht : t = .birthMonth := asStr_inj htarget.symm
    subst ht
    cases hlist : takesList op with
    | true =>
      simp only [ValueFits, ConditionTarget.kind, hlist] at hvalue
      obtain ⟨items, hitems, hall⟩ := hvalue
      cases hitems
      exact hall
    | false =>
      simp only [ValueFits, ConditionTarget.kind, hlist] at hvalue
      exact absurd hvalue id
  · intro x hx
    obtain ⟨n, -, rfl⟩ := List.mem_map.mp hx
    trivial

theorem detectPreset_unset {cfg : Edit} :
    detectPreset cfg = .anyoneUnset ↔ cfg.grantOnAnyBirthday = false ∧ cfg.groups = [] := by
  unfold detectPreset
  cases cfg.grantOnAnyBirthday with
  | true => simp
  | false =>
    cases cfg.groups with
    | nil => simp
    | cons g gs =>
      simp only [Bool.false_eq_true, if_false, List.cons_ne_nil, and_false, iff_false]
      split
      · rename_i hnil
        cases hnil
      · split_ifs <;> decide
      · decide

theorem load_inv {cfg : Edit} (hcfg : Built cfg) : (load cfg).Inv := by
  unfold load
  by_cases hunset : detectPreset cfg = .anyoneUnset
  · rw [if_pos hunset]
    exact ⟨⟨fun cs hcs => absurd hcs List.not_mem_nil, Nat.zero_le _⟩, (fun h => nomatch h),
      Or.inr rfl, seedZ_signs hcfg, seedM_entered hcfg⟩
  · rw [if_neg hunset]
    exact ⟨hcfg, fun hgrant hnil => hunset (detectPreset_unset.mpr ⟨hgrant, hnil⟩), Or.inr rfl,
      seedZ_signs hcfg, seedM_entered hcfg⟩

/-! ### Events -/

/-- One condition makes a rule. -/
theorem single_built {cc : EditCondition} (h : Fits cc) : Built ⟨false, [[cc]]⟩ := by
  refine ⟨fun cs hcs => ?_, by show 1 ≤ maxGroups; decide⟩
  rw [List.mem_singleton.mp hcs]
  refine ⟨List.cons_ne_nil _ _, fun x hx => ?_⟩
  rw [List.mem_singleton.mp hx]
  exact h

theorem buildPreset_built {id : Preset} {cfg : Edit}
    (hz : ∃ vs : List String, s.z = vs.map .string ∧ ∀ x ∈ vs, x ∈ zodiacSigns)
    (hm : ∀ x ∈ s.m, Entered x) (h : s.buildPreset id = some cfg) :
    Built cfg ∧ (cfg.grantOnAnyBirthday = false → cfg.groups ≠ []) ∧ detectPreset cfg = id := by
  have hgroups : ∀ cc : EditCondition, false = false → [[cc]] ≠ [] := fun _ _ => List.cons_ne_nil _ _
  cases id with
  | anyone =>
    cases h
    exact ⟨⟨fun cs hcs => absurd hcs List.not_mem_nil, Nat.zero_le _⟩, (fun h => nomatch h), rfl⟩
  | today =>
    cases h
    exact ⟨single_built birthdayToday_fits, hgroups _, rfl⟩
  | week =>
    cases h
    exact ⟨single_built ⟨.isBirthdayWeek, .eq, rfl, rfl, rfl, ⟨true, rfl⟩, trivial⟩, hgroups _, rfl⟩
  | month =>
    cases h
    exact ⟨single_built ⟨.isBirthdayMonth, .eq, rfl, rfl, rfl, ⟨true, rfl⟩, trivial⟩, hgroups _, rfl⟩
  | zodiac =>
    cases h
    obtain ⟨vs, hvs, hall⟩ := hz
    have hvalue : ValueFits .zodiacSign .in_ (.array s.z) := ⟨vs, by rw [hvs], hall⟩
    exact ⟨single_built ⟨.zodiacSign, .in_, rfl, rfl, rfl, hvalue, trivial⟩, hgroups _, rfl⟩
  | months =>
    cases h
    exact ⟨single_built ⟨.birthMonth, .in_, rfl, rfl, rfl, ⟨_, rfl, hm⟩, trivial⟩, hgroups _, rfl⟩
  | age =>
    cases h
    exact ⟨single_built ⟨.ageYears, .gte, rfl, rfl, rfl, trivial, trivial⟩, hgroups _, rfl⟩
  | anyoneUnset | custom => cases h

/-- A preset is chosen, or its selections change. -/
theorem applyPreset_inv {id : Preset} (hbuilt : Built s.edit) (hpreset : s.preset = id)
    (hid : id ≠ .anyoneUnset)
    (hz : ∃ vs : List String, s.z = vs.map .string ∧ ∀ x ∈ vs, x ∈ zodiacSigns)
    (hm : ∀ x ∈ s.m, Entered x) : (applyPreset s id).Inv := by
  unfold applyPreset
  by_cases hcustom : id = .custom
  · rw [if_pos hcustom]
    exact ⟨withGroup_built hbuilt.groups hbuilt.atMost false, fun _ => withGroup_ne_nil _,
      Or.inl (hpreset.trans hcustom), hz, hm⟩
  · rw [if_neg hcustom]
    obtain ⟨cfg, hcfg⟩ : ∃ cfg, s.buildPreset id = some cfg := by
      cases id <;> first | exact ⟨_, rfl⟩ | exact absurd rfl hid | exact absurd rfl hcustom
    obtain ⟨hb, hgiven, hdetect⟩ := buildPreset_built hz hm hcfg
    rw [hcfg]
    exact ⟨hb, hgiven, Or.inr (hdetect.trans hpreset.symm), hz, hm⟩

/-- The groups of the advanced rule change. -/
theorem drawn_inv {groups : List (List EditCondition)} (hs : s.Inv) (hcustom : s.preset = .custom)
    (hfit : ∀ cs ∈ groups, GroupFits cs) (hmost : groups.length ≤ maxGroups) : (s.drawn groups).Inv :=
  ⟨withGroup_built hfit hmost _, fun _ => withGroup_ne_nil _, Or.inl hcustom, hs.z, hs.m⟩

theorem set_fits {groups : List (List EditCondition)} (hfit : ∀ cs ∈ groups, GroupFits cs) (g : ℕ)
    {cs : List EditCondition} (hcs : GroupFits cs) : ∀ x ∈ groups.set g cs, GroupFits x := by
  intro x hx
  rcases List.mem_or_eq_of_mem_set hx with h | rfl
  · exact hfit x h
  · exact hcs

/-- One event. -/
theorem step_inv {ev : Event} (hs : s.Inv) (h : s.step ev = some s') : s'.Inv := by
  have hfit := hs.built.groups
  have hmost := hs.built.atMost
  cases ev with
  | choose id =>
    simp only [step] at h
    split at h
    · cases h
    · rename_i hid
      cases h
      exact applyPreset_inv hs.built rfl hid hs.z hs.m
  | zodiacChips checked =>
    simp only [step] at h
    split at h
    · rename_i hpreset
      cases h
      refine applyPreset_inv hs.built hpreset (by decide)
        ⟨zodiacSigns.filter fun x => checked (.string x), ?_, fun x hx => ?_⟩ hs.m
      · rw [List.filter_map]
        rfl
      · exact (List.mem_filter.mp hx).1
    · cases h
  | monthChips checked =>
    simp only [step] at h
    split at h
    · rename_i hpreset
      cases h
      exact applyPreset_inv hs.built hpreset (by decide) hs.z
        fun x hx => months_entered (List.mem_filter.mp hx).1
    · cases h
  | typeAge n =>
    simp only [step] at h
    split at h
    · rename_i hpreset
      cases h
      exact applyPreset_inv hs.built hpreset (by decide) hs.z hs.m
    · cases h
  | removeGroup g =>
    simp only [step] at h
    split at h
    · rename_i hcond
      cases h
      refine drawn_inv hs hcond.1 (fun cs hcs => hfit cs (List.mem_of_mem_eraseIdx hcs)) ?_
      have := List.length_eraseIdx_le s.edit.groups g
      omega
    · cases h
  | addCondition g =>
    simp only [step] at h
    split at h
    · rename_i cs hcs
      split at h
      · rename_i hcustom
        cases h
        obtain ⟨hne, hall⟩ := hfit cs (List.mem_of_getElem? hcs)
        refine drawn_inv hs hcustom (set_fits hfit g ⟨by simp, fun cc hcc => ?_⟩) ?_
        · rcases List.mem_append.mp hcc with h | h
          · exact hall cc h
          · rw [List.mem_singleton.mp h]
            exact birthdayToday_fits
        · rw [List.length_set]
          exact hmost
      · cases h
    · cases h
  | addGroup =>
    simp only [step] at h
    split at h
    · rename_i hcond
      cases h
      refine drawn_inv hs hcond.1 (fun cs hcs => ?_) ?_
      · rcases List.mem_append.mp hcs with h | h
        · exact hfit cs h
        · rw [List.mem_singleton.mp h]
          refine ⟨List.cons_ne_nil _ _, fun cc hcc => ?_⟩
          rw [List.mem_singleton.mp hcc]
          exact birthdayToday_fits
      · have := hcond.2
        rw [List.length_append, List.length_singleton]
        omega
    · cases h
  | removeCondition g i =>
    simp only [step] at h
    split at h
    · rename_i cs hcs
      split at h
      · rename_i hcond
        cases h
        obtain ⟨hne, hall⟩ := hfit cs (List.mem_of_getElem? hcs)
        by_cases hrest : cs.eraseIdx i = []
        · rw [if_pos hrest]
          refine drawn_inv hs hcond.1 (fun cs hcs => hfit cs (List.mem_of_mem_eraseIdx hcs)) ?_
          have := List.length_eraseIdx_le s.edit.groups g
          omega
        · rw [if_neg hrest]
          refine drawn_inv hs hcond.1 (set_fits hfit g ⟨hrest, fun cc hcc => ?_⟩) ?_
          · exact hall cc (List.mem_of_mem_eraseIdx hcc)
          · rw [List.length_set]
            exact hmost
      · cases h
    · cases h
  | row g i e =>
    obtain ⟨cs, hcs, h⟩ := Option.bind_eq_some_iff.mp h
    obtain ⟨cc, hcc, h⟩ := Option.bind_eq_some_iff.mp h
    obtain ⟨t, ht, h⟩ := Option.bind_eq_some_iff.mp h
    obtain ⟨cc', hcc', h⟩ := Option.bind_eq_some_iff.mp h
    split at h
    · rename_i hcustom
      cases h
      obtain ⟨hne, hall⟩ := hfit cs (List.mem_of_getElem? hcs)
      obtain ⟨t', op, hshows⟩ := hall cc (List.mem_of_getElem? hcc)
      obtain ⟨t'', ht'', hd⟩ := describes_of_targetByKey ht
      have htarget : t'' = t' := asStr_inj (ht''.symm.trans hshows.target)
      subst htarget
      refine drawn_inv hs hcustom (set_fits hfit g ⟨?_, fun x hx => ?_⟩) ?_
      · exact fun hnil => hne (by simpa using hnil)
      · rcases List.mem_or_eq_of_mem_set hx with h | rfl
        · exact hall x h
        · exact react_fits hd hshows hcc'
      · rw [List.length_set]
        exact hmost
    · cases h

end Editor

end BirthdayRole
