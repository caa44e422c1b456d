/-
# Rule trees as JSON

What `serde` makes of a rule tree and reads back, as it is stored in
`role_links.rule_tree`. A tree the validator accepted survives the round trip
(`fromValue_toValue`); anything that is no tree reads as nothing, and the program
then takes the unconfigured rule (`ruleTreeOf`).
-/
import BirthdayRole.RuleMeaning

namespace BirthdayRole

open Json

def Condition.toValue (c : Condition) : Value :=
  .object ([("target", .string c.target.asStr), ("operator", .string c.operator.asStr),
    ("value", c.value)] ++ (c.valueEnd.map fun v => ("value_end", v)).toList)

def ConditionGroup.toValue (g : ConditionGroup) : Value :=
  .object [("conditions", .array (g.conditions.map Condition.toValue))]

def RuleTree.toValue (t : RuleTree) : Value :=
  .object [("grant_on_any_birthday", .bool t.grantOnAnyBirthday),
    ("groups", .array (t.groups.map ConditionGroup.toValue))]

def Condition.fromValue : Value → Option Condition
  | .object o => do
    let target ← (o.lookup "target").bind Value.asStr |>.bind ConditionTarget.fromKey
    let operator ← (o.lookup "operator").bind Value.asStr |>.bind ConditionOperator.fromKey
    let value ← o.lookup "value"
    let valueEnd := match o.lookup "value_end" with
      | some .null => none
      | v => v
    some ⟨target, operator, value, valueEnd⟩
  | _ => none

/-- A field with a default: a list that may be missing. -/
def listField {α : Type} (f : Value → Option α) : Option Value → Option (List α)
  | none => some []
  | some (.array a) => a.mapM f
  | some _ => none

def ConditionGroup.fromValue : Value → Option ConditionGroup
  | .object o => (listField Condition.fromValue (o.lookup "conditions")).map ConditionGroup.mk
  | _ => none

def RuleTree.fromValue : Value → Option RuleTree
  | .object o => do
    let grant ← match o.lookup "grant_on_any_birthday" with
      | none => some false
      | some v => v.asBool
    let groups ← listField ConditionGroup.fromValue (o.lookup "groups")
    some ⟨grant, groups⟩
  | _ => none

/-- `from_value(raw).unwrap_or_default()`. -/
def ruleTreeOf (raw : Value) : RuleTree := (RuleTree.fromValue raw).getD default

/-- The column default. -/
def unconfiguredTree : Value :=
  .object [("grant_on_any_birthday", .bool false), ("groups", .array [])]

/-! ### The round trip -/

theorem Condition.fromValue_toValue {c : Condition} (h : c.valueEnd ≠ some .null) :
    Condition.fromValue c.toValue = some c := by
  obtain ⟨target, operator, value, valueEnd⟩ := c
  cases valueEnd with
  | none =>
    simp [Condition.toValue, Condition.fromValue, List.lookup_cons, Value.asStr,
      ConditionTarget.fromKey_asStr, ConditionOperator.fromKey_asStr]
  | some v =>
    cases v with
    | null => exact absurd rfl h
    | bool | number | string | array | object =>
      simp [Condition.toValue, Condition.fromValue, List.lookup_cons, Value.asStr,
        ConditionTarget.fromKey_asStr, ConditionOperator.fromKey_asStr]

/-- Reading what was written, item by item. -/
theorem mapM_map_pure {m : Type → Type} [Monad m] [LawfulMonad m] {α β γ : Type} {f : β → m γ}
    {g : α → β} {i : α → γ} : ∀ {xs : List α}, (∀ x ∈ xs, f (g x) = pure (i x)) →
    (xs.map g).mapM f = pure (xs.map i)
  | [], _ => rfl
  | x :: xs, h => by
    have hx := h x List.mem_cons_self
    have ih := mapM_map_pure fun y hy => h y (List.mem_cons_of_mem x hy)
    rw [List.map_cons, List.mapM_cons, hx, ih, pure_bind, pure_bind]
    rfl

theorem mapM_map_some {α β : Type} {f : β → Option α} {g : α → β} {xs : List α}
    (h : ∀ x ∈ xs, f (g x) = some x) : (xs.map g).mapM f = some xs := by
  have hmap := mapM_map_pure (i := id) h
  rwa [List.map_id] at hmap

theorem Condition.WellFormed.valueEnd_ne_null {C : Crates} {c : Condition} (h : c.WellFormed C) :
    c.valueEnd ≠ some .null := by
  obtain ⟨chk, hchk⟩ := h
  generalize c.target = t at chk hchk
  subst hchk
  cases chk <;> simp [Check.condition, Value.ofI64]

theorem ConditionGroup.fromValue_toValue {g : ConditionGroup}
    (h : ∀ c ∈ g.conditions, c.valueEnd ≠ some .null) :
    ConditionGroup.fromValue g.toValue = some g := by
  have hcs := mapM_map_some fun c hc => Condition.fromValue_toValue (h c hc)
  simp only [ConditionGroup.toValue, ConditionGroup.fromValue, List.lookup_cons, beq_self_eq_true,
    listField, hcs, Option.map_some]

theorem RuleTree.fromValue_toValue {t : RuleTree}
    (h : ∀ g ∈ t.groups, ∀ c ∈ g.conditions, c.valueEnd ≠ some .null) :
    RuleTree.fromValue t.toValue = some t := by
  have hgs := mapM_map_some fun g hg => ConditionGroup.fromValue_toValue (h g hg)
  have hk : ("groups" == "grant_on_any_birthday") = false := by decide
  simp [RuleTree.toValue, RuleTree.fromValue, List.lookup_cons, hk, Value.asBool, listField, hgs]

theorem RuleTree.WellFormed.valueEnd_ne_null {C : Crates} {t : RuleTree} (h : t.WellFormed C) :
    ∀ g ∈ t.groups, ∀ c ∈ g.conditions, c.valueEnd ≠ some .null := by
  rcases h with ⟨-, hnil⟩ | ⟨-, -, hgs⟩
  · rw [hnil]
    exact fun g hg => absurd hg List.not_mem_nil
  · exact fun g hg c hc => ((hgs g hg).2 c hc).valueEnd_ne_null

/-- A stored tree is read as what it is. -/
theorem ruleTreeOf_toValue {C : Crates} {t : RuleTree} (h : t.WellFormed C) :
    ruleTreeOf t.toValue = t := by
  rw [ruleTreeOf, RuleTree.fromValue_toValue h.valueEnd_ne_null]
  rfl

theorem ruleTreeOf_unconfigured : ruleTreeOf unconfiguredTree = default := rfl

end BirthdayRole
