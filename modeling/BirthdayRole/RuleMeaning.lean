/-
# What a validated condition says

The abstract side of a rule. A `Check` is a condition on one target with
everything the validator promises as part of it: the operator fits the target,
a list is not empty, a text is one the target can hold, a pattern compiles. It
says something of a fact (`Check.Holds`) by plain equality, order and
membership. A number nobody knows satisfies no check, a text nobody knows
satisfies `neq` only.

The validator lets nothing else through (`parseRuleTree_wellFormed`), and the
Rust evaluator decides exactly what a check says (`evaluateSingle_iff`). A tree
grants when one of its groups, which are never empty, holds throughout
(`evaluate_iff`).
-/
import BirthdayRole.ConditionEval
import BirthdayRole.Lib.Result
import BirthdayRole.RuleValidator

namespace BirthdayRole

open Json Text

/-- The six comparisons of numbers. -/
inductive CompareOp where
  | eq | neq | gt | gte | lt | lte
  deriving DecidableEq

namespace CompareOp

def operator : CompareOp → ConditionOperator
  | eq => .eq
  | neq => .neq
  | gt => .gt
  | gte => .gte
  | lt => .lt
  | lte => .lte

def Holds : CompareOp → ℤ → ℤ → Prop
  | eq, a, b => a = b
  | neq, a, b => a ≠ b
  | gt, a, b => a > b
  | gte, a, b => a ≥ b
  | lt, a, b => a < b
  | lte, a, b => a ≤ b

end CompareOp

/-- What a target is on a member's facts. -/
inductive Fact where
  | bool (b : Bool)
  | int (n : Option ℤ)
  | text (s : Option String)

/-- A condition as the validator leaves it, on a target. -/
inductive Check (C : Crates) (t : ConditionTarget) where
  | is (hk : t.kind = .bool) (b : Bool)
  | compare (hk : t.kind = .int) (op : CompareOp) (n : I64)
  | between (hk : t.kind = .int) (lo hi : I64)
  | among (hk : t.kind = .int) (ns : List I64) (hne : ns ≠ [])
  | notAmong (hk : t.kind = .int) (ns : List I64) (hne : ns ≠ [])
  | equals (hk : t.kind = .string) (s : String) (hs : s ∈ (stringChoices t).1)
  | differs (hk : t.kind = .string) (s : String) (hs : s ∈ (stringChoices t).1)
  | contains (hk : t.kind = .string) (s : String)
  | regex (hk : t.kind = .string) (p : String) (isMatch : String → Bool)
      (hp : C.regex p = some isMatch)
  | oneOf (hk : t.kind = .string) (vs : List String) (hne : vs ≠ [])
      (hvs : ∀ v ∈ vs, v ∈ (stringChoices t).1)
  | noneOf (hk : t.kind = .string) (vs : List String) (hne : vs ≠ [])
      (hvs : ∀ v ∈ vs, v ∈ (stringChoices t).1)

namespace Check

variable {C : Crates} {t : ConditionTarget}

/-- The condition that is stored. -/
def condition : Check C t → Condition
  | is _ b => ⟨t, .eq, .bool b, none⟩
  | compare _ op n => ⟨t, op.operator, .ofI64 n, none⟩
  | between _ lo hi => ⟨t, .between, .ofI64 lo, some (.ofI64 hi)⟩
  | among _ ns _ => ⟨t, .in_, .array (ns.map .ofI64), none⟩
  | notAmong _ ns _ => ⟨t, .notIn, .array (ns.map .ofI64), none⟩
  | equals _ s _ => ⟨t, .eq, .string s, none⟩
  | differs _ s _ => ⟨t, .neq, .string s, none⟩
  | contains _ s => ⟨t, .contains, .string s, none⟩
  | regex _ p _ _ => ⟨t, .regex, .string p, none⟩
  | oneOf _ vs _ _ => ⟨t, .in_, .array (vs.map .string), none⟩
  | noneOf _ vs _ _ => ⟨t, .notIn, .array (vs.map .string), none⟩

/-- What the check says of a fact. -/
def Holds : Check C t → Fact → Prop
  | is _ b, .bool a => a = b
  | compare _ op n, .int (some a) => op.Holds a n
  | between _ lo hi, .int (some a) => (lo : ℤ) ≤ a ∧ a ≤ hi
  | among _ ns _, .int (some a) => ∃ n ∈ ns, (n : ℤ) = a
  | notAmong _ ns _, .int (some a) => ∀ n ∈ ns, (n : ℤ) ≠ a
  | equals _ s _, .text (some a) => a = s
  | differs _ s _, .text a => a ≠ some s
  | contains _ s, .text (some a) => s.toList <:+: a.toList
  | regex _ _ isMatch _, .text (some a) => isMatch a = true
  | oneOf _ vs _ _, .text (some a) => a ∈ vs
  | noneOf _ vs _ _, .text (some a) => a ∉ vs
  | _, _ => False

end Check

variable (C : Crates)

def Condition.WellFormed (c : Condition) : Prop := ∃ chk : Check C c.target, c = chk.condition

/-- What every stored tree is: it grants to everyone, or has groups, and none is empty. -/
def RuleTree.WellFormed (tree : RuleTree) : Prop :=
  (tree.grantOnAnyBirthday = true ∧ tree.groups = []) ∨
    (tree.grantOnAnyBirthday = false ∧ tree.groups ≠ [] ∧
      ∀ g ∈ tree.groups, g.conditions ≠ [] ∧ ∀ c ∈ g.conditions, c.WellFormed C)

variable {C}

/-! ### What the validator lets through -/

theorem mem_dedupe (v : String) (vs : List String) : v ∈ dedupe vs ↔ v ∈ vs := by
  have key : ∀ (vs out : List String), v ∈ vs.foldl
      (fun out v => if v ∈ out then out else out ++ [v]) out ↔ v ∈ out ∨ v ∈ vs := by
    intro vs
    induction vs with
    | nil => intro out; simp
    | cons w vs ih =>
      intro out
      rw [List.foldl_cons, ih]
      by_cases hw : w ∈ out
      · rw [if_pos hw, List.mem_cons]
        constructor
        · rintro (h | h)
          · exact Or.inl h
          · exact Or.inr (Or.inr h)
        · rintro (h | rfl | h)
          · exact Or.inl h
          · exact Or.inl hw
          · exact Or.inr h
      · rw [if_neg hw]
        simp only [List.mem_append, List.mem_cons, List.not_mem_nil, or_false, or_assoc]
  simpa [dedupe] using key vs []

theorem dedupe_nodup (vs : List String) : (dedupe vs).Nodup := by
  have key : ∀ (vs out : List String), out.Nodup →
      (vs.foldl (fun out v => if v ∈ out then out else out ++ [v]) out).Nodup := by
    intro vs
    induction vs with
    | nil => exact fun out h => h
    | cons v vs ih =>
      intro out hout
      rw [List.foldl_cons]
      apply ih
      by_cases hv : v ∈ out
      · rwa [if_pos hv]
      · rw [if_neg hv]
        refine List.nodup_append.mpr ⟨hout, List.pairwise_singleton _ v, fun a ha b hb he => hv ?_⟩
        rwa [← List.mem_singleton.mp hb, ← he]
  exact key vs [] List.nodup_nil

theorem stringChoices_ne_nil {t : ConditionTarget} (h : t.kind = .string) :
    (stringChoices t).1 ≠ [] := by
  cases t <;> simp [ConditionTarget.kind] at h <;> exact List.cons_ne_nil _ _

variable {where_ : String} {t : ConditionTarget} {op : ConditionOperator} {raw value : Value}

theorem enumValue_mem {s v : String} (hk : t.kind = .string)
    (h : enumValue C where_ t s = .ok v) : v ∈ (stringChoices t).1 := by
  obtain ⟨hc, hv⟩ := Result.require_ok h
  cases hv
  exact hc.resolve_left (stringChoices_ne_nil hk)

theorem boolValue_shape (h : boolValue where_ raw = .ok value) : ∃ b, value = .bool b := by
  unfold boolValue at h
  cases raw with
  | bool b => cases h; exact ⟨b, rfl⟩
  | string s =>
    simp only at h
    split at h
    · cases h; exact ⟨true, rfl⟩
    · obtain ⟨-, hv⟩ := Result.require_ok h
      cases hv
      exact ⟨false, rfl⟩
  | null | number | array | object => cases h

theorem intListValue_shape (h : intListValue where_ t raw = .ok value) :
    ∃ ns : List I64, ns ≠ [] ∧ value = .array (ns.map .ofI64) := by
  obtain ⟨ns, -, h⟩ := Result.bind_ok h
  obtain ⟨hne, hv⟩ := Result.guard_ok h
  cases hv
  exact ⟨ns, hne, rfl⟩

theorem intValue_shape (h : intValue where_ raw = .ok value) : ∃ n, value = .ofI64 n := by
  obtain ⟨-, h⟩ := Result.guard_ok h
  split at h
  · rename_i n _
    cases h
    exact ⟨n, rfl⟩
  · cases h

theorem strListValue_shape (hk : t.kind = .string) (h : strListValue C where_ t raw = .ok value) :
    ∃ vs : List String, vs ≠ [] ∧ vs.Nodup ∧ (∀ v ∈ vs, v ∈ (stringChoices t).1) ∧
      value = .array (vs.map .string) := by
  obtain ⟨hne, h⟩ := Result.guard_ok h
  obtain ⟨vs, hm, h⟩ := Result.bind_ok h
  cases h
  obtain ⟨hlen, hmem⟩ := Result.mapM_ok hm
  refine ⟨dedupe vs, fun hd => hne ?_, dedupe_nodup vs, fun v hv => ?_, rfl⟩
  · have hvs : vs = [] := List.eq_nil_iff_forall_not_mem.mpr fun v hv => by
      rw [← mem_dedupe, hd] at hv
      exact absurd hv List.not_mem_nil
    rw [List.isEmpty_iff, ← List.length_eq_zero_iff, ← hlen, hvs, List.length_nil]
  · obtain ⟨it, -, hit⟩ := hmem v ((mem_dedupe v vs).mp hv)
    unfold strItem at hit
    split at hit
    · cases hit
    · exact enumValue_mem hk hit

/-- A text that stands alone is free for `contains` and `regex`, a choice otherwise. -/
theorem strValue_shape (hk : t.kind = .string) (h : strValue C where_ t op raw = .ok value) :
    ∃ s, value = .string s ∧ (op ≠ .contains → op ≠ .regex → s ∈ (stringChoices t).1) := by
  obtain ⟨-, h⟩ := Result.guard_ok h
  split at h
  · cases h; exact ⟨_, rfl, fun _ h => absurd rfl h⟩
  · cases h; exact ⟨_, rfl, fun h => absurd rfl h⟩
  · obtain ⟨s, hs, rfl⟩ := Result.map_ok h
    exact ⟨s, rfl, fun _ _ => enumValue_mem hk hs⟩

theorem normalizeEnd_none {rawEnd valueEnd : Option Value} (hop : op ≠ .between)
    (h : normalizeEnd C where_ t op rawEnd = .ok valueEnd) : valueEnd = none := by
  unfold normalizeEnd at h
  split at h
  · exact absurd rfl hop
  · exact absurd rfl hop
  · cases h; rfl

theorem normalizeEnd_between {rawEnd valueEnd : Option Value} (hk : t.kind = .int)
    (h : normalizeEnd C where_ t .between rawEnd = .ok valueEnd) :
    ∃ n, valueEnd = some (.ofI64 n) := by
  cases rawEnd with
  | none => cases h
  | some e =>
    obtain ⟨v, hv, rfl⟩ := Result.map_ok h
    simp only [normalizeValue, hk] at hv
    obtain ⟨n, rfl⟩ := intValue_shape hv
    exact ⟨n, rfl⟩

/-- An accepted condition is a check: a case for each kind of target and operator. -/
theorem shape_of_normalized {rawEnd valueEnd : Option Value} (hop : op.validFor t.kind = true)
    (hv : normalizeValue C where_ t op raw = .ok value)
    (he : normalizeEnd C where_ t op rawEnd = .ok valueEnd)
    (hp : checkPattern C where_ op value = .ok ()) :
    ∃ chk : Check C t, (⟨t, op, value, valueEnd⟩ : Condition) = chk.condition := by
  cases hk : t.kind with
  | bool =>
    simp only [normalizeValue, hk] at hv
    obtain ⟨b, rfl⟩ := boolValue_shape hv
    have : op = .eq := by rw [hk] at hop; revert hop; cases op <;> decide
    subst this
    rw [normalizeEnd_none (by decide) he]
    exact ⟨.is hk b, rfl⟩
  | int =>
    have hcmp : ∀ cop : CompareOp, op = cop.operator →
        ∃ chk : Check C t, (⟨t, op, value, valueEnd⟩ : Condition) = chk.condition := by
      rintro cop rfl
      have hv' : intValue where_ raw = .ok value := by
        cases cop <;> simpa only [normalizeValue, CompareOp.operator, hk] using hv
      obtain ⟨n, rfl⟩ := intValue_shape hv'
      rw [normalizeEnd_none (by cases cop <;> decide) he]
      exact ⟨.compare hk cop n, rfl⟩
    cases op with
    | eq => exact hcmp .eq rfl
    | neq => exact hcmp .neq rfl
    | gt => exact hcmp .gt rfl
    | gte => exact hcmp .gte rfl
    | lt => exact hcmp .lt rfl
    | lte => exact hcmp .lte rfl
    | between =>
      simp only [normalizeValue, hk] at hv
      obtain ⟨lo, rfl⟩ := intValue_shape hv
      obtain ⟨hi, rfl⟩ := normalizeEnd_between hk he
      exact ⟨.between hk lo hi, rfl⟩
    | contains | regex => rw [hk] at hop; exact absurd hop (by decide)
    | in_ =>
      simp only [normalizeValue, hk] at hv
      obtain ⟨ns, hne, rfl⟩ := intListValue_shape hv
      rw [normalizeEnd_none (by decide) he]
      exact ⟨.among hk ns hne, rfl⟩
    | notIn =>
      simp only [normalizeValue, hk] at hv
      obtain ⟨ns, hne, rfl⟩ := intListValue_shape hv
      rw [normalizeEnd_none (by decide) he]
      exact ⟨.notAmong hk ns hne, rfl⟩
  | string =>
    cases op with
    | gt | gte | lt | lte | between => rw [hk] at hop; exact absurd hop (by decide)
    | eq =>
      simp only [normalizeValue, hk] at hv
      obtain ⟨s, rfl, hs⟩ := strValue_shape hk hv
      rw [normalizeEnd_none (by decide) he]
      exact ⟨.equals hk s (hs (by decide) (by decide)), rfl⟩
    | neq =>
      simp only [normalizeValue, hk] at hv
      obtain ⟨s, rfl, hs⟩ := strValue_shape hk hv
      rw [normalizeEnd_none (by decide) he]
      exact ⟨.differs hk s (hs (by decide) (by decide)), rfl⟩
    | contains =>
      simp only [normalizeValue, hk] at hv
      obtain ⟨s, rfl, -⟩ := strValue_shape hk hv
      rw [normalizeEnd_none (by decide) he]
      exact ⟨.contains hk s, rfl⟩
    | regex =>
      simp only [normalizeValue, hk] at hv
      obtain ⟨p, rfl, -⟩ := strValue_shape hk hv
      rw [normalizeEnd_none (by decide) he]
      cases hr : C.regex p with
      | none =>
        simp only [checkPattern, Value.asStr, Option.getD_some, hr, Option.isNone_none, and_self,
          if_true] at hp
        cases hp
      | some isMatch => exact ⟨.regex hk p isMatch hr, rfl⟩
    | in_ =>
      simp only [normalizeValue, hk] at hv
      obtain ⟨vs, hne, -, hvs, rfl⟩ := strListValue_shape hk hv
      rw [normalizeEnd_none (by decide) he]
      exact ⟨.oneOf hk vs hne hvs, rfl⟩
    | notIn =>
      simp only [normalizeValue, hk] at hv
      obtain ⟨vs, hne, -, hvs, rfl⟩ := strListValue_shape hk hv
      rw [normalizeEnd_none (by decide) he]
      exact ⟨.noneOf hk vs hne hvs, rfl⟩

/-- What an accepted condition was made of. -/
theorem validateCondition_inv {g n : ℕ} {input : ConditionInput} {c : Condition}
    (h : validateCondition C g n input = .ok c) : ∃ where_ : String,
    ConditionTarget.fromKey (trim input.target) = some c.target ∧
    ConditionOperator.fromKey (trim input.operator) = some c.operator ∧
    c.operator.validFor c.target.kind = true ∧
    normalizeValue C where_ c.target c.operator input.value = .ok c.value ∧
    normalizeEnd C where_ c.target c.operator input.valueEnd = .ok c.valueEnd ∧
    checkPattern C where_ c.operator c.value = .ok () := by
  unfold validateCondition at h
  simp only at h
  cases ht : ConditionTarget.fromKey (trim input.target) with
  | none => simp only [ht] at h; cases h
  | some t =>
    cases ho : ConditionOperator.fromKey (trim input.operator) with
    | none => simp only [ht, ho] at h; cases h
    | some op =>
      simp only [ht, ho] at h
      obtain ⟨hop, h⟩ := Result.guard_ok h
      obtain ⟨value, hv, h⟩ := Result.bind_ok h
      obtain ⟨valueEnd, he, h⟩ := Result.bind_ok h
      obtain ⟨_, hp, h⟩ := Result.bind_ok h
      cases h
      exact ⟨_, rfl, rfl, by simpa using hop, hv, he, hp⟩

theorem validateCondition_wellFormed {g n : ℕ} {input : ConditionInput} {c : Condition}
    (h : validateCondition C g n input = .ok c) : c.WellFormed C := by
  obtain ⟨where_, -, -, hop, hv, he, hp⟩ := validateCondition_inv h
  exact shape_of_normalized hop hv he hp

theorem validateConditions_wellFormed {g : ℕ} : ∀ {n : ℕ} {raws : List ConditionInput}
    {cs : List Condition}, validateConditions C g n raws = .ok cs →
    cs.length = raws.length ∧ ∀ c ∈ cs, c.WellFormed C
  | _, [], cs, h => by
    cases h
    exact ⟨rfl, fun c hc => absurd hc List.not_mem_nil⟩
  | n, raw :: rest, cs, h => by
    obtain ⟨c, hc, h⟩ := Result.bind_ok h
    obtain ⟨cs', hr, h⟩ := Result.bind_ok h
    cases h
    obtain ⟨hlen, hcs⟩ := validateConditions_wellFormed hr
    refine ⟨by simp [hlen], fun c' hc' => ?_⟩
    rcases List.mem_cons.mp hc' with rfl | hc'
    · exact validateCondition_wellFormed hc
    · exact hcs c' hc'

theorem validateGroup_wellFormed {n : ℕ} {raw : ConditionGroupInput} {g : ConditionGroup}
    (h : validateGroup C n raw = .ok g) :
    g.conditions ≠ [] ∧ ∀ c ∈ g.conditions, c.WellFormed C := by
  obtain ⟨hne, h⟩ := Result.guard_ok h
  obtain ⟨-, h⟩ := Result.guard_ok h
  obtain ⟨cs, hc, rfl⟩ := Result.map_ok h
  obtain ⟨hlen, hcs⟩ := validateConditions_wellFormed hc
  refine ⟨fun h0 => hne ?_, hcs⟩
  rw [List.isEmpty_iff, ← List.length_eq_zero_iff, ← hlen, List.length_eq_zero_iff]
  exact h0

theorem validateGroups_wellFormed : ∀ {n : ℕ} {raws : List ConditionGroupInput}
    {gs : List ConditionGroup}, validateGroups C n raws = .ok gs →
    gs.length = raws.length ∧
      ∀ g ∈ gs, g.conditions ≠ [] ∧ ∀ c ∈ g.conditions, c.WellFormed C
  | _, [], gs, h => by
    cases h
    exact ⟨rfl, fun g hg => absurd hg List.not_mem_nil⟩
  | n, raw :: rest, gs, h => by
    obtain ⟨g, hg, h⟩ := Result.bind_ok h
    obtain ⟨gs', hr, h⟩ := Result.bind_ok h
    cases h
    obtain ⟨hlen, hgs⟩ := validateGroups_wellFormed hr
    refine ⟨by simp [hlen], fun g' hg' => ?_⟩
    rcases List.mem_cons.mp hg' with rfl | hg'
    · exact validateGroup_wellFormed hg
    · exact hgs g' hg'

/-- Whatever the validator accepts is well formed. -/
theorem parseRuleTree_wellFormed {body : RuleTreeBody} {tree : RuleTree}
    (h : parseRuleTree C body = .ok tree) : tree.WellFormed C := by
  unfold parseRuleTree at h
  split at h
  · cases h
    exact Or.inl ⟨rfl, rfl⟩
  obtain ⟨hne, h⟩ := Result.guard_ok h
  obtain ⟨-, h⟩ := Result.guard_ok h
  obtain ⟨gs, hg, rfl⟩ := Result.map_ok h
  obtain ⟨hlen, hgs⟩ := validateGroups_wellFormed hg
  refine Or.inr ⟨rfl, fun h0 => hne ?_, hgs⟩
  rw [List.isEmpty_iff, ← List.length_eq_zero_iff, ← hlen, List.length_eq_zero_iff]
  exact h0

/-! ### What the evaluator decides -/

/-- The fact a target is about. -/
def Facts.fact (f : Facts) : ConditionTarget → Fact
  | .hasBirthdaySet => .bool f.hasBirthday
  | .hasBirthYear => .bool f.hasYear
  | .isBirthdayToday => .bool f.isToday
  | .isBirthdayWeek => .bool f.isThisWeek
  | .isBirthdayMonth => .bool f.isThisMonth
  | .daysUntilBirthday => .int (some f.daysUntil)
  | .ageYears => .int f.ageYears
  | .ageTurningThisYear => .int f.ageTurning
  | .birthMonth => .int (some f.birthMonth)
  | .birthDay => .int (some f.birthDay)
  | .birthYear => .int f.birthYear
  | .zodiacSign => .text (some f.zodiac)
  | .chineseZodiac => .text f.chineseZodiac
  | .birthSeason => .text (some f.season)
  | .birthstone => .text (some f.birthstone)
  | .birthWeekday => .text f.weekday

/-- `evaluate_single` by the kind of the fact. -/
def matchFact (C : Crates) (c : Condition) : Fact → Bool
  | .bool b => boolMatch c b
  | .int n => intMatch c n
  | .text s => stringMatch C c s

theorem evaluateSingle_eq (c : Condition) (f : Facts) :
    evaluateSingle C c f = matchFact C c (f.fact c.target) := by
  unfold evaluateSingle Facts.fact
  cases c.target <;> rfl

/-- A fact of the kind of a target. -/
def Fact.HasKind : Fact → TargetKind → Prop
  | .bool _, k => k = .bool
  | .int _, k => k = .int
  | .text _, k => k = .string

theorem Facts.fact_kind (f : Facts) (t : ConditionTarget) : (f.fact t).HasKind t.kind := by
  cases t <;> rfl

@[simp] theorem intList_ofI64 (ns : List I64) :
    intList (.array (ns.map .ofI64)) = ns.map Subtype.val := by
  simp [intList, Value.asArray, List.filterMap_map]

theorem strListContains_string (vs : List String) (a : String) :
    strListContains (.array (vs.map .string)) a = decide (a ∈ vs) := by
  have hstr : (vs.map Value.string).filterMap Value.asStr = vs := by
    simp [Function.comp_def, Value.asStr]
  rw [strListContains, Value.asArray, Option.map_some, Option.getD_some, hstr, Bool.eq_iff_iff]
  simp

theorem mem_map_val {ns : List I64} {a : ℤ} : a ∈ ns.map Subtype.val ↔ ∃ n ∈ ns, (n : ℤ) = a := by
  simp only [List.mem_map]

/-- On a fact of its kind, a check is matched when it holds. -/
theorem matchFact_iff {t : ConditionTarget} (chk : Check C t) {x : Fact} (hx : x.HasKind t.kind) :
    matchFact C chk.condition x = true ↔ chk.Holds x := by
  cases chk with
  | is hk b =>
    cases x with
    | bool a =>
      simp only [matchFact, Check.condition, boolMatch, Check.Holds, Value.asBool, ne_eq,
        not_true_eq_false, if_false, Option.map_some, Option.getD_some, beq_iff_eq]
      exact eq_comm
    | int | text => rw [hk] at hx; cases hx
  | compare hk op n =>
    cases x with
    | int a =>
      cases a with
      | none => simp [matchFact, intMatch, Check.Holds]
      | some a => cases op <;> simp [matchFact, intMatch, Check.condition, Check.Holds,
          CompareOp.operator, CompareOp.Holds]
    | bool | text => rw [hk] at hx; cases hx
  | between hk lo hi =>
    cases x with
    | int a => cases a <;> simp [matchFact, intMatch, Check.condition, Check.Holds]
    | bool | text => rw [hk] at hx; cases hx
  | among hk ns hne =>
    cases x with
    | int a =>
      cases a with
      | none => simp [matchFact, intMatch, Check.Holds]
      | some a =>
        simp only [matchFact, intMatch, Check.condition, Check.Holds, intList_ofI64,
          List.contains_iff_mem, mem_map_val]
    | bool | text => rw [hk] at hx; cases hx
  | notAmong hk ns hne =>
    cases x with
    | int a =>
      cases a with
      | none => simp [matchFact, intMatch, Check.Holds]
      | some a =>
        simp only [matchFact, intMatch, Check.condition, Check.Holds, intList_ofI64,
          Bool.not_eq_true', ← Bool.not_eq_true, List.contains_iff_mem, mem_map_val]
        push Not
        exact Iff.rfl
    | bool | text => rw [hk] at hx; cases hx
  | equals hk s hs =>
    cases x with
    | text a =>
      cases a <;> simp [matchFact, stringMatch, Check.condition, Check.Holds, Value.asStr]
    | bool | int => rw [hk] at hx; cases hx
  | differs hk s hs =>
    cases x with
    | text a =>
      cases a <;> simp [matchFact, stringMatch, Check.condition, Check.Holds, Value.asStr]
    | bool | int => rw [hk] at hx; cases hx
  | contains hk s =>
    cases x with
    | text a =>
      cases a <;> simp [matchFact, stringMatch, Check.condition, Check.Holds, Value.asStr,
        Text.contains]
    | bool | int => rw [hk] at hx; cases hx
  | regex hk p isMatch hp =>
    cases x with
    | text a =>
      cases a <;> simp [matchFact, stringMatch, Check.condition, Check.Holds, Value.asStr, hp]
    | bool | int => rw [hk] at hx; cases hx
  | oneOf hk vs hne hvs =>
    cases x with
    | text a =>
      cases a <;> simp [matchFact, stringMatch, Check.condition, Check.Holds,
        strListContains_string]
    | bool | int => rw [hk] at hx; cases hx
  | noneOf hk vs hne hvs =>
    cases x with
    | text a =>
      cases a <;> simp [matchFact, stringMatch, Check.condition, Check.Holds,
        strListContains_string]
    | bool | int => rw [hk] at hx; cases hx

@[simp] theorem Check.condition_target {t : ConditionTarget} (chk : Check C t) :
    chk.condition.target = t := by cases chk <;> rfl

theorem evaluateSingle_iff {t : ConditionTarget} (chk : Check C t) (f : Facts) :
    evaluateSingle C chk.condition f = true ↔ chk.Holds (f.fact t) := by
  rw [evaluateSingle_eq, chk.condition_target]
  exact matchFact_iff chk (f.fact_kind t)

theorem evaluate_iff (tree : RuleTree) (f : Facts) :
    evaluate C tree f = true ↔ tree.grantOnAnyBirthday = true ∨
      ∃ g ∈ tree.groups, g.conditions ≠ [] ∧
        ∀ c ∈ g.conditions, evaluateSingle C c f = true := by
  unfold evaluate
  by_cases hg : tree.grantOnAnyBirthday = true
  · simp [hg]
  · by_cases he : tree.groups.isEmpty = true
    · rw [if_neg hg, if_pos he]
      rw [List.isEmpty_iff] at he
      simp [hg, he]
    · rw [if_neg hg, if_neg he]
      simp [hg, List.any_eq_true]

end BirthdayRole
