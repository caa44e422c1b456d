/-
# A stored rule comes back

A rule that was accepted is stored as JSON and read back in two ways: by `serde`, where
it is evaluated or shown, and, sent back by the editor it was shown to, by the
validator once more. Either way it is the same rule (`parseRuleTree_roundTrip`). What
the validator stores is its own normal form: each of the functions that make a value
makes the same one of it again (`normalizeValue_normal`).

Of `to_lowercase` the round trip needs what `Crates.Lowers` says.
-/
import BirthdayRole.RuleJson

namespace BirthdayRole

open Json Text

/-- What `str::to_lowercase` does: nothing the second time, nothing to white space, it
loses no text, and on ASCII it is the ASCII one. -/
structure Crates.Lowers (C : Crates) : Prop where
  idem : ∀ s, C.toLowercase (C.toLowercase s) = C.toLowercase s
  trim : ∀ s, Text.trim (C.toLowercase s) = C.toLowercase (Text.trim s)
  ne_empty : ∀ s, s ≠ "" → C.toLowercase s ≠ ""
  ascii : ∀ s, (s.toList.all fun c => c.toNat < 128) = true → C.toLowercase s = toAsciiLowercase s

theorem lowers_ascii : Crates.ascii.Lowers where
  idem := toAsciiLowercase_idem
  trim := trim_toAsciiLowercase
  ne_empty _ := toAsciiLowercase_ne_empty
  ascii _ _ := rfl

/-! ### What an editor is sent, and sends -/

/-- The `config` of `role_config_data`. -/
def configValue (tree : RuleTree) : Value :=
  .object [("grant_on_any_birthday", .bool tree.grantOnAnyBirthday),
    ("groups", .array (tree.groups.map ConditionGroup.toValue))]

def ConditionInput.fromValue : Value → Option ConditionInput
  | .object o => do
    let target ← (o.lookup "target").bind Value.asStr
    let operator ← (o.lookup "operator").bind Value.asStr
    let value := (o.lookup "value").getD .null
    let valueEnd := match o.lookup "value_end" with
      | some .null => none
      | v => v
    some ⟨target, operator, value, valueEnd⟩
  | _ => none

def ConditionGroupInput.fromValue : Value → Option ConditionGroupInput
  | .object o => (listField ConditionInput.fromValue (o.lookup "conditions")).map ConditionGroupInput.mk
  | _ => none

def RuleTreeBody.fromValue : Value → Option RuleTreeBody
  | .object o => do
    let grant ← match o.lookup "grant_on_any_birthday" with
      | none => some false
      | some v => v.asBool
    let groups ← listField ConditionGroupInput.fromValue (o.lookup "groups")
    some ⟨grant, groups⟩
  | _ => none

/-- A stored condition as the editor sends it. -/
def Condition.input (c : Condition) : ConditionInput :=
  ⟨c.target.asStr, c.operator.asStr, c.value, c.valueEnd⟩

def ConditionGroup.input (g : ConditionGroup) : ConditionGroupInput :=
  ⟨g.conditions.map Condition.input⟩

def RuleTree.body (t : RuleTree) : RuleTreeBody := ⟨t.grantOnAnyBirthday, t.groups.map ConditionGroup.input⟩

theorem ConditionInput.fromValue_toValue {c : Condition} (h : c.valueEnd ≠ some .null) :
    ConditionInput.fromValue c.toValue = some c.input := by
  obtain ⟨target, operator, value, valueEnd⟩ := c
  cases valueEnd with
  | none =>
    simp [Condition.toValue, ConditionInput.fromValue, Condition.input, List.lookup_cons, Value.asStr]
  | some v =>
    cases v with
    | null => exact absurd rfl h
    | bool | number | string | array | object =>
      simp [Condition.toValue, ConditionInput.fromValue, Condition.input, List.lookup_cons, Value.asStr]

theorem ConditionGroupInput.fromValue_toValue {g : ConditionGroup}
    (h : ∀ c ∈ g.conditions, c.valueEnd ≠ some .null) :
    ConditionGroupInput.fromValue g.toValue = some g.input := by
  have hcs := mapM_map_pure fun c hc => ConditionInput.fromValue_toValue (h c hc)
  simp only [ConditionGroup.toValue, ConditionGroupInput.fromValue, List.lookup_cons,
    beq_self_eq_true, listField, hcs]
  rfl

theorem RuleTreeBody.fromValue_configValue {t : RuleTree}
    (h : ∀ g ∈ t.groups, ∀ c ∈ g.conditions, c.valueEnd ≠ some .null) :
    RuleTreeBody.fromValue (configValue t) = some t.body := by
  have hgs := mapM_map_pure fun g hg => ConditionGroupInput.fromValue_toValue (h g hg)
  have hk : ("groups" == "grant_on_any_birthday") = false := by decide
  simp [configValue, RuleTreeBody.fromValue, RuleTree.body, List.lookup_cons, hk, Value.asBool,
    listField, hgs]

/-! ### The normal form -/

theorem dedupe_of_nodup {vs : List String} (h : vs.Nodup) : dedupe vs = vs := by
  have key : ∀ (vs out : List String), (out ++ vs).Nodup →
      vs.foldl (fun out v => if v ∈ out then out else out ++ [v]) out = out ++ vs := by
    intro vs
    induction vs with
    | nil => exact fun out _ => (List.append_nil out).symm
    | cons v vs ih =>
      intro out hout
      have hv : v ∉ out := fun hv =>
        (List.nodup_append.mp hout).2.2 v hv v List.mem_cons_self rfl
      have hrest : (out ++ [v] ++ vs).Nodup := by rwa [List.append_assoc]
      rw [List.foldl_cons, if_neg hv, ih _ hrest, List.append_assoc, List.singleton_append]
  exact key vs [] h

/-- A choice is written as it is compared. -/
theorem choice_plain (t : ConditionTarget) : ∀ v ∈ (stringChoices t).1, trim v = v ∧
    toAsciiLowercase v = v ∧ (v.toList.all fun c => c.toNat < 128) = true ∧ v ≠ "fall" ∧ v ≠ "" := by
  cases t <;> decide

section

variable {C : Crates} {where_ : String} {t : ConditionTarget} {op : ConditionOperator} {raw v : Value}

theorem enumValue_choice (hC : C.Lowers) {s : String} (hs : s ∈ (stringChoices t).1) :
    enumValue C where_ t s = .ok s := by
  obtain ⟨htrim, hlower, hascii, hfall, -⟩ := choice_plain t s hs
  unfold enumValue
  simp only [htrim, hC.ascii s hascii, hlower, hfall, and_false, if_false]
  rw [if_pos (Or.inr hs)]

theorem intValue_normal (h : intValue where_ raw = .ok v) (w : String) : intValue w v = .ok v := by
  obtain ⟨n, rfl⟩ := intValue_shape h
  have hn : wholeNumber (Value.ofI64 n) = some n := by
    show (I64.ofInt? n).or _ = some n
    rw [I64.ofInt?_val]
    rfl
  unfold intValue
  rw [hn]
  rfl

theorem intListValue_normal (h : intListValue where_ t raw = .ok v) (w : String) :
    intListValue w t v = .ok v := by
  obtain ⟨ns, hne, rfl⟩ := intListValue_shape h
  have hitem : ∀ n ∈ ns, intItem w (.ofI64 n) = .ok n := fun n _ => by
    unfold intItem Value.ofI64 Number.asI64
    simp only [I64.ofInt?_val]
  have hmap : (ns.map Value.ofI64).mapM (intItem w) = .ok (ns.map id) := mapM_map_pure hitem
  show ((ns.map Value.ofI64).mapM (intItem w) >>= fun out => _) = _
  rw [hmap, List.map_id]
  exact if_neg hne

theorem boolValue_normal (h : boolValue where_ raw = .ok v) (w : String) : boolValue w v = .ok v := by
  obtain ⟨b, rfl⟩ := boolValue_shape h
  rfl

/-- A list of choices, none of them twice, is kept as it is. -/
theorem strListValue_choices (hC : C.Lowers) {vs : List String} (hne : vs ≠ []) (hnodup : vs.Nodup)
    (hvs : ∀ s ∈ vs, s ∈ (stringChoices t).1) (w : String) :
    strListValue C w t (.array (vs.map .string)) = .ok (.array (vs.map .string)) := by
  have hitems : strItems (.array (vs.map .string)) = vs.map .string := by
    refine (congrArg (List.filter _) (List.filter_eq_self.mpr ?_)).trans (List.filter_eq_self.mpr ?_)
    · intro x hx
      obtain ⟨s, -, rfl⟩ := List.mem_map.mp hx
      rfl
    · intro x hx
      obtain ⟨s, hs, rfl⟩ := List.mem_map.mp hx
      obtain ⟨htrim, -, -, -, hblank⟩ := choice_plain t s (hvs s hs)
      simp [Value.asStr, htrim, hblank]
  have hitem : ∀ s ∈ vs, strItem C w t (.string s) = .ok s := fun s hs => enumValue_choice hC (hvs s hs)
  have hmap : (vs.map Value.string).mapM (strItem C w t) = .ok (vs.map id) := mapM_map_pure hitem
  unfold strListValue
  rw [hitems]
  have hempty : ¬(vs.map Value.string).isEmpty = true := by
    rw [List.isEmpty_iff, List.map_eq_nil_iff]
    exact hne
  rw [if_neg hempty, hmap, List.map_id]
  show Except.ok (Value.array ((dedupe vs).map .string)) = _
  rw [dedupe_of_nodup hnodup]

theorem strListValue_normal (hC : C.Lowers) (hk : t.kind = .string)
    (h : strListValue C where_ t raw = .ok v) (w : String) : strListValue C w t v = .ok v := by
  obtain ⟨vs, hne, hnodup, hvs, rfl⟩ := strListValue_shape hk h
  exact strListValue_choices hC hne hnodup hvs w

theorem strValue_normal (hC : C.Lowers) (hk : t.kind = .string)
    (h : strValue C where_ t op raw = .ok v) (w : String) : strValue C w t op v = .ok v := by
  obtain ⟨hblank, h⟩ := Result.guard_ok h
  split at h
  · cases h
    exact if_neg hblank
  · cases h
    have htrim : ∀ s, trim (C.toLowercase (trim s)) = C.toLowercase (trim s) := fun s => by
      rw [hC.trim, trim_trim]
    unfold strValue
    simp only [htrim, hC.idem]
    exact if_neg (hC.ne_empty _ hblank)
  · obtain ⟨s, hs, rfl⟩ := Result.map_ok h
    have hmem := enumValue_mem hk hs
    obtain ⟨htrim, -, -, -, hne⟩ := choice_plain t s hmem
    unfold strValue
    simp only [htrim, hne, if_false]
    rw [enumValue_choice hC hmem]
    rfl

/-- The value that is stored is one the validator leaves as it is. -/
theorem normalizeValue_normal (hC : C.Lowers) (h : normalizeValue C where_ t op raw = .ok v)
    (w : String) : normalizeValue C w t op v = .ok v := by
  unfold normalizeValue at h ⊢
  cases hk : t.kind <;> rw [hk] at h
  · exact boolValue_normal h w
  · cases op with
    | in_ | notIn => exact intListValue_normal h w
    | eq | neq | gt | gte | lt | lte | between | contains | regex => exact intValue_normal h w
  · cases op with
    | in_ | notIn => exact strListValue_normal hC hk h w
    | eq | neq | gt | gte | lt | lte | between | contains | regex => exact strValue_normal hC hk h w

theorem normalizeEnd_normal (hC : C.Lowers) {rawEnd valueEnd : Option Value}
    (h : normalizeEnd C where_ t op rawEnd = .ok valueEnd) (w : String) :
    normalizeEnd C w t op valueEnd = .ok valueEnd := by
  unfold normalizeEnd at h
  split at h
  · obtain ⟨v, hv, rfl⟩ := Result.map_ok h
    show (normalizeValue C w t .between v).map some = _
    rw [normalizeValue_normal hC hv w]
    rfl
  · cases h
  · rename_i hend hnone
    cases h
    cases op with
    | between => cases rawEnd with
      | none => exact absurd rfl (hnone rfl)
      | some e => exact absurd rfl (hend e rfl)
    | _ => rfl

theorem checkPattern_any (h : checkPattern C where_ op v = .ok ()) (w : String) :
    checkPattern C w op v = .ok () := by
  obtain ⟨hok, -⟩ := Result.guard_ok h
  exact if_neg hok

/-- A stored condition is accepted as it is, whatever its place. -/
theorem validateCondition_input (hC : C.Lowers) {g n : ℕ} {input : ConditionInput} {c : Condition}
    (h : validateCondition C g n input = .ok c) (g' n' : ℕ) :
    validateCondition C g' n' c.input = .ok c := by
  unfold validateCondition at h
  simp only at h
  cases ht : ConditionTarget.fromKey (trim input.target) with
  | none => simp only [ht] at h; cases h
  | some t =>
    cases ho : ConditionOperator.fromKey (trim input.operator) with
    | none => simp only [ht, ho] at h; cases h
    | some op =>
      simp only [ht, ho] at h
      obtain ⟨hop, h⟩ := Result.guard_ok h
      obtain ⟨value, hv, h⟩ := Result.bind_ok h
      obtain ⟨valueEnd, he, h⟩ := Result.bind_ok h
      obtain ⟨_, hp, h⟩ := Result.bind_ok h
      cases h
      have htarget : ConditionTarget.fromKey (trim t.asStr) = some t := by cases t <;> rfl
      have hoperator : ConditionOperator.fromKey (trim op.asStr) = some op := by cases op <;> rfl
      unfold validateCondition Condition.input
      simp only [htarget, hoperator]
      rw [if_neg hop, normalizeValue_normal hC hv, normalizeEnd_normal hC he]
      show (checkPattern C _ op value >>= fun _ => Except.ok _) = _
      rw [checkPattern_any hp]
      rfl

theorem validateConditions_input (hC : C.Lowers) {g : ℕ} (g' : ℕ) : ∀ {n : ℕ}
    {raws : List ConditionInput} {cs : List Condition}, validateConditions C g n raws = .ok cs →
    ∀ n', validateConditions C g' n' (cs.map Condition.input) = .ok cs
  | _, [], cs, h, n' => by
    cases h
    rfl
  | n, raw :: rest, cs, h, n' => by
    obtain ⟨c, hc, h⟩ := Result.bind_ok h
    obtain ⟨cs', hr, h⟩ := Result.bind_ok h
    cases h
    rw [List.map_cons, validateConditions, validateCondition_input hC hc,
      validateConditions_input hC g' hr]
    rfl

theorem validateGroup_input (hC : C.Lowers) {n : ℕ} {raw : ConditionGroupInput} {g : ConditionGroup}
    (h : validateGroup C n raw = .ok g) (n' : ℕ) : validateGroup C n' g.input = .ok g := by
  obtain ⟨hne, h⟩ := Result.guard_ok h
  obtain ⟨hlen, h⟩ := Result.guard_ok h
  obtain ⟨cs, hcs, rfl⟩ := Result.map_ok h
  have hsame := (validateConditions_wellFormed hcs).1
  have hmap : (cs.map Condition.input).length = raw.conditions.length := by
    rw [List.length_map, hsame]
  unfold validateGroup ConditionGroup.input
  simp only [hmap]
  rw [if_neg, if_neg hlen, validateConditions_input hC n' hcs]
  · rfl
  · intro hempty
    rw [List.isEmpty_iff, ← List.length_eq_zero_iff, hmap, List.length_eq_zero_iff] at hempty
    exact hne (List.isEmpty_iff.mpr hempty)

theorem validateGroups_input (hC : C.Lowers) : ∀ {n : ℕ} {raws : List ConditionGroupInput}
    {gs : List ConditionGroup}, validateGroups C n raws = .ok gs →
    ∀ n', validateGroups C n' (gs.map ConditionGroup.input) = .ok gs
  | _, [], gs, h, n' => by
    cases h
    rfl
  | n, raw :: rest, gs, h, n' => by
    obtain ⟨g, hg, h⟩ := Result.bind_ok h
    obtain ⟨gs', hr, h⟩ := Result.bind_ok h
    cases h
    rw [List.map_cons, validateGroups, validateGroup_input hC hg, validateGroups_input hC hr]
    rfl

theorem parseRuleTree_body (hC : C.Lowers) {body : RuleTreeBody} {tree : RuleTree}
    (h : parseRuleTree C body = .ok tree) : parseRuleTree C tree.body = .ok tree := by
  unfold parseRuleTree at h
  split at h
  · cases h
    rfl
  · obtain ⟨hne, h⟩ := Result.guard_ok h
    obtain ⟨hlen, h⟩ := Result.guard_ok h
    obtain ⟨gs, hgs, rfl⟩ := Result.map_ok h
    have hmap : (gs.map ConditionGroup.input).length = body.groups.length := by
      rw [List.length_map, (validateGroups_wellFormed hgs).1]
    unfold parseRuleTree RuleTree.body
    simp only [hmap, Bool.false_eq_true, if_false]
    rw [if_neg, if_neg hlen, validateGroups_input hC hgs]
    · rfl
    · intro hempty
      rw [List.isEmpty_iff, ← List.length_eq_zero_iff, hmap, List.length_eq_zero_iff] at hempty
      exact hne (List.isEmpty_iff.mpr hempty)

end

/-- What was accepted is read back as it is, and accepted again as it is shown. -/
theorem parseRuleTree_roundTrip {C : Crates} (hC : C.Lowers) {body : RuleTreeBody} {tree : RuleTree}
    (h : parseRuleTree C body = .ok tree) :
    RuleTree.fromValue tree.toValue = some tree ∧
      ∃ sent, RuleTreeBody.fromValue (configValue (ruleTreeOf tree.toValue)) = some sent ∧
        parseRuleTree C sent = .ok tree := by
  have hend := (parseRuleTree_wellFormed h).valueEnd_ne_null
  rw [ruleTreeOf_toValue (parseRuleTree_wellFormed h)]
  exact ⟨RuleTree.fromValue_toValue hend, tree.body, RuleTreeBody.fromValue_configValue hend,
    parseRuleTree_body hC h⟩

/-- A rule as somebody may type it, and as it is kept. -/
def typedBody : RuleTreeBody := ⟨false, [⟨[
  ⟨"birth_weekday", "contains", .string " DAY", none⟩,
  ⟨"birth_season", "neq", .string "Fall", none⟩,
  ⟨"age_years", "between", .string " 18", some (.string "+25")⟩]⟩]⟩

def typedTree : RuleTree := ⟨false, [⟨[
  ⟨.birthWeekday, .contains, .string "day", none⟩,
  ⟨.birthSeason, .neq, .string "autumn", none⟩,
  ⟨.ageYears, .between, .ofI64 ⟨18, by decide⟩, some (.ofI64 ⟨25, by decide⟩)⟩]⟩]⟩

theorem parseRuleTree_roundTrip_typed : parseRuleTree .ascii typedBody = .ok typedTree ∧
    RuleTree.fromValue typedTree.toValue = some typedTree ∧
    ∃ sent, RuleTreeBody.fromValue (configValue (ruleTreeOf typedTree.toValue)) = some sent ∧
      parseRuleTree .ascii sent = .ok typedTree := by
  have h : parseRuleTree .ascii typedBody = .ok typedTree := by rfl
  exact ⟨h, parseRuleTree_roundTrip lowers_ascii h⟩

end BirthdayRole
