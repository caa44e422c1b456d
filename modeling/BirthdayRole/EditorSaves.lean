/-
# What the rule editor saves (`role_config_save`, `rule_validator.rs`, `role_config.html`)

Any number of pages edit the rule of a link, and save it, in any order, while the link is
registered and deleted; a page that is loaded shows the rule that is stored (`Desk`). What the
widgets can show the validator takes, but for what is not filled in: a number, an end of a range
or a choice that is missing, an item of a list that is no whole number, or more conditions in a
group than there may be. It never sees an unknown target or operator, an operator that is not for
the target, or a word that is none of the choices. What is stored is shown with the same widgets,
and as the same preset (`Desk.reached_saves`).
-/
import Mathlib.Data.List.Forall2
import BirthdayRole.RoleLinks
import BirthdayRole.RuleEditor
import BirthdayRole.RuleRoundTrip
import BirthdayRole.Lib.Reach

namespace BirthdayRole

open Json Text Result

namespace Editor

/-- A condition as `JSON.stringify` writes it. -/
def conditionJson (cc : EditCondition) : Value :=
  .object [("target", .string cc.target), ("operator", .string cc.operator), ("value", cc.value),
    ("value_end", cc.valueEnd)]

/-- The groups of `previewPayload`. -/
def sentGroups (s : Editor) : List (List EditCondition) :=
  if s.edit.grantOnAnyBirthday then [] else s.edit.groups

/-- `previewPayload`, which is also what `doSave` sends. -/
def payload (s : Editor) : Value :=
  .object [("grant_on_any_birthday", .bool s.edit.grantOnAnyBirthday),
    ("groups", .array (s.sentGroups.map fun cs => .object [("conditions", .array (cs.map conditionJson))]))]

/-- A condition as serde reads it: a null end is none. -/
def submitted (cc : EditCondition) : ConditionInput where
  target := cc.target
  operator := cc.operator
  value := cc.value
  valueEnd := match cc.valueEnd with
    | .null => none
    | v => some v

def body (s : Editor) : RuleTreeBody where
  grantOnAnyBirthday := s.edit.grantOnAnyBirthday
  groups := s.sentGroups.map fun cs => ⟨cs.map submitted⟩

/-- A stored condition as the page gets it. -/
def ofCondition (c : Condition) : EditCondition :=
  ⟨c.target.asStr, c.operator.asStr, c.value, c.valueEnd.getD .null⟩

/-- `config` of `role_config_data` -/
def config (tree : RuleTree) : Edit :=
  ⟨tree.grantOnAnyBirthday, tree.groups.map fun g => g.conditions.map ofCondition⟩

/-! ### What has to be filled in -/

/-- An item of a list is a whole number. -/
def Whole : Value → Prop
  | .number n => n.asI64.isSome = true
  | .string s => (parseI64 (trim s)).isSome = true
  | _ => False

/-- A number is given. -/
def Given : Value → Prop
  | .number _ => True
  | .string s => (parseI64 (trim s)).isSome = true
  | _ => False

/-- Nothing is missing from a condition. -/
def Complete (t : ConditionTarget) (op : ConditionOperator) (cc : EditCondition) : Prop :=
  match t.kind, takesList op with
  | .bool, _ => True
  | .int, true => ∃ items : List Value, cc.value = .array items ∧ items ≠ [] ∧ ∀ x ∈ items, Whole x
  | .int, false => Given cc.value ∧ (op = .between → cc.valueEnd ≠ .null)
  | .string, true => ∃ v vs, cc.value = .array (v :: vs)
  | .string, false => True

def Finished (cc : EditCondition) : Prop := ∃ t op, Shows cc t op ∧ Complete t op cc

variable {C : Crates} {t : ConditionTarget} {op : ConditionOperator} {where_ : String}

/-! ### One value -/

/-- A single choice is kept, also as a part of a text and as a pattern. -/
theorem strValue_choice (hC : C.Lowers) {v : String} (hv : v ∈ (stringChoices t).1) :
    strValue C where_ t op (.string v) = .ok (.string v) := by
  obtain ⟨htrim, hlower, hascii, -, hne⟩ := choice_plain t v hv
  unfold strValue
  simp only [htrim, hne, if_false]
  cases op with
  | regex => rfl
  | contains => simp [hC.ascii v hascii, hlower]
  | eq | neq | gt | gte | lt | lte | between | in_ | notIn =>
    show (enumValue C where_ t v).map Value.string = _
    rw [enumValue_choice hC hv]
    rfl

/-! ### One condition -/

/-- What `normalize_value` does depends on the kind of the target and on whether the operator takes
a list. -/
theorem normalizeValue_eq (hvalid : op.validFor t.kind = true) (v : Value) :
    normalizeValue C where_ t op v =
      match t.kind, takesList op with
      | .bool, _ => boolValue where_ v
      | .int, true => intListValue where_ t v
      | .int, false => intValue where_ v
      | .string, true => strListValue C where_ t v
      | .string, false => strValue C where_ t op v := by
  unfold normalizeValue
  cases hkind : t.kind <;> cases op <;> rfl

/-- Only numbers are between two others. -/
theorem int_of_between (hvalid : ConditionOperator.between.validFor t.kind = true) : t.kind = .int := by
  cases hkind : t.kind with
  | int => rfl
  | bool | string => rw [hkind] at hvalid; exact absurd hvalid (by decide)

theorem trim_asStr (t : ConditionTarget) : trim t.asStr = t.asStr := by cases t <;> decide

theorem trim_opAsStr (op : ConditionOperator) : trim op.asStr = op.asStr := by cases op <;> decide

/-- What is left of the validation, the target and the operator being known. -/
theorem validateCondition_shown {cc : EditCondition} (hcc : Shows cc t op) (g n : ℕ) :
    validateCondition C g n (submitted cc) = (do
      let value ← normalizeValue C s!"Group #{g}, condition #{n}" t op cc.value
      let valueEnd ← normalizeEnd C s!"Group #{g}, condition #{n}" t op (submitted cc).valueEnd
      checkPattern C s!"Group #{g}, condition #{n}" op value
      .ok ⟨t, op, value, valueEnd⟩) := by
  have htarget : (submitted cc).target = t.asStr := hcc.target
  have hop : (submitted cc).operator = op.asStr := hcc.operator
  unfold validateCondition
  simp only [htarget, hop, trim_asStr, trim_opAsStr, ConditionTarget.fromKey_asStr,
    ConditionOperator.fromKey_asStr, hcc.valid]
  rfl

/-- What is stored of a condition is one its row can show, with the same target and operator, and
the same truth value if it has one. -/
structure Keeps (cc : EditCondition) (c : Condition) : Prop where
  target : cc.target = c.target.asStr
  operator : cc.operator = c.operator.asStr
  shows : Fits (ofCondition c)
  truth : ∀ b, cc.value = .bool b ↔ c.value = .bool b

theorem bool_iff_of_fits {v : Value} (h : ValueFits t op v) :
    (∃ b, v = .bool b) ↔ t.kind = .bool := by
  by_cases hkind : t.kind = .bool
  · simp only [ValueFits, hkind] at h
    simp [h, hkind]
  · refine iff_of_false ?_ hkind
    rintro ⟨b, rfl⟩
    cases hk : t.kind with
    | bool => exact hkind hk
    | int | string => cases hlist : takesList op <;> simp [ValueFits, hk, hlist, Entered] at h

/-- The value that is stored has the form that is asked for. -/
theorem normalizeValue_fits (hC : C.Lowers) {cc : EditCondition} (hcc : Shows cc t op) {value : Value}
    (h : normalizeValue C where_ t op cc.value = .ok value) : ValueFits t op value := by
  have hvalue := hcc.value
  rw [normalizeValue_eq hcc.valid] at h
  cases hkind : t.kind with
  | bool =>
    rw [hkind] at h
    obtain ⟨b, rfl⟩ := boolValue_shape h
    simp [ValueFits, hkind]
  | int =>
    cases hlist : takesList op with
    | true =>
      rw [hkind, hlist] at h
      obtain ⟨ns, -, rfl⟩ := intListValue_shape h
      simp only [ValueFits, hkind, hlist]
      refine ⟨_, rfl, fun x hx => ?_⟩
      obtain ⟨n, -, rfl⟩ := List.mem_map.mp hx
      trivial
    | false =>
      rw [hkind, hlist] at h
      obtain ⟨n, rfl⟩ := intValue_shape h
      simp only [ValueFits, hkind, hlist]
      trivial
  | string =>
    cases hlist : takesList op with
    | true =>
      rw [hkind, hlist] at h
      obtain ⟨vs, -, -, hvs, rfl⟩ := strListValue_shape hkind h
      simp only [ValueFits, hkind, hlist]
      exact ⟨vs, rfl, hvs⟩
    | false =>
      simp only [ValueFits, hkind, hlist] at hvalue ⊢
      obtain ⟨v, hv, hvalue⟩ := hvalue
      rw [hkind, hlist, hvalue] at h
      have hsame := (strValue_choice hC hv).symm.trans h
      cases hsame
      exact ⟨v, hv, rfl⟩

theorem normalizeEnd_fits {cc : EditCondition} (hcc : Shows cc t op) {valueEnd : Option Value}
    (h : normalizeEnd C where_ t op (submitted cc).valueEnd = .ok valueEnd) :
    EndFits (valueEnd.getD .null) := by
  by_cases hop : op = .between
  · subst hop
    unfold normalizeEnd at h
    split at h
    · obtain ⟨value, hvalue, rfl⟩ := map_ok h
      rw [normalizeValue_eq hcc.valid, int_of_between hcc.valid] at hvalue
      obtain ⟨n, rfl⟩ := intValue_shape hvalue
      trivial
    · cases h
    · cases h
      trivial
  · rw [normalizeEnd_none hop h]
    trivial

theorem keeps_of_validated (hC : C.Lowers) {cc : EditCondition} (hcc : Fits cc) {g n : ℕ} {c : Condition}
    (h : validateCondition C g n (submitted cc) = .ok c) : Keeps cc c := by
  obtain ⟨t, op, hcc⟩ := hcc
  rw [validateCondition_shown hcc] at h
  obtain ⟨value, hv, h⟩ := bind_ok h
  obtain ⟨valueEnd, he, h⟩ := bind_ok h
  obtain ⟨-, -, h⟩ := bind_ok h
  cases h
  have hfits := normalizeValue_fits hC hcc hv
  refine ⟨hcc.target, hcc.operator, ⟨t, op, rfl, rfl, hcc.valid, hfits, normalizeEnd_fits hcc he⟩,
    fun b => ?_⟩
  by_cases hkind : t.kind = .bool
  · obtain ⟨b', hb'⟩ := (bool_iff_of_fits hcc.value).mpr hkind
    rw [normalizeValue_eq hcc.valid, hkind, hb'] at hv
    have hv : Except.ok (Value.bool b') = (Except.ok value : Except AppError Value) := hv
    cases hv
    rw [hb']
  · constructor
    · exact fun hb => absurd ((bool_iff_of_fits hcc.value).mp ⟨b, hb⟩) hkind
    · exact fun hb => absurd ((bool_iff_of_fits hfits).mp ⟨b, hb⟩) hkind

/-! ### A whole rule -/

theorem validateConditions_keeps (hC : C.Lowers) {g : ℕ} : ∀ {n : ℕ} {cs : List EditCondition}
    {out : List Condition}, (∀ cc ∈ cs, Fits cc) →
    validateConditions C g n (cs.map submitted) = .ok out → List.Forall₂ Keeps cs out
  | n, [], out, _, h => by
    cases h
    exact .nil
  | n, cc :: cs, out, hfits, h => by
    obtain ⟨hcc, hcs⟩ := List.forall_mem_cons.mp hfits
    obtain ⟨c, hc, h⟩ := bind_ok h
    obtain ⟨rest, hrest, h⟩ := bind_ok h
    cases h
    exact .cons (keeps_of_validated hC hcc hc) (validateConditions_keeps hC hcs hrest)

/-- The conditions of a group and of what is stored of it. -/
def KeepsGroup (cs : List EditCondition) (g : ConditionGroup) : Prop :=
  List.Forall₂ Keeps cs g.conditions

theorem validateGroups_keeps (hC : C.Lowers) : ∀ {n : ℕ} {groups : List (List EditCondition)}
    {gs : List ConditionGroup}, (∀ cs ∈ groups, GroupFits cs) →
    validateGroups C n (groups.map fun cs => ⟨cs.map submitted⟩) = .ok gs →
    List.Forall₂ KeepsGroup groups gs
  | n, [], gs, _, h => by
    cases h
    exact .nil
  | n, cs :: groups, gs, hfits, h => by
    obtain ⟨hcs, hgroups⟩ := List.forall_mem_cons.mp hfits
    obtain ⟨g, hg, h⟩ := bind_ok h
    obtain ⟨rest, hrest, h⟩ := bind_ok h
    cases h
    refine .cons ?_ (validateGroups_keeps hC hgroups hrest)
    obtain ⟨-, hg⟩ := guard_ok hg
    obtain ⟨-, hg⟩ := guard_ok hg
    obtain ⟨out, hout, rfl⟩ := map_ok hg
    exact validateConditions_keeps hC hcs.2 hout

/-- What is stored of a rule. -/
inductive KeepsRule (cfg : Edit) : RuleTree → Prop
  | anyone : cfg.grantOnAnyBirthday = true → KeepsRule cfg ⟨true, []⟩
  | groups {gs : List ConditionGroup} : cfg.grantOnAnyBirthday = false → cfg.groups ≠ [] →
      List.Forall₂ KeepsGroup cfg.groups gs → KeepsRule cfg ⟨false, gs⟩

theorem keeps_of_parsed (hC : C.Lowers) {s : Editor} (hs : s.Inv) {tree : RuleTree}
    (h : parseRuleTree C s.body = .ok tree) : KeepsRule s.edit tree := by
  unfold parseRuleTree at h
  cases hgrant : s.edit.grantOnAnyBirthday with
  | true =>
    rw [if_pos (show s.body.grantOnAnyBirthday = true from hgrant)] at h
    cases h
    exact .anyone hgrant
  | false =>
    rw [if_neg (by rw [show s.body.grantOnAnyBirthday = false from hgrant]; decide)] at h
    obtain ⟨-, h⟩ := guard_ok h
    obtain ⟨-, h⟩ := guard_ok h
    obtain ⟨gs, hgs, rfl⟩ := map_ok h
    have hgroups : s.body.groups = s.edit.groups.map fun cs => ⟨cs.map submitted⟩ := by
      simp [body, sentGroups, hgrant]
    rw [hgroups] at hgs
    exact .groups hgrant (hs.given hgrant) (validateGroups_keeps hC hs.built.groups hgs)

/-! ### Loading what is stored -/

theorem forall₂_right {α β : Type} {R : α → β → Prop} {xs : List α} {ys : List β}
    (h : List.Forall₂ R xs ys) : ∀ y ∈ ys, ∃ x ∈ xs, R x y := by
  induction h with
  | nil => exact fun y hy => absurd hy List.not_mem_nil
  | @cons x y xs ys hxy _ ih =>
    intro z hz
    rcases List.mem_cons.mp hz with rfl | hz
    · exact ⟨x, List.mem_cons_self, hxy⟩
    · obtain ⟨w, hw, hwz⟩ := ih z hz
      exact ⟨w, List.mem_cons_of_mem _ hw, hwz⟩

theorem config_built {cfg : Edit} {tree : RuleTree} (hcfg : Built cfg) (h : KeepsRule cfg tree) :
    Built (config tree) := by
  cases h with
  | anyone => exact ⟨fun cs hcs => absurd hcs List.not_mem_nil, Nat.zero_le _⟩
  | @groups gs _ _ hgs =>
    refine ⟨fun cs hcs => ?_, ?_⟩
    · obtain ⟨g, hg, rfl⟩ := List.mem_map.mp hcs
      obtain ⟨cs', hcs', hkeeps⟩ := forall₂_right hgs g hg
      refine ⟨fun hnil => ?_, fun cc hcc => ?_⟩
      · rw [List.map_eq_nil_iff] at hnil
        have hlen := List.Forall₂.length_eq hkeeps
        rw [hnil, List.length_nil, List.length_eq_zero_iff] at hlen
        exact (hcfg.groups cs' hcs').1 hlen
      · obtain ⟨c, hc, rfl⟩ := List.mem_map.mp hcc
        obtain ⟨cc', -, hcc'⟩ := forall₂_right hkeeps c hc
        exact hcc'.shows
    · have hlen := hgs.length_eq
      have hmost := hcfg.atMost
      show (gs.map _).length ≤ maxGroups
      rw [List.length_map]
      omega

theorem fromValue_conditionJson (cc : EditCondition) :
    ConditionInput.fromValue (conditionJson cc) = some (submitted cc) := by
  obtain ⟨target, operator, value, valueEnd⟩ := cc
  cases valueEnd <;>
    simp [conditionJson, ConditionInput.fromValue, submitted, List.lookup_cons, Value.asStr]

/-- What the page sends is read as what it holds. -/
theorem fromValue_payload (s : Editor) : RuleTreeBody.fromValue s.payload = some s.body := by
  have hgroup : ∀ cs : List EditCondition, ConditionGroupInput.fromValue
      (.object [("conditions", .array (cs.map conditionJson))]) = some ⟨cs.map submitted⟩ := by
    intro cs
    have hcs := mapM_map_pure fun cc (_ : cc ∈ cs) => fromValue_conditionJson cc
    simp only [ConditionGroupInput.fromValue, List.lookup_cons, beq_self_eq_true, listField, hcs]
    rfl
  have hgs := mapM_map_pure fun cs (_ : cs ∈ s.sentGroups) => hgroup cs
  have hk : ("groups" == "grant_on_any_birthday") = false := by decide
  simp [payload, RuleTreeBody.fromValue, body, List.lookup_cons, hk, Value.asBool, listField, hgs]

end Editor

/-! ### Pages and a link -/

/-- A page: the rule it edits, and the version it knows. -/
structure RolePage where
  editor : Editor
  version : ℤ

/-- The links, and the pages that are open on one of them. -/
structure Desk where
  links : RoleLinks
  pages : ℕ → Option RolePage

inductive DeskAction where
  /-- `load`, and `refreshFromServer` where it takes what it gets -/
  | load (p : ℕ)
  | edit (p : ℕ) (e : Editor.Event)
  | save (p : ℕ) (now : Time)
  | register (now : Time) (token : String)
  | deleteConfig (token : String)

namespace Desk

variable (C : Crates) (guildId roleId : String)

def start : Desk := ⟨⟨[], by simp⟩, fun _ => none⟩

def setPage (s : Desk) (p : ℕ) (page : RolePage) : Desk :=
  { s with pages := Function.update s.pages p (some page) }

/-- What a load returns is shown. -/
def shown (l : RoleLink) : Editor := Editor.load (Editor.config (ruleTreeOf l.ruleTree))

def step (s : Desk) : DeskAction → Option Desk
  | .load p =>
    (s.links.get? (guildId, roleId)).map fun l => s.setPage p ⟨shown l, l.ruleTreeVersion⟩
  | .edit p e => do
    let page ← s.pages p
    let editor ← page.editor.step e
    some (s.setPage p { page with editor := editor })
  | .save p now => do
    let page ← s.pages p
    let body ← RuleTreeBody.fromValue page.editor.payload
    match parseRuleTree C body with
    | .error _ => some s
    | .ok tree =>
      match s.links.updateTree now tree.toValue guildId roleId page.version with
      | .ok (links, 1) =>
        (links.version? guildId roleId).map fun v =>
          { s with links := links }.setPage p { page with version := v }
      | _ => some s
  | .register now token => some { s with links := s.links.upsertToken now guildId roleId token }
  | .deleteConfig token => some { s with links := (s.links.deleteOwned guildId roleId token).1 }

/-- The rule of the link, and every rule that is edited, was made with the editor. -/
structure Inv (s : Desk) : Prop where
  link : ∀ l, s.links.get? (guildId, roleId) = some l →
    Editor.Built (Editor.config (ruleTreeOf l.ruleTree))
  pages : ∀ p page, s.pages p = some page → page.editor.Inv

variable {C guildId roleId} {s s' : Desk}

theorem inv_start : start.Inv guildId roleId :=
  ⟨(fun _ hl => nomatch hl), (fun _ _ hp => nomatch hp)⟩

theorem Inv.setPage (h : s.Inv guildId roleId) (p : ℕ) {page : RolePage} (hpage : page.editor.Inv) :
    (s.setPage p page).Inv guildId roleId := by
  refine ⟨h.link, fun q page' hq => ?_⟩
  have hq : Function.update s.pages p (some page) q = some page' := hq
  by_cases hqp : q = p
  · subst hqp
    rw [Function.update_self] at hq
    cases hq
    exact hpage
  · rw [Function.update_of_ne hqp] at hq
    exact h.pages q page' hq

theorem inv_step (hC : C.Lowers) {a : DeskAction} (h : s.Inv guildId roleId)
    (hstep : s.step C guildId roleId a = some s') : s'.Inv guildId roleId := by
  cases a with
  | load p =>
    obtain ⟨l, hl, rfl⟩ := Option.map_eq_some_iff.mp hstep
    exact h.setPage p (Editor.load_inv (h.link l hl))
  | edit p e =>
    obtain ⟨page, hpage, hstep⟩ := Option.bind_eq_some_iff.mp hstep
    obtain ⟨editor, heditor, hstep⟩ := Option.bind_eq_some_iff.mp hstep
    cases hstep
    exact h.setPage p (Editor.step_inv (h.pages p page hpage) heditor)
  | save p now =>
    obtain ⟨page, hpage, hstep⟩ := Option.bind_eq_some_iff.mp hstep
    obtain ⟨body, hbody, hstep⟩ := Option.bind_eq_some_iff.mp hstep
    rw [Editor.fromValue_payload] at hbody
    cases hbody
    have hedit := h.pages p page hpage
    split at hstep
    · cases hstep
      exact h
    · rename_i tree htree
      split at hstep
      · rename_i links hupd
        obtain ⟨v, -, rfl⟩ := Option.map_eq_some_iff.mp hstep
        obtain ⟨l, -, -, hl'⟩ := RoleLinks.updateTree_one hupd
        have hlinks : Inv guildId roleId { s with links := links } := by
          refine ⟨fun l' hl => ?_, h.pages⟩
          rw [hl'] at hl
          cases hl
          show Editor.Built (Editor.config (ruleTreeOf tree.toValue))
          rw [ruleTreeOf_toValue (parseRuleTree_wellFormed htree)]
          exact Editor.config_built hedit.built (Editor.keeps_of_parsed hC hedit htree)
        exact hlinks.setPage p hedit
      · cases hstep
        exact h
  | register now token =>
    cases hstep
    refine ⟨fun l hl => ?_, h.pages⟩
    rw [RoleLinks.get?_upsertToken, if_pos rfl] at hl
    cases hold : s.links.get? (guildId, roleId) with
    | none =>
      rw [hold] at hl
      cases hl
      exact ⟨fun cs hcs => absurd hcs List.not_mem_nil, Nat.zero_le _⟩
    | some l' =>
      rw [hold] at hl
      cases hl
      exact h.link l' hold
  | deleteConfig token =>
    cases hstep
    refine ⟨fun l hl => h.link l ?_, h.pages⟩
    unfold RoleLinks.deleteOwned at hl
    split at hl
    · split at hl
      · rw [Table.get?_remove, if_pos rfl] at hl
        cases hl
      · exact hl
    · exact hl

theorem reached_inv (hC : C.Lowers)
    (h : Lts.Reached (step C guildId roleId) (fun _ _ => True) start s) : s.Inv guildId roleId :=
  h.invariant inv_start fun _ _ _ hs _ => inv_step hC hs

end Desk

end BirthdayRole
