/-
# When the bulk query raises

The generated query of a validated rule has two ways to raise, whatever rows
are saved and whatever the instant: `int[]` holds 32-bit numbers where the rule
holds 64-bit ones, and a text with U+0000 cannot be sent. Without them
(`RuleTree.Bindable`) no evaluation raises in any order (`filter_total`); with
either, some saved row raises. The `LIMIT` of the sync adds a third, a user limit
in the upper half of the range.
-/
import BirthdayRole.RuleAgreement

namespace BirthdayRole

open Json Text Sql Calendar

variable {C : Crates} {env : Env Atom} {off : ℕ} {binds : List Bind} {f : Facts}

/-- The numbers of an `in` or `not_in` list have 32 bits. -/
def Condition.Fits (c : Condition) : Prop :=
  c.operator = .in_ ∨ c.operator = .notIn → ∀ n ∈ intList c.value, -2 ^ 31 ≤ n ∧ n < 2 ^ 31

/-- The free text of a `contains` or `regex` has no U+0000. -/
def Condition.Sendable (c : Condition) : Prop :=
  c.operator = .contains ∨ c.operator = .regex → ∀ s, c.value.asStr = some s → '\x00' ∉ s.toList

def RuleTree.Bindable (tree : RuleTree) : Prop :=
  ∀ g ∈ tree.groups, ∀ c ∈ g.conditions, c.Fits ∧ c.Sendable

/-! ### No evaluation raises -/

/-- Every target has its fact's value. -/
def Gives (env : Env Atom) (f : Facts) : Prop := ∀ t, env.atom (.target t) = .ok (f.fact t).val

theorem isTruth_cmp_int (op : CmpOp) (x : Option ℤ) (n : ℤ) :
    ∃ r : Val, cmpVal op (Val.ofInt? x) (.int n) = .ok r ∧ r.IsTruth := by
  cases x with
  | none => exact ⟨.null, rfl, Or.inl rfl⟩
  | some m => exact ⟨_, rfl, isTruth_bool _⟩

theorem isTruth_ite (p : Prop) [Decidable p] (b : Bool) :
    (if p then Val.bool b else .null).IsTruth := by
  by_cases hp : p
  · rw [if_pos hp]
    exact isTruth_bool b
  · rw [if_neg hp]
    exact Or.inl rfl

theorem isTruth_ints (x : Option ℤ) (ns : List ℤ) :
    (∃ r : Val, eqAnyVal (Val.ofInt? x) (.ints ns) = .ok r ∧ r.IsTruth) ∧
      ∃ r : Val, neAllVal (Val.ofInt? x) (.ints ns) = .ok r ∧ r.IsTruth := by
  cases x with
  | none => exact ⟨⟨_, rfl, isTruth_ite _ _⟩, ⟨_, rfl, isTruth_ite _ _⟩⟩
  | some m => exact ⟨⟨_, rfl, isTruth_bool _⟩, ⟨_, rfl, isTruth_bool _⟩⟩

theorem isTruth_texts (x : Option String) (ss : List String) :
    (∃ r : Val, eqAnyVal (Val.ofText? x) (.texts ss) = .ok r ∧ r.IsTruth) ∧
      ∃ r : Val, neAllVal (Val.ofText? x) (.texts ss) = .ok r ∧ r.IsTruth := by
  cases x with
  | none => exact ⟨⟨_, rfl, isTruth_ite _ _⟩, ⟨_, rfl, isTruth_ite _ _⟩⟩
  | some m => exact ⟨⟨_, rfl, isTruth_bool _⟩, ⟨_, rfl, isTruth_bool _⟩⟩

/-- What the engine does on every pattern the validator accepts. -/
def AcceptsRegex (C : Crates) (engine : String → String → Except Error Bool) : Prop :=
  ∀ p, (C.regex p).isSome → ∀ s, ∃ b, engine p s = .ok b

/-- The clause of a check whose numbers fit: a case for each check. -/
theorem buildCondition_total (hre : AcceptsRegex C env.regex) {t : ConditionTarget}
    (chk : Check C t) (hb : chk.condition.Fits) {x : Fact} (hx : x.HasKind t.kind)
    (hx' : env.atom (.target t) = .ok x.val)
    (hc : Covers env off (buildCondition chk.condition off binds).2) :
    Total env (buildCondition chk.condition off binds).1 := by
  have ha : Returns env (.atom (.target t)) x.val := Returns.atom hx'
  cases chk with
  | is hk b =>
    cases x with
    | int | text => rw [hk] at hx; cases hx
    | bool a =>
      simp only [Check.condition, buildCondition, hk] at hc ⊢
      exact Total.strict rfl ha.paren (Returns.param hc.next rfl) ⟨_, rfl, isTruth_bool _⟩
  | compare hk op n =>
    cases x with
    | bool | text => rw [hk] at hx; cases hx
    | int a =>
      simp only [Check.condition] at hc ⊢
      rw [buildCondition_compare hk] at hc ⊢
      exact Total.strict rfl ha.paren (Returns.param hc.next rfl) (isTruth_cmp_int _ _ _)
  | between hk lo hi =>
    cases x with
    | bool | text => rw [hk] at hx; cases hx
    | int a =>
      simp only [Check.condition, buildCondition] at hc ⊢
      exact (Total.and
        (Total.strict rfl ha.paren (Returns.param hc.next rfl) (isTruth_cmp_int _ _ _))
        (Total.strict rfl ha.paren (Returns.param hc.next_next rfl) (isTruth_cmp_int _ _ _))).paren
  | among hk ns hne =>
    cases x with
    | bool | text => rw [hk] at hx; cases hx
    | int a =>
      have hns : Cast.ints4.apply (.ints (ns.map Subtype.val)) = .ok (.ints (ns.map Subtype.val)) :=
        if_pos (by simpa [Check.condition] using hb (Or.inl rfl))
      simp only [Check.condition, buildCondition, hk, if_true, intArray_ofI64, hne, if_false]
        at hc ⊢
      exact Total.strict rfl ha.paren (Returns.param hc.next hns) (isTruth_ints _ _).1
  | notAmong hk ns hne =>
    cases x with
    | bool | text => rw [hk] at hx; cases hx
    | int a =>
      have hns : Cast.ints4.apply (.ints (ns.map Subtype.val)) = .ok (.ints (ns.map Subtype.val)) :=
        if_pos (by simpa [Check.condition] using hb (Or.inr rfl))
      simp only [Check.condition, buildCondition, hk, if_true, intArray_ofI64, hne, if_false]
        at hc ⊢
      exact (Total.and (Total.of_returns ha.paren.isNotNull (isTruth_bool _))
        (Total.strict rfl ha.paren (Returns.param hc.next hns) (isTruth_ints _ _).2)).paren
  | equals hk s hs =>
    cases x with
    | bool | int => rw [hk] at hx; cases hx
    | text a =>
      simp only [Check.condition, buildCondition, hk] at hc ⊢
      refine Total.strict rfl ha (Returns.param hc.next rfl) ?_
      cases a with
      | none => exact ⟨.null, rfl, Or.inl rfl⟩
      | some a => exact ⟨_, rfl, isTruth_bool _⟩
  | differs hk s hs =>
    have hni : t.kind ≠ .int := by rw [hk]; decide
    simp only [Check.condition, buildCondition, hni, if_false] at hc ⊢
    exact Total.strict rfl ha (Returns.param hc.next rfl) ⟨_, rfl, isTruth_bool _⟩
  | contains hk s =>
    cases x with
    | bool | int => rw [hk] at hx; cases hx
    | text a =>
      simp only [Check.condition, buildCondition, Value.asStr, Option.getD_some] at hc ⊢
      refine Total.strict rfl ha (Returns.param hc.next rfl) ?_
      cases a with
      | none => exact ⟨.null, rfl, Or.inl rfl⟩
      | some a => exact ⟨_, likeVal_escaped s a, isTruth_bool _⟩
  | regex hk p isMatch hp =>
    cases x with
    | bool | int => rw [hk] at hx; cases hx
    | text a =>
      simp only [Check.condition, buildCondition, Value.asStr, Option.getD_some] at hc ⊢
      refine Total.strict rfl ha (Returns.param hc.next rfl) ?_
      cases a with
      | none => exact ⟨.null, rfl, Or.inl rfl⟩
      | some a =>
        obtain ⟨b, hb⟩ := hre p (by rw [hp]; rfl) a
        refine ⟨.bool b, ?_, isTruth_bool b⟩
        show (env.regex p a).map Val.bool = .ok (.bool b)
        rw [hb]
        rfl
  | oneOf hk vs hne hvs =>
    cases x with
    | bool | int => rw [hk] at hx; cases hx
    | text a =>
      have hni : t.kind ≠ .int := by rw [hk]; decide
      simp only [Check.condition, buildCondition, hni, if_false, strArray_string, hne] at hc ⊢
      exact Total.strict rfl ha (Returns.param hc.next rfl) (isTruth_texts _ _).1
  | noneOf hk vs hne hvs =>
    cases x with
    | bool | int => rw [hk] at hx; cases hx
    | text a =>
      have hni : t.kind ≠ .int := by rw [hk]; decide
      simp only [Check.condition, buildCondition, hni, if_false, strArray_string, hne] at hc ⊢
      exact (Total.and (Total.of_returns ha.isNotNull (isTruth_bool _))
        (Total.strict rfl ha (Returns.param hc.next rfl) (isTruth_texts _ _).2)).paren

section Total

variable (hre : AcceptsRegex C env.regex) (hg : Gives env f)

include hre hg

theorem wellFormed_total {c : Condition} (hwf : c.WellFormed C) (hb : c.Fits)
    (hc : Covers env off (buildCondition c off binds).2) :
    Total env (buildCondition c off binds).1 := by
  obtain ⟨chk, hchk⟩ := hwf
  generalize c.target = t at chk hchk
  subst hchk
  exact buildCondition_total hre chk hb (f.fact_kind t) (hg t) hc

theorem buildConditions_total : ∀ (cs : List Condition) (binds : List Bind),
    (∀ c ∈ cs, c.WellFormed C ∧ c.Fits) → Covers env off (buildConditions off cs binds).2 →
    ∀ e ∈ (buildConditions off cs binds).1, Total env e
  | [], _, _, _, e, he => absurd he List.not_mem_nil
  | c :: cs, binds, hcs, hc, e, he => by
    have hcs' := List.forall_mem_cons.mp hcs
    rcases List.mem_cons.mp he with rfl | he
    · exact wellFormed_total hre hg hcs'.1.1 hcs'.1.2
        (hc.of_longer ⟨_, (buildConditions_binds off cs _).symm⟩)
    · exact buildConditions_total cs _ hcs'.2 hc e he

theorem buildGroup_total {g : ConditionGroup} (hcs : ∀ c ∈ g.conditions, c.WellFormed C ∧ c.Fits)
    (hc : Covers env off (buildGroup g off binds).2) : Total env (buildGroup g off binds).1 := by
  obtain ⟨cs⟩ := g
  cases cs with
  | nil => exact Total.lit false
  | cons c cs => exact (Total.joinAnd (buildConditions_total hre hg (c :: cs) binds hcs hc)).paren

theorem buildGroups_total : ∀ (gs : List ConditionGroup) (binds : List Bind),
    (∀ g ∈ gs, ∀ c ∈ g.conditions, c.WellFormed C ∧ c.Fits) →
    Covers env off (buildGroups off gs binds).2 → ∀ e ∈ (buildGroups off gs binds).1, Total env e
  | [], _, _, _, e, he => absurd he List.not_mem_nil
  | g :: gs, binds, hgs, hc, e, he => by
    have hgs' := List.forall_mem_cons.mp hgs
    rcases List.mem_cons.mp he with rfl | he
    · exact buildGroup_total hre hg hgs'.1 (hc.of_longer ⟨_, (buildGroups_binds off gs _).symm⟩)
    · exact buildGroups_total gs _ hgs'.2 hc e he

/-- No evaluation of the clause of a tree raises if its numbers fit. -/
theorem buildRuleWhere_total {tree : RuleTree} (hwf : tree.WellFormed C)
    (hb : ∀ g ∈ tree.groups, ∀ c ∈ g.conditions, c.Fits)
    (hc : Covers env off (buildRuleWhere tree off).2) : Total env (buildRuleWhere tree off).1 := by
  obtain ⟨grant, groups⟩ := tree
  rcases hwf with ⟨hg', -⟩ | ⟨hg', hne, hgs⟩
  · cases hg'
    exact Total.lit true
  · cases hg'
    cases groups with
    | nil => exact absurd rfl hne
    | cons g gs =>
      exact (Total.joinOr (buildGroups_total hre hg (g :: gs) []
        (fun g' hg' c hc => ⟨(hgs g' hg').2 c hc, hb g' hg' c hc⟩) hc)).paren

end Total

/-! ### What raises -/

/-- A list with a number of more than 32 bits raises. -/
theorem buildCondition_canRaise {c : Condition} (hwf : c.WellFormed C) (hb : ¬c.Fits)
    (hc : Covers env off (buildCondition c off binds).2) :
    CanRaise env (buildCondition c off binds).1 := by
  obtain ⟨chk, hchk⟩ := hwf
  generalize ht : c.target = t at chk hchk
  subst hchk
  unfold Condition.Fits at hb
  push Not at hb
  obtain ⟨hop, n, hn, hbig⟩ := hb
  have hraise : ∀ {i : ℕ} {ns : List I64}, env.param i = some (.ints (ns.map Subtype.val)) →
      n ∈ intList (.array (ns.map .ofI64)) → CanRaise env (.param i .ints4) := by
    intro i ns hp hn
    refine ⟨.integerOutOfRange, ?_⟩
    rw [Expr.outcomes, hp, List.mem_singleton]
    have hnot : ¬∀ m ∈ ns.map Subtype.val, -2 ^ 31 ≤ m ∧ m < 2 ^ 31 := by
      intro hall
      rw [intList_ofI64] at hn
      have := hall n hn
      omega
    exact (if_neg hnot).symm
  cases chk with
  | is | between | equals | differs | contains | regex => rcases hop with h | h <;> cases h
  | compare _ op => rcases hop with h | h <;> cases op <;> cases h
  | oneOf _ vs | noneOf _ vs =>
    have hnil : intList (.array (vs.map .string)) = [] := by
      simp [intList, Value.asArray, Function.comp_def, Value.asI64]
    rw [Check.condition, hnil] at hn
    exact absurd hn List.not_mem_nil
  | among hk ns hne =>
    simp only [Check.condition, buildCondition, hk, if_true, intArray_ofI64, hne, if_false] at hc ⊢
    exact CanRaise.strict_right rfl (hraise hc.next hn)
  | notAmong hk ns hne =>
    simp only [Check.condition, buildCondition, hk, if_true, intArray_ofI64, hne, if_false] at hc ⊢
    exact CanRaise.and_right _ (CanRaise.strict_right rfl (hraise hc.next hn))

theorem buildConditions_canRaise : ∀ (cs : List Condition) (binds : List Bind),
    (∃ c ∈ cs, c.WellFormed C ∧ ¬c.Fits) → Covers env off (buildConditions off cs binds).2 →
    ∃ e ∈ (buildConditions off cs binds).1, CanRaise env e
  | [], _, ⟨c, hc, _⟩, _ => absurd hc List.not_mem_nil
  | d :: cs, binds, ⟨c, hcs, hwf, hb⟩, hc => by
    rcases List.mem_cons.mp hcs with rfl | hcs
    · exact ⟨_, List.mem_cons_self, buildCondition_canRaise hwf hb
        (hc.of_longer ⟨_, (buildConditions_binds off cs _).symm⟩)⟩
    · obtain ⟨e, he, hr⟩ := buildConditions_canRaise cs _ ⟨c, hcs, hwf, hb⟩ hc
      exact ⟨e, List.mem_cons_of_mem _ he, hr⟩

theorem buildGroup_canRaise {g : ConditionGroup}
    (h : ∃ c ∈ g.conditions, c.WellFormed C ∧ ¬c.Fits)
    (hc : Covers env off (buildGroup g off binds).2) : CanRaise env (buildGroup g off binds).1 := by
  obtain ⟨cs⟩ := g
  cases cs with
  | nil =>
    obtain ⟨c, hc, -⟩ := h
    exact absurd hc List.not_mem_nil
  | cons c cs =>
    obtain ⟨e, he, hr⟩ := buildConditions_canRaise (c :: cs) binds h hc
    exact CanRaise.joinAnd he hr

theorem buildGroups_canRaise : ∀ (gs : List ConditionGroup) (binds : List Bind),
    (∃ g ∈ gs, ∃ c ∈ g.conditions, c.WellFormed C ∧ ¬c.Fits) →
    Covers env off (buildGroups off gs binds).2 →
    ∃ e ∈ (buildGroups off gs binds).1, CanRaise env e
  | [], _, ⟨g, hg, _⟩, _ => absurd hg List.not_mem_nil
  | d :: gs, binds, ⟨g, hgs, h⟩, hc => by
    rcases List.mem_cons.mp hgs with rfl | hgs
    · exact ⟨_, List.mem_cons_self, buildGroup_canRaise h
        (hc.of_longer ⟨_, (buildGroups_binds off gs _).symm⟩)⟩
    · obtain ⟨e, he, hr⟩ := buildGroups_canRaise gs _ ⟨g, hgs, h⟩ hc
      exact ⟨e, List.mem_cons_of_mem _ he, hr⟩

theorem buildRuleWhere_canRaise {tree : RuleTree} (hgr : tree.grantOnAnyBirthday = false)
    (h : ∃ g ∈ tree.groups, ∃ c ∈ g.conditions, c.WellFormed C ∧ ¬c.Fits)
    (hc : Covers env off (buildRuleWhere tree off).2) :
    CanRaise env (buildRuleWhere tree off).1 := by
  obtain ⟨grant, groups⟩ := tree
  cases hgr
  cases groups with
  | nil =>
    obtain ⟨g, hg, -⟩ := h
    exact absurd hg List.not_mem_nil
  | cons g gs =>
    obtain ⟨e, he, hr⟩ := buildGroups_canRaise (g :: gs) [] h hc
    exact CanRaise.joinOr he hr

/-! ### Texts that cannot be sent -/

theorem choice_noNul (t : ConditionTarget) :
    ∀ s ∈ (stringChoices t).1, '\x00' ∉ s.toList := by
  cases t <;> decide

theorem nul_mem_escaped (v : List Char) : '\x00' ∈ Like.escaped v ↔ '\x00' ∈ v := by
  simp only [Like.escaped, List.mem_flatMap]
  constructor
  · rintro ⟨c, hc, h⟩
    split at h
    · rcases List.mem_pair.mp h with h | h
      · exact absurd h (by decide)
      · rwa [h]
    · rwa [List.mem_singleton.mp h]
  · exact fun h => ⟨_, h, by decide⟩

theorem hasNul_text (s : String) : (Val.text s).hasNul = true ↔ '\x00' ∈ s.toList := by
  simp [Val.hasNul]

theorem hasNul_texts (ss : List String) :
    (Val.texts ss).hasNul = false ↔ ∀ s ∈ ss, '\x00' ∉ s.toList := by
  simp [Val.hasNul]

theorem hasNul_pattern (s : String) :
    (Val.text ("%" ++ escapeLike s ++ "%")).hasNul = true ↔ '\x00' ∈ s.toList := by
  rw [hasNul_text, escapeLike_eq]
  simp [nul_mem_escaped]

/-- A condition binds a text that cannot be sent only as its free text. -/
theorem ownBinds_hasNul {c : Condition} (hwf : c.WellFormed C) :
    (∃ b ∈ c.ownBinds, b.val.hasNul = true) ↔ ¬c.Sendable := by
  obtain ⟨chk, hchk⟩ := hwf
  generalize c.target = t at chk hchk
  subst hchk
  unfold Condition.ownBinds Condition.Sendable
  cases chk with
  | is hk b => simp [Check.condition, buildCondition, hk, Bind.val, Val.hasNul]
  | equals hk s hs =>
    have := choice_noNul t s hs
    simp [Check.condition, buildCondition, hk, Bind.val, Val.hasNul, Value.asStr, this]
  | compare hk op n =>
    rw [Check.condition, buildCondition_compare hk]
    cases op <;> simp [Bind.val, Val.hasNul, CompareOp.operator]
  | between hk lo hi => simp [Check.condition, buildCondition, Bind.val, Val.hasNul]
  | among hk ns hne | notAmong hk ns hne =>
    simp [Check.condition, buildCondition, hk, intArray_ofI64, hne, Bind.val, Val.hasNul]
  | differs hk s hs =>
    have hni : t.kind ≠ .int := by rw [hk]; decide
    have := choice_noNul t s hs
    simp [Check.condition, buildCondition, hni, Bind.val, Val.hasNul, Value.asStr, this]
  | contains hk s =>
    simp only [Check.condition, buildCondition, Value.asStr, Option.getD_some, List.nil_append,
      List.mem_singleton, exists_eq_left, Bind.val, hasNul_pattern]
    simp
  | regex hk p isMatch hp =>
    simp only [Check.condition, buildCondition, Value.asStr, Option.getD_some, List.nil_append,
      List.mem_singleton, exists_eq_left, Bind.val, hasNul_text]
    simp
  | oneOf hk vs hne hvs | noneOf hk vs hne hvs =>
    have hni : t.kind ≠ .int := by rw [hk]; decide
    have hall : ∀ v ∈ vs, '\x00' ∉ v.toList := fun v hv => choice_noNul t v (hvs v hv)
    simpa [Check.condition, buildCondition, hni, strArray_string, hne, Bind.val, Val.hasNul]
      using hall

theorem buildRuleWhere_binds {tree : RuleTree} (hg : tree.grantOnAnyBirthday = false) (off : ℕ) :
    (buildRuleWhere tree off).2 = tree.groups.flatMap ConditionGroup.ownBinds := by
  obtain ⟨grant, groups⟩ := tree
  cases hg
  cases groups with
  | nil => rfl
  | cons g gs => exact buildGroups_binds off (g :: gs) []

/-- The binds of a tree can be sent when its free texts can. -/
theorem buildRuleWhere_hasNul {tree : RuleTree} (hwf : tree.WellFormed C) (off : ℕ) :
    (∀ b ∈ (buildRuleWhere tree off).2, b.val.hasNul = false) ↔
      ∀ g ∈ tree.groups, ∀ c ∈ g.conditions, c.Sendable := by
  rcases hwf with ⟨hg, hgs⟩ | ⟨hg, -, hgs⟩
  · rw [hgs, buildRuleWhere, if_pos hg]
    simp
  · rw [buildRuleWhere_binds hg]
    simp only [List.mem_flatMap, ConditionGroup.ownBinds]
    constructor
    · intro h g hg' c hc
      by_contra hs
      obtain ⟨b, hb, hn⟩ := (ownBinds_hasNul ((hgs g hg').2 c hc)).mpr hs
      rw [h b ⟨g, hg', c, hc, hb⟩] at hn
      cases hn
    · rintro h b ⟨g, hg', c, hc, hb⟩
      by_contra hn
      exact (ownBinds_hasNul ((hgs g hg').2 c hc)).mp ⟨b, hb, by simpa using hn⟩ (h g hg' c hc)

/-! ### The queries -/

/-- What the program relies on: PostgreSQL knows every zone name that is stored
and takes every pattern that compiles, and the clock shows a year of our era that
a date can have. -/
structure Postgres.Serves (pg : Postgres) (C : Crates) : Prop where
  zone : ∀ z, z = "UTC" ∨ (∃ s, C.parseTz s = some z) → ∃ D, pg.localDate z = .ok D ∧ InRange D
  regex : AcceptsRegex C pg.regex

/-- A query raises on no saved rows, at no instant, in no order of evaluation. -/
def Query.NeverRaises (q : Query) (C : Crates) : Prop :=
  ∀ pg : Postgres, pg.Serves C → ∀ rows : List BirthdayRow, (∀ row ∈ rows, row.Saved C) →
    ¬q.Raises pg rows

/-- Some PostgreSQL serves, and some row is saved. -/
theorem exists_serves (C : Crates) : ∃ pg : Postgres, pg.Serves C :=
  ⟨⟨fun _ => .ok (janFirst 2024), fun _ _ => .ok true⟩,
    fun _ _ => ⟨_, rfl, by unfold InRange; decide⟩, fun _ _ _ => ⟨_, rfl⟩⟩

theorem exists_saved (C : Crates) : ∃ row : BirthdayRow, row.Saved C :=
  ⟨_, 2024, 0, "1", "a", ⟨1, 1, none, none, false⟩, rfl⟩

theorem neverRaises_iff {q : Query} : q.NeverRaises C ↔
    (∀ p ∈ q.params, Val.hasNul p = false) ∧ (∀ n ∈ q.limit, 0 ≤ n) ∧
      ∀ pg : Postgres, pg.Serves C → ∀ row : BirthdayRow, row.Saved C →
        ¬CanRaise (rowEnv pg q.params row) q.filter := by
  unfold Query.NeverRaises Query.Raises
  constructor
  · intro h
    obtain ⟨pg, hpg⟩ := exists_serves C
    have hnil := h pg hpg [] (by simp)
    push Not at hnil
    refine ⟨fun p hp => by simpa using hnil.1 p hp, hnil.2.1, fun pg hpg row hrow hr => ?_⟩
    exact h pg hpg [row] (by simpa using hrow) (Or.inr (Or.inr ⟨row, List.mem_singleton_self row, hr⟩))
  · rintro ⟨hp, hl, hr⟩ pg hpg rows hrows (⟨p, hpm, hn⟩ | ⟨n, hnm, hneg⟩ | ⟨row, hrow, hc⟩)
    · rw [hp p hpm] at hn
      cases hn
    · exact absurd (hl n hnm) (by omega)
    · exact hr pg hpg row (hrows row hrow) hc

theorem gives_rowEnv {pg : Postgres} (hpg : pg.Serves C) {row : BirthdayRow} (h : row.Valid C)
    (params : List Val) : ∃ D, Gives (rowEnv pg params row) (row.facts D) := by
  obtain ⟨D, hD, hr⟩ := hpg.zone row.tz h.tz
  refine ⟨D, fun t => ?_⟩
  show targetValue row (pg.localDate row.tz) t = _
  rw [hD]
  exact targetValue_isOk h hr t

theorem memberClause_total (pg : Postgres) (row : BirthdayRow) (memberIds : List String)
    (params : List Val) : Total (rowEnv pg (.texts memberIds :: params) row) memberClause :=
  Total.strict rfl (Returns.atom rfl) (Returns.param rfl rfl)
    (isTruth_texts (some row.discordId) memberIds).1

/-- The condition under which a query around the clause of a rule never raises. -/
theorem ruleQuery_neverRaises {tree : RuleTree} (hwf : tree.WellFormed C) {q : Query}
    {memberIds : List String} {after : List Val} (hafter : ∀ p ∈ after, Val.hasNul p = false)
    (hfilter : q.filter = .and memberClause (.paren (buildRuleWhere tree 1).1))
    (hparams : q.params = [.texts memberIds] ++ (buildRuleWhere tree 1).2.map Bind.val ++ after) :
    q.NeverRaises C ↔
      tree.Bindable ∧ (∀ id ∈ memberIds, '\x00' ∉ id.toList) ∧ ∀ n ∈ q.limit, 0 ≤ n := by
  have hnul : (∀ p ∈ q.params, Val.hasNul p = false) ↔
      (∀ id ∈ memberIds, '\x00' ∉ id.toList) ∧
        ∀ g ∈ tree.groups, ∀ c ∈ g.conditions, c.Sendable := by
    rw [← buildRuleWhere_hasNul hwf 1, hparams, List.forall_mem_append, and_iff_left hafter,
      List.forall_mem_append, List.forall_mem_singleton, List.forall_mem_map, hasNul_texts]
  have hraise : (∀ pg : Postgres, pg.Serves C → ∀ row : BirthdayRow, row.Saved C →
      ¬CanRaise (rowEnv pg q.params row) q.filter) ↔
        ∀ g ∈ tree.groups, ∀ c ∈ g.conditions, c.Fits := by
    rw [hfilter, hparams]
    constructor
    · intro h
      by_contra hb
      push Not at hb
      obtain ⟨g, hg, c, hc, hbad⟩ := hb
      obtain ⟨pg, hpg⟩ := exists_serves C
      obtain ⟨row, hrow⟩ := exists_saved C
      refine h pg hpg row hrow (CanRaise.and_right _ ?_)
      show CanRaise _ (buildRuleWhere tree 1).1
      have hcov := covers_rowEnv pg row [.texts memberIds] after
        (buildRuleWhere tree 1).2
      rcases hwf with ⟨-, hnil⟩ | ⟨hgr, -, hgs⟩
      · rw [hnil] at hg
        exact absurd hg List.not_mem_nil
      · exact buildRuleWhere_canRaise hgr ⟨g, hg, c, hc, (hgs g hg).2 c hc, hbad⟩ hcov
    · intro hb pg hpg row hrow
      obtain ⟨D, hg⟩ := gives_rowEnv hpg hrow.valid
        ([.texts memberIds] ++ (buildRuleWhere tree 1).2.map Bind.val ++ after)
      exact ((memberClause_total pg row memberIds _).and
        (buildRuleWhere_total hpg.regex hg hwf hb (covers_rowEnv pg row _ after _)).paren).not_canRaise
  rw [neverRaises_iff, hnul, hraise]
  constructor
  · rintro ⟨⟨hm, hs⟩, hl, hb⟩
    exact ⟨fun g hg c hc => ⟨hb g hg c hc, hs g hg c hc⟩, hm, hl⟩
  · rintro ⟨hb, hm, hl⟩
    exact ⟨⟨hm, fun g hg c hc => (hb g hg c hc).2⟩, hl, fun g hg c hc => (hb g hg c hc).1⟩

theorem Usize.asI64_nonneg (n : Usize) : 0 ≤ n.asI64 ↔ n.1 < 2 ^ 63 := by
  have := n.2
  unfold Usize.asI64
  split <;> omega

/-- The bulk query of a link and the count of its preview raise on no saved rows
exactly when the rule's lists fit `int[]` and its texts and the member ids can be
sent; the first also needs a user limit that is positive as an `i64`. -/
theorem queries_neverRaise_iff (C : Crates) {body : RuleTreeBody} {tree : RuleTree}
    (hparse : parseRuleTree C body = .ok tree) (memberIds : List String) (userLimit : Usize) :
    ((matchingQuery tree memberIds).NeverRaises C ↔
      tree.Bindable ∧ ∀ id ∈ memberIds, '\x00' ∉ id.toList) ∧
    ((qualifyingQuery tree memberIds userLimit).NeverRaises C ↔
      tree.Bindable ∧ (∀ id ∈ memberIds, '\x00' ∉ id.toList) ∧ userLimit.1 < 2 ^ 63) := by
  have hwf := parseRuleTree_wellFormed hparse
  have hlimit : ∀ p ∈ [Val.int userLimit.asI64], Val.hasNul p = false := by simp [Val.hasNul]
  have hmatch := ruleQuery_neverRaises hwf (q := matchingQuery tree memberIds)
    (by simp) rfl (List.append_nil _).symm
  refine ⟨hmatch.trans ?_, ?_⟩
  · simp [matchingQuery]
  rw [← Usize.asI64_nonneg]
  by_cases hg : tree.grantOnAnyBirthday = true
  · have hnil : tree.groups = [] := by
      rcases hwf with ⟨-, hnil⟩ | ⟨hg', -⟩
      · exact hnil
      · rw [hg] at hg'
        cases hg'
    have hb : tree.Bindable := by
      intro g hgm
      rw [hnil] at hgm
      exact absurd hgm List.not_mem_nil
    rw [neverRaises_iff, and_iff_right hb]
    simp only [qualifyingQuery, hg, if_true, List.forall_mem_cons, hasNul_texts, Option.mem_def,
      Option.some.injEq, forall_eq']
    constructor
    · rintro ⟨⟨hm, -⟩, hl, -⟩
      exact ⟨hm, hl⟩
    · rintro ⟨hm, hl⟩
      exact ⟨⟨hm, rfl, fun _ h => absurd h List.not_mem_nil⟩, hl, fun pg _ row _ =>
        (memberClause_total pg row memberIds _).not_canRaise⟩
  · have hfilter : (qualifyingQuery tree memberIds userLimit).filter =
        .and memberClause (.paren (buildRuleWhere tree 1).1) := by simp [qualifyingQuery, hg]
    have hparams : (qualifyingQuery tree memberIds userLimit).params = [.texts memberIds] ++
        (buildRuleWhere tree 1).2.map Bind.val ++ [.int userLimit.asI64] := by
      simp [qualifyingQuery, hg]
    rw [ruleQuery_neverRaises hwf hlimit hfilter hparams]
    simp [qualifyingQuery, hg]

/-- Born in a year that an `int` cannot hold. -/
def wideBody : RuleTreeBody :=
  ⟨false, [⟨[⟨"birth_year", "in", .array [.number (.int (2 ^ 31) (by decide))], none⟩]⟩]⟩

def wideTree : RuleTree :=
  ⟨false, [⟨[⟨.birthYear, .in_, .array [.number (.int (2 ^ 31) (by decide))], none⟩]⟩]⟩

theorem queries_neverRaise_iff_leo :
    ((matchingQuery leoTree ["1"]).NeverRaises Crates.ascii ↔
      leoTree.Bindable ∧ ∀ id ∈ ["1"], '\x00' ∉ id.toList) ∧
    ((qualifyingQuery leoTree ["1"] ⟨100, by decide⟩).NeverRaises Crates.ascii ↔
      leoTree.Bindable ∧ (∀ id ∈ ["1"], '\x00' ∉ id.toList) ∧ 100 < 2 ^ 63) :=
  queries_neverRaise_iff Crates.ascii (show parseRuleTree Crates.ascii leoBody = .ok leoTree by rfl)
    ["1"] ⟨100, by decide⟩

/-- A rule the validator accepts, a saved row, and a sync query that raises. -/
theorem wideTree_raises : parseRuleTree Crates.ascii wideBody = .ok wideTree ∧
    leoRow.Saved Crates.ascii ∧ (Postgres.ascii (janFirst 2024)).Serves Crates.ascii ∧
    (qualifyingQuery wideTree ["1"] ⟨100, by decide⟩).Raises (Postgres.ascii (janFirst 2024))
      [leoRow] := by
  refine ⟨by rfl, leoRow_saved, ⟨fun z hz => ?_, fun p hp s => ?_⟩, ?_⟩
  · have hutc : z = "UTC" := by
      rcases hz with hz | ⟨s, hs⟩
      · exact hz
      · simp only [Crates.ascii] at hs
        split at hs
        · cases hs
          assumption
        · cases hs
    exact ⟨janFirst 2024, by simp [Postgres.ascii, hutc], by unfold InRange; decide⟩
  · obtain ⟨isMatch, hm⟩ := Option.isSome_iff_exists.mp hp
    exact ⟨_, sameRegex_ascii _ p isMatch hm s⟩
  · exact Or.inr (Or.inr ⟨leoRow, List.mem_singleton_self _, .integerOutOfRange, by decide⟩)

end BirthdayRole
