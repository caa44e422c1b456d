/-
# The two evaluators agree

A saved row and a validated rule: the clause of `rule_sql` on the row decides
what `condition_eval` decides on the facts of the row, on the same local date.

The argument goes through what a condition says (`Check.Holds`). On one side
`evaluateSingle_iff`; on this one, each operator's clause decides `Check.Holds`
(`buildCondition_decides`), once a target has the value of its fact
(`targetValue_ok`). Binds are only ever appended, so a clause keeps its meaning
under every longer list of parameters (`Covers`).
-/
import BirthdayRole.RuleMeaning
import BirthdayRole.RuleSql

namespace BirthdayRole

open Json Text Sql Calendar

variable {C : Crates} {pg : Postgres} {row : BirthdayRow}

/-! ### Saved rows -/

/-- What holds of every row a save has written. -/
structure BirthdayRow.Valid (C : Crates) (row : BirthdayRow) : Prop where
  date : ValidBirthday row.birthMonth row.birthDay row.birthYear
  derived : row.Derives
  tz : row.tz = "UTC" ∨ ∃ s, C.parseTz s = some row.tz

theorem normalizeTz_spec (C : Crates) (s : String) :
    normalizeTz C s = "UTC" ∨ ∃ s', C.parseTz s' = some (normalizeTz C s) := by
  unfold normalizeTz
  simp only
  split
  · exact Or.inl rfl
  · cases h : C.parseTz (trim s) with
    | none => exact Or.inl rfl
    | some z => exact Or.inr ⟨trim s, by rw [h]; rfl⟩

theorem BirthdayRow.Saved.valid (h : row.Saved C) : row.Valid C := by
  have hderives := h.derives
  obtain ⟨thisYear, now, id, name, body, h⟩ := h
  obtain ⟨u, hd, h⟩ := Result.bind_ok h
  obtain ⟨-, h⟩ := Result.require_ok h
  cases h
  refine ⟨?_, hderives, normalizeTz_spec C _⟩
  cases hv : validateDate thisYear body.month body.day body.year with
  | error e => rw [hv] at hd; cases hd
  | ok v => exact (validateDate_spec hv).1

/-! ### Facts as values -/

def Fact.val : Fact → Val
  | .bool b => .bool b
  | .int n => Val.ofInt? n
  | .text s => Val.ofText? s

/-- The facts of a row on a local date. -/
def BirthdayRow.facts (row : BirthdayRow) (localDate : Date) : Facts :=
  computeFacts (fun _ => localDate) row.input

/-- Only the row's own time zone is asked for. -/
theorem computeFacts_congr (localToday : String → Date) (row : BirthdayRow) :
    computeFacts localToday row.input = row.facts (localToday row.tz) := rfl

theorem daysUntil_nonneg (h : row.Valid C) (D : Date) : 0 ≤ (row.facts D).daysUntil := by
  have := le_nextBday h.date D
  rw [← Date.toDays_le_toDays] at this
  show 0 ≤ Date.toDays _ - Date.toDays _
  exact sub_nonneg.mpr this

/-- A target that has a value has the value of its fact. -/
theorem targetValue_ok (h : row.Valid C) {D : Date} {t : ConditionTarget} {v : Val}
    (hv : targetValue row (.ok D) t = .ok v) : v = ((row.facts D).fact t).val := by
  have hd : computeDerived row.birthMonth row.birthDay row.birthYear = _ := h.derived
  cases t with
  | hasBirthdaySet | hasBirthYear | birthMonth | birthDay | birthYear =>
    cases hv
    rfl
  | zodiacSign | chineseZodiac | birthSeason | birthstone | birthWeekday =>
    cases hv
    simp only [Facts.fact, BirthdayRow.facts, computeFacts, BirthdayRow.input, hd, Fact.val,
      Val.ofText?]
  | isBirthdayMonth =>
    cases hv
    have := h.date.1
    show Val.bool ((D.month : ℤ) == row.birthMonth) = Val.bool (D.month == row.birthMonth.toNat)
    rw [Val.bool.injEq, Bool.eq_iff_iff, beq_iff_eq, beq_iff_eq]
    omega
  | isBirthdayToday =>
    obtain ⟨_, hl, hv⟩ := Result.bind_ok hv
    cases hl
    obtain ⟨b, hb, hv⟩ := Result.bind_ok hv
    obtain ⟨n, hn, rfl⟩ := Result.map_ok hb
    cases hv
    rw [bdayDaysUntil_ok h.date hn]
    rfl
  | isBirthdayWeek =>
    obtain ⟨_, hl, hv⟩ := Result.bind_ok hv
    cases hl
    obtain ⟨n, hn, hv⟩ := Result.bind_ok hv
    cases hv
    have h0 := daysUntil_nonneg h D
    rw [bdayDaysUntil_ok h.date hn]
    show Val.bool (decide (_ ≤ 6)) = Val.bool (decide (0 ≤ _ ∧ _ ≤ 6))
    rw [Val.bool.injEq, decide_eq_decide]
    exact ⟨fun h6 => ⟨h0, h6⟩, fun h6 => h6.2⟩
  | daysUntilBirthday =>
    obtain ⟨_, hl, hv⟩ := Result.bind_ok hv
    cases hl
    obtain ⟨n, hn, hv⟩ := Result.bind_ok hv
    cases hv
    rw [bdayDaysUntil_ok h.date hn]
    rfl
  | ageYears =>
    obtain ⟨_, hl, hv⟩ := Result.bind_ok hv
    cases hl
    obtain ⟨n, hn, hv⟩ := Result.bind_ok hv
    cases hv
    rw [bdayAge_ok h.date hn]
    rfl
  | ageTurningThisYear =>
    obtain ⟨_, hl, hv⟩ := Result.bind_ok hv
    cases hl
    obtain ⟨n, hn, hv⟩ := Result.bind_ok hv
    cases hv
    rw [bdayAgeTurning_ok h.date hn]
    rfl

/-- In PostgreSQL's range every target has a value. -/
theorem targetValue_isOk (h : row.Valid C) {D : Date} (hD : InRange D) (t : ConditionTarget) :
    targetValue row (.ok D) t = .ok ((row.facts D).fact t).val := by
  have hval : ∃ v, targetValue row (.ok D) t = .ok v := by
    obtain ⟨n, hn⟩ := bdayDaysUntil_isOk h.date hD
    obtain ⟨a, ha⟩ := bdayAge_isOk h.date hD row.birthYear
    obtain ⟨b, hb⟩ := bdayAgeTurning_isOk h.date hD row.birthYear
    cases t with
    | isBirthdayToday | isBirthdayWeek | daysUntilBirthday =>
      simp only [targetValue, bdayIsToday, hn, bind, Except.bind, Except.map]
      exact ⟨_, rfl⟩
    | ageYears =>
      simp only [targetValue, ha, bind, Except.bind]
      exact ⟨_, rfl⟩
    | ageTurningThisYear =>
      simp only [targetValue, hb, bind, Except.bind]
      exact ⟨_, rfl⟩
    | _ => exact ⟨_, rfl⟩
  obtain ⟨v, hv⟩ := hval
  rw [hv, targetValue_ok h hv]

/-! ### Binds -/

theorem escapeLike_eq (s : String) : escapeLike s = .ofList (Like.escaped s.toList) := by
  unfold escapeLike Like.escaped replaceChar
  rw [List.flatMap_assoc, List.flatMap_assoc]
  congr 2
  funext c
  by_cases h1 : c = '\\'
  · subst h1; rfl
  by_cases h2 : c = '%'
  · subst h2; rfl
  by_cases h3 : c = '_'
  · subst h3; rfl
  · simp [h1, h2, h3]

/-- The pattern of `contains` asks for a part of the text. -/
theorem likeVal_escaped (s a : String) : likeVal (.text a) (.text ("%" ++ escapeLike s ++ "%")) =
    .ok (.bool (decide (s.toList <:+: a.toList))) := by
  have hpat : ("%" ++ escapeLike s ++ "%").toList = '%' :: (Like.escaped s.toList ++ ['%']) := by
    rw [escapeLike_eq]
    simp
  simp only [likeVal, hpat, Like.isMatch_escaped]

/-- The parameters after the first `bindOffset` begin with these binds. -/
def Covers (env : Env Atom) (bindOffset : ℕ) (binds : List Bind) : Prop :=
  ∀ k b, binds[k]? = some b → env.param (bindOffset + k + 1) = some b.val

variable {env : Env Atom} {off : ℕ} {binds : List Bind}

theorem Covers.of_longer {longer : List Bind} (h : Covers env off longer) (hp : binds <+: longer) :
    Covers env off binds := by
  obtain ⟨rest, rfl⟩ := hp
  intro k b hb
  have hk : k < binds.length := (List.getElem?_eq_some_iff.mp hb).1
  exact h k b (by rw [List.getElem?_append_left hk, hb])

/-- The bind after the first ones. -/
theorem Covers.next {b : Bind} {rest : List Bind} (h : Covers env off (binds ++ b :: rest)) :
    env.param (off + binds.length + 1) = some b.val :=
  h binds.length b (by simp)

theorem Covers.next_next {a b : Bind} {rest : List Bind}
    (h : Covers env off (binds ++ a :: b :: rest)) :
    env.param (off + binds.length + 1 + 1) = some b.val := by
  have := h (binds.length + 1) b (by simp)
  rwa [← add_assoc] at this

/-- The binds of a condition, whatever its place. -/
def Condition.ownBinds (c : Condition) : List Bind := (buildCondition c 0 []).2

theorem buildCondition_binds (c : Condition) (off : ℕ) (binds : List Bind) :
    (buildCondition c off binds).2 = binds ++ c.ownBinds := by
  unfold Condition.ownBinds buildCondition
  simp only [List.nil_append]
  split
  · split <;> rfl
  · split <;> rfl
  · rfl
  · rfl
  · rfl
  · rfl
  · rfl
  · rfl
  · rfl
  · split <;> split <;> first | rfl | exact (List.append_nil _).symm
  · split <;> split <;> first | rfl | exact (List.append_nil _).symm

theorem buildConditions_binds (off : ℕ) : ∀ (cs : List Condition) (binds : List Bind),
    (buildConditions off cs binds).2 = binds ++ cs.flatMap Condition.ownBinds
  | [], _ => (List.append_nil _).symm
  | c :: cs, binds => by
    show (buildConditions off cs (buildCondition c off binds).2).2 = _
    rw [buildConditions_binds off cs, buildCondition_binds, List.flatMap_cons, List.append_assoc]

def ConditionGroup.ownBinds (g : ConditionGroup) : List Bind := g.conditions.flatMap Condition.ownBinds

theorem buildGroup_binds (g : ConditionGroup) (off : ℕ) (binds : List Bind) :
    (buildGroup g off binds).2 = binds ++ g.ownBinds := by
  obtain ⟨cs⟩ := g
  cases cs with
  | nil => exact (List.append_nil _).symm
  | cons c cs => exact buildConditions_binds off (c :: cs) binds

theorem buildGroups_binds (off : ℕ) : ∀ (gs : List ConditionGroup) (binds : List Bind),
    (buildGroups off gs binds).2 = binds ++ gs.flatMap ConditionGroup.ownBinds
  | [], _ => (List.append_nil _).symm
  | g :: gs, binds => by
    show (buildGroups off gs (buildGroup g off binds).2).2 = _
    rw [buildGroups_binds off gs, buildGroup_binds, List.flatMap_cons, List.append_assoc]

/-! ### What the clause of a check decides -/

theorem intArray_ofI64 (t : ConditionTarget) (op : ConditionOperator) (ns : List I64) :
    intArray ⟨t, op, .array (ns.map .ofI64), none⟩ = ns := by
  simp [intArray, Value.asArray, List.filterMap_map]

theorem strArray_string (t : ConditionTarget) (op : ConditionOperator) (vs : List String) :
    strArray ⟨t, op, .array (vs.map .string), none⟩ = vs := by
  simp [strArray, Value.asArray, Function.comp_def, Value.asStr]

theorem isTruth_bool (b : Bool) : (Val.bool b).IsTruth := Or.inr ⟨b, rfl⟩

def CompareOp.cmp : CompareOp → CmpOp
  | eq => .eq
  | neq => .ne
  | gt => .gt
  | gte => .ge
  | lt => .lt
  | lte => .le

/-- A comparison of a number that may be missing. -/
theorem decides_cmp_int {a b : Clause} {x : Option ℤ} {n : ℤ} (op : CmpOp)
    (ha : Yields env a (Val.ofInt? x)) (hb : Yields env b (.int n)) :
    Decides env (.cmp op a b) (∃ m, x = some m ∧ op.ints m n = true) := by
  refine Decides.of_option (fun hx => ?_) fun m hx => ?_
  · subst hx
    exact Yields.strict rfl ha hb rfl
  · subst hx
    exact Yields.strict rfl ha hb rfl

/-- The comparison clause of a number. -/
theorem buildCondition_compare {t : ConditionTarget} (hk : t.kind = .int) (op : CompareOp)
    (n : I64) : buildCondition ⟨t, op.operator, .ofI64 n, none⟩ off binds =
      (.cmp op.cmp (.paren (.atom (.target t))) (.param (off + binds.length + 1) .none),
        binds ++ [.int n]) := by
  cases op <;> simp [buildCondition, CompareOp.operator, CompareOp.cmp, hk]

theorem CompareOp.ints_iff (op : CompareOp) (a n : ℤ) : op.cmp.ints a n = true ↔ op.Holds a n := by
  cases op <;> simp [CompareOp.cmp, CmpOp.ints, CompareOp.Holds]

/-- The two list clauses: of what is missing neither holds. -/
theorem decides_list {β : Type} [BEq β] [LawfulBEq β] {val : Option β → Val} {a l : Clause}
    {x : Option β} {list : Val} {bs : List β} (hval : ∀ b, val (some b) ≠ .null)
    (ha : Yields env a (val x)) (hl : Yields env l list)
    (hnone : eqAnyVal (val none) list = .ok .null ∧ neAllVal (val none) list = .ok .null)
    (hsome : ∀ b, eqAnyVal (val (some b)) list = .ok (.bool (bs.contains b)) ∧
      neAllVal (val (some b)) list = .ok (.bool (!bs.contains b))) :
    Decides env (.eqAny a l) (∃ b, x = some b ∧ b ∈ bs) ∧
      Decides env (.and (.isNotNull a) (.neAll a l)) (∃ b, x = some b ∧ b ∉ bs) := by
  have hany : Decides env (.eqAny a l) (∃ b, x = some b ∧ bs.contains b = true) := by
    refine Decides.of_option (fun hx => ?_) fun b hx => ?_
    · subst hx
      exact Yields.strict rfl ha hl hnone.1
    · subst hx
      exact Yields.strict rfl ha hl (hsome b).1
  have hall : Decides env (.neAll a l) (∃ b, x = some b ∧ (!bs.contains b) = true) := by
    refine Decides.of_option (fun hx => ?_) fun b hx => ?_
    · subst hx
      exact Yields.strict rfl ha hl hnone.2
    · subst hx
      exact Yields.strict rfl ha hl (hsome b).2
  have hnull := Decides.of_yields ha.isNotNull (isTruth_bool _)
  refine ⟨hany.congr (by simp), (hnull.and hall).congr ?_⟩
  cases x with
  | none => simp
  | some b => simp [hval b]

/-- A list clause on a text. -/
theorem decides_texts {a : Clause} {x : Option String} {i : ℕ} {vs : List String} (hne : vs ≠ [])
    (ha : Yields env a (Val.ofText? x)) (hp : env.param i = some (.texts vs)) :
    Decides env (.eqAny a (.param i .texts)) (∃ s, x = some s ∧ s ∈ vs) ∧
      Decides env (.and (.isNotNull a) (.neAll a (.param i .texts))) (∃ s, x = some s ∧ s ∉ vs) :=
  decides_list (fun _ h => by cases h) ha (Yields.texts hp)
    (by simp [Val.ofText?, eqAnyVal, neAllVal, hne]) fun _ => ⟨rfl, rfl⟩

/-- A list clause on a number. -/
theorem decides_ints {a : Clause} {x : Option ℤ} {i : ℕ} {ns : List ℤ} (hne : ns ≠ [])
    (ha : Yields env a (Val.ofInt? x)) (hp : env.param i = some (.ints ns)) :
    Decides env (.eqAny a (.param i .ints4)) (∃ m, x = some m ∧ m ∈ ns) ∧
      Decides env (.and (.isNotNull a) (.neAll a (.param i .ints4))) (∃ m, x = some m ∧ m ∉ ns) :=
  decides_list (fun _ h => by cases h) ha (Yields.ints hp)
    (by simp [Val.ofInt?, eqAnyVal, neAllVal, hne]) fun _ => ⟨rfl, rfl⟩

/-- The regular expression engines give the same answer on every pattern. -/
def SameRegex (C : Crates) (engine : String → String → Except Error Bool) : Prop :=
  ∀ p isMatch, C.regex p = some isMatch → ∀ s, engine p s = .ok (isMatch s)

/-- The clause of a check decides what the check says: a case for each check. -/
theorem buildCondition_decides (hre : SameRegex C env.regex) {t : ConditionTarget}
    (chk : Check C t) {x : Fact} (hx : x.HasKind t.kind)
    (ha : Yields env (.atom (.target t)) x.val)
    (hc : Covers env off (buildCondition chk.condition off binds).2) :
    Decides env (buildCondition chk.condition off binds).1 (chk.Holds x) := by
  cases chk with
  | is hk b =>
    cases x with
    | int | text => rw [hk] at hx; cases hx
    | bool a =>
      simp only [Check.condition, buildCondition, hk, Value.asBool, Option.getD_some] at hc ⊢
      have hy : Yields env (.cmp .eq (.paren (.atom (.target t)))
          (.param (off + binds.length + 1) .none)) (.bool (a == b)) :=
        Yields.strict rfl ha.paren (Yields.param hc.next) rfl
      exact (Decides.of_yields hy (isTruth_bool _)).congr (by simp [Check.Holds])
  | compare hk op n =>
    cases x with
    | bool | text => rw [hk] at hx; cases hx
    | int a =>
      simp only [Check.condition] at hc ⊢
      rw [buildCondition_compare hk] at hc ⊢
      refine (decides_cmp_int op.cmp ha.paren (Yields.param hc.next)).congr ?_
      cases a <;> simp [Check.Holds, CompareOp.ints_iff]
  | between hk lo hi =>
    cases x with
    | bool | text => rw [hk] at hx; cases hx
    | int a =>
      simp only [Check.condition, buildCondition, Value.asI64_ofI64, Option.getD_some,
        Option.bind_some] at hc ⊢
      have hlo := decides_cmp_int .ge ha.paren (Yields.param hc.next)
      have hhi := decides_cmp_int .le ha.paren (Yields.param hc.next_next)
      refine (hlo.and hhi).paren.congr ?_
      cases a <;> simp [Check.Holds, CmpOp.ints]
  | among hk ns hne =>
    cases x with
    | bool | text => rw [hk] at hx; cases hx
    | int a =>
      simp only [Check.condition, buildCondition, hk, if_true, intArray_ofI64, hne, if_false]
        at hc ⊢
      refine (decides_ints (mt List.map_eq_nil_iff.mp hne) ha.paren hc.next).1.congr ?_
      cases a <;> simp [Check.Holds]
  | notAmong hk ns hne =>
    cases x with
    | bool | text => rw [hk] at hx; cases hx
    | int a =>
      simp only [Check.condition, buildCondition, hk, if_true, intArray_ofI64, hne, if_false]
        at hc ⊢
      refine (decides_ints (mt List.map_eq_nil_iff.mp hne) ha.paren hc.next).2.paren.congr ?_
      cases a with
      | none => simp [Check.Holds]
      | some m =>
        simp only [Option.some.injEq, exists_eq_left', Check.Holds, mem_map_val]
        push Not
        exact Iff.rfl
  | equals hk s hs =>
    cases x with
    | bool | int => rw [hk] at hx; cases hx
    | text a =>
      simp only [Check.condition, buildCondition, hk, Value.asStr, Option.getD_some] at hc ⊢
      have heq : Decides env (.cmp .eq (.atom (.target t)) (.param (off + binds.length + 1) .none))
          (∃ u, a = some u ∧ (u == s) = true) := by
        refine Decides.of_option (fun ha' => ?_) fun u ha' => ?_
        · subst ha'
          exact Yields.strict rfl ha (Yields.param hc.next) rfl
        · subst ha'
          exact Yields.strict rfl ha (Yields.param hc.next) rfl
      refine heq.congr ?_
      cases a <;> simp [Check.Holds]
  | differs hk s hs =>
    cases x with
    | bool | int => rw [hk] at hx; cases hx
    | text a =>
      have hne : t.kind ≠ .int := by rw [hk]; decide
      simp only [Check.condition, buildCondition, hne, if_false, Value.asStr, Option.getD_some]
        at hc ⊢
      have hy : Yields env (.isDistinctFrom (.atom (.target t))
          (.param (off + binds.length + 1) .none)) (.bool ((Fact.text a).val != .text s)) :=
        Yields.strict rfl ha (Yields.param hc.next) rfl
      refine (Decides.of_yields hy (isTruth_bool _)).congr ?_
      cases a <;> simp [Check.Holds, Fact.val, Val.ofText?]
  | contains hk s =>
    cases x with
    | bool | int => rw [hk] at hx; cases hx
    | text a =>
      simp only [Check.condition, buildCondition, Value.asStr, Option.getD_some] at hc ⊢
      have hlike : Decides env (.like (.atom (.target t)) (.param (off + binds.length + 1) .none))
          (∃ u, a = some u ∧ decide (s.toList <:+: u.toList) = true) := by
        refine Decides.of_option (fun ha' => ?_) fun u ha' => ?_
        · subst ha'
          exact Yields.strict rfl ha (Yields.param hc.next) rfl
        · subst ha'
          exact Yields.strict rfl ha (Yields.param hc.next) (likeVal_escaped s u)
      refine hlike.congr ?_
      cases a <;> simp [Check.Holds]
  | regex hk p isMatch hp =>
    cases x with
    | bool | int => rw [hk] at hx; cases hx
    | text a =>
      simp only [Check.condition, buildCondition, Value.asStr, Option.getD_some] at hc ⊢
      have hregex : Decides env (.regex (.atom (.target t)) (.param (off + binds.length + 1) .none))
          (∃ u, a = some u ∧ isMatch u = true) := by
        refine Decides.of_option (fun ha' => ?_) fun u ha' => ?_
        · subst ha'
          exact Yields.strict rfl ha (Yields.param hc.next) rfl
        · subst ha'
          refine Yields.strict rfl ha (Yields.param hc.next) ?_
          show regexVal env.regex (.text u) (.text p) = .ok (.bool (isMatch u))
          simp only [regexVal, hre p isMatch hp u, Except.map]
      refine hregex.congr ?_
      cases a <;> simp [Check.Holds]
  | oneOf hk vs hne hvs =>
    cases x with
    | bool | int => rw [hk] at hx; cases hx
    | text a =>
      have hni : t.kind ≠ .int := by rw [hk]; decide
      simp only [Check.condition, buildCondition, hni, if_false, strArray_string, hne] at hc ⊢
      refine (decides_texts hne ha hc.next).1.congr ?_
      cases a <;> simp [Check.Holds]
  | noneOf hk vs hne hvs =>
    cases x with
    | bool | int => rw [hk] at hx; cases hx
    | text a =>
      have hni : t.kind ≠ .int := by rw [hk]; decide
      simp only [Check.condition, buildCondition, hni, if_false, strArray_string, hne] at hc ⊢
      refine (decides_texts hne ha hc.next).2.paren.congr ?_
      cases a <;> simp [Check.Holds]

/-! ### Groups and trees -/

/-- On a row that answers for facts `f`, a target that has a value has its fact's. -/
def Answers (env : Env Atom) (f : Facts) : Prop :=
  ∀ t, Yields env (.atom (.target t)) (f.fact t).val

variable {f : Facts} (hre : SameRegex C env.regex) (hf : Answers env f)

include hre hf

theorem wellFormed_decides {c : Condition} (hwf : c.WellFormed C)
    (hc : Covers env off (buildCondition c off binds).2) :
    Decides env (buildCondition c off binds).1 (evaluateSingle C c f = true) := by
  obtain ⟨chk, hchk⟩ := hwf
  generalize c.target = t at chk hchk
  subst hchk
  rw [evaluateSingle_iff]
  exact buildCondition_decides hre chk (f.fact_kind t) (hf t) hc

/-- The clauses of a list of conditions, one for each, decide them. -/
theorem buildConditions_decides : ∀ (cs : List Condition) (binds : List Bind),
    (∀ c ∈ cs, c.WellFormed C) → Covers env off (buildConditions off cs binds).2 →
    List.Forall₂ (fun e c => Decides env e (evaluateSingle C c f = true))
      (buildConditions off cs binds).1 cs
  | [], _, _, _ => .nil
  | c :: cs, binds, hwf, hc => by
    have hwf' := List.forall_mem_cons.mp hwf
    refine .cons ?_ (buildConditions_decides cs _ hwf'.2 hc)
    exact wellFormed_decides hre hf hwf'.1 (hc.of_longer ⟨_, (buildConditions_binds off cs _).symm⟩)

theorem buildGroup_decides {g : ConditionGroup} (hne : g.conditions ≠ [])
    (hwf : ∀ c ∈ g.conditions, c.WellFormed C) (hc : Covers env off (buildGroup g off binds).2) :
    Decides env (buildGroup g off binds).1
      (∀ c ∈ g.conditions, evaluateSingle C c f = true) := by
  obtain ⟨cs⟩ := g
  cases cs with
  | nil => exact absurd rfl hne
  | cons c cs =>
    exact (Decides.joinAnd (buildConditions_decides hre hf (c :: cs) binds hwf hc)).paren

theorem buildGroups_decides : ∀ (gs : List ConditionGroup) (binds : List Bind),
    (∀ g ∈ gs, g.conditions ≠ [] ∧ ∀ c ∈ g.conditions, c.WellFormed C) →
    Covers env off (buildGroups off gs binds).2 →
    List.Forall₂ (fun e g => Decides env e (∀ c ∈ g.conditions, evaluateSingle C c f = true))
      (buildGroups off gs binds).1 gs
  | [], _, _, _ => .nil
  | g :: gs, binds, hwf, hc => by
    have hwf' := List.forall_mem_cons.mp hwf
    refine .cons ?_ (buildGroups_decides gs _ hwf'.2 hc)
    exact buildGroup_decides hre hf hwf'.1.1 hwf'.1.2 (hc.of_longer ⟨_, (buildGroups_binds off gs _).symm⟩)

/-- The clause of a well-formed tree decides the tree's verdict. -/
theorem buildRuleWhere_decides {tree : RuleTree} (hwf : tree.WellFormed C)
    (hc : Covers env off (buildRuleWhere tree off).2) :
    Decides env (buildRuleWhere tree off).1 (evaluate C tree f = true) := by
  obtain ⟨grant, groups⟩ := tree
  rcases hwf with ⟨hg, -⟩ | ⟨hg, hne, hgs⟩
  · cases hg
    exact (Decides.lit true).congr (by simp [evaluate])
  · cases hg
    cases groups with
    | nil => exact absurd rfl hne
    | cons g gs =>
      have hd := (Decides.joinOr (buildGroups_decides hre hf (g :: gs) [] hgs hc)).paren
      refine hd.congr ?_
      rw [evaluate_iff]
      constructor
      · rintro ⟨g', hg', hall⟩
        exact Or.inr ⟨g', hg', (hgs g' hg').1, hall⟩
      · rintro (h | ⟨g', hg', -, hall⟩)
        · cases h
        · exact ⟨g', hg', hall⟩

omit hre hf

/-! ### The clause on a saved row -/

/-- Parameters that hold the binds of a clause cover them, whatever comes
before and after. -/
theorem covers_rowEnv (pg : Postgres) (row : BirthdayRow) (before after : List Val) (binds : List Bind) :
    Covers (rowEnv pg (before ++ binds.map Bind.val ++ after) row) before.length binds := by
  intro k b hb
  have hk : k < binds.length := (List.getElem?_eq_some_iff.mp hb).1
  rw [rowEnv_param, List.append_assoc,
    List.getElem?_append_right (by omega), Nat.add_sub_cancel_left,
    List.getElem?_append_left (by simpa using hk), List.getElem?_map, hb]
  rfl

theorem answers_rowEnv (h : row.Valid C) {params : List Val} {D : Date}
    (hD : pg.localDate row.tz = .ok D) : Answers (rowEnv pg params row) (row.facts D) := by
  intro t
  refine Yields.atom fun w hw => ?_
  have hw : targetValue row (pg.localDate row.tz) t = .ok w := hw
  rw [hD] at hw
  exact targetValue_ok h hw

/-- A clause that yields a result on a saved row yields true exactly when the
Rust evaluator accepts the row's facts, on the same local date. -/
theorem buildRuleWhere_agrees (C : Crates) (pg : Postgres) (hre : SameRegex C pg.regex)
    {body : RuleTreeBody} {tree : RuleTree} (hparse : parseRuleTree C body = .ok tree)
    {row : BirthdayRow} (hrow : row.Saved C) (localToday : String → Date)
    (hsame : pg.localDate row.tz = .ok (localToday row.tz)) (before after : List Val) {v : Val}
    (hv : .ok v ∈ (buildRuleWhere tree before.length).1.outcomes (rowEnv pg
      (before ++ (buildRuleWhere tree before.length).2.map Bind.val ++ after) row)) :
    v = .bool true ↔ evaluate C tree (computeFacts localToday row.input) = true := by
  rw [computeFacts_congr]
  have hd := buildRuleWhere_decides hre (answers_rowEnv hrow.valid hsame)
    (parseRuleTree_wellFormed hparse) (covers_rowEnv pg row before after _)
  exact (hd v hv).2

theorem sameRegex_ascii (D : Date) : SameRegex Crates.ascii (Postgres.ascii D).regex := by
  intro p isMatch h s
  obtain ⟨hp, hm⟩ : p.toList.all Char.isAlpha = true ∧
      some (fun s => Text.contains s p) = some isMatch := by
    simp only [Crates.ascii] at h
    split at h
    · exact ⟨‹_›, h⟩
    · cases h
  cases hm
  simp only [Postgres.ascii, hp, if_true]

/-- Born in August, with `eo` in the zodiac sign. -/
def leoBody : RuleTreeBody :=
  ⟨false, [⟨[⟨"birth_month", "in", .string "8, 9", none⟩,
    ⟨"zodiac_sign", "regex", .string "eo", none⟩]⟩]⟩

def leoTree : RuleTree :=
  ⟨false, [⟨[⟨.birthMonth, .in_, .array [.number (.int 8 (by decide)), .number (.int 9 (by decide))],
    none⟩, ⟨.zodiacSign, .regex, .string "eo", none⟩]⟩]⟩

theorem buildRuleWhere_agrees_leo : Val.bool true = .bool true ↔
    evaluate Crates.ascii leoTree (computeFacts (fun _ => janFirst 2024) leoRow.input) = true :=
  buildRuleWhere_agrees Crates.ascii (Postgres.ascii (janFirst 2024)) (sameRegex_ascii _)
    (show parseRuleTree Crates.ascii leoBody = .ok leoTree by rfl) leoRow_saved
    (fun _ => janFirst 2024) rfl [.null] [] (by decide)

end BirthdayRole
