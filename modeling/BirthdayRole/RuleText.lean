/-
# The text of a rule

`buildRuleWhere` numbers a parameter by the length of a vector that the conditions before
it have grown, some by two binds and some by none. The numbers in the text are all the
same those of the binds, in their order and without a gap (`buildRuleWhere_placeholders`),
and nothing of the values comes into the text: trees of one shape have one text
(`buildRuleWhere_congr`). The parameter that `sync_for_role_link` puts after them, for
the limit, is therefore its own.

A value does come into the pattern of a `LIKE`. There the three replacements of
`escapeLike` make each of its characters stand for itself (`like_contains`).
-/
import BirthdayRole.Lib.Placeholders
import BirthdayRole.RuleAgreement

namespace BirthdayRole

open Json Text Sql

theorem Atom.reads_name (a : Atom) : Reads a.name [] := by
  cases a with
  | target t => cases t <;> exact Reads.free (by decide)
  | discordId => exact Reads.free (by decide)

theorem reads_clause (e : Clause) : Reads (e.render Atom.name) e.params :=
  e.reads_render Atom.reads_name

/-! ### The numbers -/

/-- The parameters of a condition are those of its own binds. -/
theorem buildCondition_params (c : Condition) (off : ℕ) (binds : List Bind) :
    (buildCondition c off binds).1.params =
      List.range' (off + binds.length + 1) c.ownBinds.length := by
  unfold Condition.ownBinds buildCondition
  simp only [List.nil_append]
  split
  · split <;> rfl
  · split <;> rfl
  · rfl
  · rfl
  · rfl
  · rfl
  · rfl
  · rfl
  · rfl
  · split <;> split <;> rfl
  · split <;> split <;> rfl

theorem buildConditions_params (off : ℕ) : ∀ (cs : List Condition) (binds : List Bind),
    (buildConditions off cs binds).1.flatMap Expr.params =
      List.range' (off + binds.length + 1) (cs.flatMap Condition.ownBinds).length
  | [], _ => rfl
  | c :: cs, binds => by
    show (buildCondition c off binds).1.params ++
      (buildConditions off cs (buildCondition c off binds).2).1.flatMap Expr.params = _
    rw [buildConditions_params off cs, buildCondition_params, buildCondition_binds, List.flatMap_cons,
      List.length_append, List.length_append, ← List.range'_append_1]
    congr 2
    omega

theorem buildGroup_params (g : ConditionGroup) (off : ℕ) (binds : List Bind) :
    (buildGroup g off binds).1.params = List.range' (off + binds.length + 1) g.ownBinds.length := by
  obtain ⟨cs⟩ := g
  cases cs with
  | nil => rfl
  | cons c cs => exact (Expr.params_joinAnd _ _).trans (buildConditions_params off (c :: cs) binds)

theorem buildGroups_params (off : ℕ) : ∀ (gs : List ConditionGroup) (binds : List Bind),
    (buildGroups off gs binds).1.flatMap Expr.params =
      List.range' (off + binds.length + 1) (gs.flatMap ConditionGroup.ownBinds).length
  | [], _ => rfl
  | g :: gs, binds => by
    show (buildGroup g off binds).1.params ++
      (buildGroups off gs (buildGroup g off binds).2).1.flatMap Expr.params = _
    rw [buildGroups_params off gs, buildGroup_params, buildGroup_binds, List.flatMap_cons,
      List.length_append, List.length_append, ← List.range'_append_1]
    congr 2
    omega

theorem buildRuleWhere_params (tree : RuleTree) (off : ℕ) : (buildRuleWhere tree off).1.params =
    List.range' (off + 1) (buildRuleWhere tree off).2.length := by
  obtain ⟨grant, groups⟩ := tree
  cases grant with
  | true => rfl
  | false =>
    cases groups with
    | nil => rfl
    | cons g gs =>
      have hbinds := buildGroups_binds off (g :: gs) []
      have hparams := buildGroups_params off (g :: gs) []
      rw [List.nil_append] at hbinds
      rw [← hbinds] at hparams
      exact (Expr.params_joinOr _ _).trans hparams

/-! ### The shape of a tree -/

/-- The list of a condition that asks for one is empty. -/
def Condition.listEmpty (c : Condition) : Bool :=
  (c.operator == .in_ || c.operator == .notIn) &&
    if c.target.kind = .int then (intArray c).isEmpty else (strArray c).isEmpty

/-- What is left of a condition without its values. -/
def Condition.shape (c : Condition) : ConditionTarget × ConditionOperator × Bool :=
  (c.target, c.operator, c.listEmpty)

/-- What is left of a tree without the values of its conditions. -/
def RuleTree.shape (tree : RuleTree) : Bool × List (List (ConditionTarget × ConditionOperator × Bool)) :=
  (tree.grantOnAnyBirthday, tree.groups.map fun g => g.conditions.map Condition.shape)

/-- The same clause, and as many binds. -/
def SameClause {α : Type} (x y : α × List Bind) : Prop := x.1 = y.1 ∧ x.2.length = y.2.length

theorem listEmpty_eq {c : Condition} (hop : c.operator = .in_ ∨ c.operator = .notIn) : c.listEmpty =
    if c.target.kind = .int then (intArray c).isEmpty else (strArray c).isEmpty := by
  unfold Condition.listEmpty
  rcases hop with h | h <;> rw [h] <;> rfl

theorem buildCondition_congr {c c' : Condition} (h : c.shape = c'.shape) (off : ℕ)
    {binds binds' : List Bind} (hlen : binds.length = binds'.length) :
    SameClause (buildCondition c off binds) (buildCondition c' off binds') := by
  obtain ⟨t, op, v, e⟩ := c
  obtain ⟨t', op', v', e'⟩ := c'
  obtain ⟨rfl, hop, hlist⟩ : t = t' ∧ op = op' ∧
      Condition.listEmpty ⟨t, op, v, e⟩ = Condition.listEmpty ⟨t', op', v', e'⟩ := by
    simpa [Condition.shape] using h
  subst hop
  by_cases hop : op = .in_ ∨ op = .notIn
  · rw [listEmpty_eq hop, listEmpty_eq hop] at hlist
    by_cases hk : t.kind = .int
    · rw [if_pos hk, if_pos hk, Bool.eq_iff_iff, List.isEmpty_iff, List.isEmpty_iff] at hlist
      by_cases h0 : intArray ⟨t, op, v, e⟩ = []
      · have h0' := hlist.mp h0
        rcases hop with rfl | rfl <;> simp [SameClause, buildCondition, hk, h0, h0', hlen]
      · have h0' := mt hlist.mpr h0
        rcases hop with rfl | rfl <;> simp [SameClause, buildCondition, hk, h0, h0', hlen]
    · rw [if_neg hk, if_neg hk, Bool.eq_iff_iff, List.isEmpty_iff, List.isEmpty_iff] at hlist
      by_cases h0 : strArray ⟨t, op, v, e⟩ = []
      · have h0' := hlist.mp h0
        rcases hop with rfl | rfl <;> simp [SameClause, buildCondition, hk, h0, h0', hlen]
      · have h0' := mt hlist.mpr h0
        rcases hop with rfl | rfl <;> simp [SameClause, buildCondition, hk, h0, h0', hlen]
  · push Not at hop
    cases op with
    | eq => cases hk : t.kind <;> simp [SameClause, buildCondition, hk, hlen]
    | neq => by_cases hk : t.kind = .int <;> simp [SameClause, buildCondition, hk, hlen]
    | in_ => exact absurd rfl hop.1
    | notIn => exact absurd rfl hop.2
    | _ => simp [SameClause, buildCondition, hlen]

theorem buildConditions_congr (off : ℕ) : ∀ {cs cs' : List Condition} {binds binds' : List Bind},
    cs.map Condition.shape = cs'.map Condition.shape → binds.length = binds'.length →
    SameClause (buildConditions off cs binds) (buildConditions off cs' binds')
  | [], [], _, _, _, hlen => ⟨rfl, hlen⟩
  | c :: cs, c' :: cs', _, _, h, hlen => by
    rw [List.map_cons, List.map_cons, List.cons.injEq] at h
    obtain ⟨hclause, hbinds⟩ := buildCondition_congr h.1 off hlen
    obtain ⟨hclauses, hall⟩ := buildConditions_congr off h.2 hbinds
    exact ⟨congrArg₂ List.cons hclause hclauses, hall⟩

theorem buildGroup_congr {g g' : ConditionGroup}
    (h : g.conditions.map Condition.shape = g'.conditions.map Condition.shape) (off : ℕ)
    {binds binds' : List Bind} (hlen : binds.length = binds'.length) :
    SameClause (buildGroup g off binds) (buildGroup g' off binds') := by
  obtain ⟨cs⟩ := g
  obtain ⟨cs'⟩ := g'
  cases cs with
  | nil =>
    obtain rfl := List.map_eq_nil_iff.mp h.symm
    exact ⟨rfl, hlen⟩
  | cons c cs =>
    cases cs' with
    | nil => cases h
    | cons c' cs' =>
      obtain ⟨hclauses, hbinds⟩ := buildConditions_congr off h hlen
      obtain ⟨hclause, hrest⟩ := List.cons.inj hclauses
      exact ⟨congrArg Expr.paren (congrArg₂ Expr.joinAnd hclause hrest), hbinds⟩

theorem buildGroups_congr (off : ℕ) : ∀ {gs gs' : List ConditionGroup} {binds binds' : List Bind},
    gs.map (fun g => g.conditions.map Condition.shape) =
      gs'.map (fun g => g.conditions.map Condition.shape) → binds.length = binds'.length →
    SameClause (buildGroups off gs binds) (buildGroups off gs' binds')
  | [], [], _, _, _, hlen => ⟨rfl, hlen⟩
  | g :: gs, g' :: gs', _, _, h, hlen => by
    rw [List.map_cons, List.map_cons, List.cons.injEq] at h
    obtain ⟨hclause, hbinds⟩ := buildGroup_congr h.1 off hlen
    obtain ⟨hclauses, hall⟩ := buildGroups_congr off h.2 hbinds
    exact ⟨congrArg₂ List.cons hclause hclauses, hall⟩

/-- Trees of one shape have one clause. -/
theorem buildRuleWhere_congr {tree tree' : RuleTree} (h : tree.shape = tree'.shape) (off : ℕ) :
    SameClause (buildRuleWhere tree off) (buildRuleWhere tree' off) := by
  obtain ⟨grant, groups⟩ := tree
  obtain ⟨grant', groups'⟩ := tree'
  obtain ⟨hgrant, hgroups⟩ := Prod.mk.inj h
  obtain rfl : grant = grant' := hgrant
  cases grant with
  | true => exact ⟨rfl, rfl⟩
  | false =>
    cases groups with
    | nil =>
      obtain rfl := List.map_eq_nil_iff.mp hgroups.symm
      exact ⟨rfl, rfl⟩
    | cons g gs =>
      cases groups' with
      | nil => cases hgroups
      | cons g' gs' =>
        obtain ⟨hclauses, hbinds⟩ := buildGroups_congr off hgroups rfl
        obtain ⟨hclause, hrest⟩ := List.cons.inj hclauses
        exact ⟨congrArg Expr.paren (congrArg₂ Expr.joinOr hclause hrest), hbinds⟩

/-! ### The query of `sync_for_role_link` -/

/-- Its text. -/
def qualifyingText (tree : RuleTree) : String :=
  if tree.grantOnAnyBirthday then
    "SELECT discord_id FROM birthdays WHERE discord_id = ANY($1::text[]) " ++
      "ORDER BY discord_id LIMIT $2"
  else
    let (ruleWhere, binds) := buildRuleWhere tree 1
    let limitIdx := 1 + binds.length + 1
    "SELECT bt.discord_id FROM birthdays bt WHERE bt.discord_id = ANY($1::text[]) AND (" ++
      ruleWhere.render Atom.name ++ ") ORDER BY bt.discord_id LIMIT " ++ ("$" ++ toString limitIdx)

section

variable {tree : RuleTree} (hg : tree.grantOnAnyBirthday = false) (memberIds : List String)
  (userLimit : Usize)

include hg

theorem qualifyingQuery_length : (qualifyingQuery tree memberIds userLimit).params.length =
    1 + (buildRuleWhere tree 1).2.length + 1 := by
  simp [qualifyingQuery, hg, Nat.add_comm]

/-- Its filter is the one the query is evaluated by. -/
theorem qualifyingText_filter : qualifyingText tree =
    "SELECT bt.discord_id FROM birthdays bt WHERE " ++
      (qualifyingQuery tree memberIds userLimit).filter.render Atom.name ++
      " ORDER BY bt.discord_id LIMIT $" ++
      toString (qualifyingQuery tree memberIds userLimit).params.length := by
  have hmember : memberClause.render Atom.name = "bt.discord_id = ANY($1::text[])" := by rfl
  rw [qualifyingQuery_length hg]
  simp only [qualifyingText, qualifyingQuery, hg, Bool.false_eq_true, if_false, Expr.render, hmember]
  apply String.toList_injective
  simp

end

theorem qualifyingText_placeholders (tree : RuleTree) (memberIds : List String) (userLimit : Usize) :
    placeholders (qualifyingText tree).toList =
      List.range' 1 (qualifyingQuery tree memberIds userLimit).params.length := by
  cases hg : tree.grantOnAnyBirthday with
  | true =>
    simp only [qualifyingText, qualifyingQuery, hg, if_true]
    show _ = List.range' 1 2
    decide
  | false =>
    have hmembers : Reads
        "SELECT bt.discord_id FROM birthdays bt WHERE bt.discord_id = ANY($1::text[]) AND (" [1] :=
      ⟨by decide, by decide⟩
    have horder : Reads ") ORDER BY bt.discord_id LIMIT " [] := Reads.free (by decide)
    have hall := ((hmembers.append (reads_clause (buildRuleWhere tree 1).1)).after horder).append
      (Reads.param (1 + (buildRuleWhere tree 1).2.length + 1))
    rw [buildRuleWhere_params] at hall
    simp only [qualifyingText, hg, Bool.false_eq_true, if_false]
    rw [hall.placeholders_eq, qualifyingQuery_length hg, List.range'_1_concat,
      ← List.range'_append_1, Nat.add_comm 1 (1 + _), Nat.add_comm 1 _]
    rfl

theorem qualifyingText_congr {tree tree' : RuleTree} (h : tree.shape = tree'.shape) :
    qualifyingText tree = qualifyingText tree' := by
  obtain ⟨hclause, hbinds⟩ := buildRuleWhere_congr h 1
  have hgrant : tree.grantOnAnyBirthday = tree'.grantOnAnyBirthday := (Prod.mk.inj h).1
  simp only [qualifyingText, hgrant, hclause, hbinds]

/-- The numbers in the text of a rule are those of its binds, whatever the values are, and
the number of the limit comes after them. -/
theorem buildRuleWhere_placeholders (tree : RuleTree) (bindOffset : ℕ) :
    placeholders ((buildRuleWhere tree bindOffset).1.render Atom.name).toList =
      List.range' (bindOffset + 1) (buildRuleWhere tree bindOffset).2.length ∧
    (∀ other : RuleTree, other.shape = tree.shape →
      (buildRuleWhere other bindOffset).1.render Atom.name =
        (buildRuleWhere tree bindOffset).1.render Atom.name) ∧
    (∀ other : RuleTree, other.shape = tree.shape → qualifyingText other = qualifyingText tree) ∧
    (1 + (buildRuleWhere tree 1).2.length + 1 ∉
      placeholders ((buildRuleWhere tree 1).1.render Atom.name).toList) ∧
    ∀ memberIds userLimit,
      placeholders (qualifyingText tree).toList =
        List.range' 1 (qualifyingQuery tree memberIds userLimit).params.length ∧
      (qualifyingQuery tree memberIds userLimit).params.getLast? = some (.int userLimit.asI64) := by
  have hnumbers : ∀ off, placeholders ((buildRuleWhere tree off).1.render Atom.name).toList =
      List.range' (off + 1) (buildRuleWhere tree off).2.length := fun off =>
    (reads_clause _).placeholders_eq.trans (buildRuleWhere_params tree off)
  refine ⟨hnumbers bindOffset, ?_, ?_, ?_, ?_⟩
  · exact fun other h => congrArg (Expr.render Atom.name) (buildRuleWhere_congr h bindOffset).1
  · exact fun other h => qualifyingText_congr h
  · rw [hnumbers, List.mem_range'_1]
    omega
  · intro memberIds userLimit
    refine ⟨qualifyingText_placeholders tree memberIds userLimit, ?_⟩
    unfold qualifyingQuery
    by_cases hg : tree.grantOnAnyBirthday = true
    · rw [if_pos hg]
      rfl
    · rw [if_neg hg]
      exact List.getLast?_concat

/-! ### The pattern of `contains` -/

theorem toList_pattern (v : String) :
    ("%" ++ escapeLike v ++ "%").toList = '%' :: (Like.escaped v.toList ++ ['%']) := by
  rw [escapeLike_eq]
  simp

/-- The pattern of a text asks for the text as a part, as the evaluator does. -/
theorem like_contains (a v : String) :
    (Like.parse ("%" ++ escapeLike v ++ "%").toList).isSome = true ∧
    (Like.isMatch ("%" ++ escapeLike v ++ "%").toList a.toList = some true ↔
      ∃ s t, a = s ++ v ++ t) ∧
    (∀ (C : Crates) (target : ConditionTarget) (valueEnd : Option Value),
      stringMatch C ⟨target, .contains, .string v, valueEnd⟩ (some a) = true ↔
        Like.isMatch ("%" ++ escapeLike v ++ "%").toList a.toList = some true) ∧
    ∀ (target : ConditionTarget) (valueEnd : Option Value) (off : ℕ) (binds : List Bind),
      buildCondition ⟨target, .contains, .string v, valueEnd⟩ off binds =
        (.like (.atom (.target target)) (.param (off + binds.length + 1) .none),
          binds ++ [.text ("%" ++ escapeLike v ++ "%")]) := by
  have hmatch : Like.isMatch ("%" ++ escapeLike v ++ "%").toList a.toList = some true ↔
      v.toList <:+: a.toList := by
    rw [toList_pattern, Like.isMatch_escaped, Option.some_inj, decide_eq_true_eq]
  refine ⟨?_, ?_, ?_, ?_⟩
  · have hsome := Like.isMatch_escaped v.toList a.toList
    rw [← toList_pattern, Like.isMatch, Option.map_eq_some_iff] at hsome
    obtain ⟨toks, htoks, -⟩ := hsome
    rw [htoks]
    rfl
  · rw [hmatch]
    constructor
    · rintro ⟨s, t, h⟩
      refine ⟨.ofList s, .ofList t, String.toList_injective ?_⟩
      rw [String.toList_append, String.toList_append, String.toList_ofList, String.toList_ofList, h]
    · rintro ⟨s, t, rfl⟩
      rw [String.toList_append, String.toList_append]
      exact ⟨s.toList, t.toList, rfl⟩
  · intro C target valueEnd
    rw [hmatch]
    exact decide_eq_true_iff
  · exact fun target valueEnd off binds => rfl

end BirthdayRole
