/-
# Who should have the role of a link

The first so many, in the order of their ids, of the members of the guild whose
birthday satisfies the stored rule (`World.target`). It is what the query of
`sync_for_role_link` returns (`Query.Answers.eq_target`), and a member of the guild is
in it exactly if `sync_for_player` finds that they qualify (`qualifies_iff` in
`SyncPlayers`), as long as the link is not full.
-/
import BirthdayRole.QuerySafety
import BirthdayRole.RuleJson
import BirthdayRole.Sync

namespace BirthdayRole

open Json Sql

variable {C : Crates}

/-- A tree as a save has stored it, or the one every link starts with. -/
def StoredRule (C : Crates) (raw : Value) (tree : RuleTree) : Prop :=
  (raw = unconfiguredTree ∧ tree = default) ∨
    ∃ body, parseRuleTree C body = .ok tree ∧ raw = tree.toValue

theorem StoredRule.ruleTreeOf {raw : Value} {tree : RuleTree} (h : StoredRule C raw tree) :
    ruleTreeOf raw = tree := by
  rcases h with ⟨rfl, rfl⟩ | ⟨body, hparse, rfl⟩
  · exact ruleTreeOf_unconfigured
  · exact ruleTreeOf_toValue (parseRuleTree_wellFormed hparse)

theorem StoredRule.wellFormed {raw : Value} {tree : RuleTree} (h : StoredRule C raw tree)
    (hconf : tree.unconfigured = false) : tree.WellFormed C := by
  rcases h with ⟨rfl, rfl⟩ | ⟨body, hparse, rfl⟩
  · cases hconf
  · exact parseRuleTree_wellFormed hparse

/-- Whether a row is that of a member of the guild whose birthday satisfies the rule. -/
def World.Satisfies (C : Crates) (w : World) (link : LinkKey) (tree : RuleTree) (row : BirthdayRow) :
    Prop :=
  row.discordId ∈ w.members link.1 ∧ evaluate C tree (computeFacts w.localToday row.input) = true

instance (w : World) (link : LinkKey) (tree : RuleTree) (row : BirthdayRow) :
    Decidable (w.Satisfies C link tree row) := by
  unfold World.Satisfies
  infer_instance

/-- Those whose birthday does, in the order of their ids. -/
def World.satisfying (C : Crates) (w : World) (link : LinkKey) (tree : RuleTree) : List String :=
  ((w.db.birthdays.rows.filter fun row => w.Satisfies C link tree row).map
    BirthdayRow.discordId).insertionSort (· ≤ ·)

def World.target (C : Crates) (w : World) (link : LinkKey) (tree : RuleTree) : List String :=
  (w.satisfying C link tree).take (w.roleLogic.limits link).1

/-- A world in which a link is what its rows say: its row and its rule, saved birthdays, and
two engines that see the same dates and the same patterns. -/
structure World.Fit (C : Crates) (w : World) (link : LinkKey) (l : RoleLink) (tree : RuleTree) :
    Prop where
  row : w.db.roleLinks.get? link = some l
  rule : StoredRule C l.ruleTree tree
  birthdays : ∀ row ∈ w.db.birthdays.rows, row.Saved C
  dates : ∀ row ∈ w.db.birthdays.rows, w.postgres.localDate row.tz = .ok (w.localToday row.tz)
  regex : SameRegex C w.postgres.regex

section

variable {w : World} {link : LinkKey} {l : RoleLink} {tree : RuleTree} {memberIds : List String}

theorem satisfying_sorted (C : Crates) (w : World) (link : LinkKey) (tree : RuleTree) :
    (w.satisfying C link tree).Pairwise (· ≤ ·) := List.pairwise_insertionSort _ _

theorem satisfying_nodup (C : Crates) (w : World) (link : LinkKey) (tree : RuleTree) :
    (w.satisfying C link tree).Nodup := by
  unfold World.satisfying
  rw [(List.perm_insertionSort _ _).nodup_iff]
  exact w.db.birthdays.nodup.sublist (List.filter_sublist.map _)

theorem target_sorted (C : Crates) (w : World) (link : LinkKey) (tree : RuleTree) :
    (w.target C link tree).Pairwise (· ≤ ·) := (satisfying_sorted C w link tree).take

theorem target_nodup (C : Crates) (w : World) (link : LinkKey) (tree : RuleTree) :
    (w.target C link tree).Nodup := (satisfying_nodup C w link tree).take

theorem mem_satisfying {discordId : String} : discordId ∈ w.satisfying C link tree ↔
    ∃ row ∈ w.db.birthdays.rows, w.Satisfies C link tree row ∧ row.discordId = discordId := by
  unfold World.satisfying
  simp only [List.mem_insertionSort, List.mem_map, List.mem_filter, decide_eq_true_eq, and_assoc]

/-- The same by the birthday of the user. -/
theorem mem_satisfying_iff {discordId : String} : discordId ∈ w.satisfying C link tree ↔
    discordId ∈ w.members link.1 ∧ ∃ row, w.db.birthdays.get? discordId = some row ∧
      evaluate C tree (computeFacts w.localToday row.input) = true := by
  rw [mem_satisfying]
  constructor
  · rintro ⟨row, hrow, ⟨hmem, he⟩, rfl⟩
    exact ⟨hmem, row, Table.get?_eq_some.mpr ⟨hrow, rfl⟩, he⟩
  · rintro ⟨hmem, row, hget, he⟩
    obtain ⟨hrow, hid⟩ := Table.get?_eq_some.mp hget
    exact ⟨row, hrow, ⟨by rw [hid]; exact hmem, he⟩, hid⟩

/-- An unconfigured rule grants to nobody. -/
theorem target_unconfigured (h : tree.unconfigured = true) : w.target C link tree = [] := by
  have hnone : ∀ row, ¬w.Satisfies C link tree row := by
    rintro row ⟨-, he⟩
    obtain ⟨grant, groups⟩ := tree
    simp only [RuleTree.unconfigured, Bool.and_eq_true, Bool.not_eq_true'] at h
    simp [evaluate, h.1, h.2] at he
  have hnil : w.satisfying C link tree = [] := by
    rw [List.eq_nil_iff_forall_not_mem]
    intro d hd
    obtain ⟨row, -, hs, -⟩ := mem_satisfying.mp hd
    exact hnone row hs
  rw [World.target, hnil, List.take_nil]

theorem target_no_members (h : w.members link.1 = []) : w.target C link tree = [] := by
  have hnil : w.satisfying C link tree = [] := by
    rw [List.eq_nil_iff_forall_not_mem]
    intro d hd
    obtain ⟨row, -, ⟨hmem, -⟩, -⟩ := mem_satisfying.mp hd
    rw [h] at hmem
    exact absurd hmem List.not_mem_nil
  rw [World.target, hnil, List.take_nil]

/-! ### The query -/

/-- The clause on the members decides whether a row is one of theirs. -/
theorem memberClause_decides (pg : Postgres) (row : BirthdayRow) (hne : memberIds ≠ [])
    (params : List Val) :
    Decides (rowEnv pg (.texts memberIds :: params) row) memberClause (row.discordId ∈ memberIds) := by
  have hid : Yields (rowEnv pg (.texts memberIds :: params) row) (.atom .discordId)
      (Val.ofText? (some row.discordId)) := Yields.atom fun v hv => by cases hv; rfl
  refine (decides_texts hne hid rfl).1.congr ?_
  simp

/-- What the filter of the query decides on a row. -/
theorem qualifyingQuery_decides (hfit : w.Fit C link l tree) (hconf : tree.unconfigured = false)
    (hne : memberIds ≠ []) (userLimit : Usize) {row : BirthdayRow} (hrow : row ∈ w.db.birthdays.rows) :
    Decides (rowEnv w.postgres (qualifyingQuery tree memberIds userLimit).params row)
      (qualifyingQuery tree memberIds userLimit).filter
      (row.discordId ∈ memberIds ∧ evaluate C tree (computeFacts w.localToday row.input) = true) := by
  unfold qualifyingQuery
  by_cases hg : tree.grantOnAnyBirthday = true
  · simp only [hg, if_true]
    refine (memberClause_decides w.postgres row hne _).congr ?_
    simp [evaluate, hg]
  · simp only [hg]
    have hvalid := (hfit.birthdays row hrow).valid
    refine (memberClause_decides w.postgres row hne _).and (Decides.paren ?_)
    rw [computeFacts_congr]
    exact buildRuleWhere_decides hfit.regex (answers_rowEnv hvalid (hfit.dates row hrow))
      (hfit.rule.wellFormed hconf) (covers_rowEnv w.postgres row [.texts memberIds] _ _)

/-- The query returns the target. -/
theorem Query.Answers.eq_target (hfit : w.Fit C link l tree) (hconf : tree.unconfigured = false)
    (hne : memberIds ≠ []) (hmem : ∀ d, d ∈ memberIds ↔ d ∈ w.members link.1) {ids : List String}
    (h : (qualifyingQuery tree memberIds (w.roleLogic.limits link)).Answers w.postgres
      w.db.birthdays.rows ids) : ids = w.target C link tree := by
  obtain ⟨-, hlimit, keep, hkeep, hids⟩ := h
  have hq : (qualifyingQuery tree memberIds (w.roleLogic.limits link)).limit =
      some (w.roleLogic.limits link).asI64 := by
    unfold qualifyingQuery
    split <;> rfl
  have hfilter : w.db.birthdays.rows.filter keep =
      w.db.birthdays.rows.filter fun row => w.Satisfies C link tree row := by
    refine List.filter_congr fun row hrow => ?_
    obtain ⟨v, hv, hk⟩ := hkeep row hrow
    have hdecides := qualifyingQuery_decides hfit hconf hne (w.roleLogic.limits link) hrow v hv
    rw [Bool.eq_iff_iff, hk, hdecides.2, hmem, decide_eq_true_eq]
    rfl
  rw [hq] at hids hlimit
  have h63 := (Usize.asI64_nonneg _).mp (hlimit _ rfl)
  have hn : (w.roleLogic.limits link).asI64.toNat = (w.roleLogic.limits link).1 := by
    rw [Usize.asI64, if_pos h63]
    exact Int.toNat_natCast _
  rw [hids, hfilter]
  simp only [hn]
  rfl

end

end BirthdayRole
