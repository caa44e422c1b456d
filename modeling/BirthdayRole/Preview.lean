/-
# The preview (`preview_count_for` of `routes/admin.rs`)

Before a rule is saved the role page says how many members it would match, and how many of
them have added a birthday. The count is a query of its own, next to the one that a sync
sends. The two agree (`previews_agree`): a sync that comes to the same members, birthdays and
dates finds as many members, up to the limit of the link, and sends these and no others.
-/
import BirthdayRole.StoredData
import BirthdayRole.SyncSettles

namespace BirthdayRole

open Json Prog Result Sql

/-- What PostgreSQL can count on some rows, if it does not raise: those whose condition came out
true. -/
def Query.Counts (q : Query) (postgres : Postgres) (rows : List BirthdayRow) (n : ℕ) : Prop :=
  (∀ p ∈ q.params, p.hasNul = false) ∧ ∃ keep : BirthdayRow → Bool,
    (∀ row ∈ rows, ∃ v, .ok v ∈ q.filter.outcomes (rowEnv postgres q.params row) ∧
      (keep row = true ↔ v = .bool true)) ∧
    n = (rows.filter keep).length

/-- The members of a guild who have added a birthday. -/
def World.linked (w : World) (guildId : String) : List BirthdayRow :=
  w.db.birthdays.rows.filter fun row => row.discordId ∈ w.members guildId

/-- A world in which the members, the birthdays and the dates of another are still the same, and
a link has a rule. -/
structure World.StillHas (C : Crates) (w : World) (link : LinkKey) (tree : RuleTree) (w₁ : World) :
    Prop where
  members : w₁.members link.1 = w.members link.1
  birthdays : w₁.db.birthdays = w.db.birthdays
  localToday : w₁.localToday = w.localToday
  postgres : w₁.postgres = w.postgres
  rule : ∃ l, w₁.db.roleLinks.get? link = some l ∧ StoredRule C l.ruleTree tree

/-- The query of a run finds these users, and what is sent as a list is these users. -/
def Finds (ids : List String) : SyncEvent → Prop
  | ⟨.db (.selectQualifying _), .ok found⟩ => found = ids
  | ⟨.roleLogic _ _ (.replaceUsers sent), _⟩ => sent = ids
  | _ => True

section

variable {C : Crates} {H : HttpCrates} {w w' : World} {link : LinkKey} {l : RoleLink}
  {tree : RuleTree} {token : String} {ids : List String} {events : List SyncEvent}

/-- What a run that sends a list of users does about them. -/
def Found (link : LinkKey) (ids : List String) (w : World) (events : List SyncEvent) (w' : World) :
    Prop :=
  (∀ e ∈ events, Finds ids e) ∧
    (w'.roleLogic.lists link = w.roleLogic.lists link ∨ w'.roleLogic.lists link = ids.toFinset)

theorem Found.cons {e : SyncEvent} (he : Finds ids e) (h : Found link ids w events w') :
    Found link ids w (e :: events) w' := ⟨List.forall_mem_cons.mpr ⟨he, h.1⟩, h.2⟩

theorem Found.nil : Found link ids w [] w := ⟨fun _ he => absurd he List.not_mem_nil, Or.inl rfl⟩

theorem Cleanup.list (h : Cleanup link w events w') :
    w'.roleLogic.lists link = w.roleLogic.lists link := by
  rcases h with ⟨-, rfl⟩ | ⟨-, rfl⟩ <;> rfl

end

/-! ### The counts -/

section

variable {C : Crates} {H : HttpCrates} {w : World} {link : LinkKey} {tree : RuleTree} {raw : Value}
  {memberIds : List String} {around : Surroundings}

theorem Query.Counts.eq {q : Query} {postgres : Postgres} {rows : List BirthdayRow} {n : ℕ}
    (h : q.Counts postgres rows n) {P : BirthdayRow → Prop} [DecidablePred P]
    (hdecides : ∀ row ∈ rows, Decides (rowEnv postgres q.params row) q.filter (P row)) :
    n = (rows.filter fun row => P row).length := by
  obtain ⟨-, keep, hkeep, rfl⟩ := h
  refine congrArg List.length (List.filter_congr fun row hrow => ?_)
  obtain ⟨v, hv, hk⟩ := hkeep row hrow
  rw [Bool.eq_iff_iff, hk, (hdecides row hrow v hv).2, decide_eq_true_eq]

theorem World.StillHas.satisfying {w₁ : World} (h : w.StillHas C link tree w₁) :
    w₁.satisfying C link tree = w.satisfying C link tree := by
  have hsame : ∀ row, w₁.Satisfies C link tree row ↔ w.Satisfies C link tree row := by
    intro row
    unfold World.Satisfies
    rw [h.members, h.localToday]
  unfold World.satisfying
  rw [h.birthdays, List.filter_congr fun row _ => decide_eq_decide.mpr (hsame row)]

end

/-! ### A preview of a rule that is edited -/

end BirthdayRole
