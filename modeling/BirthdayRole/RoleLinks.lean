/-
# The `role_links` table

The statements of `routes/plugin.rs` and `routes/admin.rs` on it, each one atomic.
A link starts with the unconfigured tree in version 1. The version goes up by one
with every save, a save writes only over the version it expects, and a new
registration of a link that is there changes its token and nothing else.
-/
import BirthdayRole.Db
import BirthdayRole.RuleJson

namespace BirthdayRole

open Json

/-- The guild and the role. -/
abbrev LinkKey := String × String

/-- A row of `role_links`. -/
structure RoleLink where
  guildId : String
  roleId : String
  apiToken : String
  ruleTree : Value
  ruleTreeVersion : ℤ
  updatedAt : Time

def RoleLink.key (l : RoleLink) : LinkKey := (l.guildId, l.roleId)

abbrev RoleLinks := Table RoleLink.key

namespace RoleLinks

/-- `INSERT … ON CONFLICT (guild_id, role_id) DO UPDATE SET api_token = …` -/
def upsertToken (links : RoleLinks) (now : Time) (guildId roleId token : String) : RoleLinks :=
  links.put (match links.get? (guildId, roleId) with
    | some l => { l with apiToken := token, updatedAt := now }
    | none => ⟨guildId, roleId, token, unconfiguredTree, 1, now⟩)

/-- `DELETE … WHERE guild_id = … AND role_id = … AND api_token = …`, and the rows affected. -/
def deleteOwned (links : RoleLinks) (guildId roleId token : String) : RoleLinks × ℕ :=
  match links.get? (guildId, roleId) with
  | some l => if l.apiToken = token then (links.remove (guildId, roleId), 1) else (links, 0)
  | none => (links, 0)

/-- The optimistic `UPDATE` of a save, and the rows affected. The version is an `INTEGER`, and
`JSONB` takes no text with a U+0000. -/
def updateTree (links : RoleLinks) (now : Time) (tree : Value) (guildId roleId : String)
    (expected : ℤ) : Except AppError (RoleLinks × ℕ) :=
  if tree.hasNul then .error (.database "unsupported Unicode escape sequence")
  else match links.get? (guildId, roleId) with
  | some l =>
    if l.ruleTreeVersion = expected then
      if l.ruleTreeVersion + 1 < 2 ^ 31 then
        .ok (links.put
          { l with ruleTree := tree, ruleTreeVersion := l.ruleTreeVersion + 1, updatedAt := now }, 1)
      else .error (.database "integer out of range")
    else .ok (links, 0)
  | none => .ok (links, 0)

/-- `SELECT rule_tree_version` -/
def version? (links : RoleLinks) (guildId roleId : String) : Option ℤ :=
  (links.get? (guildId, roleId)).map RoleLink.ruleTreeVersion

variable {links links' : RoleLinks} {now : Time} {guildId roleId token : String}

/-- A registered link keeps its tree and version; a new one is unconfigured. -/
theorem get?_upsertToken (k : LinkKey) :
    (links.upsertToken now guildId roleId token).get? k =
      if k = (guildId, roleId) then
        some (match links.get? (guildId, roleId) with
          | some l => { l with apiToken := token, updatedAt := now }
          | none => ⟨guildId, roleId, token, unconfiguredTree, 1, now⟩)
      else links.get? k := by
  unfold upsertToken
  rw [Table.get?_put]
  cases h : links.get? (guildId, roleId) with
  | none => rfl
  | some l =>
    have hk : l.key = (guildId, roleId) := Table.key_of_get? h
    rw [show RoleLink.key { l with apiToken := token, updatedAt := now } = l.key from rfl, hk]

/-- The row a save writes over a link. -/
theorem get?_saved {tree : Value} {l : RoleLink} (h : links.get? (guildId, roleId) = some l)
    (k : LinkKey) :
    (links.put { l with ruleTree := tree, ruleTreeVersion := l.ruleTreeVersion + 1, updatedAt := now }).get?
        k = if k = (guildId, roleId) then
          some { l with ruleTree := tree, ruleTreeVersion := l.ruleTreeVersion + 1, updatedAt := now }
        else links.get? k := by
  have hk : l.key = (guildId, roleId) := Table.key_of_get? h
  rw [Table.get?_put, ← hk]
  rfl

/-- A save that affects a row found the version it expects, and writes the tree over it. -/
theorem updateTree_one {tree : Value} {expected : ℤ}
    (h : links.updateTree now tree guildId roleId expected = .ok (links', 1)) :
    ∃ l, links.get? (guildId, roleId) = some l ∧ l.ruleTreeVersion = expected ∧
      links'.get? (guildId, roleId) = some
        { l with ruleTree := tree, ruleTreeVersion := l.ruleTreeVersion + 1, updatedAt := now } := by
  unfold updateTree at h
  split at h
  · cases h
  split at h
  · rename_i l hl
    split at h
    · rename_i hv
      split at h
      · cases h
        exact ⟨l, hl, hv, by rw [get?_saved hl, if_pos rfl]⟩
      · cases h
    · cases h
  · cases h

end RoleLinks

end BirthdayRole
