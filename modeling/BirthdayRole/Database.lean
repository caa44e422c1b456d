/-
# The database

The five tables together, and the statements that touch more than one of them or
are written by the handlers of requests. The rows of `role_assignments` belong to
a link, and go with it.
-/
import BirthdayRole.Jobs
import BirthdayRole.RoleLinks

namespace BirthdayRole

/-- A row of `role_assignments`. -/
structure Assignment where
  guildId : String
  roleId : String
  discordId : String
  deriving DecidableEq

def Assignment.link (a : Assignment) : LinkKey := (a.guildId, a.roleId)

def Assignment.key (a : Assignment) : LinkKey × String := (a.link, a.discordId)

abbrev Assignments := Table Assignment.key

structure Database where
  roleLinks : RoleLinks
  assignments : Assignments
  birthdays : Birthdays
  settings : Table GuildSettings.guildId
  jobs : Jobs

namespace Database

def empty : Database := ⟨∅, ∅, ∅, ∅, .empty⟩

/-- `ON DELETE CASCADE` of a link. -/
def cascade (db : Database) (link : LinkKey) : Assignments :=
  db.assignments.deleteWhere fun a => a.link = link

/-- `DELETE FROM role_links WHERE guild_id = … AND role_id = …` -/
def deleteLink (db : Database) (guildId roleId : String) : Database :=
  { db with
    roleLinks := db.roleLinks.remove (guildId, roleId)
    assignments := db.cascade (guildId, roleId) }

/-- The same with `AND api_token = …`, and the rows affected. -/
def deleteOwnedLink (db : Database) (guildId roleId token : String) : Database × ℕ :=
  let deleted := db.roleLinks.deleteOwned guildId roleId token
  if deleted.2 = 0 then (db, 0)
  else ({ db with roleLinks := deleted.1, assignments := db.cascade (guildId, roleId) }, deleted.2)

/-- The two statements of `register`. -/
def register (db : Database) (now : Time) (guildId roleId token : String) : Database :=
  { db with
    roleLinks := db.roleLinks.upsertToken now guildId roleId token
    settings := match db.settings.get? guildId with
      | some _ => db.settings
      | none => db.settings.put ⟨guildId, "managers", now⟩ }

/-- A save that matched: the new tree of a link, and the job. -/
def saveTree (db : Database) (now : Time) (l : RoleLink) (tree : Json.Value) : Database :=
  { db with
    roleLinks := db.roleLinks.put
      { l with ruleTree := tree, ruleTreeVersion := l.ruleTreeVersion + 1, updatedAt := now }
    jobs := db.jobs.enqueueConfigSync now l.guildId l.roleId }

/-- `SELECT view_permission`, with what stands for a guild that has no row. -/
def viewPermission (db : Database) (guildId : String) : String :=
  ((db.settings.get? guildId).map GuildSettings.viewPermission).getD "managers"

def setViewPermission (db : Database) (now : Time) (guildId viewPermission : String) : Database :=
  { db with settings := db.settings.put ⟨guildId, viewPermission, now⟩ }

theorem deleteOwnedLink_eq (db : Database) (guildId roleId token : String) :
    db.deleteOwnedLink guildId roleId token =
      if (db.roleLinks.get? (guildId, roleId)).any fun l => l.apiToken = token then
        (db.deleteLink guildId roleId, 1)
      else (db, 0) := by
  unfold deleteOwnedLink RoleLinks.deleteOwned
  cases h : db.roleLinks.get? (guildId, roleId) with
  | none => rfl
  | some l =>
    by_cases ht : l.apiToken = token
    · simp [ht, deleteLink]
    · simp [ht]

end Database

end BirthdayRole
