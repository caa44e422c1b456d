/-
# What a sync run talks to

The calls of the sync engine and what they can answer: the Auth Gateway, the clock,
the statements on the database (a transaction is one of them) and RoleLogic. A call
that fails leaves everything as it was.

RoleLogic keeps a list of users for each link and takes at most `limits` of them one
by one; a chunked upload is staged under its id and swapped in by the commit.
-/
import Mathlib.Data.Finset.Card
import Mathlib.Data.Finset.Dedup
import Mathlib.Data.Finset.Erase
import Mathlib.Data.List.Sort
import Mathlib.Data.String.Basic
import BirthdayRole.Database
import BirthdayRole.RoleLogic

namespace BirthdayRole

open Json

/-! ### The database -/

/-- What the query can return on some rows, if it does not raise: the ids of those whose
condition came out true, in order, up to the limit. -/
def Query.Answers (q : Query) (postgres : Postgres) (rows : List BirthdayRow) (ids : List String) :
    Prop :=
  (∀ p ∈ q.params, p.hasNul = false) ∧ (∀ n ∈ q.limit, 0 ≤ n) ∧ ∃ keep : BirthdayRow → Bool,
    (∀ row ∈ rows, ∃ v, .ok v ∈ q.filter.outcomes (rowEnv postgres q.params row) ∧
      (keep row = true ↔ v = .bool true)) ∧
    ids = match q.limit with
      | some n => (((rows.filter keep).map BirthdayRow.discordId).insertionSort (· ≤ ·)).take n.toNat
      | none => ((rows.filter keep).map BirthdayRow.discordId).insertionSort (· ≤ ·)

inductive Statement where
  | selectLinks (guildIds : List String)
  | selectBirthday (discordId : String)
  | selectAssigned (discordId : String)
  | selectLink (link : LinkKey)
  | selectQualifying (q : Query)
  | selectCurrent (link : LinkKey)
  | existsAssigned (link : LinkKey)
  | insertAssignment (link : LinkKey) (discordId : String)
  | deleteAssignment (link : LinkKey) (discordId : String)
  /-- the transaction that deletes the rows of a link and inserts new ones -/
  | rewriteAssignments (link : LinkKey) (discordIds : List String)
  | clearAssignments (link : LinkKey)
  | deleteRoleLink (link : LinkKey)

abbrev Statement.Result : Statement → Type
  | selectLinks _ => List (LinkKey × String × Value)
  | selectBirthday _ => Option BirthdayInput
  | selectAssigned _ => List LinkKey
  | selectLink _ => Option (String × Value)
  | selectQualifying _ | selectCurrent _ => List String
  | existsAssigned _ => Bool
  | insertAssignment _ _ | deleteAssignment _ _ | rewriteAssignments _ _ | clearAssignments _
  | deleteRoleLink _ => Unit

namespace Database

/-- The users assigned to a link, in order. -/
def assigned (db : Database) (link : LinkKey) : List String :=
  ((db.assignments.rows.filter fun a : Assignment => a.link = link).map
    Assignment.discordId).insertionSort (· ≤ ·)

/-- `INSERT INTO role_assignments … ON CONFLICT DO NOTHING`; a row is its key. -/
def insertAssignment (db : Database) (link : LinkKey) (discordId : String) : Database :=
  { db with assignments := db.assignments.put ⟨link.1, link.2, discordId⟩ }

def deleteAssignment (db : Database) (link : LinkKey) (discordId : String) : Database :=
  { db with assignments := db.assignments.remove (link, discordId) }

def clearAssignments (db : Database) (link : LinkKey) : Database :=
  { db with assignments := db.cascade link }

def rewriteAssignments (db : Database) (link : LinkKey) (discordIds : List String) : Database :=
  discordIds.foldl (fun db id => db.insertAssignment link id) (db.clearAssignments link)

end Database

namespace Statement

/-- What a statement that does not fail can return. An insert needs the link, and
no user twice. -/
def Answers (postgres : Postgres) (db : Database) : (s : Statement) → s.Result → Prop
  | selectLinks guildIds, rows => rows.Perm
      ((db.roleLinks.rows.filter fun l : RoleLink => l.guildId ∈ guildIds).map
        fun l => (l.key, l.apiToken, l.ruleTree))
  | selectBirthday discordId, row => row = (db.birthdays.get? discordId).map BirthdayRow.input
  | selectAssigned discordId, links => links.Perm
      ((db.assignments.rows.filter fun a : Assignment => a.discordId = discordId).map Assignment.link)
  | selectLink link, row => row = (db.roleLinks.get? link).map fun l => (l.apiToken, l.ruleTree)
  | selectQualifying q, ids => q.Answers postgres db.birthdays.rows ids
  | selectCurrent link, ids => ids = db.assigned link
  | existsAssigned link, b => b = !(db.assigned link).isEmpty
  | insertAssignment link _, _ => (db.roleLinks.get? link).isSome = true
  | rewriteAssignments link ids, _ => ids.Nodup ∧ (ids = [] ∨ (db.roleLinks.get? link).isSome = true)
  | deleteAssignment _ _, _ => True
  | clearAssignments _, _ => True
  | deleteRoleLink _, _ => True

/-- The database after a statement. -/
def after (db : Database) : Statement → Database
  | insertAssignment link discordId => db.insertAssignment link discordId
  | deleteAssignment link discordId => db.deleteAssignment link discordId
  | rewriteAssignments link discordIds => db.rewriteAssignments link discordIds
  | clearAssignments link => db.clearAssignments link
  | deleteRoleLink link => db.deleteLink link.1 link.2
  | _ => db

/-- A statement that reads. -/
def Reads : Statement → Prop
  | selectLinks _ | selectBirthday _ | selectAssigned _ | selectLink _ | selectQualifying _
  | selectCurrent _ | existsAssigned _ => True
  | _ => False

theorem Reads.after {s : Statement} (h : s.Reads) (db : Database) : s.after db = db := by
  cases s <;> first | rfl | exact h.elim

end Statement

/-! ### RoleLogic -/

inductive RlCall where
  | getUserInfo
  | addUser (userId : String)
  | removeUser (userId : String)
  | replaceUsers (userIds : List String)
  | startUpload
  | uploadChunk (uploadId : String) (userIds : List String)
  | commitUpload (uploadId : String)
  | cancelUpload (uploadId : String)

namespace RlCall

abbrev Result : RlCall → Type
  | getUserInfo => Usize × Usize
  | addUser _ | removeUser _ => Bool
  | replaceUsers _ | commitUpload _ => Usize
  | startUpload => String
  | uploadChunk _ _ | cancelUpload _ => Unit

/-- What the client makes of the reply. -/
def client (H : HttpCrates) : (c : RlCall) → HttpReply → Except AppError c.Result
  | getUserInfo => RoleLogicClient.getUserInfo H
  | addUser _ => RoleLogicClient.addUser H
  | removeUser _ => RoleLogicClient.removeUser H
  | replaceUsers _ => RoleLogicClient.replaceUsers H
  | startUpload => RoleLogicClient.startUpload H
  | uploadChunk _ _ => RoleLogicClient.uploadChunk H
  | commitUpload _ => RoleLogicClient.commitUpload H
  | cancelUpload _ => RoleLogicClient.cancelUpload H

end RlCall

structure RoleLogic where
  lists : LinkKey → Finset String
  limits : LinkKey → Usize
  /-- the open uploads: their link, and the users staged so far -/
  uploads : String → Option (LinkKey × List String)

namespace RoleLogic

/-- What RoleLogic replies: the limit of the link, no new user on a full list, and
an upload id that is not in use. -/
def Replies (rl : RoleLogic) (H : HttpCrates) (link : LinkKey) : RlCall → HttpReply → Prop
  | .getUserInfo, reply => ∀ info, RoleLogicClient.getUserInfo H reply = .ok info →
      info.2 = rl.limits link
  | .addUser userId, reply => (rl.limits link).1 ≤ (rl.lists link).card → userId ∉ rl.lists link →
      RoleLogicClient.LimitError reply ∨ ∃ e, reply = .unreachable e
  | .startUpload, reply => ∀ id, RoleLogicClient.startUpload H reply = .ok id → rl.uploads id = none
  | _, _ => True

def setList (rl : RoleLogic) (link : LinkKey) (users : Finset String) : RoleLogic :=
  { rl with lists := Function.update rl.lists link users }

def setUpload (rl : RoleLogic) (id : String) (upload : Option (LinkKey × List String)) : RoleLogic :=
  { rl with uploads := Function.update rl.uploads id upload }

/-- RoleLogic after a call that it accepted. -/
def after (rl : RoleLogic) (link : LinkKey) : (c : RlCall) → c.Result → RoleLogic
  | .getUserInfo, _ => rl
  | .addUser userId, _ => rl.setList link (insert userId (rl.lists link))
  | .removeUser userId, _ => rl.setList link ((rl.lists link).erase userId)
  | .replaceUsers userIds, _ => rl.setList link userIds.toFinset
  | .startUpload, id => rl.setUpload id (some (link, []))
  | .uploadChunk id userIds, _ =>
    rl.setUpload id ((rl.uploads id).map fun u => (u.1, u.2 ++ userIds))
  | .commitUpload id, _ =>
    match rl.uploads id with
    | some u => (rl.setList link u.2.toFinset).setUpload id none
    | none => rl
  | .cancelUpload id, _ => rl.setUpload id none

/-- A commit swaps in what is staged under its id, if anything is. -/
theorem after_commitUpload (rl : RoleLogic) (link : LinkKey) (id : String) (n : Usize) :
    (rl.uploads id = none ∧ rl.after link (.commitUpload id) n = rl) ∨
    ∃ u, rl.uploads id = some u ∧
      rl.after link (.commitUpload id) n = (rl.setList link u.2.toFinset).setUpload id none := by
  cases hu : rl.uploads id with
  | none => exact Or.inl ⟨rfl, by simp only [after, hu]⟩
  | some u => exact Or.inr ⟨u, rfl, by simp only [after, hu]⟩

/-- No call changes a limit. -/
theorem limits_after (rl : RoleLogic) (link : LinkKey) (c : RlCall) (v : c.Result) :
    (rl.after link c v).limits = rl.limits := by
  cases c with
  | commitUpload id =>
    rcases rl.after_commitUpload link id v with ⟨-, he⟩ | ⟨u, -, he⟩
    · rw [he]
    · rw [he]
      rfl
  | _ => rfl

end RoleLogic

/-! ### The world -/

inductive SyncCall where
  | userGuildIds (discordId : String)
  | guildMemberIds (guildId : String)
  /-- the local date of each time zone -/
  | localToday
  | db (s : Statement)
  | roleLogic (link : LinkKey) (token : String) (c : RlCall)

abbrev SyncCall.Result : SyncCall → Type
  | userGuildIds _ | guildMemberIds _ => List String
  | localToday => String → Calendar.Date
  | db s => s.Result
  | roleLogic _ _ c => c.Result

structure World where
  db : Database
  roleLogic : RoleLogic
  /-- the members the Auth Gateway lists for a guild -/
  members : String → List String
  localToday : String → Calendar.Date
  postgres : Postgres

namespace World

/-- What a call can answer. -/
def Answers (H : HttpCrates) (w : World) : (c : SyncCall) → Except AppError c.Result → Prop
  | .userGuildIds discordId, r => ∃ reply, fetchUserGuildIds H reply = r ∧
      ∀ guildIds : List String, r = .ok guildIds → ∀ g, g ∈ guildIds ↔ discordId ∈ w.members g
  | .guildMemberIds guildId, r => ∃ reply, fetchGuildMemberIds H reply = r ∧
      ∀ ids : List String, r = .ok ids → ∀ d, d ∈ ids ↔ d ∈ w.members guildId
  | .localToday, r => r = .ok w.localToday
  | .db s, .ok rows => s.Answers w.postgres w.db rows
  | .db _, .error e => ∃ msg, e = .database msg
  | .roleLogic link _ c, r => ∃ reply, c.client H reply = r ∧ w.roleLogic.Replies H link c reply

/-- The world after a call that was answered. -/
def after (w : World) : (c : SyncCall) → c.Result → World
  | .db s, _ => { w with db := s.after w.db }
  | .roleLogic link _ c, v => { w with roleLogic := w.roleLogic.after link c v }
  | .userGuildIds _, _ => w
  | .guildMemberIds _, _ => w
  | .localToday, _ => w

/-- The world after a call; one that failed did nothing. -/
def effect (w : World) (c : SyncCall) : Except AppError c.Result → World
  | .ok v => w.after c v
  | .error _ => w

end World

end BirthdayRole
