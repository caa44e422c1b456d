/-
# The statements of a save of a rule (`role_config_save` of `routes/admin.rs`)

The tree is written over the version that the editor loaded, the new version is read
back, and the job of the link is enqueued; a save that finds another version asks
whether the link is there at all. Without faults this is the handler of `Routes`
(`outcome_none`).
-/
import BirthdayRole.Routes
import BirthdayRole.Lib.Faults

namespace BirthdayRole

open Json Prog Result

inductive ConfigStatement where
  /-- the `UPDATE` of a link that has the expected version -/
  | updateTree (tree : Value) (guildId roleId : String) (expected : ℤ)
  /-- `SELECT rule_tree_version`, of a link that may be gone -/
  | findVersion (guildId roleId : String)
  /-- the same of a link that is there -/
  | fetchVersion (guildId roleId : String)
  /-- `jobs::enqueue_config_sync` -/
  | enqueueConfigSync (guildId roleId : String)

namespace ConfigStatement

/-- An `UPDATE` returns the rows affected; a statement may be refused. -/
abbrev Res : ConfigStatement → Type
  | updateTree _ _ _ _ => Except AppError ℕ
  | findVersion _ _ => Option ℤ
  | fetchVersion _ _ => Except AppError ℤ
  | enqueueConfigSync _ _ => Unit

def apply (now : Time) : (op : ConfigStatement) → Database → op.Res × Database
  | updateTree tree guildId roleId expected, db =>
    match db.roleLinks.updateTree now tree guildId roleId expected with
    | .ok (links, n) => (.ok n, { db with roleLinks := links })
    | .error e => (.error e, db)
  | findVersion guildId roleId, db => (db.roleLinks.version? guildId roleId, db)
  | fetchVersion guildId roleId, db =>
    (okOr (db.roleLinks.version? guildId roleId)
      (.database "no rows returned by a query that expected to return at least one row"), db)
  | enqueueConfigSync guildId roleId, db =>
    ((), { db with jobs := db.jobs.enqueueConfigSync now guildId roleId })

end ConfigStatement

namespace ConfigWrites

abbrev Handler := Prog AppError ConfigStatement.Res Response

/-- After the version has been read; that the job could not be enqueued is only logged. -/
def enqueueAnd (guildId roleId : String) (newVersion : ℤ) : Handler := do
  let _ ← attempt (ConfigStatement.enqueueConfigSync guildId roleId)
  pure (.saved newVersion)

/-- After a save that affected a row. -/
def fetchAnd (guildId roleId : String) : Handler := do
  let fetched ← perform (ConfigStatement.fetchVersion guildId roleId)
  let newVersion ← .done fetched
  enqueueAnd guildId roleId newVersion

/-- After a save that affected none. -/
def refuse (guildId roleId : String) : Handler := do
  let found ← perform (ConfigStatement.findVersion guildId roleId)
  raise (if found.isSome then .staleVersion
    else .notFound "This role link doesn't exist. Has it been added in RoleLogic?")

def update (tree : Value) (guildId roleId : String) (expected : ℤ) : Handler := do
  let updated ← perform (ConfigStatement.updateTree tree guildId roleId expected)
  let affected ← .done updated
  if affected = 0 then refuse guildId roleId else fetchAnd guildId roleId

variable (C : Crates) (K : TokenCrates) (state : AppState) (around : Surroundings)
  (headers : Headers)

def roleConfigSave (guildId roleId : String) (ruleTreeVersion : ℤ) (tree : RuleTreeBody) : Handler := do
  let parsed ← .done (Routes.saveCheck C K state around headers guildId roleId tree)
  update parsed.toValue guildId roleId ruleTreeVersion

variable {C K state around headers}

/-- What an `UPDATE` that is not refused does: nothing, or it writes the tree over the
version it expects. -/
theorem updateTree_ok {links links' : RoleLinks} {now : Time} {tree : Value} {guildId roleId : String}
    {expected : ℤ} {n : ℕ} (h : links.updateTree now tree guildId roleId expected = .ok (links', n)) :
    (n = 0 ∧ links' = links) ∨ n = 1 ∧ ∃ l, links.get? (guildId, roleId) = some l ∧
      links' = links.put
        { l with ruleTree := tree, ruleTreeVersion := l.ruleTreeVersion + 1, updatedAt := now } := by
  unfold RoleLinks.updateTree at h
  split at h
  · cases h
  split at h
  · rename_i l hl
    split at h
    · split at h
      · cases h
        exact Or.inr ⟨rfl, l, hl, rfl⟩
      · cases h
    · cases h
      exact Or.inl ⟨rfl, rfl⟩
  · cases h
    exact Or.inl ⟨rfl, rfl⟩

/-- Without faults a save is what its handler makes of it. -/
theorem outcome_none (db : Database) (guildId roleId : String) (ruleTreeVersion : ℤ)
    (tree : RuleTreeBody) :
    (roleConfigSave C K state around headers guildId roleId ruleTreeVersion tree).under
      (ConfigStatement.apply around.now) .none 0 db =
      let handled := Routes.handle C K state around db
        ⟨.roleConfigSave guildId roleId ruleTreeVersion tree, headers⟩
      (some handled.2, handled.1) := by
  show _ = ((some (Routes.roleConfigSave C K state around db headers guildId roleId
    ruleTreeVersion tree).2, (Routes.roleConfigSave C K state around db headers guildId roleId
    ruleTreeVersion tree).1) : Option Reply × Database)
  unfold roleConfigSave Routes.roleConfigSave
  cases Routes.saveCheck C K state around headers guildId roleId tree with
  | error e => rfl
  | ok parsed =>
    rw [Routes.checked_ok rfl]
    refine (under_perform_ok rfl rfl).trans ?_
    simp only [ConfigStatement.apply]
    cases hup : db.roleLinks.updateTree around.now parsed.toValue guildId roleId ruleTreeVersion with
    | error e => rfl
    | ok updated =>
      obtain ⟨links, n⟩ := updated
      rcases updateTree_ok hup with ⟨rfl, rfl⟩ | ⟨rfl, l, -, -⟩
      · rfl
      · rw [Routes.checked_ok rfl]
        refine (under_perform_ok rfl rfl).trans ?_
        simp only [ConfigStatement.apply]
        cases links.version? guildId roleId <;> rfl

end ConfigWrites

end BirthdayRole
