/-
# Requests whose statements fail (`routes/`)

The handlers once more, as programs of their statements: each may fail with what PostgreSQL
or the connection says, and the process may stop before any of them (`Requests.outcome`). The
requests that write a birthday or a rule are those of `BirthdayWrites` and `ConfigWrites`.

A failure ends a request with a database error, but for three that answer it themselves: the
role page, the health probe and the status for DWEEB. Without failures these are the handlers
of `Routes` (`Requests.outcome_none`).
-/
import BirthdayRole.BirthdayWrites
import BirthdayRole.ConfigWrites

namespace BirthdayRole

open Json Prog Result

inductive RouteStatement where
  /-- the first statement of `register` -/
  | upsertToken (guildId roleId token : String)
  /-- the second, for a guild that has no settings -/
  | insertSettings (guildId : String)
  | findByToken (token : String)
  | findOwned (guildId roleId token : String)
  | deleteOwned (guildId roleId token : String)
  | selectToken (guildId roleId : String)
  /-- `SELECT rule_tree, rule_tree_version` -/
  | selectConfig (guildId roleId : String)
  | selectRule (guildId roleId : String)
  | selectViewPermission (guildId : String)
  | setViewPermission (guildId viewPermission : String)
  | count (q : Query)
  | selectMembers (memberIds : List String)
  | selectBirthday (discordId : String)
  | countLinks (guildId : String)
  /-- `SELECT 1` -/
  | ping

/-- The settings that `register` inserts for a guild that has none. -/
def Database.insertSettings (db : Database) (now : Time) (guildId : String) : Database :=
  { db with
    settings := match db.settings.get? guildId with
      | some _ => db.settings
      | none => db.settings.put ⟨guildId, "managers", now⟩ }

namespace RouteStatement

/-- A `DELETE` returns the rows affected; a count may be refused. -/
abbrev Res : RouteStatement → Type
  | upsertToken _ _ _ | insertSettings _ | setViewPermission _ _ | ping => Unit
  | findByToken _ => Option LinkKey
  | findOwned _ _ _ => Bool
  | deleteOwned _ _ _ | countLinks _ => ℕ
  | selectToken _ _ | selectViewPermission _ => Option String
  | selectConfig _ _ => Option (Value × ℤ)
  | selectRule _ _ => Option Value
  | count _ => Except AppError ℕ
  | selectMembers _ => List BirthdayRow
  | selectBirthday _ => Option BirthdayRow

/-- A statement that reads, and what it returns; a write leaves another database. -/
def apply (around : Surroundings) : (op : RouteStatement) → Database → op.Res × Database
  | upsertToken guildId roleId token, db =>
    ((), { db with roleLinks := db.roleLinks.upsertToken around.now guildId roleId token })
  | insertSettings guildId, db => ((), db.insertSettings around.now guildId)
  | findByToken token, db =>
    ((db.roleLinks.rows.find? fun l : RoleLink => l.apiToken = token).map RoleLink.key, db)
  | findOwned guildId roleId token, db =>
    ((db.roleLinks.get? (guildId, roleId)).any fun l => l.apiToken = token, db)
  | deleteOwned guildId roleId token, db =>
    let deleted := db.deleteOwnedLink guildId roleId token
    (deleted.2, deleted.1)
  | selectToken guildId roleId, db => (Routes.apiToken? db guildId roleId, db)
  | selectConfig guildId roleId, db =>
    ((db.roleLinks.get? (guildId, roleId)).map fun l => (l.ruleTree, l.ruleTreeVersion), db)
  | selectRule guildId roleId, db =>
    ((db.roleLinks.get? (guildId, roleId)).map RoleLink.ruleTree, db)
  | selectViewPermission guildId, db =>
    ((db.settings.get? guildId).map GuildSettings.viewPermission, db)
  | setViewPermission guildId viewPermission, db =>
    ((), db.setViewPermission around.now guildId viewPermission)
  | count q, db => (around.count q db.birthdays, db)
  | selectMembers memberIds, db => (listedRows db.birthdays memberIds, db)
  | selectBirthday discordId, db => (db.birthdays.get? discordId, db)
  | countLinks guildId, db =>
    ((db.roleLinks.rows.filter fun l : RoleLink => l.guildId = guildId).length, db)
  | ping, db => ((), db)

end RouteStatement

namespace Requests

abbrev Handler := Prog AppError RouteStatement.Res Response

section Handlers

variable (C : Crates) (K : TokenCrates) (state : AppState) (around : Surroundings)
  (headers : Headers)

/-! ### `routes/plugin.rs` -/

def register (guildId roleId : String) : Handler := do
  let token ← .done (extractToken headers)
  perform (RouteStatement.upsertToken guildId roleId token)
  perform (RouteStatement.insertSettings guildId)
  .done success

def getConfig : Handler := do
  let token ← .done (extractToken headers)
  let found ← perform (RouteStatement.findByToken token)
  let link ← .done (okOr found .unauthorized)
  .done (.ok (.json (Routes.buildIframeConfig state link.1 link.2)))

def postConfig (guildId roleId : String) : Handler := do
  let token ← .done (extractToken headers)
  let owned ← perform (RouteStatement.findOwned guildId roleId token)
  if owned then .done success else raise .unauthorized

def deleteConfig (guildId roleId : String) : Handler := do
  let token ← .done (extractToken headers)
  let deleted ← perform (RouteStatement.deleteOwned guildId roleId token)
  if deleted = 0 then raise .unauthorized else .done success

/-! ### `routes/admin.rs` -/

/-- The page shows the error of its statement. -/
def roleConfigPage (guildId roleId : String) (rlToken : Option String) : Handler :=
  match rlToken.filter (· ≠ "") with
  | some token => do
    let selected ← attempt (RouteStatement.selectToken guildId roleId)
    .done (.ok (Routes.entryPage (Routes.verifyIframeEntry K state around selected guildId roleId token)))
  | none => .done (.ok (Routes.managerPage K state around headers guildId))

def roleConfigData (guildId roleId : String) : Handler := do
  let _ ← .done (requireRoleConfigAccess K state around.now around.gateway headers guildId roleId)
  let found ← perform (RouteStatement.selectConfig guildId roleId)
  let link ← .done (okOr found
    (.notFound "This role link doesn't exist. Has it been added in RoleLogic?"))
  let viewPermission ← perform (RouteStatement.selectViewPermission guildId)
  .done (.ok (.roleConfigData
    { guildId := guildId
      roleId := roleId
      config := ruleTreeOf link.1
      ruleTreeVersion := link.2
      verifyUrl := state.baseUrl ++ "/verify?guild=" ++ guildId
      usersUrl := state.baseUrl ++ "/users/" ++ guildId
      viewPermission := viewPermission.getD "managers" }))

def previewCountFor (guildId : String) (tree : RuleTree) : Handler :=
  match around.gateway.memberIds guildId with
  | .error _ => .done (.ok (.preview (.unavailable ("Member list temporarily unavailable; preview " ++
      "will work once the Auth Gateway responds."))))
  | .ok memberIds =>
    if memberIds = [] then .done (.ok (.preview (.counted 0 0)))
    else do
      let counted ← perform (RouteStatement.count ⟨memberClause, [.texts memberIds], none⟩)
      let linked ← .done counted
      let counted ← perform (RouteStatement.count (matchingQuery tree memberIds))
      let matching ← .done counted
      .done (.ok (.preview (.counted matching linked)))

def roleConfigPreview (guildId roleId : String) : Handler := do
  let _ ← .done (requireRoleConfigAccess K state around.now around.gateway headers guildId roleId)
  let found ← perform (RouteStatement.selectRule guildId roleId)
  let rawTree ← .done (okOr found (.notFound "Role link not found."))
  previewCountFor around guildId (ruleTreeOf rawTree)

def roleConfigPreviewEdit (guildId roleId : String) (tree : RuleTreeBody) : Handler := do
  .done (requireOrigin state headers)
  let _ ← .done (requireRoleConfigAccess K state around.now around.gateway headers guildId roleId)
  let parsed ← .done (parseRuleTree C tree)
  previewCountFor around guildId parsed

/-! ### `routes/users.rs` -/

def setViewPermission (guildId viewPermission : String) : Handler := do
  .done (Routes.permissionCheck K state around headers guildId viewPermission)
  perform (RouteStatement.setViewPermission guildId viewPermission)
  .done (.ok (.viewPermission viewPermission))

def usersData (guildId : String) : Handler := do
  let viewPermission ← perform (RouteStatement.selectViewPermission guildId)
  let (memberIds, guildName) ← .done (viewerAccess (viewPermission.getD "managers")
    (viewer K state around.now around.gateway headers guildId))
  let rows ← perform (RouteStatement.selectMembers memberIds)
  .done (.ok (.users (usersResponse around.localToday guildId guildName rows)))

/-! ### `routes/verify.rs`, `routes/dweeb.rs`, `routes/health.rs` -/

def verifyStatus : Handler :=
  match readSession K state around.now headers with
  | .ok (discordId, name) => do
    let row ← perform (RouteStatement.selectBirthday discordId)
    .done (.ok (.verifyStatus (some name) (row.map (Routes.verifyBirthday around))))
  | .error _ => .done (.ok (.verifyStatus none none))

def dweebStatus (guild : Option String) : Handler :=
  match guild.filter Routes.isSnowflake with
  | some guildId => do
    match ← attempt (RouteStatement.countLinks guildId) with
    | .ok roleCount => .done (.ok (.dweebStatus guildId roleCount))
    | .error _ => .done (.ok .dweebUnavailable)
  | none => .done (.ok .dweebBadRequest)

def health : Handler := do
  let selected ← attempt RouteStatement.ping
  .done (.ok (.health selected.toBool))

/-- The routes that `BirthdayWrites` and `ConfigWrites` do not have. -/
def handler : Route → Handler
  | .register guildId roleId => register headers guildId roleId
  | .getConfig => getConfig state headers
  | .postConfig guildId roleId => postConfig headers guildId roleId
  | .deleteConfig guildId roleId => deleteConfig headers guildId roleId
  | .roleConfigPage guildId roleId rlToken => roleConfigPage K state around headers guildId roleId rlToken
  | .roleConfigData guildId roleId => roleConfigData K state around headers guildId roleId
  | .roleConfigPreview guildId roleId => roleConfigPreview K state around headers guildId roleId
  | .roleConfigPreviewEdit guildId roleId tree =>
    roleConfigPreviewEdit C K state around headers guildId roleId tree
  | .setViewPermission guildId vp => setViewPermission K state around headers guildId vp
  | .usersPage guildId => .done (.ok (.usersPage guildId))
  | .usersData guildId => usersData K state around headers guildId
  | .verifyPage => .done (.ok .verifyPage)
  | .verifyStatus => verifyStatus K state around headers
  | .verifyLogin => .done (.ok (Routes.verifyLogin state))
  | .favicon => .done (.ok .favicon)
  | .dweebStatus guild => dweebStatus guild
  | .health => health
  | .ready => .done (.ok (.ready state.draining))
  | .roleConfigSave _ _ _ _ | .verifySave _ | .verifyUnlink | .unrouted => .done (.ok .notRouted)

/-- What a request leads to: its answer, if it comes to one, and the database. -/
def outcome (db : Database) (request : HttpRequest) (F : Faults AppError) : Option Reply × Database :=
  match request.route with
  | .roleConfigSave guildId roleId version tree =>
    (ConfigWrites.roleConfigSave C K state around request.headers guildId roleId version tree).under
      (ConfigStatement.apply around.now) F 0 db
  | .verifySave body => BirthdayWrites.outcome C K state around request.headers db (.save body) F
  | .verifyUnlink => BirthdayWrites.outcome C K state around request.headers db .unlink F
  | route => (handler C K state around request.headers route).under (RouteStatement.apply around) F 0 db

end Handlers

/-- Statements that fail, each with what is said of it, in a process that does not stop. -/
def failing (fails : ℕ → Option String) : Faults AppError :=
  ⟨fun n => (fails n).map .database, fun _ => false⟩

/-! ### Without faults -/

section

variable {C : Crates} {K : TokenCrates} {state : AppState} {around : Surroundings} {db : Database}
  {headers : Headers}

theorem previewCountFor_none (guildId : String) (tree : RuleTree) (n : ℕ) :
    (previewCountFor around guildId tree).under (RouteStatement.apply around) .none n db =
      (some ((Routes.previewCountFor around db guildId tree).map .preview), db) := by
  unfold previewCountFor Routes.previewCountFor
  cases around.gateway.memberIds guildId with
  | error e => rfl
  | ok memberIds =>
    by_cases hnil : memberIds = []
    · simp only [if_pos hnil]
      rfl
    · simp only [if_neg hnil]
      refine (under_perform_ok rfl rfl).trans ?_
      show under _ _ (.done (around.count _ db.birthdays) >>= _) _ _ = _
      cases around.count ⟨memberClause, [.texts memberIds], none⟩ db.birthdays with
      | error e => rfl
      | ok linked =>
        refine (under_perform_ok rfl rfl).trans ?_
        show under _ _ (.done (around.count _ db.birthdays) >>= _) _ _ = _
        cases around.count (matchingQuery tree memberIds) db.birthdays <;> rfl

theorem register_none (guildId roleId : String) :
    (register headers guildId roleId).under (RouteStatement.apply around) .none 0 db =
      (some (Routes.register around db headers guildId roleId).2,
        (Routes.register around db headers guildId roleId).1) := by
  unfold register Routes.register
  cases extractToken headers <;> rfl

theorem getConfig_none : (getConfig state headers).under (RouteStatement.apply around) .none 0 db =
    (some (Routes.getConfig state db headers), db) := by
  unfold getConfig Routes.getConfig
  cases extractToken headers with
  | error e => rfl
  | ok token =>
    refine (under_perform_ok rfl rfl).trans ?_
    simp only [RouteStatement.apply]
    show _ = (some (okOr (db.roleLinks.rows.find? _) _ >>= _), db)
    cases db.roleLinks.rows.find? fun l : RoleLink => l.apiToken = token <;> rfl

theorem postConfig_none (guildId roleId : String) :
    (postConfig headers guildId roleId).under (RouteStatement.apply around) .none 0 db =
      (some (Routes.postConfig db headers guildId roleId), db) := by
  unfold postConfig Routes.postConfig
  cases extractToken headers with
  | error e => rfl
  | ok token =>
    refine (under_perform_ok rfl rfl).trans ?_
    simp only [RouteStatement.apply]
    show _ = (some (okOr (db.roleLinks.get? (guildId, roleId)) _ >>= _), db)
    rcases Option.eq_none_or_eq_some (db.roleLinks.get? (guildId, roleId)) with hl | ⟨l, hl⟩
    · simp only [hl]
      rfl
    · simp only [hl]
      show _ = (some (if l.apiToken ≠ token then _ else success), db)
      by_cases hown : l.apiToken = token
      · rw [if_neg (not_not.mpr hown), if_pos (by simp [hown])]
        rfl
      · rw [if_pos hown, if_neg (by simp [hown])]
        rfl

theorem deleteConfig_none (guildId roleId : String) :
    (deleteConfig headers guildId roleId).under (RouteStatement.apply around) .none 0 db =
      (some (Routes.deleteConfig db headers guildId roleId).2,
        (Routes.deleteConfig db headers guildId roleId).1) := by
  unfold deleteConfig Routes.deleteConfig
  cases extractToken headers with
  | error e => rfl
  | ok token =>
    refine (under_perform_ok rfl rfl).trans ?_
    rw [Routes.checked_ok rfl]
    show under _ _ (if (db.deleteOwnedLink guildId roleId token).2 = 0 then raise _ else .done success)
      1 (db.deleteOwnedLink guildId roleId token).1 = _
    by_cases hnone : (db.deleteOwnedLink guildId roleId token).2 = 0
    · rw [if_pos hnone, if_pos hnone]
      rfl
    · rw [if_neg hnone, if_neg hnone]
      rfl

theorem roleConfigPage_none (guildId roleId : String) (rlToken : Option String) :
    (roleConfigPage K state around headers guildId roleId rlToken).under (RouteStatement.apply around)
        .none 0 db =
      (some (.ok (Routes.roleConfigPage K state around db headers guildId roleId rlToken)), db) := by
  unfold roleConfigPage Routes.roleConfigPage
  cases rlToken.filter (· ≠ "") <;> rfl

theorem roleConfigData_none (guildId roleId : String) :
    (roleConfigData K state around headers guildId roleId).under (RouteStatement.apply around) .none 0
        db =
      (some (Routes.roleConfigData K state around db headers guildId roleId), db) := by
  unfold roleConfigData Routes.roleConfigData
  cases requireRoleConfigAccess K state around.now around.gateway headers guildId roleId with
  | error e => rfl
  | ok access =>
    refine (under_perform_ok rfl rfl).trans ?_
    simp only [RouteStatement.apply]
    show _ = (some (okOr (db.roleLinks.get? (guildId, roleId)) _ >>= _), db)
    cases db.roleLinks.get? (guildId, roleId) <;> rfl

theorem roleConfigPreview_none (guildId roleId : String) :
    (roleConfigPreview K state around headers guildId roleId).under (RouteStatement.apply around) .none
        0 db =
      (some (Routes.roleConfigPreview K state around db headers guildId roleId), db) := by
  unfold roleConfigPreview Routes.roleConfigPreview
  cases requireRoleConfigAccess K state around.now around.gateway headers guildId roleId with
  | error e => rfl
  | ok access =>
    refine (under_perform_ok rfl rfl).trans ?_
    simp only [RouteStatement.apply]
    show _ = (some (okOr (db.roleLinks.get? (guildId, roleId)) _ >>= _), db)
    cases db.roleLinks.get? (guildId, roleId) with
    | none => rfl
    | some l => exact previewCountFor_none guildId (ruleTreeOf l.ruleTree) 1

theorem roleConfigPreviewEdit_none (guildId roleId : String) (tree : RuleTreeBody) :
    (roleConfigPreviewEdit C K state around headers guildId roleId tree).under
        (RouteStatement.apply around) .none 0 db =
      (some (Routes.roleConfigPreviewEdit C K state around db headers guildId roleId tree), db) := by
  unfold roleConfigPreviewEdit Routes.roleConfigPreviewEdit
  cases requireOrigin state headers with
  | error e => rfl
  | ok =>
    cases requireRoleConfigAccess K state around.now around.gateway headers guildId roleId with
    | error e => rfl
    | ok access =>
      cases parseRuleTree C tree with
      | error e => rfl
      | ok parsed => exact previewCountFor_none guildId parsed 0

theorem setViewPermission_none (guildId viewPermission : String) :
    (setViewPermission K state around headers guildId viewPermission).under
        (RouteStatement.apply around) .none 0 db =
      (some (Routes.setViewPermission K state around db headers guildId viewPermission).2,
        (Routes.setViewPermission K state around db headers guildId viewPermission).1) := by
  unfold setViewPermission Routes.setViewPermission
  cases Routes.permissionCheck K state around headers guildId viewPermission <;> rfl

theorem usersData_none (guildId : String) :
    (usersData K state around headers guildId).under (RouteStatement.apply around) .none 0 db =
      (some ((BirthdayRole.usersData db.settings db.birthdays
        (viewer K state around.now around.gateway headers guildId) around.localToday guildId).map
          .users), db) := by
  refine (under_perform_ok rfl rfl).trans ?_
  unfold BirthdayRole.usersData usersAccess
  simp only [RouteStatement.apply]
  cases viewerAccess _ (viewer K state around.now around.gateway headers guildId) <;> rfl

theorem verifyStatus_none : (verifyStatus K state around headers).under (RouteStatement.apply around)
    .none 0 db = (some (.ok (Routes.verifyStatus K state around db headers)), db) := by
  unfold verifyStatus Routes.verifyStatus
  cases readSession K state around.now headers <;> rfl

theorem dweebStatus_none (guild : Option String) :
    (dweebStatus guild).under (RouteStatement.apply around) .none 0 db =
      (some (.ok (Routes.dweebStatus db guild)), db) := by
  unfold dweebStatus Routes.dweebStatus
  cases guild.filter Routes.isSnowflake <;> rfl

/-- A request none of whose statements fails is what its handler makes of it. -/
theorem outcome_none (db : Database) (request : HttpRequest) :
    outcome C K state around db request .none =
      let handled := Routes.handle C K state around db request
      (some handled.2, handled.1) := by
  obtain ⟨route, headers⟩ := request
  cases route with
  | register guildId roleId => exact register_none guildId roleId
  | getConfig => exact getConfig_none
  | postConfig guildId roleId => exact postConfig_none guildId roleId
  | deleteConfig guildId roleId => exact deleteConfig_none guildId roleId
  | roleConfigPage guildId roleId rlToken => exact roleConfigPage_none guildId roleId rlToken
  | roleConfigData guildId roleId => exact roleConfigData_none guildId roleId
  | roleConfigSave guildId roleId version tree =>
    exact ConfigWrites.outcome_none db guildId roleId version tree
  | roleConfigPreview guildId roleId => exact roleConfigPreview_none guildId roleId
  | roleConfigPreviewEdit guildId roleId tree => exact roleConfigPreviewEdit_none guildId roleId tree
  | setViewPermission guildId vp => exact setViewPermission_none guildId vp
  | usersData guildId => exact usersData_none guildId
  | verifyStatus => exact verifyStatus_none
  | verifySave body => exact BirthdayWrites.outcome_none db (.save body)
  | verifyUnlink => exact BirthdayWrites.outcome_none db .unlink
  | dweebStatus guild => exact dweebStatus_none guild
  | usersPage | verifyPage | verifyLogin | favicon | health | ready | unrouted => rfl

end

end Requests

end BirthdayRole
