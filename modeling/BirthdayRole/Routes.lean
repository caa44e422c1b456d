/-
# The routes (`routes/`)

`handle` is every route of the plugin: what a request does to the database and what
it is answered. A handler runs its checks first, in the order of the program
(`checked`), and none of them writes; what is left is a few statements.

`handle_writes` says once what a request can do to the database: nothing, or one of
six changes, each with the checks that passed. That the pages are rendered from
these answers is left out, and so are the catalogues of the role page, which are the
same for everybody.

Here every statement of a request is carried out, as far as its values allow; what becomes of
a request whose statements fail is in `Requests`.
-/
import BirthdayRole.Database
import BirthdayRole.Http
import BirthdayRole.RuleSql
import BirthdayRole.RuleValidator

namespace BirthdayRole

open Json Text Result

/-- What a request meets: the time, the gateway, and what PostgreSQL counts. -/
structure Surroundings where
  now : Time
  /-- the year of `now` in UTC -/
  thisYear : ℤ
  localToday : String → Calendar.Date
  gateway : Gateway
  /-- the rows of `birthdays` that pass the filter of a query -/
  count : Query → Birthdays → Except AppError ℕ

/-- No gateway, at a time. -/
def Surroundings.silent (now : Time) : Surroundings :=
  ⟨now, 1970, fun _ => janFirst 1970, .silent, fun _ _ => .ok 0⟩

/-- The routes with what the extractors take from the request. -/
inductive Route where
  | register (guildId roleId : String)
  | getConfig
  | postConfig (guildId roleId : String)
  | deleteConfig (guildId roleId : String)
  | roleConfigPage (guildId roleId : String) (rlToken : Option String)
  | roleConfigData (guildId roleId : String)
  | roleConfigSave (guildId roleId : String) (ruleTreeVersion : ℤ) (tree : RuleTreeBody)
  | roleConfigPreview (guildId roleId : String)
  | roleConfigPreviewEdit (guildId roleId : String) (tree : RuleTreeBody)
  | setViewPermission (guildId viewPermission : String)
  | usersPage (guildId : String)
  | usersData (guildId : String)
  | verifyPage
  | verifyStatus
  | verifyLogin
  | verifySave (body : SaveBody)
  | verifyUnlink
  | favicon
  | dweebStatus (guild : Option String)
  | health
  | ready
  /-- no route, or one whose path, query or body is refused before the handler -/
  | unrouted

structure HttpRequest where
  route : Route
  headers : Headers

/-! ### Answers -/

structure RoleConfigData where
  guildId : String
  roleId : String
  config : RuleTree
  ruleTreeVersion : ℤ
  verifyUrl : String
  usersUrl : String
  viewPermission : String

inductive Preview where
  | unavailable (reason : String)
  | counted (matching linked : ℕ)

structure VerifyBirthday where
  month : ℤ
  day : ℤ
  year : Option ℤ
  tz : String
  showYear : Bool
  zodiac : String
  chineseZodiac : Option String
  season : String
  birthstone : String
  weekday : Option String
  age : Option ℤ
  daysUntil : ℤ
  isToday : Bool

inductive Response where
  | json (body : Value)
  | roleConfigPage (iframeSession : Option String) (readOnly : Bool)
  /-- `render_inline_error` -/
  | inlineError (message : String)
  | iframeNoToken
  | signinPage (reason : String)
  | roleConfigData (data : RoleConfigData)
  | saved (ruleTreeVersion : ℤ)
  | preview (p : Preview)
  | viewPermission (viewPermission : String)
  | usersPage (guildId : String)
  | users (r : UsersResponse)
  | verifyPage
  | verifyStatus (discordUsername : Option String) (birthday : Option VerifyBirthday)
  | redirect (url : String)
  | favicon
  | dweebStatus (guildId : String) (roleCount : ℕ)
  | dweebBadRequest
  | dweebUnavailable
  | health (dbOk : Bool)
  | ready (draining : Bool)
  | notRouted

abbrev Reply := Except AppError Response

/-- `Display` of an error. -/
def AppError.display : AppError → String
  | .database e => "Database error: " ++ e
  | .roleLogic e => "RoleLogic API error: " ++ e
  | .roleLinkNotFound => "Role link not found on RoleLogic"
  | .roleLinkDisabled => "Role link is disabled or paused on RoleLogic"
  | .roleLinkRemovalHeld previous next =>
    "Role link removal held for confirmation (" ++ toString previous ++ " -> " ++ toString next ++
      " users)"
  | .userLimitReached limit => "Role link user limit reached (" ++ toString limit ++ ")"
  | .badRequest msg => "Invalid request: " ++ msg
  | .unauthorized => "Unauthorized"
  | .unauthorizedWith msg => "Unauthorized: " ++ msg
  | .forbidden msg => "Forbidden: " ++ msg
  | .notFound msg => "Not found: " ++ msg
  | .staleVersion => "Configuration was edited; reload and try again"
  | .internal e => "Internal error: " ++ e

/-- A check, and the rest of the handler if it passes. -/
def checked {α : Type} (db : Database) (check : Except AppError α) (rest : α → Database × Reply) :
    Database × Reply :=
  match check with
  | .ok a => rest a
  | .error e => (db, .error e)

def success : Reply := .ok (.json (.object [("success", .bool true)]))

namespace Routes

section Handlers

variable (C : Crates) (K : TokenCrates) (state : AppState) (around : Surroundings) (db : Database)
  (headers : Headers)

/-! ### `routes/plugin.rs` -/

def register (guildId roleId : String) : Database × Reply :=
  checked db (extractToken headers) fun token =>
    (db.register around.now guildId roleId token, success)

def buildIframeConfig (guildId roleId : String) : Value :=
  .object [("version", .number (.int 1 (by decide))), ("ui_mode", .string "iframe"),
    ("name", .string "Birthday Role"),
    ("description", .string ("Automatically grant Discord roles from members' self-reported " ++
      "birthdays — birthday-of-the-day, birthday week/month, zodiac, season, age and more, " ++
      "all timezone-aware.")),
    ("embed_url", .string (state.baseUrl ++ "/admin/" ++ guildId ++ "/role/" ++ roleId)),
    ("supports_impersonation_readonly", .bool true)]

/-- The link of a token; of several, the one the query finds first. -/
def getConfig : Reply := do
  let token ← extractToken headers
  let link ← okOr (db.roleLinks.rows.find? fun l : RoleLink => l.apiToken = token) .unauthorized
  .ok (.json (buildIframeConfig state link.guildId link.roleId))

def postConfig (guildId roleId : String) : Reply := do
  let token ← extractToken headers
  let link ← okOr (db.roleLinks.get? (guildId, roleId)) .unauthorized
  if link.apiToken ≠ token then .error .unauthorized else success

def deleteConfig (guildId roleId : String) : Database × Reply :=
  checked db (extractToken headers) fun token =>
    let deleted := db.deleteOwnedLink guildId roleId token
    if deleted.2 = 0 then (deleted.1, .error .unauthorized) else (deleted.1, success)

/-! ### `routes/admin.rs` -/

def entryMessage : RlTokenError → String
  | .expired => "Your session expired. Reopen the plugin in the RoleLogic dashboard."
  | .badSignature | .malformed => "Invalid auth token."
  | .wrongAudience => "Token is for a different plugin."
  | .wrongIssuer => "Token was not issued by RoleLogic."

/-- `SELECT api_token`, of a link that may not be there -/
def apiToken? (guildId roleId : String) : Option String :=
  (db.roleLinks.get? (guildId, roleId)).map RoleLink.apiToken

/-- The iframe session for a JWT, and its read-only flag, by what the `SELECT` of the token of
the link gave; the page that refuses a JWT shows why, the error of the `SELECT` included. -/
def verifyIframeEntry (selected : Except AppError (Option String)) (guildId roleId rlToken : String) :
    Except String (String × Bool) := do
  let found ← selected.mapError AppError.display
  let apiToken ← okOr found "This role link isn't registered with this plugin yet."
  let verified ← (verify K around.now rlToken apiToken state.baseUrl).mapError entryMessage
  if verified.guildId ≠ guildId ∨ verified.roleId ≠ roleId then
    .error "Token does not match this role link."
  else
    .ok (mintIframeSession K around.now verified.discordId guildId roleId verified.readOnly
      state.sessionSecret, verified.readOnly)

def looksEmbedded : Bool :=
  let dest := toAsciiLowercase (headers.secFetchDest.getD "")
  dest = "iframe" || dest = "frame" ||
    toAsciiLowercase (headers.secFetchSite.getD "") = "cross-site"

/-- The role page for a JWT. -/
def entryPage (entry : Except String (String × Bool)) : Response :=
  match entry with
  | .ok (iframeSession, readOnly) => .roleConfigPage (some iframeSession) readOnly
  | .error message => .inlineError message

/-- The role page for a cookie. -/
def managerPage (guildId : String) : Response :=
  match requireManager K state around.now around.gateway headers guildId with
  | .ok _ => .roleConfigPage none false
  | .error e => if looksEmbedded headers then .iframeNoToken else .signinPage e.display

def roleConfigPage (guildId roleId : String) (rlToken : Option String) : Response :=
  match rlToken.filter (· ≠ "") with
  | some token =>
    entryPage (verifyIframeEntry K state around (.ok (apiToken? db guildId roleId)) guildId roleId token)
  | none => managerPage K state around headers guildId

def roleConfigData (guildId roleId : String) : Reply := do
  let _ ← requireRoleConfigAccess K state around.now around.gateway headers guildId roleId
  let link ← okOr (db.roleLinks.get? (guildId, roleId))
    (.notFound "This role link doesn't exist. Has it been added in RoleLogic?")
  .ok (.roleConfigData
    { guildId := guildId
      roleId := roleId
      config := ruleTreeOf link.ruleTree
      ruleTreeVersion := link.ruleTreeVersion
      verifyUrl := state.baseUrl ++ "/verify?guild=" ++ guildId
      usersUrl := state.baseUrl ++ "/users/" ++ guildId
      viewPermission := db.viewPermission guildId })

/-- The checks of a save, and the tree that is to be stored. -/
def saveCheck (guildId roleId : String) (tree : RuleTreeBody) : Except AppError RuleTree := do
  requireOrigin state headers
  let access ← requireRoleConfigAccess K state around.now around.gateway headers guildId roleId
  if access.readOnly then
    .error (.forbidden "This configuration is read-only while impersonating a user.")
  else parseRuleTree C tree

def roleConfigSave (guildId roleId : String) (ruleTreeVersion : ℤ) (tree : RuleTreeBody) :
    Database × Reply :=
  checked db (saveCheck C K state around headers guildId roleId tree) fun parsed =>
    checked db (db.roleLinks.updateTree around.now parsed.toValue guildId roleId ruleTreeVersion)
      fun updated =>
        if updated.2 = 0 then
          (db, .error (if (db.roleLinks.version? guildId roleId).isSome then .staleVersion
            else .notFound "This role link doesn't exist. Has it been added in RoleLogic?"))
        else
          let newVersion := okOr (updated.1.version? guildId roleId)
            (.database "no rows returned by a query that expected to return at least one row")
          checked { db with roleLinks := updated.1 } newVersion fun v =>
            ({ db with
              roleLinks := updated.1
              jobs := db.jobs.enqueueConfigSync around.now guildId roleId }, .ok (.saved v))

def previewCountFor (guildId : String) (tree : RuleTree) : Except AppError Preview :=
  match around.gateway.memberIds guildId with
  | .error _ => .ok (.unavailable ("Member list temporarily unavailable; preview will work once " ++
      "the Auth Gateway responds."))
  | .ok memberIds =>
    if memberIds = [] then .ok (.counted 0 0)
    else do
      let linked ← around.count ⟨memberClause, [.texts memberIds], none⟩ db.birthdays
      let matching ← around.count (matchingQuery tree memberIds) db.birthdays
      .ok (.counted matching linked)

def roleConfigPreview (guildId roleId : String) : Reply := do
  let _ ← requireRoleConfigAccess K state around.now around.gateway headers guildId roleId
  let link ← okOr (db.roleLinks.get? (guildId, roleId)) (.notFound "Role link not found.")
  (previewCountFor around db guildId (ruleTreeOf link.ruleTree)).map .preview

def roleConfigPreviewEdit (guildId roleId : String) (tree : RuleTreeBody) : Reply := do
  requireOrigin state headers
  let _ ← requireRoleConfigAccess K state around.now around.gateway headers guildId roleId
  let parsed ← parseRuleTree C tree
  (previewCountFor around db guildId parsed).map .preview

/-! ### `routes/users.rs` -/

def permissionCheck (guildId viewPermission : String) : Except AppError Unit := do
  requireOrigin state headers
  let _ ← requireGuildAdmin K state around.now around.gateway headers guildId
  if viewPermission ∈ ["disabled", "managers", "members"] then .ok ()
  else .error (.badRequest ("Unknown view_permission '" ++ viewPermission ++
    "' (expected disabled|managers|members)."))

def setViewPermission (guildId viewPermission : String) : Database × Reply :=
  checked db (permissionCheck K state around headers guildId viewPermission) fun _ =>
    (db.setViewPermission around.now guildId viewPermission, .ok (.viewPermission viewPermission))

/-! ### `routes/verify.rs` -/

def verifyBirthday (r : BirthdayRow) : VerifyBirthday :=
  let f := computeFacts around.localToday r.input
  { month := r.birthMonth
    day := r.birthDay
    year := r.birthYear
    tz := r.tz
    showYear := r.showYear
    zodiac := f.zodiac
    chineseZodiac := f.chineseZodiac
    season := f.season
    birthstone := f.birthstone
    weekday := f.weekday
    age := f.ageYears
    daysUntil := f.daysUntil
    isToday := f.isToday }

def verifyStatus : Response :=
  match readSession K state around.now headers with
  | .ok (discordId, name) =>
    .verifyStatus (some name) ((db.birthdays.get? discordId).map (verifyBirthday around))
  | .error _ => .verifyStatus none none

/-- What follows the host of a URL. -/
def pathOnly (baseUrl : String) : String :=
  match (baseUrl.toList.tails.find? fun cs => "://".toList.isPrefixOf cs).map fun cs =>
      (cs.drop 3).dropWhile (· ≠ '/') with
  | some cs => trimEndMatches '/' (.ofList cs)
  | none => ""

/-- Percent-encoding of what is no letter, digit, `-`, `_`, `.` or `~`. -/
def urlEncode (s : String) : String :=
  .ofList ((bytes s).flatMap fun b =>
    let c := Char.ofNat b.toNat
    if c.isAlphanum || c ∈ ['-', '_', '.', '~'] then [c]
    else ['%', (Nat.digitChar (b.toNat / 16)).toUpper, (Nat.digitChar (b.toNat % 16)).toUpper])

def verifyLogin : Response :=
  .redirect (state.authGatewayUrl ++ "/auth/login?return_to=" ++
    urlEncode (pathOnly state.baseUrl ++ "/verify"))

def verifySave (body : SaveBody) : Database × Reply :=
  checked db (do
      verifyOrigin headers state.allowedOrigins
      let session ← readSession K state around.now headers
      verifySaveRow C around.thisYear around.now session.1 session.2 body) fun row =>
    ({ db with
      birthdays := db.birthdays.put row
      jobs := db.jobs.enqueuePlayerSync around.now row.discordId }, success)

def verifyUnlink : Database × Reply :=
  checked db (do
      verifyOrigin headers state.allowedOrigins
      let session ← readSession K state around.now headers
      let _ ← okOr (db.birthdays.get? session.1) (.notFound "No saved birthday to remove.")
      .ok session.1) fun discordId =>
    ({ db with
      birthdays := db.birthdays.remove discordId
      jobs := db.jobs.enqueuePlayerSync around.now discordId }, success)

/-! ### `routes/dweeb.rs` -/

def isSnowflake (s : String) : Bool :=
  decide (15 ≤ s.length ∧ s.length ≤ 25) && s.toList.all Char.isDigit

def dweebStatus (guild : Option String) : Response :=
  match guild.filter isSnowflake with
  | some guildId =>
    .dweebStatus guildId (db.roleLinks.rows.filter fun l : RoleLink => l.guildId = guildId).length
  | none => .dweebBadRequest

end Handlers

/-- Every route. -/
def handle (C : Crates) (K : TokenCrates) (state : AppState) (around : Surroundings) (db : Database)
    (request : HttpRequest) : Database × Reply :=
  let headers := request.headers
  match request.route with
  | .register guildId roleId => register around db headers guildId roleId
  | .getConfig => (db, getConfig state db headers)
  | .postConfig guildId roleId => (db, postConfig db headers guildId roleId)
  | .deleteConfig guildId roleId => deleteConfig db headers guildId roleId
  | .roleConfigPage guildId roleId rlToken =>
    (db, .ok (roleConfigPage K state around db headers guildId roleId rlToken))
  | .roleConfigData guildId roleId => (db, roleConfigData K state around db headers guildId roleId)
  | .roleConfigSave guildId roleId version tree =>
    roleConfigSave C K state around db headers guildId roleId version tree
  | .roleConfigPreview guildId roleId => (db, roleConfigPreview K state around db headers guildId roleId)
  | .roleConfigPreviewEdit guildId roleId tree =>
    (db, roleConfigPreviewEdit C K state around db headers guildId roleId tree)
  | .setViewPermission guildId vp => setViewPermission K state around db headers guildId vp
  | .usersPage guildId => (db, .ok (.usersPage guildId))
  | .usersData guildId => (db, (usersData db.settings db.birthdays
      (viewer K state around.now around.gateway headers guildId) around.localToday guildId).map .users)
  | .verifyPage => (db, .ok .verifyPage)
  | .verifyStatus => (db, .ok (verifyStatus K state around db headers))
  | .verifyLogin => (db, .ok (verifyLogin state))
  | .verifySave body => verifySave C K state around db headers body
  | .verifyUnlink => verifyUnlink K state around db headers
  | .favicon => (db, .ok .favicon)
  | .dweebStatus guild => (db, .ok (dweebStatus db guild))
  | .health => (db, .ok (.health true))
  | .ready => (db, .ok (.ready state.draining))
  | .unrouted => (db, .ok .notRouted)

/-- What is verified of a JWT, and the session that is minted for it. -/
theorem verifyIframeEntry_ok {K : TokenCrates} {state : AppState} {around : Surroundings}
    {db : Database} {guildId roleId token : String} {entry : String × Bool}
    (h : verifyIframeEntry K state around (.ok (apiToken? db guildId roleId)) guildId roleId token =
      .ok entry) :
    ∃ link verified, db.roleLinks.get? (guildId, roleId) = some link ∧
      verify K around.now token link.apiToken state.baseUrl = .ok verified ∧
      entry = (mintIframeSession K around.now verified.discordId guildId roleId verified.readOnly
        state.sessionSecret, verified.readOnly) := by
  obtain ⟨found, hfound, h⟩ := bind_ok h
  obtain ⟨apiToken, htoken, h⟩ := bind_ok h
  cases hfound
  obtain ⟨link, hlink, rfl⟩ := Option.map_eq_some_iff.mp (okOr_ok htoken)
  obtain ⟨verified, hverified, h⟩ := bind_ok h
  have hentry := (guard_ok h).2
  cases hv : verify K around.now token link.apiToken state.baseUrl with
  | error e =>
    rw [hv] at hverified
    cases hverified
  | ok v =>
    rw [hv] at hverified
    cases hverified
    cases hentry
    exact ⟨link, verified, hlink, hv, rfl⟩

/-! ### What a request changes -/

section Changes

variable (C : Crates) (K : TokenCrates) (state : AppState) (around : Surroundings) (db : Database)
  (headers : Headers)

/-- The changes a request can make, with what it takes to make them. -/
inductive Changes : Route → Database → Prop
  | register {guildId roleId token : String} (ht : extractToken headers = .ok token) :
      Changes (.register guildId roleId) (db.register around.now guildId roleId token)
  | deleteConfig {guildId roleId : String} {l : RoleLink}
      (hl : db.roleLinks.get? (guildId, roleId) = some l) (ht : extractToken headers = .ok l.apiToken) :
      Changes (.deleteConfig guildId roleId) (db.deleteLink guildId roleId)
  | roleConfigSave {guildId roleId : String} {version : ℤ} {tree : RuleTreeBody} {parsed : RuleTree}
      {l : RoleLink} (hc : saveCheck C K state around headers guildId roleId tree = .ok parsed)
      (hl : db.roleLinks.get? (guildId, roleId) = some l) (hv : l.ruleTreeVersion = version)
      (hlt : version + 1 < 2 ^ 31) (hnul : parsed.toValue.hasNul = false) :
      Changes (.roleConfigSave guildId roleId version tree)
        (db.saveTree around.now l parsed.toValue)
  | setViewPermission {guildId vp : String}
      (hc : permissionCheck K state around headers guildId vp = .ok ()) :
      Changes (.setViewPermission guildId vp) (db.setViewPermission around.now guildId vp)
  | verifySave {body : SaveBody} {session : String × String} {row : BirthdayRow}
      (ho : verifyOrigin headers state.allowedOrigins = .ok ())
      (hs : readSession K state around.now headers = .ok session)
      (hr : verifySaveRow C around.thisYear around.now session.1 session.2 body = .ok row) :
      Changes (.verifySave body)
        { db with
          birthdays := db.birthdays.put row
          jobs := db.jobs.enqueuePlayerSync around.now row.discordId }
  | verifyUnlink {session : String × String} {row : BirthdayRow}
      (ho : verifyOrigin headers state.allowedOrigins = .ok ())
      (hs : readSession K state around.now headers = .ok session)
      (hr : db.birthdays.get? session.1 = some row) :
      Changes .verifyUnlink
        { db with
          birthdays := db.birthdays.remove session.1
          jobs := db.jobs.enqueuePlayerSync around.now session.1 }

variable {C K state around db headers}

theorem checked_ok {α : Type} {check : Except AppError α} {a : α} (h : check = .ok a)
    (rest : α → Database × Reply) : checked db check rest = rest a := by
  rw [h]
  rfl

theorem checked_error {α : Type} {check : Except AppError α} {e : AppError} (h : check = .error e)
    (rest : α → Database × Reply) : checked db check rest = (db, .error e) := by
  rw [h]
  rfl

/-- A handler made one of the changes, or none where there is none to make. -/
def Made (C : Crates) (K : TokenCrates) (state : AppState) (around : Surroundings) (db : Database)
    (headers : Headers) (route : Route) (db' : Database) : Prop :=
  Changes C K state around db headers route db' ∨
    (db' = db ∧ ∀ db'', ¬Changes C K state around db headers route db'')

theorem made_register (guildId roleId : String) : Made C K state around db headers
    (.register guildId roleId) (register around db headers guildId roleId).1 := by
  unfold register
  cases ht : extractToken headers with
  | error e =>
    rw [checked_error rfl]
    refine Or.inr ⟨rfl, fun db'' h => ?_⟩
    cases h with | register ht' => rw [ht] at ht'; cases ht'
  | ok token =>
    rw [checked_ok rfl]
    exact Or.inl (.register ht)

theorem made_deleteConfig (guildId roleId : String) : Made C K state around db headers
    (.deleteConfig guildId roleId) (deleteConfig db headers guildId roleId).1 := by
  unfold deleteConfig
  cases ht : extractToken headers with
  | error e =>
    rw [checked_error rfl]
    refine Or.inr ⟨rfl, fun db'' h => ?_⟩
    cases h with | deleteConfig _ ht' => rw [ht] at ht'; cases ht'
  | ok token =>
    rw [checked_ok rfl, Database.deleteOwnedLink_eq]
    cases hl : db.roleLinks.get? (guildId, roleId) with
    | none =>
      refine Or.inr ⟨rfl, fun db'' h => ?_⟩
      cases h with | deleteConfig hl' _ => rw [hl] at hl'; cases hl'
    | some l =>
      by_cases hown : l.apiToken = token
      · simp only [Option.any_some, hown, decide_true, if_true]
        exact Or.inl (.deleteConfig hl (by rw [ht, hown]))
      · simp only [Option.any_some, hown, decide_false, Bool.false_eq_true, if_false]
        refine Or.inr ⟨rfl, fun db'' h => ?_⟩
        cases h with
        | deleteConfig hl' ht' =>
          rw [hl] at hl'
          cases hl'
          rw [ht] at ht'
          cases ht'
          exact hown rfl

theorem made_roleConfigSave (guildId roleId : String) (version : ℤ) (tree : RuleTreeBody) :
    Made C K state around db headers (.roleConfigSave guildId roleId version tree)
      (roleConfigSave C K state around db headers guildId roleId version tree).1 := by
  unfold roleConfigSave
  cases hc : saveCheck C K state around headers guildId roleId tree with
  | error e =>
    rw [checked_error rfl]
    refine Or.inr ⟨rfl, fun db'' h => ?_⟩
    cases h with | roleConfigSave hc' _ _ _ _ => rw [hc] at hc'; cases hc'
  | ok parsed =>
    rw [checked_ok rfl]
    unfold RoleLinks.updateTree
    by_cases hnul : parsed.toValue.hasNul = true
    · rw [if_pos hnul, checked_error rfl]
      refine Or.inr ⟨rfl, fun db'' h => ?_⟩
      cases h with
      | roleConfigSave hc' _ _ _ hnul' =>
        rw [hc] at hc'
        cases hc'
        exact absurd hnul (by rw [hnul']; exact Bool.false_ne_true)
    rw [if_neg hnul]
    have hnul : parsed.toValue.hasNul = false := by simpa using hnul
    cases hl : db.roleLinks.get? (guildId, roleId) with
    | none =>
      refine Or.inr ⟨rfl, fun db'' h => ?_⟩
      cases h with | roleConfigSave _ hl' _ _ _ => rw [hl] at hl'; cases hl'
    | some l =>
      have hkey : l.key = (guildId, roleId) := Table.key_of_get? hl
      obtain ⟨rfl, rfl⟩ : l.guildId = guildId ∧ l.roleId = roleId := Prod.mk.inj hkey
      by_cases hv : l.ruleTreeVersion = version
      · by_cases hlt : l.ruleTreeVersion + 1 < 2 ^ 31
        · have hnew : RoleLinks.version? (db.roleLinks.put { l with
              ruleTree := parsed.toValue
              ruleTreeVersion := l.ruleTreeVersion + 1
              updatedAt := around.now }) l.guildId l.roleId = some (l.ruleTreeVersion + 1) := by
            rw [RoleLinks.version?, RoleLinks.get?_saved hl, if_pos rfl, Option.map_some]
          simp only [if_pos hv, if_pos hlt]
          rw [checked_ok rfl, if_neg Nat.one_ne_zero, hnew]
          exact Or.inl (.roleConfigSave hc hl hv (hv ▸ hlt) hnul)
        · simp only [if_pos hv, if_neg hlt]
          rw [checked_error rfl]
          refine Or.inr ⟨rfl, fun db'' h => ?_⟩
          cases h with | roleConfigSave _ _ _ hlt' _ => exact hlt (hv ▸ hlt')
      · simp only [if_neg hv]
        rw [checked_ok rfl, if_pos rfl]
        refine Or.inr ⟨rfl, fun db'' h => ?_⟩
        cases h with
        | roleConfigSave _ hl' hv' _ _ =>
          rw [hl] at hl'
          cases hl'
          exact hv hv'

theorem made_setViewPermission (guildId vp : String) : Made C K state around db headers
    (.setViewPermission guildId vp) (setViewPermission K state around db headers guildId vp).1 := by
  unfold setViewPermission
  cases hc : permissionCheck K state around headers guildId vp with
  | error e =>
    rw [checked_error rfl]
    refine Or.inr ⟨rfl, fun db'' h => ?_⟩
    cases h with | setViewPermission hc' => rw [hc] at hc'; cases hc'
  | ok =>
    rw [checked_ok rfl]
    exact Or.inl (.setViewPermission hc)

theorem made_verifySave (body : SaveBody) : Made C K state around db headers (.verifySave body)
    (verifySave C K state around db headers body).1 := by
  unfold verifySave
  cases hc : (do
      verifyOrigin headers state.allowedOrigins
      let session ← readSession K state around.now headers
      verifySaveRow C around.thisYear around.now session.1 session.2 body) with
  | error e =>
    rw [checked_error rfl]
    refine Or.inr ⟨rfl, fun db'' h => ?_⟩
    cases h with
    | verifySave ho hs hr =>
      rw [ho] at hc
      simp only [hs, hr, bind, Except.bind] at hc
      cases hc
  | ok row =>
    rw [checked_ok rfl]
    obtain ⟨_, ho, hc⟩ := bind_ok hc
    obtain ⟨session, hs, hr⟩ := bind_ok hc
    exact Or.inl (.verifySave ho hs hr)

theorem made_verifyUnlink : Made C K state around db headers .verifyUnlink
    (verifyUnlink K state around db headers).1 := by
  unfold verifyUnlink
  cases hc : (do
      verifyOrigin headers state.allowedOrigins
      let session ← readSession K state around.now headers
      let _ ← okOr (db.birthdays.get? session.1) (.notFound "No saved birthday to remove.")
      (.ok session.1 : Except AppError String)) with
  | error e =>
    rw [checked_error rfl]
    refine Or.inr ⟨rfl, fun db'' h => ?_⟩
    cases h with
    | verifyUnlink ho hs hr =>
      rw [ho] at hc
      simp only [hs, hr, okOr, bind, Except.bind] at hc
      cases hc
  | ok discordId =>
    rw [checked_ok rfl]
    obtain ⟨_, ho, hc⟩ := bind_ok hc
    obtain ⟨session, hs, hc⟩ := bind_ok hc
    obtain ⟨row, hr, hc⟩ := bind_ok hc
    cases hc
    exact Or.inl (.verifyUnlink ho hs (okOr_ok hr))

/-- What a request does to the database: one of the changes, or nothing where it can
make none. -/
theorem handle_made (C : Crates) (K : TokenCrates) (state : AppState) (around : Surroundings)
    (db : Database) (request : HttpRequest) : Made C K state around db request.headers request.route
    (handle C K state around db request).1 := by
  obtain ⟨route, headers⟩ := request
  cases route with
  | register guildId roleId => exact made_register guildId roleId
  | deleteConfig guildId roleId => exact made_deleteConfig guildId roleId
  | roleConfigSave guildId roleId version tree => exact made_roleConfigSave guildId roleId version tree
  | setViewPermission guildId vp => exact made_setViewPermission guildId vp
  | verifySave body => exact made_verifySave body
  | verifyUnlink => exact made_verifyUnlink
  | getConfig | postConfig | roleConfigPage | roleConfigData | roleConfigPreview
  | roleConfigPreviewEdit | usersPage | usersData | verifyPage | verifyStatus | verifyLogin | favicon
  | dweebStatus | health | ready | unrouted =>
    exact Or.inr ⟨rfl, fun db'' h => by cases h⟩

end Changes

end Routes

end BirthdayRole
