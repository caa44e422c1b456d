/-
# Requests and their credentials (`services/auth.rs`, `services/csrf.rs`)

A request carries up to three credentials: a `Token` or a `Bearer` in its
`Authorization` header, the JWT in the address of the role page, and the session
cookie. A bearer is never mixed with the cookie: where there is one, only it counts.

What the Auth Gateway answers to the forwarded cookie comes with the request.
-/
import BirthdayRole.RlToken
import BirthdayRole.Users

namespace BirthdayRole

open Text Result

/-- The headers that are read, as far as they are text, and the `rl_session` cookie. -/
structure Headers where
  authorization : Option String
  origin : Option String
  secFetchDest : Option String
  secFetchSite : Option String
  rlSession : Option String

def Headers.none : Headers := ⟨.none, .none, .none, .none, .none⟩

/-- What the handlers read of the application state. -/
structure AppState where
  baseUrl : String
  authGatewayUrl : String
  sessionSecret : String
  allowedOrigins : List String
  draining : Bool

/-- What the Auth Gateway answers while a request is handled: to its cookie, by the
guild, and to the plugin itself. -/
structure Gateway where
  permission : String → Except AppError GuildPermission
  members : String → Except AppError (List String × Option String)
  memberIds : String → Except AppError (List String)

/-- A gateway that knows nobody. -/
def Gateway.silent : Gateway where
  permission _ := .error (.internal "no such guild")
  members _ := .error (.internal "no such guild")
  memberIds _ := .error (.internal "no such guild")

def extractToken (headers : Headers) : Except AppError String := do
  let auth ← okOr headers.authorization .unauthorized
  okOr (stripPrefix "Token " auth) .unauthorized

def extractBearer (headers : Headers) : Option String :=
  headers.authorization.bind (stripPrefix "Bearer ")

def verifyOrigin (headers : Headers) (allowedOrigins : List String) : Except AppError Unit := do
  let origin ← okOr headers.origin
    (.forbidden "State-changing requests must include an Origin header.")
  if allowedOrigins.any fun allowed => trimEndMatches '/' origin = trimEndMatches '/' allowed then
    .ok ()
  else .error (.forbidden ("Origin '" ++ origin ++ "' is not allowed for state-changing requests."))

section Access

variable (K : TokenCrates) (state : AppState) (now : Time) (gateway : Gateway) (headers : Headers)

/-- The Discord id and the name of the cookie session. -/
def readSession : Except AppError (String × String) := do
  let cookie ← okOr headers.rlSession
    (.unauthorizedWith "Not signed in. Log in with Discord to continue.")
  okOr (verifySession K now cookie state.sessionSecret)
    (.unauthorizedWith "Session expired or invalid.")

def requireManager (guildId : String) : Except AppError String := do
  let session ← readSession K state now headers
  let permission ← gateway.permission guildId
  if !permission.isMember then .error (.forbidden "You're not a member of this server.")
  else if !permission.isManager then .error (.forbidden "You need Manage Server to do this.")
  else .ok session.1

def readBearer (bearer : String) : Except AppError IframeSession :=
  okOr (verifyIframeSession K now bearer state.sessionSecret)
    (.unauthorizedWith "Your session expired. Reopen the plugin in the RoleLogic dashboard.")

/-- The gate of the settings of a guild. The read-only flag is not looked at. -/
def requireGuildAdmin (guildId : String) : Except AppError String :=
  match extractBearer headers with
  | some bearer => do
    let session ← readBearer K state now bearer
    if session.guildId ≠ guildId then
      .error (.forbidden "Token does not grant access to this server.")
    else .ok session.discordId
  | none => requireManager K state now gateway headers guildId

structure RoleConfigAccess where
  discordId : String
  readOnly : Bool

/-- The gate of a link. -/
def requireRoleConfigAccess (guildId roleId : String) : Except AppError RoleConfigAccess :=
  match extractBearer headers with
  | some bearer => do
    let session ← readBearer K state now bearer
    if session.guildId ≠ guildId ∨ session.roleId ≠ roleId then
      .error (.forbidden "Token does not grant access to this role link.")
    else .ok ⟨session.discordId, session.readOnly⟩
  | none => do
    let discordId ← requireManager K state now gateway headers guildId
    .ok ⟨discordId, false⟩

/-- The check before the gate: a request without a bearer has to name its origin. -/
def requireOrigin : Except AppError Unit :=
  if (extractBearer headers).isNone then verifyOrigin headers state.allowedOrigins else .ok ()

/-- `guild_permission` and `guild_members`, which both read the cookie first. -/
def viewer (guildId : String) : Viewer where
  permission := do
    let _ ← readSession K state now headers
    gateway.permission guildId
  members := do
    let _ ← readSession K state now headers
    gateway.members guildId

end Access

/-- Whether a request is that of a manager of a guild, as the gateway has it. -/
def IsManager (K : TokenCrates) (state : AppState) (now : Time) (gateway : Gateway)
    (headers : Headers) (guildId : String) : Prop :=
  ∃ session permission, readSession K state now headers = .ok session ∧
    gateway.permission guildId = .ok permission ∧ permission.isManager = true

/-! ### What passes -/

variable {K : TokenCrates} {state : AppState} {now : Time} {gateway : Gateway} {headers : Headers}
  {guildId roleId : String}

theorem requireManager_ok {id : String} (h : requireManager K state now gateway headers guildId = .ok id) :
    IsManager K state now gateway headers guildId := by
  obtain ⟨session, hs, h⟩ := bind_ok h
  obtain ⟨permission, hp, h⟩ := bind_ok h
  have hm := (guard_ok (guard_ok h).2).1
  exact ⟨session, permission, hs, hp, by simpa using hm⟩

/-- A link is open to a bearer of its session and to a manager. -/
theorem requireRoleConfigAccess_ok {access : RoleConfigAccess}
    (h : requireRoleConfigAccess K state now gateway headers guildId roleId = .ok access) :
    (∃ bearer, extractBearer headers = some bearer ∧ verifyIframeSession K now bearer
        state.sessionSecret = some ⟨access.discordId, guildId, roleId, access.readOnly⟩) ∨
      (extractBearer headers = none ∧ access.readOnly = false ∧
        IsManager K state now gateway headers guildId) := by
  unfold requireRoleConfigAccess at h
  split at h
  · rename_i bearer hb
    obtain ⟨session, hs, h⟩ := bind_ok h
    obtain ⟨hsame, hacc⟩ := guard_ok h
    cases hacc
    push Not at hsame
    obtain ⟨rfl, rfl⟩ := hsame
    exact Or.inl ⟨bearer, hb, okOr_ok hs⟩
  · rename_i hb
    obtain ⟨id, hm, h⟩ := bind_ok h
    cases h
    exact Or.inr ⟨hb, rfl, requireManager_ok hm⟩

/-- The settings of a guild are open to a bearer of any of its sessions and to a manager. -/
theorem requireGuildAdmin_ok {id : String}
    (h : requireGuildAdmin K state now gateway headers guildId = .ok id) :
    (∃ bearer session, extractBearer headers = some bearer ∧
        verifyIframeSession K now bearer state.sessionSecret = some session ∧
        session.guildId = guildId) ∨
      (extractBearer headers = none ∧ IsManager K state now gateway headers guildId) := by
  unfold requireGuildAdmin at h
  split at h
  · rename_i bearer hb
    obtain ⟨session, hs, h⟩ := bind_ok h
    obtain ⟨hsame, -⟩ := guard_ok h
    push Not at hsame
    exact Or.inl ⟨bearer, session, hb, okOr_ok hs, hsame⟩
  · rename_i hb
    exact Or.inr ⟨hb, requireManager_ok h⟩

end BirthdayRole
