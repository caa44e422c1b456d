/-
# Read-only sessions

A developer who impersonates a user holds an iframe session with the read-only flag,
and should not be able to write anything. The gate of a link hands the flag to the
handlers, and the one that writes looks at it; the gate of a guild's settings drops
it. So a request with nothing but such a session changes the database in one case
(`handle_readOnly_iff`): it sets the view permission of its guild.
-/
import BirthdayRole.Routes

namespace BirthdayRole

open Text Result

/-- Every row of the five tables is the same. -/
def Database.SameRows (db db' : Database) : Prop :=
  (∀ k, db'.roleLinks.get? k = db.roleLinks.get? k) ∧
    (∀ k, db'.assignments.get? k = db.assignments.get? k) ∧
    (∀ k, db'.birthdays.get? k = db.birthdays.get? k) ∧
    (∀ k, db'.settings.get? k = db.settings.get? k) ∧ ∀ id, db'.jobs.get? id = db.jobs.get? id

theorem Database.SameRows.refl (db : Database) : db.SameRows db :=
  ⟨fun _ => rfl, fun _ => rfl, fun _ => rfl, fun _ => rfl, fun _ => rfl⟩

/-- The only credential of a request is a session that was minted read-only. -/
structure HttpRequest.ReadOnly (request : HttpRequest) (K : TokenCrates) (secret : String)
    (minted : Time) (discordId guildId roleId : String) : Prop where
  bearer : request.headers.authorization =
    some ("Bearer " ++ mintIframeSession K minted discordId guildId roleId true secret)
  noCookie : request.headers.rlSession = none
  noJwt : ∀ g r token, request.route ≠ .roleConfigPage g r (some token)

/-- A request sets the view permission of the guild of its session, which is accepted,
to a value the column does not have already. -/
def HttpRequest.SetsPermission (request : HttpRequest) (K : TokenCrates) (secret : String)
    (now minted : Time) (discordId guildId roleId : String) (db : Database) : Prop :=
  (verifyIframeSession K now (mintIframeSession K minted discordId guildId roleId true secret)
      secret).isSome = true ∧
    ∃ vp ∈ ["disabled", "managers", "members"], request.route = .setViewPermission guildId vp ∧
      db.settings.get? guildId ≠ some ⟨guildId, vp, now⟩

namespace Routes

variable {C : Crates} {K : TokenCrates} {state : AppState} {around : Surroundings} {db : Database}
  {headers : Headers}

theorem extractToken_bearer {b token : String} (h : headers.authorization = some ("Bearer " ++ b)) :
    extractToken headers ≠ .ok token := by
  intro ht
  obtain ⟨auth, ha, ht⟩ := bind_ok ht
  rw [h] at ha
  cases ha
  have hp := okOr_ok ht
  unfold stripPrefix at hp
  split at hp
  · rename_i hpre
    rw [String.toList_append] at hpre
    exact absurd (List.cons_prefix_cons.mp hpre).1 (by decide)
  · cases hp

theorem extractBearer_eq {b : String} (h : headers.authorization = some ("Bearer " ++ b)) :
    extractBearer headers = some b := by
  rw [extractBearer, h, Option.bind_some, stripPrefix_append]

theorem readSession_noCookie {session : String × String} (h : headers.rlSession = none) :
    readSession K state around.now headers ≠ .ok session := by
  intro hs
  obtain ⟨cookie, hc, -⟩ := bind_ok hs
  rw [h] at hc
  cases hc

/-- What the checks of a save found. -/
theorem saveCheck_ok {guildId roleId : String} {tree : RuleTreeBody} {parsed : RuleTree}
    (h : saveCheck C K state around headers guildId roleId tree = .ok parsed) :
    ∃ access, requireRoleConfigAccess K state around.now around.gateway headers guildId roleId =
      .ok access ∧ access.readOnly = false ∧ parseRuleTree C tree = .ok parsed := by
  obtain ⟨_, -, h⟩ := bind_ok h
  obtain ⟨access, ha, h⟩ := bind_ok h
  obtain ⟨hro, hp⟩ := guard_ok h
  exact ⟨access, ha, by simpa using hro, hp⟩

variable {request : HttpRequest} {t : Time} {d g r : String}

/-- With a read-only session, the only change is that of the view permission. -/
theorem changes_readOnly {db' : Database} (h : request.ReadOnly K state.sessionSecret t d g r)
    (hc : Changes C K state around db request.headers request.route db') :
    ∃ vp, request.route = .setViewPermission g vp ∧ db' = db.setViewPermission around.now g vp ∧
      vp ∈ ["disabled", "managers", "members"] ∧ (verifyIframeSession K around.now
        (mintIframeSession K t d g r true state.sessionSecret) state.sessionSecret).isSome = true := by
  obtain ⟨route, headers⟩ := request
  have hb := extractBearer_eq h.bearer
  cases hc with
  | register ht => exact absurd ht (extractToken_bearer h.bearer)
  | deleteConfig _ ht => exact absurd ht (extractToken_bearer h.bearer)
  | roleConfigSave hs _ _ _ _ =>
    obtain ⟨access, ha, hro, -⟩ := saveCheck_ok hs
    rcases requireRoleConfigAccess_ok ha with ⟨b, hb', hv⟩ | ⟨hb', -, -⟩
    · rw [hb] at hb'
      cases hb'
      have heq := verifyIframeSession_mint_some hv
      rw [IframeSession.mk.injEq] at heq
      rw [hro] at heq
      exact absurd heq.2.2.2 Bool.false_ne_true
    · rw [hb] at hb'
      cases hb'
  | setViewPermission hp =>
    obtain ⟨_, -, hrest⟩ := bind_ok hp
    obtain ⟨id, ha, hvp⟩ := bind_ok hrest
    have hvp := (require_ok hvp).1
    rcases requireGuildAdmin_ok ha with ⟨b, session, hb', hv, hg⟩ | ⟨hb', -⟩
    · rw [hb] at hb'
      cases hb'
      have heq := verifyIframeSession_mint_some hv
      rw [heq] at hg
      subst hg
      exact ⟨_, rfl, rfl, hvp, by rw [hv]; rfl⟩
    · rw [hb] at hb'
      cases hb'
  | verifySave _ hs _ => exact absurd hs (readSession_noCookie h.noCookie)
  | verifyUnlink _ hs _ => exact absurd hs (readSession_noCookie h.noCookie)

/-- An accepted session may set the view permission of its guild, read-only or not. -/
theorem permissionCheck_bearer {b vp : String} {session : IframeSession}
    (hb : extractBearer headers = some b)
    (hv : verifyIframeSession K around.now b state.sessionSecret = some session)
    (hvp : vp ∈ ["disabled", "managers", "members"]) :
    permissionCheck K state around headers session.guildId vp = .ok () := by
  have horigin : requireOrigin state headers = .ok () := by rw [requireOrigin, hb]; rfl
  have hadmin : requireGuildAdmin K state around.now around.gateway headers session.guildId =
      .ok session.discordId := by
    simp [requireGuildAdmin, hb, readBearer, hv, okOr, bind, Except.bind]
  simp only [permissionCheck, horigin, hadmin, bind, Except.bind, if_pos hvp]

/-- Setting the view permission changes its row. -/
theorem not_sameRows_of_setsPermission (h : request.ReadOnly K state.sessionSecret t d g r)
    (hsets : request.SetsPermission K state.sessionSecret around.now t d g r db) :
    ¬db.SameRows (handle C K state around db request).1 := by
  intro hsame
  obtain ⟨hsome, vp, hvp, hroute, hne⟩ := hsets
  obtain ⟨session, hv⟩ := Option.isSome_iff_exists.mp hsome
  have hg : session.guildId = g := by rw [verifyIframeSession_mint_some hv]
  have hcheck := permissionCheck_bearer (extractBearer_eq h.bearer) hv hvp
  have hchange : Changes C K state around db request.headers request.route
      (db.setViewPermission around.now g vp) := by
    rw [hroute]
    exact .setViewPermission (hg ▸ hcheck)
  rcases handle_made C K state around db request with hmade | ⟨-, hnone⟩
  · obtain ⟨vp', hroute', hdb, -, -⟩ := changes_readOnly h hmade
    rw [hroute] at hroute'
    cases hroute'
    rw [hdb] at hsame
    have hget := hsame.2.2.2.1 g
    rw [Database.setViewPermission, show g = GuildSettings.guildId ⟨g, vp, around.now⟩ from rfl,
      Table.get?_put_self] at hget
    exact hne hget.symm
  · exact hnone _ hchange

/-- A request with nothing but a read-only session leaves every row as it is, unless
it sets the view permission. -/
theorem handle_readOnly_iff (C : Crates) (around : Surroundings) (db : Database)
    (h : request.ReadOnly K state.sessionSecret t d g r) :
    db.SameRows (handle C K state around db request).1 ↔
      ¬request.SetsPermission K state.sessionSecret around.now t d g r db := by
  constructor
  · exact fun hsame hsets => not_sameRows_of_setsPermission h hsets hsame
  · intro hno
    rcases handle_made C K state around db request with hmade | ⟨hdb, -⟩
    · obtain ⟨vp, hroute, hdb, hvp, hsome⟩ := changes_readOnly h hmade
      have hget : db.settings.get? g = some ⟨g, vp, around.now⟩ := by
        by_contra hne
        exact hno ⟨hsome, vp, hvp, hroute, hne⟩
      rw [hdb]
      refine ⟨fun _ => rfl, fun _ => rfl, fun _ => rfl, fun k => ?_, fun _ => rfl⟩
      rw [Database.setViewPermission, Table.get?_put]
      split
      · rename_i hk
        rw [hk]
        exact hget.symm
      · rfl
    · rw [hdb]
      exact .refl db

/-! ### An impersonation -/

def exampleState : AppState :=
  ⟨"https://plugin.example/birthday-role", "https://plugin.example", "session-secret-not-for-prod",
    ["https://plugin.example"], false⟩

def registerRequest (guildId roleId token : String) : HttpRequest :=
  ⟨.register guildId roleId, { Headers.none with authorization := some ("Token " ++ token) }⟩

/-- The link of guild `g` and role `r` is registered with token `T`. -/
def registered : Database :=
  (handle .ascii .sha256 exampleState (.silent 0) .empty (registerRequest "g" "r" "T")).1

/-- A request with the session that is minted at the start for user 1, read-only. -/
def impersonating (route : Route) : HttpRequest :=
  ⟨route, { Headers.none with authorization := some ("Bearer " ++ mintIframeSession .sha256 0 "1"
    "g" "r" true exampleState.sessionSecret) }⟩

theorem impersonating_readOnly (route : Route)
    (h : ∀ g r token, route ≠ .roleConfigPage g r (some token)) :
    (impersonating route).ReadOnly .sha256 exampleState.sessionSecret 0 "1" "g" "r" :=
  ⟨rfl, rfl, h⟩

/-- A save is refused. -/
theorem handle_readOnly_iff_save :
    registered.SameRows (handle .ascii .sha256 exampleState (.silent 0) registered
        (impersonating (.roleConfigSave "g" "r" 1 ⟨true, []⟩))).1 ↔
      ¬(impersonating (.roleConfigSave "g" "r" 1 ⟨true, []⟩)).SetsPermission .sha256
        exampleState.sessionSecret 0 0 "1" "g" "r" registered :=
  handle_readOnly_iff .ascii (.silent 0) registered (impersonating_readOnly _ fun _ _ _ => nofun)

/-- The list of the guild is opened to its members. -/
theorem impersonating_changes :
    (impersonating (.setViewPermission "g" "members")).ReadOnly .sha256 exampleState.sessionSecret 0
        "1" "g" "r" ∧
      ¬registered.SameRows (handle .ascii .sha256 exampleState (.silent 0) registered
        (impersonating (.setViewPermission "g" "members"))).1 := by
  have hro := impersonating_readOnly (.setViewPermission "g" "members") fun _ _ _ => nofun
  have hv : (verifyIframeSession .sha256 0 (mintIframeSession .sha256 0 "1" "g" "r" true
      exampleState.sessionSecret) exampleState.sessionSecret).isSome = true := by
    rw [verifyIframeSession_mint (by decide) (by decide) (by decide) (by decide) (by decide)]
    rfl
  exact ⟨hro, not_sameRows_of_setsPermission hro
    ⟨hv, "members", by decide, rfl, by decide⟩⟩

end Routes

end BirthdayRole
