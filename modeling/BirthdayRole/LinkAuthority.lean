/-
# Who can change a link

A link is registered with API token `T`. An outsider is a request that presents none
of what RoleLogic and the guild's managers have: `T` itself, a JWT signed with it, a
session that was minted for such a JWT, a manager's cookie. Requests of outsiders
should leave the token, the tree and the version of the link as they are, and get no
session for it.

They do unless one of them takes the link over (`link_kept_iff`): `register` sets
any token without asking for the old one, and a session outlives the token that its
JWT was signed with. `minted` remembers of every session which token that was; it is
not in the program, which keeps no sessions.
-/
import BirthdayRole.Lib.Reach
import BirthdayRole.ReadOnly

namespace BirthdayRole

open Text Result Routes

structure MintedSession where
  session : String
  guildId : String
  roleId : String
  signedUnder : String

/-- The sessions that a reply brings into being. -/
def mintedBy (db : Database) (route : Route) (reply : Reply) : List MintedSession :=
  match route, reply with
  | .roleConfigPage guildId roleId _, .ok (.roleConfigPage (some session) _) =>
    ((db.roleLinks.get? (guildId, roleId)).map fun l => ⟨session, guildId, roleId, l.apiToken⟩).toList
  | _, _ => []

structure Site where
  db : Database
  minted : List MintedSession

namespace Site

section System

variable (C : Crates) (K : TokenCrates) (state : AppState) (guildId roleId token : String)

/-- A request with what it meets. -/
abbrev Visit := Surroundings × HttpRequest

def next (s : Site) (v : Visit) : Site :=
  let handled := handle C K state v.1 s.db v.2
  ⟨handled.1, mintedBy s.db v.2.route handled.2 ++ s.minted⟩

/-- The sessions that were minted for the link. -/
def sessions (s : Site) : List MintedSession :=
  s.minted.filter fun m => m.guildId = guildId ∧ m.roleId = roleId

/-- The link is as it was at the start, and no session was minted for it since. -/
def Kept (start s : Site) : Prop :=
  (∃ l l', start.db.roleLinks.get? (guildId, roleId) = some l ∧
    s.db.roleLinks.get? (guildId, roleId) = some l' ∧ l.apiToken = token ∧ l'.apiToken = token ∧
    l'.ruleTree = l.ruleTree ∧ l'.ruleTreeVersion = l.ruleTreeVersion) ∧
  s.sessions guildId roleId = start.sessions guildId roleId

/-- A request presents nothing that belongs to the token, and no manager's cookie. -/
structure Outsider (s : Site) (v : Visit) : Prop where
  noToken : extractToken v.2.headers ≠ .ok token
  noJwt : ∀ g r jwt, v.2.route = .roleConfigPage g r (some jwt) → ¬SignedUnder K token jwt
  noSession : ∀ bearer, extractBearer v.2.headers = some bearer →
    ∀ m ∈ s.minted, m.session = bearer → m.signedUnder ≠ token
  noManager : ¬IsManager K state v.1.now v.1.gateway v.2.headers guildId

/-- Without the session secret nobody writes the tag of a session: an accepted one
was minted. -/
def Unforged (s : Site) (v : Visit) : Prop :=
  ∀ bearer session, extractBearer v.2.headers = some bearer →
    verifyIframeSession K v.1.now bearer state.sessionSecret = some session →
    ∃ m ∈ s.minted, m.session = bearer

/-- A request registers the link, or saves over its current version with a session
that was minted under another token and is still accepted. -/
def TakesOver (s : Site) (v : Visit) : Prop :=
  (v.2.route = .register guildId roleId ∧ ∃ t, extractToken v.2.headers = .ok t) ∨
    ∃ version tree parsed bearer, ∃ m ∈ s.minted, ∃ discordId,
      v.2.route = .roleConfigSave guildId roleId version tree ∧
      extractBearer v.2.headers = some bearer ∧ m.session = bearer ∧ m.signedUnder ≠ token ∧
      verifyIframeSession K v.1.now bearer state.sessionSecret =
        some ⟨discordId, guildId, roleId, false⟩ ∧
      parseRuleTree C tree = .ok parsed ∧ parsed.toValue.hasNul = false ∧
      s.db.roleLinks.version? guildId roleId = some version ∧ version + 1 < 2 ^ 31

variable {C K state guildId roleId token}

/-! ### One request -/

theorem verifyIframeEntry_signed {around : Surroundings} {db : Database} {jwt : String}
    {entry : String × Bool}
    (h : verifyIframeEntry K state around (.ok (apiToken? db guildId roleId)) guildId roleId jwt =
      .ok entry) :
    ∃ l, db.roleLinks.get? (guildId, roleId) = some l ∧ SignedUnder K l.apiToken jwt := by
  obtain ⟨l, v, hl, hv, -⟩ := verifyIframeEntry_ok h
  exact ⟨l, hl, verify_signed hv⟩

/-- A session is minted for a JWT that is signed with the token of its link. -/
theorem mem_mintedBy {s : Site} {v : Visit} {m : MintedSession}
    (h : m ∈ mintedBy s.db v.2.route (handle C K state v.1 s.db v.2).2) :
    ∃ jwt l, v.2.route = .roleConfigPage m.guildId m.roleId (some jwt) ∧
      s.db.roleLinks.get? (m.guildId, m.roleId) = some l ∧ SignedUnder K l.apiToken jwt := by
  obtain ⟨around, route, headers⟩ := v
  cases route with
  | roleConfigPage g r rlToken =>
    simp only [handle, roleConfigPage] at h
    split at h
    · rename_i jwt hjwt
      unfold entryPage at h
      split at h
      · rename_i session readOnly hentry
        obtain ⟨l, hl, hsigned⟩ := verifyIframeEntry_signed hentry
        simp only [mintedBy, hl, Option.map_some, Option.toList_some, List.mem_singleton] at h
        subst h
        exact ⟨jwt, l, congrArg _ (Option.filter_eq_some_iff.mp hjwt).1, hl, hsigned⟩
      · cases h
    · unfold managerPage at h
      split at h
      · cases h
      · split at h <;> cases h
  | _ => cases h

/-- What a request that makes a change does to the link. -/
theorem changes_link {s : Site} {v : Visit} {db' : Database} {l : RoleLink}
    (hl : s.db.roleLinks.get? (guildId, roleId) = some l) (htoken : l.apiToken = token)
    (hout : Outsider K state guildId token s v) (hun : Unforged K state s v)
    (hno : ¬TakesOver C K state guildId roleId token s v)
    (h : Changes C K state v.1 s.db v.2.headers v.2.route db') :
    db'.roleLinks.get? (guildId, roleId) = some l := by
  obtain ⟨around, route, headers⟩ := v
  cases h with
  | @register g r t ht =>
    rw [Database.register, RoleLinks.get?_upsertToken, if_neg]
    · exact hl
    · rintro he
      cases he
      exact hno (Or.inl ⟨rfl, t, ht⟩)
  | @deleteConfig g r l' hl' ht =>
    rw [Database.deleteLink, Table.get?_remove, if_neg]
    · exact hl
    · rintro he
      cases he
      rw [hl] at hl'
      cases hl'
      exact hout.noToken (by rw [ht, htoken])
  | @roleConfigSave g r version tree parsed l' hc hl' hv hlt hnul =>
    rw [Database.saveTree, RoleLinks.get?_saved hl', if_neg]
    · exact hl
    · rintro he
      cases he
      obtain ⟨access, ha, hro, hp⟩ := saveCheck_ok hc
      rcases requireRoleConfigAccess_ok ha with ⟨b, hb, hver⟩ | ⟨-, -, hm⟩
      · obtain ⟨m, hmem, hms⟩ := hun b _ hb hver
        rw [hro] at hver
        refine hno (Or.inr ⟨version, tree, parsed, b, m, hmem, access.discordId, rfl, hb, hms,
          hout.noSession b hb m hmem hms, hver, hp, hnul, ?_, hlt⟩)
        rw [RoleLinks.version?, hl', Option.map_some, hv]
      · exact hout.noManager hm
  | setViewPermission | verifySave | verifyUnlink => exact hl

/-- A request of an outsider leaves the link alone exactly when it does not take it over. -/
theorem kept_next_iff {start s : Site} {v : Visit} (hk : Kept guildId roleId token start s)
    (hout : Outsider K state guildId token s v) (hun : Unforged K state s v) :
    Kept guildId roleId token start (s.next C K state v) ↔
      ¬TakesOver C K state guildId roleId token s v := by
  obtain ⟨⟨l₀, l, hl₀, hl, ht₀, ht, htree, hver⟩, hsess⟩ := hk
  have hmade := handle_made C K state v.1 s.db v.2
  constructor
  · rintro ⟨⟨_, l', hl₀', hl', -, ht', -, hver'⟩, -⟩ htake
    rw [hl₀] at hl₀'
    cases hl₀'
    have hl' : (handle C K state v.1 s.db v.2).1.roleLinks.get? (guildId, roleId) = some l' := hl'
    rcases htake with ⟨hroute, t, htok⟩ | ⟨version, tree, parsed, b, m, -, d, hroute, hb, -, -, hv,
      hp, hnul, hcur, hlt⟩
    · -- the link gets the token of the request, which is another one
      rcases hmade with hmade | ⟨-, hnone⟩
      · rw [hroute] at hmade
        generalize (handle C K state v.1 s.db v.2).1 = db' at hmade hl'
        cases hmade with
        | register htok' =>
          rw [Database.register, RoleLinks.get?_upsertToken, if_pos rfl, hl] at hl'
          cases hl'
          exact hout.noToken (by rw [htok']; exact congrArg _ ht')
      · exact hnone _ (by rw [hroute]; exact .register htok)
    · -- the version goes up
      rcases hmade with hmade | ⟨-, hnone⟩
      · rw [hroute] at hmade
        generalize (handle C K state v.1 s.db v.2).1 = db' at hmade hl'
        cases hmade with
        | roleConfigSave _ hl'' _ _ _ =>
          rw [hl] at hl''
          cases hl''
          rw [Database.saveTree, RoleLinks.get?_saved hl, if_pos rfl] at hl'
          cases hl'
          have hver' : l.ruleTreeVersion + 1 = l₀.ruleTreeVersion := hver'
          omega
      · have hcheck : saveCheck C K state v.1 v.2.headers guildId roleId tree = .ok parsed := by
          simp [saveCheck, requireOrigin, requireRoleConfigAccess, readBearer, hb, hv, okOr, hp, bind,
            Except.bind]
        rw [RoleLinks.version?, hl, Option.map_some, Option.some.injEq] at hcur
        exact hnone _ (by rw [hroute]; exact .roleConfigSave hcheck hl hcur hlt hnul)
  · intro hno
    refine ⟨⟨l₀, l, hl₀, ?_, ht₀, ht, htree, hver⟩, ?_⟩
    · rcases hmade with hmade | ⟨hdb, -⟩
      · exact changes_link hl ht hout hun hno hmade
      · exact (congrArg (fun db => db.roleLinks.get? (guildId, roleId)) hdb).trans hl
    · -- a JWT for the link would have to be signed with its token
      have hnone : (mintedBy s.db v.2.route (handle C K state v.1 s.db v.2).2).filter
          (fun m => m.guildId = guildId ∧ m.roleId = roleId) = [] := by
        rw [List.filter_eq_nil_iff]
        intro m hm hfor
        obtain ⟨hg, hr⟩ : m.guildId = guildId ∧ m.roleId = roleId := by simpa using hfor
        obtain ⟨jwt, l', hroute, hl', hsigned⟩ := mem_mintedBy hm
        rw [hg, hr, hl] at hl'
        cases hl'
        exact hout.noJwt _ _ _ hroute (ht ▸ hsigned)
      rw [← hsess]
      exact (List.filter_append _ _).trans (by rw [hnone]; rfl)

/-- Through a run of outsiders' requests, the link stays as it is and nobody gets a
session for it, exactly when none of the requests takes it over. -/
theorem link_kept_iff (C : Crates) (K : TokenCrates) (state : AppState) (start : Site) {l : RoleLink}
    (hl : start.db.roleLinks.get? (guildId, roleId) = some l) (visits : List Visit)
    (hout : Lts.Along (next C K state) (Outsider K state guildId l.apiToken) start visits)
    (hun : Lts.Along (next C K state) (Unforged K state) start visits) :
    Lts.Through (next C K state) (Kept guildId roleId l.apiToken start) start visits ↔
      Lts.Along (next C K state) (fun s v => ¬TakesOver C K state guildId roleId l.apiToken s v)
        start visits :=
  Lts.through_iff_along (fun s v hk (h : Outsider K state guildId l.apiToken s v ∧ Unforged K state s v) =>
      kept_next_iff hk h.1 h.2)
    ⟨⟨l, l, hl, hl, rfl, rfl, rfl, rfl⟩, rfl⟩ (Lts.along_and hout hun)

/-! ### Taking a link over -/

theorem not_isManager {v : Visit} (h : v.2.headers.rlSession = none) :
    ¬IsManager K state v.1.now v.1.gateway v.2.headers guildId :=
  fun ⟨_, _, hs, _⟩ => readSession_noCookie h hs

/-- The link of `registered`, and a session that was minted when its token was `T0`. -/
def exampleSite : Site :=
  ⟨registered, [⟨mintIframeSession .sha256 0 "1" "g" "r" false exampleState.sessionSecret, "g", "r",
    "T0"⟩]⟩

def registerVisit (token : String) : Visit := (.silent 1, registerRequest "g" "r" token)

def saveVisit : Visit :=
  (.silent 1, ⟨.roleConfigSave "g" "r" 1 ⟨true, []⟩, { Headers.none with
    authorization := some ("Bearer " ++
      mintIframeSession .sha256 0 "1" "g" "r" false exampleState.sessionSecret) }⟩)

theorem exampleSite_kept : Kept "g" "r" "T" exampleSite exampleSite :=
  ⟨⟨_, _, rfl, rfl, rfl, rfl, rfl, rfl⟩, rfl⟩

theorem registerVisit_outsider (token : String) (h : token ≠ "T") :
    Outsider .sha256 exampleState "g" "T" exampleSite (registerVisit token) ∧
      Unforged .sha256 exampleState exampleSite (registerVisit token) := by
  have htok : extractToken (registerVisit token).2.headers = .ok token := by
    show okOr (stripPrefix "Token " ("Token " ++ token)) _ = _
    rw [stripPrefix_append]
    rfl
  have hb : extractBearer (registerVisit token).2.headers = none := by
    show stripPrefix "Bearer " ("Token " ++ token) = none
    unfold stripPrefix
    rw [if_neg]
    rw [String.toList_append]
    exact fun hpre => absurd (List.cons_prefix_cons.mp hpre).1 (by decide)
  refine ⟨⟨fun he => ?_, fun g r jwt he => (by cases he), fun b hb' => ?_, not_isManager rfl⟩,
    fun b session hb' => ?_⟩
  · rw [htok] at he
    cases he
    exact h rfl
  · rw [hb] at hb'
    cases hb'
  · rw [hb] at hb'
    cases hb'

theorem saveVisit_outsider : Outsider .sha256 exampleState "g" "T" exampleSite saveVisit ∧
    Unforged .sha256 exampleState exampleSite saveVisit := by
  have hb : extractBearer saveVisit.2.headers = some _ := extractBearer_eq rfl
  refine ⟨⟨extractToken_bearer rfl, fun g r jwt he => (by cases he), fun b hb' m hm _ => ?_,
    not_isManager rfl⟩, fun b session hb' _ => ?_⟩
  · rw [List.mem_singleton.mp hm]
    exact of_decide_eq_true rfl
  · rw [hb] at hb'
    cases hb'
    exact ⟨_, List.mem_singleton_self _, rfl⟩

/-- An outsider registers the link with another token; one with an old session saves
a rule. -/
theorem outsiders_takeOver :
    (Lts.Along (next .ascii .sha256 exampleState) (fun s v => Outsider .sha256 exampleState "g" "T" s v ∧
        Unforged .sha256 exampleState s v) exampleSite [registerVisit "T2"] ∧
      ¬Lts.Through (next .ascii .sha256 exampleState) (Kept "g" "r" "T" exampleSite) exampleSite
        [registerVisit "T2"]) ∧
    Lts.Along (next .ascii .sha256 exampleState) (fun s v => Outsider .sha256 exampleState "g" "T" s v ∧
        Unforged .sha256 exampleState s v) exampleSite [saveVisit] ∧
      ¬Lts.Through (next .ascii .sha256 exampleState) (Kept "g" "r" "T" exampleSite) exampleSite
        [saveVisit] := by
  have hreg := registerVisit_outsider "T2" (by decide)
  refine ⟨⟨⟨hreg, trivial⟩, fun h => ?_⟩, ⟨saveVisit_outsider, trivial⟩, fun h => ?_⟩
  · refine (kept_next_iff exampleSite_kept hreg.1 hreg.2).mp h.2 (Or.inl ⟨rfl, "T2", ?_⟩)
    show okOr (stripPrefix "Token " ("Token " ++ "T2")) .unauthorized = _
    rw [stripPrefix_append]
    rfl
  · refine (kept_next_iff exampleSite_kept saveVisit_outsider.1 saveVisit_outsider.2).mp h.2
      (Or.inr ⟨1, ⟨true, []⟩, ⟨true, []⟩, _, _, List.mem_singleton_self _, "1", rfl,
        extractBearer_eq rfl, rfl, of_decide_eq_true rfl,
        verifyIframeSession_mint (by decide) (by decide) (by decide) (by decide) (by decide), rfl, rfl,
        rfl, by decide⟩)

/-- A deletion with a wrong token changes nothing. -/
def deleteVisit : Visit :=
  (.silent 1, ⟨.deleteConfig "g" "r", { Headers.none with authorization := some "Token T2" }⟩)

theorem link_kept_iff_delete :
    Lts.Through (next .ascii .sha256 exampleState) (Kept "g" "r" "T" exampleSite) exampleSite
        [deleteVisit] ↔
      Lts.Along (next .ascii .sha256 exampleState)
        (fun s v => ¬TakesOver .ascii .sha256 exampleState "g" "r" "T" s v) exampleSite [deleteVisit] := by
  have hb : extractBearer deleteVisit.2.headers = none := by decide
  have hout : Outsider .sha256 exampleState "g" "T" exampleSite deleteVisit :=
    ⟨by decide, fun g r jwt he => (by cases he), fun b hb' => (by rw [hb] at hb'; cases hb'),
      not_isManager rfl⟩
  have hun : Unforged .sha256 exampleState exampleSite deleteVisit :=
    fun b session hb' => (by rw [hb] at hb'; cases hb')
  exact link_kept_iff .ascii .sha256 exampleState exampleSite
    (l := ⟨"g", "r", "T", unconfiguredTree, 1, 0⟩) rfl [deleteVisit] ⟨hout, trivial⟩ ⟨hun, trivial⟩

end System

end Site

end BirthdayRole
