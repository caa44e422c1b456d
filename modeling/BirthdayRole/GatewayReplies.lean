/-
# What the Auth Gateway replies to a visitor (`services/auth.rs`)

The cookie of a visitor is forwarded to the gateway, which says whether they are a member or
a manager of a guild and who else is a member. What it says counts only if it comes with a
success and can be read; missing flags are false. Of all other replies a 401 alone means that
the visitor has to sign in again.

For the users page this is exact (`usersData_iff`): when it shows the list, and when it asks
the visitor to sign in. Its two statements may fail, as they do for a guild or a member whose id
holds U+0000.
-/
import BirthdayRole.Answers
import BirthdayRole.RoleLogic

namespace BirthdayRole

open Json Prog Result

/-- `classify_gateway_status`, for the gateway at an address. -/
def classifyGatewayStatus (H : HttpCrates) (gatewayUrl : String) (status : ℕ) (body : String) :
    AppError :=
  if status = 401 then
    .unauthorizedWith ("The Auth Gateway rejected your session (" ++ H.status status ++
      "). Please sign in again.")
  else .internal ("Auth Gateway at " ++ gatewayUrl ++ " returned " ++ H.status status ++ ": " ++ body)

/-- A request with the cookie of the visitor. -/
def cookieReply {α : Type} (H : HttpCrates) (gatewayUrl what : String) (read : Value → Option α) :
    HttpReply → Except AppError α
  | .unreachable e => .error (.internal ("auth_gateway " ++ what ++ " request: " ++ e))
  | .replied status body =>
    if !isSuccess status then
      .error (classifyGatewayStatus H gatewayUrl status (textOrEmpty body))
    else
      (H.decode read body).mapError fun e => .internal ("auth_gateway response not JSON: " ++ e)

/-- A field with `#[serde(default)]`. -/
def defaulted {α : Type} (default : α) (read : Value → Option α) (v : Option Value) : Option α :=
  match v with
  | none => some default
  | some v => read v

def readBool : Value → Option Bool
  | .bool b => some b
  | _ => none

def readStrings (v : Value) : Option (List String) := v.asArray.bind fun vs => vs.mapM Value.asStr

def readOptionalString : Value → Option (Option String)
  | .null => some none
  | v => v.asStr.map some

/-- A struct of two fields: an object, or an array of no more than two. -/
def twoFields {α : Type} (first second : String) (read : Option Value → Option Value → Option α) :
    Value → Option α
  | .object o => read (o.lookup first) (o.lookup second)
  | .array vs => if vs.length ≤ 2 then read vs[0]? vs[1]? else none
  | _ => none

/-- `GuildPermissionResp` -/
def readGuildPermission : Value → Option GuildPermission :=
  twoFields "is_member" "is_manager" fun isMember isManager => do
    some ⟨← defaulted false readBool isMember, ← defaulted false readBool isManager⟩

/-- `GuildMembersResp` -/
def readGuildMembers : Value → Option (List String × Option String) :=
  twoFields "discord_ids" "guild_name" fun discordIds guildName => do
    some (← defaulted [] readStrings discordIds, ← defaulted none readOptionalString guildName)

/-- The replies to a request, by the guild. -/
structure GatewayReplies where
  permission : String → HttpReply
  members : String → HttpReply
  memberIds : String → HttpReply

def Gateway.ofReplies (H : HttpCrates) (gatewayUrl : String) (replies : GatewayReplies) : Gateway where
  permission g := cookieReply H gatewayUrl "permission" readGuildPermission (replies.permission g)
  members g := cookieReply H gatewayUrl "members" readGuildMembers (replies.members g)
  memberIds g := fetchGuildMemberIds H (replies.memberIds g)

/-! ### What a reply says -/

/-- A success with a body that can be read. -/
def HttpReply.Says {α : Type} (H : HttpCrates) (read : Value → Option α) (reply : HttpReply) (v : α) :
    Prop :=
  ∃ status body, reply = .replied status body ∧ isSuccess status = true ∧ H.decode read body = .ok v

def HttpReply.Rejects (reply : HttpReply) : Prop := ∃ body, reply = .replied 401 body

/-- A visitor who gets this is asked to sign in. -/
def AppError.AsksToSignIn (e : AppError) : Prop := ∀ sqlx, (e.answer sqlx).status = 401

section

variable {H : HttpCrates} {gatewayUrl what : String} {α : Type} {read : Value → Option α}
  {reply : HttpReply}

theorem classifyDbError_status (e : Option DbError) : (classifyDbError e).status ≠ 401 := by
  unfold classifyDbError
  dsimp only
  split <;> simp [HttpAnswer.violation, HttpAnswer.message]

theorem asksToSignIn_iff {e : AppError} :
    e.AsksToSignIn ↔ e = .unauthorized ∨ ∃ msg, e = .unauthorizedWith msg := by
  constructor
  · intro h
    have h := h fun _ => none
    cases e with
    | unauthorized => exact Or.inl rfl
    | unauthorizedWith msg => exact Or.inr ⟨msg, rfl⟩
    | database msg => exact absurd h (classifyDbError_status _)
    | _ => exact absurd h (by simp [AppError.answer, HttpAnswer.message])
  · rintro (rfl | ⟨msg, rfl⟩) <;> exact fun _ => rfl

theorem cookieReply_ok {v : α} :
    cookieReply H gatewayUrl what read reply = .ok v ↔ reply.Says H read v := by
  cases reply with
  | unreachable e => exact iff_of_false (fun h => by cases h) fun ⟨_, _, h, _⟩ => by cases h
  | replied status body =>
    by_cases hs : isSuccess status = true
    · simp only [cookieReply, hs, Bool.not_true, Bool.false_eq_true, ↓reduceIte]
      constructor
      · intro h
        refine ⟨status, body, rfl, hs, ?_⟩
        cases hd : H.decode read body with
        | error e =>
          rw [hd] at h
          cases h
        | ok v' =>
          rw [hd] at h
          cases h
          rfl
      · rintro ⟨_, _, ⟨⟩, -, hd⟩
        rw [hd]
        rfl
    · simp only [cookieReply, hs, Bool.not_false, ↓reduceIte]
      refine iff_of_false (fun h => by cases h) ?_
      rintro ⟨_, _, ⟨⟩, hs', -⟩
      exact hs hs'

/-- Only a 401 asks the visitor to sign in. -/
theorem cookieReply_asks : (∃ e, cookieReply H gatewayUrl what read reply = .error e ∧
    e.AsksToSignIn) ↔ reply.Rejects := by
  simp only [asksToSignIn_iff]
  constructor
  · rintro ⟨e, h, he⟩
    cases reply with
    | unreachable msg =>
      cases h
      rcases he with he | ⟨_, he⟩ <;> cases he
    | replied status body =>
      by_cases hs : isSuccess status = true
      · simp only [cookieReply, hs, Bool.not_true, Bool.false_eq_true, ↓reduceIte] at h
        cases hd : H.decode read body with
        | error msg =>
          rw [hd] at h
          cases h
          rcases he with he | ⟨_, he⟩ <;> cases he
        | ok v =>
          rw [hd] at h
          cases h
      · simp only [cookieReply, hs, Bool.not_false, ↓reduceIte] at h
        cases h
        by_cases h401 : status = 401
        · exact ⟨body, by rw [h401]⟩
        · rw [classifyGatewayStatus, if_neg h401] at he
          rcases he with he | ⟨_, he⟩ <;> cases he
  · rintro ⟨body, rfl⟩
    exact ⟨_, rfl, Or.inr ⟨_, rfl⟩⟩

end

/-! ### The users page -/

section

variable {H : HttpCrates} {gatewayUrl : String} {K : TokenCrates} {state : AppState}
  {around : Surroundings} {db : Database} {headers : Headers} {guildId : String}

/-- Who may see the list, as `guild_settings` has it and the gateway says. -/
def Database.Admits (db : Database) (guildId : String) (p : GuildPermission) : Prop :=
  p.isMember = true ∧ (db.viewPermission guildId = "managers" → p.isManager = true)

/-- The cookie that a visitor comes with names them. -/
def SignedIn (K : TokenCrates) (state : AppState) (now : Time) (headers : Headers) : Prop :=
  ∃ who, readSession K state now headers = .ok who

theorem readSession_asks {now : Time} {e : AppError}
    (h : readSession K state now headers = .error e) : e.AsksToSignIn := by
  rw [asksToSignIn_iff]
  unfold readSession at h
  cases hc : headers.rlSession with
  | none =>
    rw [hc] at h
    cases h
    exact Or.inr ⟨_, rfl⟩
  | some cookie =>
    rw [hc] at h
    cases hv : verifySession K now cookie state.sessionSecret with
    | none =>
      have h : okOr (verifySession K now cookie state.sessionSecret)
        (.unauthorizedWith "Session expired or invalid.") = .error e := h
      rw [hv] at h
      cases h
      exact Or.inr ⟨_, rfl⟩
    | some who =>
      have h : okOr (verifySession K now cookie state.sessionSecret)
        (.unauthorizedWith "Session expired or invalid.") = .error e := h
      rw [hv] at h
      cases h

theorem asks_forbidden {msg : String} : ¬(AppError.forbidden msg).AsksToSignIn := by
  rw [asksToSignIn_iff]
  rintro (h | ⟨_, h⟩) <;> cases h

/-- The checks of the users page, by what is known of the visitor. -/
theorem usersAccess_iff (session : Except AppError (String × String))
    (permission : Except AppError GuildPermission)
    (members : Except AppError (List String × Option String))
    (hsession : ∀ e, session = .error e → e.AsksToSignIn) :
    let viewer : Viewer := ⟨session >>= fun _ => permission, session >>= fun _ => members⟩
    let access := usersAccess db.settings viewer guildId
    ((∃ m, access = .ok m) ↔ db.viewPermission guildId ≠ "disabled" ∧ (∃ who, session = .ok who) ∧
      (∃ p, permission = .ok p ∧ db.Admits guildId p) ∧ ∃ m, members = .ok m) ∧
    ((∃ e, access = .error e ∧ e.AsksToSignIn) ↔ db.viewPermission guildId ≠ "disabled" ∧
      ((¬∃ who, session = .ok who) ∨ (∃ e, permission = .error e ∧ e.AsksToSignIn) ∨
        (∃ p, permission = .ok p ∧ db.Admits guildId p) ∧
          ∃ e, members = .error e ∧ e.AsksToSignIn)) := by
  intro viewer access
  have hview : ((db.settings.get? guildId).map GuildSettings.viewPermission).getD "managers" =
    db.viewPermission guildId := rfl
  by_cases hdisabled : db.viewPermission guildId = "disabled"
  · have haccess : access = .error (.forbidden "The birthdays page is disabled for this server.") := by
      simp only [access, usersAccess, viewerAccess, hview, hdisabled, ↓reduceIte]
    simp [haccess, hdisabled, asks_forbidden]
  have hopen : access = (do
      let perm ← viewer.permission
      if !perm.isMember then .error (.forbidden "You're not a member of this server.")
      else if db.viewPermission guildId = "managers" ∧ !perm.isManager then
        .error (.forbidden "This list is visible to server managers only.")
      else viewer.members) := by
    simp only [access, usersAccess, viewerAccess, hview, if_neg hdisabled]
  rcases hs : session with e | who
  · have haccess : access = .error e := by
      rw [hopen]
      simp only [viewer, hs]
      rfl
    simp [haccess, hdisabled, hsession e hs]
  rcases hp : permission with e | p
  · have haccess : access = .error e := by
      rw [hopen]
      simp only [viewer, hs, hp]
      rfl
    simp [haccess, hdisabled]
  have hgranted : access =
      if !p.isMember then .error (.forbidden "You're not a member of this server.")
      else if db.viewPermission guildId = "managers" ∧ !p.isManager then
        .error (.forbidden "This list is visible to server managers only.")
      else members := by
    rw [hopen]
    simp only [viewer, hs, hp]
    rfl
  by_cases hadmits : db.Admits guildId p
  · have haccess : access = members := by
      rw [hgranted, if_neg (by simp [hadmits.1]), if_neg (by simpa using hadmits.2)]
    simp [haccess, hdisabled, hadmits]
  · have hforbidden : ∃ msg, access = .error (.forbidden msg) := by
      rw [hgranted]
      by_cases hmember : p.isMember = true
      · have hmanager : db.viewPermission guildId = "managers" ∧ (!p.isManager) = true := by
          by_contra hc
          exact hadmits ⟨hmember, by simpa using hc⟩
        rw [if_neg (by simp [hmember]), if_pos hmanager]
        exact ⟨_, rfl⟩
      · rw [if_pos (by simpa using hmember)]
        exact ⟨_, rfl⟩
    obtain ⟨msg, hforbidden⟩ := hforbidden
    simp [hforbidden, hadmits, asks_forbidden]

theorem asks_database {msg : String} : ¬(AppError.database msg).AsksToSignIn := by
  rw [asksToSignIn_iff]
  rintro (h | ⟨_, h⟩) <;> cases h

/-- The users page reads the view permission, then the visitor is checked, then the rows are read. -/
theorem outcome_usersData (C : Crates) (fails : ℕ → Option String) :
    (Requests.outcome C K state around db ⟨.usersData guildId, headers⟩ (Requests.failing fails)).1 =
      some (do
        (fails 0).elim (.ok ()) fun e => .error (.database e)
        let m ← usersAccess db.settings (viewer K state around.now around.gateway headers guildId)
          guildId
        (fails 1).elim (.ok ()) fun e => .error (.database e)
        .ok (.users (usersResponse around.localToday guildId m.2 (listedRows db.birthdays m.1)))) := by
  show ((Requests.usersData K state around headers guildId).under _ _ 0 db).1 = _
  unfold Requests.usersData
  rcases h0 : fails 0 with _ | e
  · rw [under_perform_ok rfl (congrArg (Option.map AppError.database) h0)]
    simp only [RouteStatement.apply]
    show _ = some (usersAccess _ _ _ >>= _)
    unfold usersAccess
    cases viewerAccess _ (viewer K state around.now around.gateway headers guildId) with
    | error e => rfl
    | ok m =>
      rcases h1 : fails 1 with _ | e
      · exact congrArg Prod.fst (under_perform_ok rfl (congrArg (Option.map AppError.database) h1))
      · exact congrArg Prod.fst (under_perform_fails rfl (congrArg (Option.map AppError.database) h1))
  · exact congrArg Prod.fst (under_perform_fails rfl (congrArg (Option.map AppError.database) h0))

/-- The list is shown if nothing fails, and a failing statement asks nobody to sign in. -/
theorem outcome_usersData_iff (C : Crates) (K : TokenCrates) (state : AppState)
    (around : Surroundings) (db : Database) (headers : Headers) (guildId : String)
    (fails : ℕ → Option String) :
    let answer := (Requests.outcome C K state around db ⟨.usersData guildId, headers⟩
      (Requests.failing fails)).1
    let access := usersAccess db.settings (viewer K state around.now around.gateway headers guildId)
      guildId
    ((∃ users, answer = some (.ok (.users users))) ↔
      fails 0 = none ∧ fails 1 = none ∧ ∃ m, access = .ok m) ∧
    ((∃ e, answer = some (.error e) ∧ e.AsksToSignIn) ↔
      fails 0 = none ∧ ∃ e, access = .error e ∧ e.AsksToSignIn) := by
  intro answer access
  have hanswer : answer = some (do
    (fails 0).elim (.ok ()) fun e => .error (.database e)
    let m ← access
    (fails 1).elim (.ok ()) fun e => .error (.database e)
    .ok (.users (usersResponse around.localToday guildId m.2 (listedRows db.birthdays m.1)))) :=
    outcome_usersData C fails
  rcases h0 : fails 0 with _ | text
  · rcases ha : access with e | m
    · have hanswer : answer = some (.error e) := by
        rw [hanswer, h0, ha]
        rfl
      simp [hanswer]
    · rcases h1 : fails 1 with _ | text
      · have hanswer : answer = some (.ok (.users
            (usersResponse around.localToday guildId m.2 (listedRows db.birthdays m.1)))) := by
          rw [hanswer, h0, ha, h1]
          rfl
        simp [hanswer]
      · have hanswer : answer = some (.error (.database text)) := by
          rw [hanswer, h0, ha, h1]
          rfl
        simp [hanswer, asks_database]
  · have hanswer : answer = some (.error (.database text)) := by
      rw [hanswer, h0]
      rfl
    simp [hanswer, asks_database]

/-- Where its statements are carried out, the users page shows its list exactly to a visitor who
is signed in and whom two successful replies of the gateway let in. If the first is carried out
and the list is not disabled, it asks exactly those to sign in who are not, or whose cookie the
gateway rejects with a 401. -/
theorem usersData_iff (C : Crates) (H : HttpCrates) (gatewayUrl : String) (K : TokenCrates)
    (state : AppState) (around : Surroundings) (replies : GatewayReplies) (db : Database)
    (headers : Headers) (guildId : String) (fails : ℕ → Option String) :
    let around := { around with gateway := .ofReplies H gatewayUrl replies }
    let answer := (Requests.outcome C K state around db ⟨.usersData guildId, headers⟩
      (Requests.failing fails)).1
    let permitted := fun p => (replies.permission guildId).Says H readGuildPermission p ∧
      db.Admits guildId p
    ((∃ users, answer = some (.ok (.users users))) ↔ fails 0 = none ∧ fails 1 = none ∧
      db.viewPermission guildId ≠ "disabled" ∧ SignedIn K state around.now headers ∧
        (∃ p, permitted p) ∧ ∃ m, (replies.members guildId).Says H readGuildMembers m) ∧
    ((∃ e, answer = some (.error e) ∧ e.AsksToSignIn) ↔ fails 0 = none ∧
      db.viewPermission guildId ≠ "disabled" ∧ (¬SignedIn K state around.now headers ∨
        (replies.permission guildId).Rejects ∨
        (∃ p, permitted p) ∧ (replies.members guildId).Rejects)) := by
  intro around answer permitted
  have haccess := @usersAccess_iff db guildId
    (readSession K state around.now headers)
    (cookieReply H gatewayUrl "permission" readGuildPermission (replies.permission guildId))
    (cookieReply H gatewayUrl "members" readGuildMembers (replies.members guildId))
    fun e he => readSession_asks he
  simp only [cookieReply_ok, cookieReply_asks] at haccess
  obtain ⟨hshows, hasks⟩ := outcome_usersData_iff C K state around db headers guildId fails
  exact ⟨hshows.trans (and_congr_right' (and_congr_right' haccess.1)),
    hasks.trans (and_congr_right' haccess.2)⟩

end

end BirthdayRole
