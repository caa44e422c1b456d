/-
# What a client is answered (`error.rs`)

Every error of a handler becomes a status and a JSON body. The texts of internal errors, of
database errors and of RoleLogic go to the log and not into the body (`AppError.answer`).

So a client cannot tell from an answer what went wrong inside (`outcome_hides`): if the gateway
and the statements of a request fail with other texts, the request does the same and is
answered the same. The role page is the exception, twice. Where it refuses a JWT it shows the
error of its statement, and where it asks the visitor to sign in the error that keeps them out,
whatever that is (`shownText`).
-/
import BirthdayRole.Lib.Observed
import BirthdayRole.Requests

namespace BirthdayRole

open Json Prog Result

/-! ### Answers -/

/-- What `sqlx::Error::Database` tells of an error beside its text. -/
structure DbError where
  code : Option String
  constraint : Option String

/-- A status, and what stands in the body. -/
structure HttpAnswer where
  status : ℕ
  body : List (String × String)

namespace HttpAnswer

def message (status : ℕ) (error : String) : HttpAnswer := ⟨status, [("error", error)]⟩

def violation (status : ℕ) (error code : String) (constraint : List (String × String)) : HttpAnswer :=
  ⟨status, [("error", error), ("code", code)] ++ constraint⟩

end HttpAnswer

/-- `classify_db_error`; an error that does not come from the database has no code. -/
def classifyDbError (e : Option DbError) : HttpAnswer :=
  let constraint := ("constraint", (e.bind DbError.constraint).getD "")
  match (e.bind DbError.code).getD "" with
  | "23505" =>
    .violation 409 "A record with that value already exists." "UNIQUE_VIOLATION" [constraint]
  | "23503" =>
    .violation 409 "Operation would violate a referential constraint." "FOREIGN_KEY_VIOLATION"
      [constraint]
  | "23514" =>
    .violation 400 "One or more fields failed a database check." "CHECK_VIOLATION" [constraint]
  | "23502" => .violation 400 "A required field was missing." "NOT_NULL_VIOLATION" []
  | _ => .message 500 "Internal server error"

/-- `into_response`. What `sqlx` says of an error is found from its text. -/
def AppError.answer (sqlx : String → Option DbError) : AppError → HttpAnswer
  | .database e => classifyDbError (sqlx e)
  | .roleLogic _ => .message 502 "Failed to sync roles"
  | .roleLinkNotFound => .message 404 "Role link not found"
  | .roleLinkDisabled => .message 403 "Role link is disabled"
  | .roleLinkRemovalHeld _ _ =>
    .message 409 "Role link removal is waiting for confirmation in the RoleLogic dashboard"
  | .userLimitReached _ => .message 403 "Role link user limit reached"
  | .badRequest msg => .message 400 msg
  | .unauthorized => .message 401 "Invalid or missing authorization"
  | .unauthorizedWith msg => .message 401 msg
  | .forbidden msg => .message 403 msg
  | .notFound msg => .message 404 msg
  | .staleVersion =>
    ⟨409, [("error", "The configuration was edited from another tab. Reload and try again."),
      ("code", "STALE_VERSION")]⟩
  | .internal _ => .message 500 "Internal server error"

/-- Replies that a client cannot tell apart. -/
abbrev Reply.Alike (sqlx : String → Option DbError) (x y : Reply) : Prop :=
  Result.Alike (AppError.answer sqlx) x y

/-- The same of requests that may not come to a reply. -/
def Reply.AlikeIfAny (sqlx : String → Option DbError) (x y : Option Reply) : Prop :=
  x.map (Except.mapError (AppError.answer sqlx)) = y.map (Except.mapError (AppError.answer sqlx))

/-- Surroundings that differ in the texts of errors alone. -/
structure Surroundings.Alike (sqlx : String → Option DbError) (a b : Surroundings) : Prop where
  now : a.now = b.now
  thisYear : a.thisYear = b.thisYear
  localToday : a.localToday = b.localToday
  permission : ∀ g, Result.Alike (AppError.answer sqlx) (a.gateway.permission g) (b.gateway.permission g)
  members : ∀ g, Result.Alike (AppError.answer sqlx) (a.gateway.members g) (b.gateway.members g)
  memberIds : ∀ g, Result.Alike (AppError.answer sqlx) (a.gateway.memberIds g) (b.gateway.memberIds g)
  count : a.count = b.count

namespace Requests

/-- The text of an error that a page shows, if the request is answered with such a page. -/
def shownText (K : TokenCrates) (state : AppState) (around : Surroundings) (F : Faults AppError)
    (request : HttpRequest) : Option String :=
  match request.route with
  | .roleConfigPage guildId _ rlToken =>
    if F.stops 0 then none
    else match rlToken.filter (· ≠ "") with
    | some _ => if F.stops 1 then none else (F.fails 0).map AppError.display
    | none =>
      match requireManager K state around.now around.gateway request.headers guildId with
      | .ok _ => none
      | .error e => if Routes.looksEmbedded request.headers then none else some e.display
  | _ => none

section

variable {C : Crates} {K : TokenCrates} {state : AppState} {a b : Surroundings} {db : Database}
  {headers : Headers} {sqlx : String → Option DbError} {F F' : Faults AppError}

/-! ### The checks -/

theorem requireManager_alike (h : a.Alike sqlx b) (guildId : String) :
    Result.Alike (AppError.answer sqlx) (requireManager K state a.now a.gateway headers guildId)
      (requireManager K state b.now b.gateway headers guildId) := by
  unfold requireManager
  rw [h.now]
  exact Result.Alike.bind (.refl _) fun session =>
    Result.Alike.bind (h.permission guildId) fun _ => .refl _

theorem requireGuildAdmin_alike (h : a.Alike sqlx b) (guildId : String) :
    Result.Alike (AppError.answer sqlx) (requireGuildAdmin K state a.now a.gateway headers guildId)
      (requireGuildAdmin K state b.now b.gateway headers guildId) := by
  unfold requireGuildAdmin
  cases extractBearer headers with
  | some bearer =>
    simp only [h.now]
    exact .refl _
  | none => exact requireManager_alike h guildId

theorem requireRoleConfigAccess_alike (h : a.Alike sqlx b) (guildId roleId : String) :
    Result.Alike (AppError.answer sqlx)
      (requireRoleConfigAccess K state a.now a.gateway headers guildId roleId)
      (requireRoleConfigAccess K state b.now b.gateway headers guildId roleId) := by
  unfold requireRoleConfigAccess
  cases extractBearer headers with
  | some bearer =>
    simp only [h.now]
    exact .refl _
  | none => exact (requireManager_alike h guildId).bind fun _ => .refl _

theorem viewerAccess_alike (h : a.Alike sqlx b) (viewPermission guildId : String) :
    Result.Alike (AppError.answer sqlx)
      (viewerAccess viewPermission (viewer K state a.now a.gateway headers guildId))
      (viewerAccess viewPermission (viewer K state b.now b.gateway headers guildId)) := by
  have hpermission : Result.Alike (AppError.answer sqlx)
      (viewer K state a.now a.gateway headers guildId).permission
      (viewer K state b.now b.gateway headers guildId).permission := by
    unfold viewer
    rw [h.now]
    exact Result.Alike.bind (.refl _) fun _ => h.permission guildId
  have hmembers : Result.Alike (AppError.answer sqlx)
      (viewer K state a.now a.gateway headers guildId).members
      (viewer K state b.now b.gateway headers guildId).members := by
    unfold viewer
    rw [h.now]
    exact Result.Alike.bind (.refl _) fun _ => h.members guildId
  unfold viewerAccess
  split
  · exact .refl _
  refine hpermission.bind fun permission => ?_
  split
  · exact .refl _
  split
  · exact .refl _
  · exact hmembers

/-! ### The handlers -/

theorem apply_alike (h : a.Alike sqlx b) : RouteStatement.apply a = RouteStatement.apply b := by
  funext op db
  unfold RouteStatement.apply
  rw [h.now, h.count]

/-- A preview that cannot reach the gateway says so in words of its own. -/
theorem previewCountFor_alike (h : a.Alike sqlx b) (guildId : String) (tree : RuleTree) :
    (previewCountFor a guildId tree).Alike (AppError.answer sqlx) (previewCountFor b guildId tree) := by
  unfold previewCountFor
  rcases (h.memberIds guildId).cases with ⟨ids, ha, hb⟩ | ⟨e, e', ha, hb, -⟩
  · rw [ha, hb]
    by_cases hnil : ids = []
    · simp only [if_pos hnil]
      exact .refl_done _
    · simp only [if_neg hnil]
      exact .perform_bind fun counted => .done_bind (.refl counted) fun linked =>
        .perform_bind fun counted => .done_bind (.refl counted) fun matching => .refl_done _
  · rw [ha, hb]
    exact .refl_done _

/-- Every handler but that of the role page passes errors on, or leaves them out of its answer. -/
theorem handler_alike (h : a.Alike sqlx b) {route : Route}
    (hroute : ∀ g r rlToken, route ≠ .roleConfigPage g r rlToken) :
    (handler C K state a headers route).Alike (AppError.answer sqlx)
      (handler C K state b headers route) := by
  cases route with
  | roleConfigPage g r rlToken => exact absurd rfl (hroute g r rlToken)
  | register guildId roleId =>
    exact .done_bind (.refl _) fun token => .perform_bind fun _ => .perform_bind fun _ => .refl_done _
  | getConfig =>
    exact .done_bind (.refl _) fun token => .perform_bind fun found =>
      .done_bind (.refl _) fun link => .refl_done _
  | postConfig guildId roleId =>
    refine .done_bind (.refl _) fun token => .perform_bind fun owned => ?_
    split <;> exact .refl_done _
  | deleteConfig guildId roleId =>
    refine .done_bind (.refl _) fun token => .perform_bind fun deleted => ?_
    split <;> exact .refl_done _
  | roleConfigData guildId roleId =>
    exact .done_bind (requireRoleConfigAccess_alike h guildId roleId) fun _ =>
      .perform_bind fun found => .done_bind (.refl _) fun link => .perform_bind fun _ => .refl_done _
  | roleConfigPreview guildId roleId =>
    exact .done_bind (requireRoleConfigAccess_alike h guildId roleId) fun _ =>
      .perform_bind fun found => .done_bind (.refl _) fun rawTree => previewCountFor_alike h guildId _
  | roleConfigPreviewEdit guildId roleId tree =>
    exact .done_bind (.refl _) fun _ => .done_bind (requireRoleConfigAccess_alike h guildId roleId)
      fun _ => .done_bind (.refl _) fun parsed => previewCountFor_alike h guildId parsed
  | setViewPermission guildId vp =>
    have hcheck : Result.Alike (AppError.answer sqlx)
        (Routes.permissionCheck K state a headers guildId vp)
        (Routes.permissionCheck K state b headers guildId vp) :=
      Result.Alike.bind (.refl _) fun _ => (requireGuildAdmin_alike h guildId).bind fun _ => .refl _
    exact .done_bind hcheck fun _ => .perform_bind fun _ => .refl_done _
  | usersData guildId =>
    refine .perform_bind fun viewPermission => .done_bind (viewerAccess_alike h _ guildId) fun access =>
      .perform_bind fun rows => ?_
    rw [h.localToday]
    exact .refl_done _
  | verifyStatus =>
    show (verifyStatus K state a headers).Alike _ (verifyStatus K state b headers)
    unfold verifyStatus Routes.verifyBirthday
    rw [h.now, h.localToday]
    cases readSession K state b.now headers with
    | error e => exact .refl_done _
    | ok session => exact .perform_bind fun row => .refl_done _
  | dweebStatus guild =>
    show (dweebStatus guild).Alike _ (dweebStatus guild)
    unfold dweebStatus
    cases guild.filter Routes.isSnowflake with
    | none => exact .refl_done _
    | some guildId =>
      refine .attempt_bind fun r r' hr => ?_
      rcases hr.cases with ⟨n, rfl, rfl⟩ | ⟨e, e', rfl, rfl, -⟩ <;> exact .refl_done _
  | health =>
    refine .attempt_bind fun r r' hr => ?_
    rcases hr.cases with ⟨n, rfl, rfl⟩ | ⟨e, e', rfl, rfl, -⟩ <;> exact .refl_done _
  | usersPage | verifyPage | verifyLogin | favicon | ready | unrouted | roleConfigSave | verifySave
  | verifyUnlink => exact .refl_done _

theorem roleConfigSave_alike (h : a.Alike sqlx b) (guildId roleId : String) (version : ℤ)
    (tree : RuleTreeBody) :
    (ConfigWrites.roleConfigSave C K state a headers guildId roleId version tree).Alike
      (AppError.answer sqlx)
      (ConfigWrites.roleConfigSave C K state b headers guildId roleId version tree) := by
  have hcheck : Result.Alike (AppError.answer sqlx)
      (Routes.saveCheck C K state a headers guildId roleId tree)
      (Routes.saveCheck C K state b headers guildId roleId tree) :=
    Result.Alike.bind (.refl _) fun _ =>
      (requireRoleConfigAccess_alike h guildId roleId).bind fun _ => .refl _
  refine .done_bind hcheck fun parsed => .perform_bind fun updated =>
    .done_bind (.refl updated) fun affected => ?_
  split
  · exact .perform_bind fun found => .refl_done _
  · refine .perform_bind fun fetched => .done_bind (.refl fetched) fun newVersion => ?_
    exact .attempt_bind fun _ _ _ => .refl_done _

theorem birthday_alike (h : a.Alike sqlx b) (request : BirthdayRequest) :
    (BirthdayWrites.handler C K state a headers request).Alike (AppError.answer sqlx)
      (BirthdayWrites.handler C K state b headers request) := by
  have hthen (discordId : String) : (BirthdayWrites.enqueueAnd discordId).Alike (AppError.answer sqlx)
      (BirthdayWrites.enqueueAnd discordId) := .perform_bind fun _ => .refl_done _
  cases request with
  | save body =>
    rw [BirthdayWrites.handler_save, BirthdayWrites.handler_save, BirthdayWrites.saveChecks,
      BirthdayWrites.saveChecks, h.now, h.thisYear]
    exact .done_bind (.refl _) fun row => .perform_bind fun _ => hthen row.discordId
  | unlink =>
    rw [BirthdayWrites.handler_unlink, BirthdayWrites.handler_unlink, BirthdayWrites.unlinkChecks,
      BirthdayWrites.unlinkChecks, h.now]
    refine .done_bind (.refl _) fun session => .perform_bind fun removed => ?_
    split
    · exact .refl_done _
    · exact hthen session.1

theorem birthdayWrites_hides (h : a.Alike sqlx b) (hF : F.Alike (AppError.answer sqlx) F')
    (db : Database) (request : BirthdayRequest) :
    (BirthdayWrites.outcome C K state a headers db request F).2 =
        (BirthdayWrites.outcome C K state b headers db request F').2 ∧
      Reply.AlikeIfAny sqlx (BirthdayWrites.outcome C K state a headers db request F).1
        (BirthdayWrites.outcome C K state b headers db request F').1 := by
  unfold BirthdayWrites.outcome
  rw [h.now]
  exact (birthday_alike h request).under hF 0 db

/-! ### Every route -/

section RolePage

variable {guildId roleId : String} {rlToken : Option String}

/-- For a JWT the role page says what the statement makes of it. -/
theorem outcome_entryPage (around : Surroundings) (F : Faults AppError) {token : String}
    (htoken : rlToken.filter (· ≠ "") = some token) :
    outcome C K state around db ⟨.roleConfigPage guildId roleId rlToken, headers⟩ F =
      (if F.stops 0 || F.stops 1 then none
        else some (.ok (Routes.entryPage (Routes.verifyIframeEntry K state around
          ((F.fails 0).elim (.ok (Routes.apiToken? db guildId roleId)) .error) guildId roleId
          token))), db) := by
  show (roleConfigPage K state around headers guildId roleId rlToken).under
    (RouteStatement.apply around) F 0 db = _
  unfold roleConfigPage
  rw [htoken]
  cases hstop : F.stops 0 with
  | true =>
    show under _ _ (call _ _) 0 db = _
    rw [under, if_pos hstop]
    rfl
  | false =>
    dsimp only
    rw [under_attempt hstop, Bool.false_or]
    cases F.fails 0 with
    | none =>
      dsimp only [Option.elim]
      rw [under]
      rfl
    | some e =>
      dsimp only [Option.elim]
      rw [under]

/-- For a cookie it says what the gateway makes of it. -/
theorem outcome_managerPage (around : Surroundings) (F : Faults AppError)
    (htoken : rlToken.filter (· ≠ "") = none) :
    outcome C K state around db ⟨.roleConfigPage guildId roleId rlToken, headers⟩ F =
      (if F.stops 0 then none else some (.ok (Routes.managerPage K state around headers guildId)),
        db) := by
  show (roleConfigPage K state around headers guildId roleId rlToken).under
    (RouteStatement.apply around) F 0 db = _
  unfold roleConfigPage
  rw [htoken]
  rfl

/-- A page is the same answer exactly if it is the same page. -/
theorem page_alike_iff (x y : Response) :
    Reply.AlikeIfAny sqlx (some (.ok x)) (some (.ok y)) ↔ x = y := by
  unfold Reply.AlikeIfAny
  rw [Option.map_some, Option.map_some, Option.some.injEq]
  exact Result.Alike.ok_iff

/-- The role page is the same, but for the text that it shows. -/
theorem roleConfigPage_hides (h : a.Alike sqlx b) (hF : F.Alike (AppError.answer sqlx) F')
    (db : Database) (guildId roleId : String) (rlToken : Option String) :
    let request : HttpRequest := ⟨.roleConfigPage guildId roleId rlToken, headers⟩
    (outcome C K state a db request F).2 = (outcome C K state b db request F').2 ∧
    (Reply.AlikeIfAny sqlx (outcome C K state a db request F).1 (outcome C K state b db request F').1 ↔
      shownText K state a F request = shownText K state b F' request) := by
  intro request
  unfold request shownText
  dsimp only
  cases htoken : rlToken.filter (· ≠ "") with
  | none =>
    rw [outcome_managerPage a F htoken, outcome_managerPage b F' htoken, ← hF.stops]
    refine ⟨rfl, ?_⟩
    cases F.stops 0 with
    | true => exact iff_of_true rfl rfl
    | false =>
      refine (page_alike_iff _ _).trans ?_
      unfold Routes.managerPage
      have hmanager : Result.Alike (AppError.answer sqlx)
          (requireManager K state a.now a.gateway headers guildId)
          (requireManager K state b.now b.gateway headers guildId) := requireManager_alike h guildId
      rcases hmanager.cases with ⟨_, ha, hb⟩ | ⟨e, e', ha, hb, -⟩
      · rw [ha, hb]
        exact iff_of_true rfl rfl
      · rw [ha, hb]
        by_cases he : Routes.looksEmbedded headers = true <;> simp [he]
  | some token =>
    rw [outcome_entryPage a F htoken, outcome_entryPage b F' htoken, ← hF.stops]
    refine ⟨rfl, ?_⟩
    cases F.stops 0 with
    | true =>
      simp only [Bool.true_or, if_true]
      exact iff_of_true rfl trivial
    | false =>
      cases F.stops 1 with
      | true =>
        simp only [Bool.false_or, if_true, Bool.false_eq_true, if_false]
        exact iff_of_true rfl trivial
      | false =>
        simp only [Bool.or_false, Bool.false_eq_true, if_false]
        refine (page_alike_iff _ _).trans ?_
        have hfails := hF.fails 0
        cases hf : F.fails 0 with
        | none =>
          rw [hf] at hfails
          rw [Option.map_eq_none_iff.mp hfails.symm]
          simp only [Routes.verifyIframeEntry, h.now]
        | some e =>
          rw [hf] at hfails
          obtain ⟨e', he', -⟩ := Option.map_eq_some_iff.mp hfails.symm
          rw [he']
          show Response.inlineError e.display = .inlineError e'.display ↔
            some e.display = some e'.display
          rw [Response.inlineError.injEq, Option.some.injEq]

end RolePage

/-- A request does the same in both surroundings, wherever its statements fail and the process
stops. It is answered the same if the text on the role page is, and on every other route
anyway. -/
theorem outcome_hides (h : a.Alike sqlx b) (hF : F.Alike (AppError.answer sqlx) F') (C : Crates)
    (K : TokenCrates) (state : AppState) (db : Database) (request : HttpRequest) :
    (outcome C K state a db request F).2 = (outcome C K state b db request F').2 ∧
    (Reply.AlikeIfAny sqlx (outcome C K state a db request F).1 (outcome C K state b db request F').1 ↔
      shownText K state a F request = shownText K state b F' request) := by
  obtain ⟨route, headers⟩ := request
  -- but for the role page there is no such text
  have hother : ∀ {x y : Option Reply × Database} {r r' : Option String}, r = none → r' = none →
      x.2 = y.2 ∧ Reply.AlikeIfAny sqlx x.1 y.1 →
        x.2 = y.2 ∧ (Reply.AlikeIfAny sqlx x.1 y.1 ↔ r = r') := by
    rintro x y r r' rfl rfl ⟨hdb, halike⟩
    exact ⟨hdb, iff_of_true halike rfl⟩
  have hplain : ∀ {route : Route}, (∀ g r rlToken, route ≠ .roleConfigPage g r rlToken) →
      ((handler C K state a headers route).under (RouteStatement.apply a) F 0 db).2 =
          ((handler C K state b headers route).under (RouteStatement.apply b) F' 0 db).2 ∧
        Reply.AlikeIfAny sqlx
          ((handler C K state a headers route).under (RouteStatement.apply a) F 0 db).1
          ((handler C K state b headers route).under (RouteStatement.apply b) F' 0 db).1 := by
    intro route hroute
    rw [apply_alike h]
    exact (handler_alike h hroute).under hF 0 db
  cases route with
  | roleConfigPage guildId roleId rlToken => exact roleConfigPage_hides h hF db guildId roleId rlToken
  | roleConfigSave guildId roleId version tree =>
    refine hother rfl rfl ?_
    unfold outcome
    dsimp only
    rw [h.now]
    exact (roleConfigSave_alike h guildId roleId version tree).under hF 0 db
  | verifySave body => exact hother rfl rfl (birthdayWrites_hides h hF db (.save body))
  | verifyUnlink => exact hother rfl rfl (birthdayWrites_hides h hF db .unlink)
  | register | deleteConfig | getConfig | postConfig | roleConfigData | roleConfigPreview
  | roleConfigPreviewEdit | setViewPermission | usersPage | usersData | verifyPage | verifyStatus
  | verifyLogin | favicon | dweebStatus | health | ready | unrouted =>
    exact hother rfl rfl (hplain fun _ _ _ he => by cases he)

end

/-! ### A gateway and a database that are down -/

/-- The gateway fails, and says what it says. -/
def down (text : String) : Surroundings :=
  { Surroundings.silent 0 with
    gateway := { Gateway.silent with permission := fun _ => .error (.internal text) } }

theorem down_alike (sqlx : String → Option DbError) (text text' : String) :
    (down text).Alike sqlx (down text') :=
  ⟨rfl, rfl, rfl, fun _ => .error rfl, fun _ => .refl _, fun _ => .refl _, rfl⟩

/-- Errors that `sqlx` knows nothing of look the same. -/
theorem failing_alike (text text' : String) :
    (failing fun _ => some text).Alike (AppError.answer fun _ => none) (failing fun _ => some text') :=
  ⟨fun _ => rfl, rfl⟩

/-- What they say is not in the answer of the users page, but it is on the page that asks to
sign in, and on the one that refuses a JWT. -/
theorem outcome_hides_down :
    let answer := fun (text : String) (route : Route) =>
      (outcome .ascii BirthdayWrites.exampleCrates BirthdayWrites.exampleState (down text) .empty
        ⟨route, BirthdayWrites.exampleHeaders⟩ (failing fun _ => some text)).1
    let alike := fun (route : Route) =>
      Reply.AlikeIfAny (fun _ => none) (answer "10.0.0.1" route) (answer "10.0.0.2" route)
    alike (.usersData "g") ∧ ¬alike (.roleConfigPage "g" "r" none) ∧
      ¬alike (.roleConfigPage "g" "r" (some "a.b.c")) := by
  intro answer alike
  have hshown (text : String) :
      shownText BirthdayWrites.exampleCrates BirthdayWrites.exampleState (down text)
        (failing fun _ => some text)
        ⟨.roleConfigPage "g" "r" none, BirthdayWrites.exampleHeaders⟩ =
          some ("Internal error: " ++ text) := by
    have hsession : readSession BirthdayWrites.exampleCrates BirthdayWrites.exampleState
        (down text).now BirthdayWrites.exampleHeaders = .ok ("1", "a") :=
      (bind_ok BirthdayWrites.exampleHeaders_session).choose_spec.2
    have hmanager : requireManager BirthdayWrites.exampleCrates BirthdayWrites.exampleState
        (down text).now (down text).gateway BirthdayWrites.exampleHeaders "g" =
          .error (.internal text) := by
      unfold requireManager
      rw [hsession]
      rfl
    unfold shownText
    dsimp only [Option.filter_none]
    rw [hmanager]
    rfl
  have hdown := down_alike (fun _ => none) "10.0.0.1" "10.0.0.2"
  have hfailing := failing_alike "10.0.0.1" "10.0.0.2"
  refine ⟨(outcome_hides hdown hfailing .ascii _ _ _ ⟨.usersData "g", _⟩).2.mpr rfl, fun h => ?_,
    fun h => ?_⟩
  · have hsame := (outcome_hides hdown hfailing .ascii BirthdayWrites.exampleCrates
      BirthdayWrites.exampleState .empty
      ⟨.roleConfigPage "g" "r" none, BirthdayWrites.exampleHeaders⟩).2.mp h
    rw [hshown, hshown] at hsame
    exact absurd hsame (by decide)
  · have hsame := (outcome_hides hdown hfailing .ascii BirthdayWrites.exampleCrates
      BirthdayWrites.exampleState .empty
      ⟨.roleConfigPage "g" "r" (some "a.b.c"), BirthdayWrites.exampleHeaders⟩).2.mp h
    have hshown (text : String) : shownText BirthdayWrites.exampleCrates BirthdayWrites.exampleState
        (down text) (failing fun _ => some text)
        ⟨.roleConfigPage "g" "r" (some "a.b.c"), BirthdayWrites.exampleHeaders⟩ =
          some ("Database error: " ++ text) := rfl
    rw [hshown, hshown] at hsame
    exact absurd hsame (by decide)

end Requests

end BirthdayRole
