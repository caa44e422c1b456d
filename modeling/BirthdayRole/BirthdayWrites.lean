/-
# The two writes of a member's request (`routes/verify.rs`)

`verify_save` and `verify_unlink` write the row of the member and then enqueue the job
that makes the change take effect, in two statements that share no transaction. Here
they are programs of these statements; without faults they are the handlers of `Routes`.

What such a request does to the database is all or nothing exactly when nothing comes
between the two (`outcome_atomic_iff`): once the row is written, the process must not
stop and the `INSERT` of the job must not fail.
-/
import BirthdayRole.Routes
import BirthdayRole.Lib.Faults

namespace BirthdayRole

open Json Prog Result

inductive BirthdayStatement where
  /-- `INSERT INTO birthdays … ON CONFLICT (discord_id) DO UPDATE` -/
  | upsert (row : BirthdayRow)
  /-- `DELETE FROM birthdays WHERE discord_id = …` -/
  | delete (discordId : String)
  /-- `jobs::enqueue_player_sync` -/
  | enqueuePlayerSync (discordId : String)

namespace BirthdayStatement

/-- A `DELETE` returns the rows affected. -/
abbrev Res : BirthdayStatement → Type
  | upsert _ => Unit
  | delete _ => ℕ
  | enqueuePlayerSync _ => Unit

def apply (now : Time) : (op : BirthdayStatement) → Database → op.Res × Database
  | upsert row, db => ((), { db with birthdays := db.birthdays.put row })
  | delete discordId, db =>
    ((db.birthdays.get? discordId).toList.length,
      { db with birthdays := db.birthdays.remove discordId })
  | enqueuePlayerSync discordId, db =>
    ((), { db with jobs := db.jobs.enqueuePlayerSync now discordId })

end BirthdayStatement

/-- The two requests that write a birthday. -/
inductive BirthdayRequest where
  | save (body : SaveBody)
  | unlink

def BirthdayRequest.route : BirthdayRequest → Route
  | save body => .verifySave body
  | unlink => .verifyUnlink

namespace BirthdayWrites

abbrev Handler := Prog AppError BirthdayStatement.Res Response

variable (C : Crates) (K : TokenCrates) (state : AppState) (around : Surroundings)
  (headers : Headers)

def verifySave (body : SaveBody) : Handler := do
  .done (verifyOrigin headers state.allowedOrigins)
  let session ← .done (readSession K state around.now headers)
  let row ← .done (verifySaveRow C around.thisYear around.now session.1 session.2 body)
  perform (BirthdayStatement.upsert row)
  perform (BirthdayStatement.enqueuePlayerSync row.discordId)
  .done success

def verifyUnlink : Handler := do
  .done (verifyOrigin headers state.allowedOrigins)
  let session ← .done (readSession K state around.now headers)
  let removed ← perform (BirthdayStatement.delete session.1)
  if removed = 0 then raise (.notFound "No saved birthday to remove.")
  else
    perform (BirthdayStatement.enqueuePlayerSync session.1)
    .done success

def handler : BirthdayRequest → Handler
  | .save body => verifySave C K state around headers body
  | .unlink => verifyUnlink K state around headers

/-- What a request leads to. -/
def outcome (db : Database) (request : BirthdayRequest) (F : Faults AppError) :
    Option Reply × Database :=
  (handler C K state around headers request).under (BirthdayStatement.apply around.now) F 0 db

/-- Both writes were made or neither; and who gets an error finds the rows as they were. -/
structure Atomic (db : Database) (request : BirthdayRequest) (out : Option Reply × Database) :
    Prop where
  both : out.2 = db ∨ Routes.Changes C K state around db headers request.route out.2
  error : ∀ e, out.1 = some (.error e) → out.2.birthdays = db.birthdays

/-- Once the row is written, nothing keeps the job from being enqueued. -/
def Uninterrupted (F : Faults AppError) : Prop :=
  F.stops 0 = false → F.fails 0 = none → F.stops 1 = false ∧ F.fails 1 = none

variable {C K state around headers} {db : Database} {request : BirthdayRequest} {F : Faults AppError}

/-! ### The handlers, part by part -/

/-- After the row. -/
def enqueueAnd (discordId : String) : Handler := do
  perform (BirthdayStatement.enqueuePlayerSync discordId)
  .done success

theorem enqueue_ne (jobs : Jobs) (now : Time) (discordId : String) :
    jobs.enqueuePlayerSync now discordId ≠ jobs := by
  intro h
  have : jobs.nextId + 1 = jobs.nextId := congrArg Jobs.nextId h
  omega

/-- The job is enqueued, or nothing more is done. -/
theorem under_enqueueAnd (db : Database) (discordId : String) (now : Time) :
    (F.stops 1 = false ∧ F.fails 1 = none ∧
      (enqueueAnd discordId).under (BirthdayStatement.apply now) F 1 db =
        (if F.stops 2 then none else some success,
          { db with jobs := db.jobs.enqueuePlayerSync now discordId })) ∨
    (¬(F.stops 1 = false ∧ F.fails 1 = none) ∧
      ((enqueueAnd discordId).under (BirthdayStatement.apply now) F 1 db).2 = db) := by
  by_cases h : F.stops 1 = false ∧ F.fails 1 = none
  · refine Or.inl ⟨h.1, h.2, ?_⟩
    rw [enqueueAnd, under_perform_ok h.1 h.2]
    rfl
  · exact Or.inr ⟨h, under_perform_lost h⟩

/-- A request that makes its change in two writes. -/
theorem atomic_iff_of_writes (rows : Birthdays) (discordId : String)
    {out : Option Reply × Database}
    (hchanges : ∀ db', Routes.Changes C K state around db headers request.route db' ↔
      db' = { db with birthdays := rows, jobs := db.jobs.enqueuePlayerSync around.now discordId })
    (hfirst : ¬(F.stops 0 = false ∧ F.fails 0 = none) → out.2 = db)
    (hsecond : F.stops 0 = false → F.fails 0 = none →
      out = (enqueueAnd discordId).under (BirthdayStatement.apply around.now) F 1
        { db with birthdays := rows }) :
    Atomic C K state around headers db request out ↔
      ∀ db', Routes.Changes C K state around db headers request.route db' →
        db'.birthdays ≠ db.birthdays → Uninterrupted F := by
  have hall := (hchanges _).mpr rfl
  by_cases hF : F.stops 0 = false ∧ F.fails 0 = none
  · have hout := hsecond hF.1 hF.2
    rcases under_enqueueAnd { db with birthdays := rows } discordId around.now with
      ⟨hs, hf, h⟩ | ⟨hno, h⟩
    · rw [← hout] at h
      refine ⟨fun _ _ _ _ _ _ => ⟨hs, hf⟩, fun _ => ⟨Or.inr ?_, fun e he => ?_⟩⟩
      · rw [h]
        exact hall
      · rw [h] at he
        dsimp only at he
        split at he <;> cases he
    · rw [← hout] at h
      constructor
      · rintro ⟨hdb | hdb, -⟩ db' hdb' hne
        · rw [(hchanges db').mp hdb'] at hne
          rw [h] at hdb
          exact absurd (congrArg Database.birthdays hdb) hne
        · rw [h, hchanges] at hdb
          exact absurd (congrArg Database.jobs hdb).symm (enqueue_ne _ _ _)
      · intro hcond
        have hsame : rows = db.birthdays := by
          by_contra hne
          exact hno (hcond _ hall hne hF.1 hF.2)
        rw [hsame] at h
        exact ⟨Or.inl h, fun e _ => by rw [h]⟩
  · have hout := hfirst hF
    exact ⟨fun _ _ _ _ hs hf => absurd ⟨hs, hf⟩ hF, fun _ => ⟨Or.inl hout, fun e _ => by rw [hout]⟩⟩

/-- A request that makes no change. -/
theorem atomic_of_refused {out : Option Reply × Database}
    (hchanges : ∀ db', ¬Routes.Changes C K state around db headers request.route db')
    (hout : out.2 = db) : Atomic C K state around headers db request out ↔
      ∀ db', Routes.Changes C K state around db headers request.route db' →
        db'.birthdays ≠ db.birthdays → Uninterrupted F :=
  ⟨fun _ db' h => absurd h (hchanges db'), fun _ => ⟨Or.inl hout, fun e _ => by rw [hout]⟩⟩

theorem remove_of_get?_eq_none {rows : Birthdays} {discordId : String}
    (h : rows.get? discordId = none) : rows.remove discordId = rows := by
  have hne := Table.get?_eq_none.mp h
  have hkeep : rows.rows.filter (fun r => !decide (r.discordId = discordId)) = rows.rows :=
    List.filter_eq_self.mpr fun r hr => by simpa using hne r hr
  unfold Table.remove Table.deleteWhere
  congr

/-- What has to be in order for a save. -/
def saveChecks (C : Crates) (K : TokenCrates) (state : AppState) (around : Surroundings)
    (headers : Headers) (body : SaveBody) : Except AppError BirthdayRow := do
  verifyOrigin headers state.allowedOrigins
  let session ← readSession K state around.now headers
  verifySaveRow C around.thisYear around.now session.1 session.2 body

theorem handler_save (body : SaveBody) : handler C K state around headers (.save body) =
    Prog.done (saveChecks C K state around headers body) >>= fun row =>
      perform (BirthdayStatement.upsert row) >>= fun _ => enqueueAnd row.discordId := by
  rw [saveChecks, ← done_bind_assoc]
  simp only [← done_bind_assoc]
  rfl

theorem outcome_save (body : SaveBody) : outcome C K state around headers db (.save body) F =
    (Prog.done (saveChecks C K state around headers body) >>= fun row =>
      perform (BirthdayStatement.upsert row) >>= fun _ => enqueueAnd row.discordId).under
        (BirthdayStatement.apply around.now) F 0 db := by
  rw [outcome, handler_save]

theorem changes_save {body : SaveBody} {db' : Database} :
    Routes.Changes C K state around db headers (.verifySave body) db' ↔
      ∃ row, saveChecks C K state around headers body = .ok row ∧
        db' = { db with
          birthdays := db.birthdays.put row
          jobs := db.jobs.enqueuePlayerSync around.now row.discordId } := by
  constructor
  · intro h
    cases h with
    | verifySave ho hs hr =>
      refine ⟨_, ?_, rfl⟩
      rw [saveChecks, ho]
      show (readSession K state around.now headers >>= fun session => _) = _
      rw [hs]
      exact hr
  · rintro ⟨row, hc, rfl⟩
    obtain ⟨_, ho, hc⟩ := bind_ok hc
    obtain ⟨session, hs, hr⟩ := bind_ok hc
    exact .verifySave ho hs hr

theorem save_atomic_iff (body : SaveBody) :
    Atomic C K state around headers db (.save body)
      (outcome C K state around headers db (.save body) F) ↔
      ∀ db', Routes.Changes C K state around db headers (.verifySave body) db' →
        db'.birthdays ≠ db.birthdays → Uninterrupted F := by
  rw [outcome_save]
  cases hc : saveChecks C K state around headers body with
  | error e =>
    refine atomic_of_refused (fun db' h => ?_) rfl
    obtain ⟨row, hrow, -⟩ := changes_save.mp h
    rw [hc] at hrow
    cases hrow
  | ok row =>
    refine atomic_iff_of_writes (db.birthdays.put row) row.discordId (fun db' => ?_)
      (fun hF => under_perform_lost hF) fun hs hf => under_perform_ok hs hf
    constructor
    · intro h
      obtain ⟨row', hrow, rfl⟩ := changes_save.mp h
      rw [hc] at hrow
      cases hrow
      rfl
    · rintro rfl
      exact changes_save.mpr ⟨row, hc, rfl⟩

/-- What has to be in order for a removal. -/
def unlinkChecks (K : TokenCrates) (state : AppState) (around : Surroundings) (headers : Headers) :
    Except AppError (String × String) := do
  verifyOrigin headers state.allowedOrigins
  readSession K state around.now headers

theorem handler_unlink : handler C K state around headers .unlink =
    Prog.done (unlinkChecks K state around headers) >>= fun session =>
      perform (BirthdayStatement.delete session.1) >>= fun removed =>
        if removed = 0 then raise (.notFound "No saved birthday to remove.")
        else enqueueAnd session.1 := by
  rw [unlinkChecks, ← done_bind_assoc]
  rfl

theorem outcome_unlink : outcome C K state around headers db .unlink F =
    (Prog.done (unlinkChecks K state around headers) >>= fun session =>
      perform (BirthdayStatement.delete session.1) >>= fun removed =>
        if removed = 0 then raise (.notFound "No saved birthday to remove.")
        else enqueueAnd session.1).under (BirthdayStatement.apply around.now) F 0 db := by
  rw [outcome, handler_unlink]

theorem changes_unlink {db' : Database} :
    Routes.Changes C K state around db headers .verifyUnlink db' ↔
      ∃ session row, unlinkChecks K state around headers = .ok session ∧
        db.birthdays.get? session.1 = some row ∧
        db' = { db with
          birthdays := db.birthdays.remove session.1
          jobs := db.jobs.enqueuePlayerSync around.now session.1 } := by
  constructor
  · intro h
    cases h with
    | verifyUnlink ho hs hr =>
      refine ⟨_, _, ?_, hr, rfl⟩
      rw [unlinkChecks, ho]
      exact hs
  · rintro ⟨session, row, hc, hr, rfl⟩
    obtain ⟨_, ho, hs⟩ := bind_ok hc
    exact .verifyUnlink ho hs hr

theorem unlink_atomic_iff :
    Atomic C K state around headers db .unlink (outcome C K state around headers db .unlink F) ↔
      ∀ db', Routes.Changes C K state around db headers .verifyUnlink db' →
        db'.birthdays ≠ db.birthdays → Uninterrupted F := by
  rw [outcome_unlink]
  cases hc : unlinkChecks K state around headers with
  | error e =>
    refine atomic_of_refused (fun db' h => ?_) rfl
    obtain ⟨session, row, hs, -⟩ := changes_unlink.mp h
    rw [hc] at hs
    cases hs
  | ok session =>
    cases hr : db.birthdays.get? session.1 with
    | none =>
      refine atomic_of_refused (fun db' h => ?_) ?_
      · obtain ⟨session', row, hs, hrow, -⟩ := changes_unlink.mp h
        rw [hc] at hs
        cases hs
        rw [hr] at hrow
        cases hrow
      · by_cases hF : F.stops 0 = false ∧ F.fails 0 = none
        · refine (congrArg Prod.snd (under_perform_ok hF.1 hF.2)).trans ?_
          simp only [BirthdayStatement.apply, hr]
          show { db with birthdays := db.birthdays.remove session.1 } = db
          rw [remove_of_get?_eq_none hr]
        · exact under_perform_lost hF
    | some row =>
      refine atomic_iff_of_writes (db.birthdays.remove session.1) session.1 (fun db' => ?_)
        (fun hF => under_perform_lost hF) fun hs hf => (under_perform_ok hs hf).trans ?_
      · constructor
        · intro h
          obtain ⟨session', row', hs, -, rfl⟩ := changes_unlink.mp h
          rw [hc] at hs
          cases hs
          rfl
        · rintro rfl
          exact changes_unlink.mpr ⟨session, row, hc, hr, rfl⟩
      · simp only [BirthdayStatement.apply, hr]
        rfl

/-- Without faults a request is what its handler makes of it. -/
theorem outcome_none (db : Database) (request : BirthdayRequest) :
    outcome C K state around headers db request .none =
      let handled := Routes.handle C K state around db ⟨request.route, headers⟩
      (some handled.2, handled.1) := by
  cases request with
  | save body =>
    rw [outcome_save]
    show _ = let handled := checked db (saveChecks C K state around headers body) _
      (some handled.2, handled.1)
    cases saveChecks C K state around headers body with
    | error e => rfl
    | ok row => rfl
  | unlink =>
    rw [outcome_unlink]
    have hchecks : Routes.verifyUnlink K state around db headers =
        checked db (unlinkChecks K state around headers >>= fun session =>
          (okOr (db.birthdays.get? session.1) (.notFound "No saved birthday to remove.")).map
            fun _ => session.1) fun discordId =>
          ({ db with
            birthdays := db.birthdays.remove discordId
            jobs := db.jobs.enqueuePlayerSync around.now discordId }, success) := by
      unfold Routes.verifyUnlink unlinkChecks
      cases verifyOrigin headers state.allowedOrigins with
      | error e => rfl
      | ok =>
        cases readSession K state around.now headers with
        | error e => rfl
        | ok session => cases db.birthdays.get? session.1 <;> rfl
    show _ = let handled := Routes.verifyUnlink K state around db headers
      (some handled.2, handled.1)
    rw [hchecks]
    cases unlinkChecks K state around headers with
    | error e => rfl
    | ok session =>
      refine (under_perform_ok rfl rfl).trans ?_
      show _ = let handled := checked db ((okOr (db.birthdays.get? session.1)
          (.notFound "No saved birthday to remove.")).map fun _ => session.1) _
        (some handled.2, handled.1)
      rcases Option.eq_none_or_eq_some (db.birthdays.get? session.1) with hr | ⟨row, hr⟩
      · simp only [BirthdayStatement.apply, hr]
        refine Prod.ext rfl ?_
        show { db with birthdays := db.birthdays.remove session.1 } = db
        rw [remove_of_get?_eq_none hr]
      · simp only [BirthdayStatement.apply, hr]
        rfl

/-- A save or a removal is all or nothing if and only if, where it has a row to change,
nothing comes between the row and the job. -/
theorem outcome_atomic_iff (C : Crates) (K : TokenCrates) (state : AppState) (around : Surroundings)
    (headers : Headers) (db : Database) (request : BirthdayRequest) (F : Faults AppError) :
    Atomic C K state around headers db request (outcome C K state around headers db request F) ↔
      ∀ db', Routes.Changes C K state around db headers request.route db' →
        db'.birthdays ≠ db.birthdays → Uninterrupted F := by
  cases request with
  | save body => exact save_atomic_iff body
  | unlink => exact unlink_atomic_iff

/-! ### Half a removal -/

def exampleCrates : TokenCrates := { TokenCrates.sha256 with urlDecode := some }

def exampleState : AppState :=
  ⟨"https://plugin.example/birthday-role", "https://plugin.example", "session-secret-not-for-prod",
    ["https://plugin.example"], false⟩

theorem readSession_ok {now : Time} {cookie : String} {who : String × String}
    (hc : headers.rlSession = some cookie)
    (hv : verifySession K now cookie state.sessionSecret = some who) :
    readSession K state now headers = .ok who := by
  unfold readSession
  rw [hc]
  show okOr (verifySession K now cookie state.sessionSecret) _ = _
  rw [hv]
  rfl

/-- The session of user 1. -/
def exampleCookie : String :=
  signed exampleCrates exampleState.sessionSecret ["1", "a", "9999999999"]

def exampleHeaders : Headers :=
  { Headers.none with origin := some "https://plugin.example", rlSession := some exampleCookie }

theorem exampleHeaders_session :
    unlinkChecks exampleCrates exampleState (.silent 0) exampleHeaders = .ok ("1", "a") := by
  have horigin : verifyOrigin exampleHeaders exampleState.allowedOrigins = .ok () := rfl
  have hsession : verifySession exampleCrates (Surroundings.silent 0).now exampleCookie
      exampleState.sessionSecret = some ("1", "a") := by decide +kernel
  have hcookie : exampleHeaders.rlSession = some exampleCookie := rfl
  rw [unlinkChecks, horigin, readSession_ok hcookie hsession]
  rfl

/-- One birthday, that of user 1. -/
def oneBirthday : Database := { Database.empty with birthdays := (∅ : Birthdays).put leoRow }

/-- The second statement fails. -/
def secondFails : Faults AppError :=
  ⟨fun n => if n = 1 then some (.database "connection lost") else none, fun _ => false⟩

/-- The birthday is gone, the request has failed, and no job will take the role away;
asked again, the plugin finds nothing to remove. -/
theorem unlink_notAtomic :
    let out := outcome .ascii exampleCrates exampleState (.silent 0) exampleHeaders oneBirthday .unlink
      secondFails
    out = (some (.error (.database "connection lost")), Database.empty) ∧
    ¬Atomic .ascii exampleCrates exampleState (.silent 0) exampleHeaders oneBirthday .unlink out ∧
    outcome .ascii exampleCrates exampleState (.silent 0) exampleHeaders out.2 .unlink .none =
      (some (.error (.notFound "No saved birthday to remove.")), Database.empty) := by
  dsimp only
  generalize hrun : outcome .ascii exampleCrates exampleState (.silent 0) exampleHeaders oneBirthday
    .unlink secondFails = out
  have hout : out = (some (.error (.database "connection lost")), Database.empty) := by
    rw [← hrun, outcome_unlink, exampleHeaders_session]
    rfl
  refine ⟨hout, fun h => ?_, ?_⟩
  · have hrows := h.error _ (congrArg Prod.fst hout)
    rw [hout] at hrows
    exact absurd (congrArg Table.rows hrows) (by decide)
  · rw [hout]
    rw [outcome_unlink, exampleHeaders_session]
    rfl

end BirthdayWrites

end BirthdayRole
