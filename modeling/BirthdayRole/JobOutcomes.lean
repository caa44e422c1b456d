/-
# How a job ends (`dispatch` of `tasks/job_worker.rs`)

`dispatch` gives a job up at once when it cannot read it, when a link is gone on RoleLogic
and when a link is full. Nothing of that happens (`claimed_job_report`): what is enqueued
can be read, a run of a link takes a link that is gone out of the table and goes on, only the
add of one user can find a link full, and a player run keeps the errors of its adds to
itself. So a job is dead exactly if its last attempt has failed.
-/
import BirthdayRole.Lib.Trace
import BirthdayRole.StoredData

namespace BirthdayRole

open Json Result

/-! ### Dispatch -/

/-- `From<AppError>`: what is not worth a retry. -/
def JobError.ofAppError : AppError → JobError
  | .roleLinkNotFound => .terminal "role link no longer exists upstream"
  | .userLimitReached limit =>
    .terminal ("role link user limit reached (" ++ toString limit ++ "); retry won't help")
  | other => .retry other.display

/-- `serde_json::from_value` of the payload; a struct may also come as a sequence of its fields. -/
def playerSyncPayload : Value → Option String
  | .array [discordId] => discordId.asStr
  | payload => (payload.get "discord_id").bind Value.asStr

/-- What `dispatch` runs, with `serde_json`'s words for a payload it cannot read. -/
def Job.read (serde : Value → String) (job : Job) : Except JobError SyncTask := do
  let kind ← okOr (JobKind.fromDb job.kind) (.terminal ("unknown job kind '" ++ job.kind ++ "'"))
  match kind with
  | .playerSync =>
    let discordId ← okOr (playerSyncPayload job.payload)
      (.terminal ("invalid player_sync payload: " ++ serde job.payload))
    .ok (.player discordId)
  | .configSync =>
    let guildId ← okOr ((job.payload.get "guild_id").bind Value.asStr)
      (.terminal "config_sync missing guild_id")
    let roleId ← okOr ((job.payload.get "role_id").bind Value.asStr)
      (.terminal "config_sync missing role_id")
    .ok (.roleLink (guildId, roleId))

/-- `dispatch`, from what the run of a task returns. -/
def Job.dispatch (serde : Value → String) (run : SyncTask → Except AppError Unit) (job : Job) :
    Except JobError Unit := do
  let task ← job.read serde
  (run task).mapError JobError.ofAppError

theorem playerSyncPayload_of_get {payload : Value} {discordId : String}
    (h : (payload.get "discord_id").bind Value.asStr = some discordId) :
    playerSyncPayload payload = some discordId := by
  cases payload with
  | array vs => cases h
  | null | bool | number | string | object => exact h

/-- A job that can be read is read as the task that it is. -/
theorem Job.read_of_task {serde : Value → String} {job : Job} {t : SyncTask}
    (h : job.task? = some t) : job.read serde = .ok t := by
  unfold Job.task? at h
  unfold Job.read
  cases hk : JobKind.fromDb job.kind with
  | none =>
    rw [hk] at h
    cases h
  | some kind =>
    rw [hk] at h
    cases kind with
    | playerSync =>
      obtain ⟨discordId, hid, rfl⟩ := Option.map_eq_some_iff.mp h
      simp only [okOr, playerSyncPayload_of_get hid, bind, Except.bind]
    | configSync =>
      obtain ⟨guildId, hguild, h⟩ := Option.bind_eq_some_iff.mp h
      obtain ⟨roleId, hrole, h⟩ := Option.bind_eq_some_iff.mp h
      cases h
      simp only [okOr, hguild, hrole, bind, Except.bind]

/-! ### The errors of the clients -/

/-- What `dispatch` has a job tried again for. -/
def AppError.Retried : AppError → Prop
  | .roleLinkNotFound | .userLimitReached _ => False
  | _ => True

def AppError.NotFull : AppError → Prop
  | .userLimitReached _ => False
  | _ => True

theorem JobError.ofAppError_retried {e : AppError} (h : e.Retried) :
    JobError.ofAppError e = .retry e.display := by
  cases e with
  | roleLinkNotFound | userLimitReached => exact h.elim
  | _ => rfl

namespace RoleLogicClient

variable {H : HttpCrates} {status : ℕ} {body : String} {e : AppError}

theorem linkStateError_notFull (h : linkStateError status body = some e) : e.NotFull := by
  unfold linkStateError at h
  split at h
  · cases h
  · split at h
    · cases h
      exact trivial
    · split at h
      · cases h
        exact trivial
      · cases h

theorem listWriteError_notFull (h : listWriteError H status body = some e) : e.NotFull := by
  unfold listWriteError at h
  cases hl : linkStateError status body with
  | some e' =>
    rw [hl] at h
    cases h
    exact linkStateError_notFull hl
  | none =>
    rw [hl] at h
    have h : shrinkHeldError H status body = some e := h
    unfold shrinkHeldError at h
    split at h
    · cases h
    · obtain ⟨parsed, -, h⟩ := Option.bind_eq_some_iff.mp h
      obtain ⟨-, h⟩ := Option.ite_none_left_eq_some.mp h
      cases h
      exact trivial

theorem rejected_notFull {what : String} {known : ℕ → String → Option AppError}
    (hknown : ∀ status body e, known status body = some e → e.NotFull) (status : ℕ)
    (body : Except String String) : (rejected H what known status body).NotFull := by
  unfold rejected
  cases hk : known status (textOrEmpty body) with
  | none => exact trivial
  | some e => exact hknown _ _ _ hk

theorem reading_notFull {α : Type} {what : String} {known : ℕ → String → Option AppError}
    {read : Value → Except AppError α} {reply : HttpReply}
    (hknown : ∀ status body e, known status body = some e → e.NotFull)
    (hread : ∀ v e, read v = .error e → e.NotFull) (h : reading H what known read reply = .error e) :
    e.NotFull := by
  cases reply with
  | unreachable msg =>
    cases h
    exact trivial
  | replied status body =>
    by_cases hs : isSuccess status = true
    · cases hd : H.decode some body with
      | error msg =>
        simp only [reading, hs, hd, Bool.not_true, Bool.false_eq_true, ↓reduceIte] at h
        cases h
        exact trivial
      | ok v =>
        simp only [reading, hs, hd, Bool.not_true, Bool.false_eq_true, ↓reduceIte] at h
        exact hread v e h
    · simp only [reading, hs, Bool.not_false, ↓reduceIte] at h
      cases h
      exact rejected_notFull hknown status body

theorem unread_notFull {what : String} {reply : HttpReply} (h : unread H what reply = .error e) :
    e.NotFull := by
  cases reply with
  | unreachable msg =>
    cases h
    exact trivial
  | replied status body =>
    by_cases hs : isSuccess status = true
    · simp only [unread, hs, Bool.not_true, Bool.false_eq_true, ↓reduceIte] at h
      cases h
    · simp only [unread, hs, Bool.not_false, ↓reduceIte] at h
      cases h
      exact trivial

/-- Only the add of a user can find a link full. -/
theorem client_notFull {c : RlCall} {reply : HttpReply} (hc : ∀ userId, c ≠ .addUser userId)
    (h : c.client H reply = .error e) : e.NotFull := by
  have hlink : ∀ status body e, linkStateError status body = some e → e.NotFull :=
    fun _ _ _ => linkStateError_notFull
  have hwrite : ∀ status body e, listWriteError H status body = some e → e.NotFull :=
    fun _ _ _ => listWriteError_notFull
  cases c with
  | addUser userId => exact absurd rfl (hc userId)
  | getUserInfo | removeUser => exact reading_notFull hlink (fun _ _ h => by cases h) h
  | replaceUsers | commitUpload => exact reading_notFull hwrite (fun _ _ h => by cases h) h
  | startUpload =>
    refine reading_notFull hlink (fun v e he => ?_) h
    cases hid : ((v.index "data").index "upload_id").asStr with
    | none =>
      rw [hid] at he
      cases he
      exact trivial
    | some id =>
      rw [hid] at he
      cases he
  | uploadChunk | cancelUpload => exact unread_notFull h

end RoleLogicClient

theorem fetchIds_retried {H : HttpCrates} {endpoint key : String} {reply : HttpReply} {e : AppError}
    (h : fetchIds H endpoint key reply = .error e) : e.Retried := by
  cases reply with
  | unreachable msg =>
    cases h
    exact trivial
  | replied status body =>
    by_cases hs : isSuccess status = true
    · cases hd : H.decode (stringsField key) body with
      | error msg =>
        simp only [fetchIds, hs, hd, Bool.not_true, Bool.false_eq_true, ↓reduceIte] at h
        cases h
        exact trivial
      | ok ids =>
        simp only [fetchIds, hs, hd, Bool.not_true, Bool.false_eq_true, ↓reduceIte] at h
        cases h
    · simp only [fetchIds, hs, Bool.not_false, ↓reduceIte] at h
      cases h
      exact trivial

/-! ### The errors of the runs -/

section

open Prog

variable {C : Crates} {H : HttpCrates} {P : AppError → Prop}

/-- A program whose errors have a property, whatever its calls are answered in some world. -/
def Ends {α : Type} (H : HttpCrates) (P : AppError → Prop) (p : Sync α) : Prop :=
  p.Bound (fun c r => ∃ w : World, w.Answers H c r) (fun _ => False) fun x => ∀ e, x = .error e → P e

namespace Ends

variable {α β : Type} {p : Sync α}

theorem pure (a : α) : Ends H P (pure a : Sync α) := fun _ h => nomatch h

theorem raise {e : AppError} (h : P e) : Ends H P (raise e : Sync α) := by
  rintro _ ⟨⟩
  exact h

theorem bind {f : α → Sync β} (hp : Ends H P p) (hf : ∀ a, Ends H P (f a)) : Ends H P (p >>= f) := by
  refine Bound.bind hp (fun a _ => hf a) fun e he e' hx => ?_
  cases hx
  exact he e rfl

/-- A program goes on with what a call that it attempts returns. -/
theorem attempt {c : SyncCall} {f : Except AppError c.Result → Sync β}
    (hf : ∀ r, (∃ w : World, w.Answers H c r) → Ends H P (f r)) :
    Ends H P (attempt c >>= f) :=
  Bound.attempt_bind fun r hr => Or.inr (hf r hr)

/-- One that takes the errors of a program up as results. -/
theorem capture {Q : AppError → Prop} {f : Except AppError α → Sync β} (hp : Ends H Q p)
    (hf : ∀ x, (∀ e, x = .error e → Q e) → Ends H P (f x)) : Ends H P (p.capture >>= f) := by
  have hcaptured : p.capture.Bound (fun c r => ∃ w : World, w.Answers H c r) (fun _ => False)
      fun y => ∃ x, y = .ok x ∧ ∀ e, x = .error e → Q e :=
    Bound.capture (hp.mono (fun _ _ h => h) (fun _ h => h) fun x hx => ⟨x, rfl, hx⟩)
  refine Bound.bind hcaptured (fun x hx => ?_) fun e hx => ?_
  · obtain ⟨_, ⟨⟩, hx⟩ := hx
    exact hf x hx
  · obtain ⟨_, ⟨⟩, -⟩ := hx

theorem perform {c : SyncCall} (h : ∀ w : World, ∀ e, w.Answers H c (.error e) → P e) :
    Ends H P (perform c) := by
  rintro r ⟨w, hr⟩
  refine Or.inr fun e he => ?_
  subst he
  exact h w e hr

theorem query (s : Statement) : Ends H AppError.Retried (query s) := by
  refine perform fun w e he => ?_
  obtain ⟨msg, rfl⟩ := he
  exact trivial

theorem userGuildIds (discordId : String) :
    Ends H AppError.Retried (Prog.perform (SyncCall.userGuildIds discordId)) := by
  refine perform fun w e he => ?_
  obtain ⟨reply, he, -⟩ := he
  exact fetchIds_retried he

theorem guildMemberIds (guildId : String) :
    Ends H AppError.Retried (Prog.perform (SyncCall.guildMemberIds guildId)) := by
  refine perform fun w e he => ?_
  obtain ⟨reply, he, -⟩ := he
  exact fetchIds_retried he

theorem localToday : Ends H P (Prog.perform SyncCall.localToday) := by
  refine perform fun w e he => ?_
  cases he

theorem bestEffort (s : Statement) : Ends H P (bestEffort s) := attempt fun _ _ => pure ()

theorem ask {link : LinkKey} {token : String} {c : RlCall} (hc : ∀ userId, c ≠ .addUser userId) :
    Ends H AppError.NotFull (ask link token c) := by
  refine perform fun w e he => ?_
  obtain ⟨reply, he, -⟩ := he
  exact RoleLogicClient.client_notFull hc he

theorem uploadStep {link : LinkKey} {token uploadId : String} {c : RlCall}
    (hc : ∀ userId, c ≠ .addUser userId) :
    Ends H AppError.NotFull (uploadStep link token uploadId c) := by
  refine attempt fun r hr => ?_
  cases r with
  | ok v => exact pure v
  | error e =>
    obtain ⟨w, reply, he, -⟩ := hr
    exact attempt fun _ _ => raise (RoleLogicClient.client_notFull hc he)

theorem uploadChunks {link : LinkKey} {token uploadId : String} :
    ∀ chunks : List (List String), Ends H AppError.NotFull (uploadChunks link token uploadId chunks)
  | [] => pure ()
  | _ :: rest => bind (uploadStep fun _ h => nomatch h) fun _ => uploadChunks rest

theorem uploadUsers (link : LinkKey) (userIds : List String) (token : String) :
    Ends H AppError.NotFull (uploadUsers link userIds token) := by
  unfold BirthdayRole.uploadUsers
  split
  · exact ask fun _ h => nomatch h
  · refine bind (ask fun _ h => nomatch h) fun uploadId => bind (uploadChunks _) fun _ => ?_
    exact uploadStep fun _ h => nomatch h

/-- A link that is gone is no error of the run. -/
theorem uploadApplied {result : Except AppError Usize} (link : LinkKey)
    (h : ∀ e, result = .error e → e.NotFull) :
    Ends H AppError.Retried (uploadApplied result link) := by
  rcases result with e | n
  · cases e with
    | userLimitReached limit => exact (h _ rfl).elim
    | roleLinkNotFound => exact bind (bestEffort _) fun _ => pure false
    | roleLinkDisabled | roleLinkRemovalHeld => exact pure false
    | _ => exact raise trivial
  · exact pure true

theorem uploadAndMirror (link : LinkKey) (userIds : List String) (token : String) (s : Statement) :
    Ends H AppError.Retried (uploadAndMirror link userIds token s) := by
  refine capture (uploadUsers link userIds token) fun result hresult => ?_
  refine bind (uploadApplied link hresult) fun applied => ?_
  split
  · exact pure ()
  · exact bind (query s) fun _ => pure ()

theorem drainToEmpty (link : LinkKey) (token : String) :
    Ends H AppError.Retried (drainToEmpty link token) := by
  refine bind (query _) fun any => ?_
  split
  · exact pure ()
  · exact uploadAndMirror link [] token _

theorem syncQualifying (link : LinkKey) (token : String) (tree : RuleTree) (memberIds : List String)
    (userLimit : Usize) :
    Ends H AppError.Retried (syncQualifying link token tree memberIds userLimit) := by
  refine bind (query _) fun qualifying => bind (query _) fun current => ?_
  split
  · exact pure ()
  · exact uploadAndMirror link qualifying token _

theorem syncLink (link : LinkKey) (token : String) (tree : RuleTree) :
    Ends H AppError.Retried (syncLink link token tree) := by
  unfold BirthdayRole.syncLink
  split
  · exact drainToEmpty link token
  refine bind (guildMemberIds _) fun memberIds => ?_
  split
  · exact drainToEmpty link token
  refine attempt fun info hinfo => ?_
  rcases info with e | ⟨_, userLimit⟩
  · obtain ⟨w, reply, he, -⟩ := hinfo
    have hnot : e.NotFull := RoleLogicClient.client_notFull (c := .getUserInfo) (fun _ h => nomatch h) he
    cases e with
    | userLimitReached limit => exact hnot.elim
    | roleLinkNotFound => exact bestEffort _
    | roleLinkDisabled => exact pure ()
    | _ => exact raise trivial
  · exact syncQualifying link token tree memberIds userLimit

theorem readFacts (birthday : Option BirthdayInput) : Ends H P (readFacts birthday) := by
  cases birthday with
  | none => exact pure none
  | some input => exact bind localToday fun _ => pure _

theorem planPlayer (discordId : String) : Ends H AppError.Retried (planPlayer C discordId) := by
  refine bind (userGuildIds discordId) fun guildIds => ?_
  split
  · exact pure []
  refine bind (query _) fun roleLinks => ?_
  split
  · exact pure []
  refine bind (query _) fun row => bind (readFacts row) fun facts => ?_
  exact bind (query _) fun existing => pure _

/-- An action keeps its errors to itself. -/
theorem act (discordId : String) (action : SyncAction) : Ends H P (action.run discordId) := by
  cases action with
  | add link token | remove link token =>
    refine attempt fun r _ => ?_
    rcases r with e | v
    · cases e with
      | roleLinkNotFound => exact bestEffort _
      | _ => exact pure ()
    · exact bestEffort _

/-- No run ends with an error that is not worth a retry. -/
theorem body (t : SyncTask) : Ends H AppError.Retried (t.body C) := by
  cases t with
  | player discordId => exact bind (planPlayer discordId) fun _ => pure _
  | roleLink link =>
    refine bind (bind (query _) fun row => ?_) fun _ => pure _
    cases row with
    | none => exact pure ()
    | some row => exact syncLink link row.1 _
  | act discordId action => exact bind (act discordId action) fun _ => pure _

end Ends

/-- What a run of a task can return. -/
def SyncTask.Returns (C : Crates) (H : HttpCrates) (t : SyncTask) (result : Except AppError Unit) :
    Prop :=
  ∃ events x, Exec (anywhere (World.outside H)) (t.body C) () events x () ∧
    result = x.map fun _ => ()

theorem SyncTask.Returns.retried {t : SyncTask} {e : AppError} (h : t.Returns C H (.error e)) :
    e.Retried := by
  obtain ⟨events, x, hexec, he⟩ := h
  have hbody : Ends H AppError.Retried (t.body C) := .body t
  have hx := hbody.exec (fun op _ r _ hr => by
    obtain ⟨w, w', hanswers, -⟩ := hr
    exact ⟨w, hanswers⟩) hexec
  rcases x with e' | ts
  · cases he
    exact hx e rfl
  · cases he

/-- A job that is claimed can be read, and nothing that its run returns is terminal. It is
reported dead exactly if the run fails at the eighth attempt or after it. -/
theorem claimed_job_report {db : Database} (h : db.Stored C) {now : Time} {workerId : String}
    {batchSize : ℕ} {locked : ℕ → Bool} {job : Job}
    (hjob : job ∈ (db.jobs.claimBatch now workerId batchSize locked).2) (serde : Value → String) :
    ∃ t, job.read serde = .ok t ∧ ∀ run : SyncTask → Except AppError Unit, t.Returns C H (run t) →
      (∀ msg, job.dispatch serde run ≠ .error (.terminal msg)) ∧
      ∀ jitterMs, Report.ofOutcome job jitterMs (job.dispatch serde run) =
        match run t with
        | .ok () => .complete
        | .error e =>
          if 8 ≤ job.attempts then .failDead e.display else .failRetry e.display jitterMs := by
  have hclaimed : Database.Stored C _ := h.tail (.queue (.claimBatch now workerId batchSize locked))
  obtain ⟨-, row, hrow, -, rfl⟩ := Jobs.mem_claimBatch hjob
  have hsound : row.Sound := hclaimed.isSound.jobs row (Table.get?_eq_some.mp hrow).1
  obtain ⟨t, ht⟩ := Option.isSome_iff_exists.mp hsound.readable
  have hlimit : row.job.maxAttempts = 8 := hsound.limit
  refine ⟨t, Job.read_of_task ht, fun run hrun => ?_⟩
  have hdispatch : row.job.dispatch serde run = (run t).mapError JobError.ofAppError := by
    unfold Job.dispatch
    rw [Job.read_of_task ht]
    rfl
  rw [hdispatch]
  cases hr : run t with
  | ok => exact ⟨fun msg hm => (by cases hm), fun jitterMs => rfl⟩
  | error e =>
    rw [hr] at hrun
    have hretry : (Except.error e : Except AppError Unit).mapError JobError.ofAppError =
        .error (.retry e.display) := congrArg Except.error (JobError.ofAppError_retried hrun.retried)
    rw [hretry]
    refine ⟨fun msg hm => (by cases hm), fun jitterMs => ?_⟩
    show (if row.job.attempts ≥ row.job.maxAttempts then _ else _) = _
    rw [hlimit]

end

/-! ### A first attempt -/

/-- A job that a save has enqueued. -/
def oneJob : Database := { Database.empty with jobs := Jobs.empty.enqueueConfigSync 0 "g" "r" }

/-- The database is gone when the link is to be read: the job is tried again. -/
theorem claimed_job_report_oneJob :
    ∃ job ∈ (oneJob.jobs.claimBatch 5000000 "w" 8 fun _ => false).2, ∀ jitterMs,
      Report.ofOutcome job jitterMs (job.dispatch (fun _ => "") fun _ => .error (.database "gone")) =
        .failRetry "Database error: gone" jitterMs := by
  have hstored : oneJob.Stored .ascii := .single (.queue (.enqueueConfigSync 0 ("g", "r")))
  have hjob : (⟨1, "config_sync", Jobs.configSyncPayload "g" "r", 1, 8⟩ : Job) ∈
      (oneJob.jobs.claimBatch 5000000 "w" 8 fun _ => false).2 := List.mem_singleton.mpr rfl
  refine ⟨_, hjob, fun jitterMs => ?_⟩
  obtain ⟨t, ht, hrun⟩ := claimed_job_report (H := pairHttp) hstored hjob fun _ => ""
  have htask : t = .roleLink ("g", "r") := by
    cases ht
    rfl
  subst htask
  have hfails : World.outside pairHttp (.db (.selectLink ("g", "r"))) (pairWorld fun _ => ∅)
      (.error (.database "gone")) (pairWorld fun _ => ∅) := ⟨⟨"gone", rfl⟩, rfl⟩
  have hreturns : SyncTask.Returns .ascii pairHttp (.roleLink ("g", "r"))
      (.error (.database "gone")) :=
    ⟨_, .error (.database "gone"), .call ⟨_, _, hfails⟩ .done, rfl⟩
  exact (hrun (fun _ => .error (.database "gone")) hreturns).2 jitterMs

end BirthdayRole
