/-
# Requests, workers and runs together

The whole service as long as nothing fails: requests in progress, a statement at a time
(`RequestRun.next`); workers that claim batches of jobs and dispatch them one after the
other (`tasks/job_worker.rs`); and the runs of the dispatched jobs, with their actions, a
call at a time. Requests that save or remove a birthday or save a rule are the only ones,
and no worker crashes, so that the reaper finds nothing; the tick is left out.

What a statement of a request does is said once (`RequestRun.Stage.next`): if it changes
a birthday or a rule, the rest of the request is bound to enqueue the job that covers it.
-/
import BirthdayRole.BirthdayWrites
import BirthdayRole.ConfigWrites
import BirthdayRole.JobQueue
import BirthdayRole.ReadOnly
import BirthdayRole.SyncBound

namespace BirthdayRole

open Json Prog

/-! ### Requests in progress -/

inductive RequestRun where
  | birthday (now : Time) (prog : BirthdayWrites.Handler)
  | config (now : Time) (prog : ConfigWrites.Handler)

/-- A request that arrives, with what it meets. -/
inductive Arrival where
  | birthday (around : Surroundings) (headers : Headers) (request : BirthdayRequest)
  | config (around : Surroundings) (headers : Headers) (guildId roleId : String)
      (ruleTreeVersion : ℤ) (tree : RuleTreeBody)

def Arrival.begin (C : Crates) (K : TokenCrates) (state : AppState) : Arrival → RequestRun
  | birthday around headers request =>
    .birthday around.now (BirthdayWrites.handler C K state around headers request)
  | config around headers guildId roleId ruleTreeVersion tree =>
    .config around.now
      (ConfigWrites.roleConfigSave C K state around headers guildId roleId ruleTreeVersion tree)

/-- A statement that enqueues a job for a place. -/
def BirthdayStatement.Enqueues (a : Place) : BirthdayStatement → Prop
  | enqueuePlayerSync discordId => discordId = a.2
  | _ => False

def ConfigStatement.Enqueues (a : Place) : ConfigStatement → Prop
  | enqueueConfigSync guildId roleId => (guildId, roleId) = a.1
  | _ => False

namespace RequestRun

/-- The next statement, and what it does. -/
def next (db : Database) : RequestRun → Option (RequestRun × Database)
  | birthday now (.call op k) =>
    some (birthday now (k (.ok (op.apply now db).1)), (op.apply now db).2)
  | config now (.call op k) => some (config now (k (.ok (op.apply now db).1)), (op.apply now db).2)
  | _ => none

def Finished : RequestRun → Prop
  | birthday _ prog => ∃ x, prog = .done x
  | config _ prog => ∃ x, prog = .done x

/-- The rest of a request is bound to enqueue a job for a place, as long as its link is there. -/
def BoundFor (a : Place) : RequestRun → Prop
  | birthday now prog => prog.Bound
      (fun op r => ∃ db : Database, r = .ok (op.apply now db).1) (fun e => e.op.Enqueues a)
      fun _ => False
  | config now prog => prog.Bound
      (fun op r => ∃ db : Database, (db.roleLinks.get? a.1).isSome = true ∧
        r = .ok (op.apply now db).1) (fun e => e.op.Enqueues a) fun _ => False

end RequestRun

/-! ### What a statement of a request does -/

namespace RequestRun

/-- Where a request can be. -/
inductive Stage (C : Crates) : RequestRun → Prop
  | birthdayDone {now : Time} {x : Reply} : Stage C (birthday now (.done x))
  | save {now : Time} {row : BirthdayRow} : row.Saved C →
      Stage C (birthday now (perform (BirthdayStatement.upsert row) >>= fun _ =>
        BirthdayWrites.enqueueAnd row.discordId))
  | unlink {now : Time} {discordId : String} :
      Stage C (birthday now (perform (BirthdayStatement.delete discordId) >>= fun removed =>
        if removed = 0 then raise (.notFound "No saved birthday to remove.")
        else BirthdayWrites.enqueueAnd discordId))
  | enqueuePlayer {now : Time} {discordId : String} :
      Stage C (birthday now (BirthdayWrites.enqueueAnd discordId))
  | configDone {now : Time} {x : Reply} : Stage C (config now (.done x))
  | update {now : Time} {raw : Value} {tree : RuleTree} {guildId roleId : String} {expected : ℤ} :
      StoredRule C raw tree → Stage C (config now (ConfigWrites.update raw guildId roleId expected))
  | refuse {now : Time} {guildId roleId : String} :
      Stage C (config now (ConfigWrites.refuse guildId roleId))
  | fetch {now : Time} {guildId roleId : String} :
      Stage C (config now (ConfigWrites.fetchAnd guildId roleId))
  | enqueueConfig {now : Time} {guildId roleId : String} {newVersion : ℤ} :
      Stage C (config now (ConfigWrites.enqueueAnd guildId roleId newVersion))

/-- What a statement of a request does, and what the rest of the request is bound to do. -/
inductive Effect (C : Crates) (db : Database) (q' : RequestRun) : Database → Prop
  | reads : Effect C db q' db
  | upsert {row : BirthdayRow} : row.Saved C → (∀ link, q'.BoundFor (link, row.discordId)) →
      Effect C db q' { db with birthdays := db.birthdays.put row }
  | delete {discordId : String} :
      db.birthdays.get? discordId = none ∨ (∀ link, q'.BoundFor (link, discordId)) →
      Effect C db q' { db with birthdays := db.birthdays.remove discordId }
  | update {now : Time} {link : LinkKey} {l : RoleLink} {raw : Value} {tree : RuleTree} :
      db.roleLinks.get? link = some l → StoredRule C raw tree →
      (∀ discordId, q'.BoundFor (link, discordId)) →
      Effect C db q' { db with
        roleLinks := db.roleLinks.put
          { l with ruleTree := raw, ruleTreeVersion := l.ruleTreeVersion + 1, updatedAt := now } }
  | enqueue {now : Time} {kind : JobKind} {payload : Value} {delaySecs : ℕ} :
      Effect C db q' { db with jobs := db.jobs.enqueue now kind payload delaySecs }

section

variable {C : Crates} {K : TokenCrates} {state : AppState} {q q' : RequestRun} {db db' : Database}
  {now : Time}

theorem boundFor_enqueuePlayer (link : LinkKey) (discordId : String) :
    (birthday now (BirthdayWrites.enqueueAnd discordId)).BoundFor (link, discordId) :=
  fun _ _ => Or.inl rfl

theorem boundFor_fetch (guildId roleId discordId : String) :
    (config now (ConfigWrites.fetchAnd guildId roleId)).BoundFor ((guildId, roleId), discordId) := by
  rintro r ⟨db, hlink, rfl⟩
  obtain ⟨l, hl⟩ := Option.isSome_iff_exists.mp hlink
  have hversion : db.roleLinks.version? guildId roleId = some l.ruleTreeVersion := by
    rw [RoleLinks.version?, hl, Option.map_some]
  refine Or.inr ?_
  simp only [ConfigStatement.apply, hversion]
  exact fun _ _ => Or.inl rfl

/-- Every request starts at one of the stages. -/
theorem begin_stage (arrival : Arrival) : (arrival.begin C K state).Stage C := by
  cases arrival with
  | birthday around headers request =>
    cases request with
    | save body =>
      show Stage C (birthday around.now (BirthdayWrites.handler C K state around headers (.save body)))
      rw [BirthdayWrites.handler_save]
      cases hc : BirthdayWrites.saveChecks C K state around headers body with
      | error e => exact .birthdayDone
      | ok row =>
        obtain ⟨_, -, hc⟩ := Result.bind_ok hc
        obtain ⟨session, -, hrow⟩ := Result.bind_ok hc
        exact .save ⟨_, _, _, _, _, hrow⟩
    | unlink =>
      show Stage C (birthday around.now (BirthdayWrites.handler C K state around headers .unlink))
      rw [BirthdayWrites.handler_unlink]
      cases BirthdayWrites.unlinkChecks K state around headers with
      | error e => exact .birthdayDone
      | ok session => exact .unlink
  | config around headers guildId roleId ruleTreeVersion tree =>
    show Stage C (config around.now (ConfigWrites.roleConfigSave C K state around headers guildId
      roleId ruleTreeVersion tree))
    unfold ConfigWrites.roleConfigSave
    cases hc : Routes.saveCheck C K state around headers guildId roleId tree with
    | error e => exact .configDone
    | ok parsed =>
      obtain ⟨_, -, -, hparse⟩ := Routes.saveCheck_ok hc
      exact .update (Or.inr ⟨tree, hparse, rfl⟩)

/-- No statement changes a job that is there. -/
theorem Effect.jobs (h : Effect C db q' db') {id : ℕ} {row : JobRow}
    (hrow : db.jobs.get? id = some row) : db'.jobs.get? id = some row := by
  cases h with
  | reads | upsert | delete | update => exact hrow
  | enqueue => exact (Jobs.get?_enqueue _ _ _ _ _ (Jobs.get?_lt hrow).ne).trans hrow

/-- One statement: a case for each stage. -/
theorem Stage.next (h : q.Stage C) (hn : q.next db = some (q', db')) :
    q'.Stage C ∧ Effect C db q' db' := by
  cases h with
  | birthdayDone | configDone => cases hn
  | save hrow =>
    cases hn
    exact ⟨.enqueuePlayer, .upsert hrow fun link => boundFor_enqueuePlayer link _⟩
  | @unlink now discordId =>
    cases hn
    show Stage C (birthday now (if (db.birthdays.get? discordId).toList.length = 0 then _ else _)) ∧
      Effect C db (birthday now (if (db.birthdays.get? discordId).toList.length = 0 then _ else _))
        { db with birthdays := db.birthdays.remove discordId }
    cases hr : db.birthdays.get? discordId with
    | none => exact ⟨.birthdayDone, .delete (Or.inl hr)⟩
    | some row => exact ⟨.enqueuePlayer, .delete (Or.inr fun link => boundFor_enqueuePlayer link _)⟩
  | enqueuePlayer =>
    cases hn
    exact ⟨.birthdayDone, .enqueue⟩
  | @update now raw tree guildId roleId expected hrule =>
    have hn : some (config now (.done (ConfigStatement.apply now
        (.updateTree raw guildId roleId expected) db).1 >>= fun affected =>
          if affected = 0 then ConfigWrites.refuse guildId roleId
          else ConfigWrites.fetchAnd guildId roleId),
        (ConfigStatement.apply now (.updateTree raw guildId roleId expected) db).2) =
          some (q', db') := hn
    cases hup : db.roleLinks.updateTree now raw guildId roleId expected with
    | error e =>
      simp only [ConfigStatement.apply, hup] at hn
      cases hn
      exact ⟨.configDone, .reads⟩
    | ok updated =>
      obtain ⟨links, n⟩ := updated
      simp only [ConfigStatement.apply, hup] at hn
      cases hn
      rcases ConfigWrites.updateTree_ok hup with ⟨rfl, rfl⟩ | ⟨rfl, l, hl, rfl⟩
      · exact ⟨.refuse, .reads⟩
      · exact ⟨.fetch, .update hl hrule fun discordId => boundFor_fetch guildId roleId discordId⟩
  | refuse =>
    cases hn
    exact ⟨.configDone, .reads⟩
  | @fetch now guildId roleId =>
    cases hn
    show Stage C (config now (.done (Result.okOr (db.roleLinks.version? guildId roleId) _) >>= _)) ∧ _
    refine ⟨?_, .reads⟩
    cases db.roleLinks.version? guildId roleId with
    | none => exact .configDone
    | some v => exact .enqueueConfig
  | enqueueConfig =>
    cases hn
    exact ⟨.configDone, .enqueue⟩

end

end RequestRun

/-! ### Jobs -/

/-- What `dispatch` runs for a job, if it can read it. -/
def Job.task? (job : Job) : Option SyncTask :=
  match JobKind.fromDb job.kind with
  | some .playerSync => ((job.payload.get "discord_id").bind Value.asStr).map .player
  | some .configSync => do
    let guildId ← (job.payload.get "guild_id").bind Value.asStr
    let roleId ← (job.payload.get "role_id").bind Value.asStr
    some (.roleLink (guildId, roleId))
  | none => none

/-- A job that covers a place. -/
def Job.Covers (a : Place) (job : Job) : Prop := ∃ t, job.task? = some t ∧ t.Covers a

/-- A job for a place that nobody has claimed. -/
def Database.Awaits (db : Database) (a : Place) : Prop :=
  ∃ id row, db.jobs.get? id = some row ∧ row.status = .pending ∧ row.job.Covers a

def batchSize : ℕ := 8

/-- A job in a worker's hands. -/
structure HeldJob where
  worker : String
  job : Job

/-! ### The service -/

structure Service where
  pool : SyncPool
  requests : List RequestRun
  held : List HeldJob
  /-- the thread of a job that was dispatched -/
  thread : ℕ → Option ℕ

namespace Service

def world (s : Service) : World := s.pool.state

def db (s : Service) : Database := s.pool.state.db

def setDb (s : Service) (db : Database) : Service :=
  { s with pool := ⟨{ s.pool.state with db := db }, s.pool.threads⟩ }

/-- A service nobody uses yet. -/
def start (w : World) : Service := ⟨⟨w, []⟩, [], [], fun _ => none⟩

inductive Label where
  | arrive (arrival : Arrival)
  | request (i : ℕ)
  | claim (worker : String)
  | dispatch (id : ℕ)
  | complete (id : ℕ)
  | run (l : SyncLabel)

/-- The runs that were dispatched: nothing else starts one. -/
def runs (C : Crates) (H : HttpCrates) : System AppError SyncCall.Result World SyncTask :=
  { syncSystem C (World.faultless H) fun _ _ => False with root := fun _ => False }

/-- Thread `i` and its children have come to their ends. -/
def Over (p : SyncPool) (i : ℕ) : Prop :=
  ∀ j th, p.threads[j]? = some th → j = i ∨ th.parent = some i → th.finished = true

section

variable (C : Crates) (K : TokenCrates) (state : AppState) (H : HttpCrates)

inductive Step : Service → Label → Service → Prop
  | arrive {s : Service} (arrival : Arrival) :
      Step s (.arrive arrival) { s with requests := s.requests ++ [arrival.begin C K state] }
  | request {s : Service} {i : ℕ} {q q' : RequestRun} {db : Database} :
      s.requests[i]? = some q → q.next s.db = some (q', db) →
      Step s (.request i) { s.setDb db with requests := s.requests.set i q' }
  /-- a worker with nothing left claims a batch -/
  | claim {s : Service} (now : Time) (worker : String) (locked : ℕ → Bool) :
      (∀ h ∈ s.held, h.worker ≠ worker) →
      Step s (.claim worker)
        { s.setDb { s.db with jobs := (s.db.jobs.claimBatch now worker batchSize locked).1 } with
          held := s.held ++ (s.db.jobs.claimBatch now worker batchSize locked).2.map fun job =>
            ⟨worker, job⟩ }
  /-- a worker that is running no job dispatches one of its batch -/
  | dispatch {s : Service} {h : HeldJob} {t : SyncTask} :
      h ∈ s.held → (∀ h' ∈ s.held, h'.worker = h.worker → s.thread h'.job.id = none) →
      h.job.task? = some t →
      Step s (.dispatch h.job.id)
        { s with
          pool := s.pool.add none (t.body C)
          thread := Function.update s.thread h.job.id (some s.pool.threads.length) }
  | complete {s : Service} {h : HeldJob} {i : ℕ} {parent : Option ℕ} (now : Time) :
      h ∈ s.held → s.thread h.job.id = some i →
      s.pool.threads[i]? = some ⟨parent, .done (.ok [])⟩ → Over s.pool i →
      Step s (.complete h.job.id)
        { s.setDb { s.db with jobs := s.db.jobs.complete now h.job.id } with
          held := s.held.filter fun h' => h'.job.id ≠ h.job.id }
  | run {s : Service} {l : SyncLabel} {p : SyncPool} :
      Prog.Step (runs C H) s.pool l p → Step s (.run l) { s with pool := p }

/-- Steps that each have a property. -/
inductive Run (P : Service → Label → Service → Prop) (w : World) : Service → Prop
  | refl : Run P w (start w)
  | tail {s s' : Service} {l : Label} : Run P w s → Step C K state H s l s' → P s l s' → Run P w s'

end

/-- No request is in progress, and no job is pending or running. -/
def Quiescent (s : Service) : Prop :=
  (∀ q ∈ s.requests, q.Finished) ∧ ∀ row ∈ s.db.jobs.table.rows, row.status.Ended

end Service

end BirthdayRole
