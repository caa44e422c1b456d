/-
# What is stored

Everything that writes to the database, a statement at a time (`Database.Write`): those of
the requests, with what their handlers have checked before, those of the sync runs and
those on the queue. They come in any order, from any number of requests, workers and ticks,
and what comes after one of them may never come.

What they leave is sound (`Database.Stored.sound`): birthdays that were validated, with the
columns derived from them; rules that were parsed; versions, permissions and jobs that the
program can read back. A job that has ended has the time it ended; so may one that is pending
again, since a report that comes late leaves it.
-/
import Mathlib.Logic.Relation
import BirthdayRole.JobAttempts
import BirthdayRole.Requests
import BirthdayRole.SyncTarget
import BirthdayRole.Ticks

namespace BirthdayRole

open Json Result

/-! ### Sound data -/

/-- A row of `jobs` as the statements leave it. -/
structure JobRow.Sound (r : JobRow) : Prop where
  readable : r.job.task?.isSome = true
  limit : r.maxAttempts = 8
  locked : r.status = .inProgress ↔ r.lockedAt.isSome = true
  worker : r.lockedBy.isSome = r.lockedAt.isSome
  claimed : r.status = .inProgress → 1 ≤ r.attempts
  ended : r.status.Ended → r.completedAt.isSome = true

/-- Data that the program has written. -/
structure Database.Sound (C : Crates) (db : Database) : Prop where
  birthdays : ∀ row ∈ db.birthdays.rows, row.Saved C
  rules : ∀ l ∈ db.roleLinks.rows, ∃ tree, StoredRule C l.ruleTree tree
  versions : ∀ l ∈ db.roleLinks.rows, 1 ≤ l.ruleTreeVersion ∧ l.ruleTreeVersion < 2 ^ 31
  permissions : ∀ s ∈ db.settings.rows, s.viewPermission ∈ ["disabled", "managers", "members"]
  assignments : ∀ a ∈ db.assignments.rows, (db.roleLinks.get? a.link).isSome = true
  jobs : ∀ r ∈ db.jobs.table.rows, r.Sound

/-! ### Everything that writes -/

/-- The statements on the queue; a report may come from anybody, at any time. -/
inductive QueueStatement where
  | enqueuePlayerSync (now : Time) (discordId : String)
  | enqueueConfigSync (now : Time) (link : LinkKey)
  | enqueueConfigSyncUnique (now : Time) (link : LinkKey)
  | claimBatch (now : Time) (workerId : String) (batchSize : ℕ) (locked : ℕ → Bool)
  | report (now : Time) (job : Job) (r : Report)
  | reapStuck (now : Time) (maxLockSecs : ℕ)
  | gcOld (now : Time)

def QueueStatement.after (jobs : Jobs) : QueueStatement → Jobs
  | enqueuePlayerSync now discordId => jobs.enqueuePlayerSync now discordId
  | enqueueConfigSync now link => jobs.enqueueConfigSync now link.1 link.2
  | enqueueConfigSyncUnique now link => jobs.enqueueConfigSyncUnique now link.1 link.2
  | claimBatch now workerId batchSize locked => (jobs.claimBatch now workerId batchSize locked).1
  | report now job r => r.apply jobs now job
  | reapStuck now maxLockSecs => jobs.reapStuck now maxLockSecs
  | gcOld now => jobs.gcOld now

/-- One statement that writes. -/
inductive Database.Write (C : Crates) (db : Database) : Database → Prop
  | upsertToken (now : Time) (guildId roleId token : String) :
      Write C db { db with roleLinks := db.roleLinks.upsertToken now guildId roleId token }
  | insertSettings (now : Time) (guildId : String) : Write C db (db.insertSettings now guildId)
  | deleteOwned (guildId roleId token : String) :
      Write C db (db.deleteOwnedLink guildId roleId token).1
  | updateTree {now : Time} {guildId roleId : String} {expected : ℤ} {body : RuleTreeBody}
      {tree : RuleTree} {updated : RoleLinks × ℕ} : parseRuleTree C body = .ok tree →
      db.roleLinks.updateTree now tree.toValue guildId roleId expected = .ok updated →
      Write C db { db with roleLinks := updated.1 }
  | setViewPermission {now : Time} {guildId viewPermission : String} :
      viewPermission ∈ ["disabled", "managers", "members"] →
      Write C db (db.setViewPermission now guildId viewPermission)
  | upsertBirthday {thisYear : ℤ} {now : Time} {discordId discordName : String} {body : SaveBody}
      {row : BirthdayRow} : verifySaveRow C thisYear now discordId discordName body = .ok row →
      Write C db { db with birthdays := db.birthdays.put row }
  | deleteBirthday (discordId : String) :
      Write C db { db with birthdays := db.birthdays.remove discordId }
  | sync {postgres : Postgres} {s : Statement} (v : s.Result) : s.Answers postgres db v →
      Write C db (s.after db)
  | queue (s : QueueStatement) : Write C db { db with jobs := s.after db.jobs }

/-- What can be stored, starting with nothing. -/
def Database.Stored (C : Crates) (db : Database) : Prop :=
  Relation.ReflTransGen (Database.Write C) .empty db

/-! ### The queue -/

/-- The readable part of a row does not depend on its state. -/
theorem JobRow.readable_congr {r r' : JobRow} (hkind : r'.kind = r.kind)
    (hpayload : r'.payload = r.payload) :
    r'.job.task? = r.job.task? := by
  unfold Job.task? JobRow.job
  simp only [hkind, hpayload]

/-- A row that is no longer locked. -/
theorem JobRow.Sound.unlocked {r r' : JobRow} (h : r.Sound) (hkind : r'.kind = r.kind)
    (hpayload : r'.payload = r.payload) (hlimit : r'.maxAttempts = r.maxAttempts)
    (hby : r'.lockedBy = none) (hat : r'.lockedAt = none) (hstatus : r'.status ≠ .inProgress)
    (hended : r'.status.Ended → r'.completedAt.isSome = true) : r'.Sound where
  readable := by
    rw [JobRow.readable_congr hkind hpayload]
    exact h.readable
  limit := hlimit.trans h.limit
  locked := iff_of_false hstatus (by rw [hat]; exact Bool.false_ne_true)
  worker := by
    rw [hby, hat]
    rfl
  claimed hs := absurd hs hstatus
  ended := hended

theorem not_ended_pending : ¬JobStatus.pending.Ended := by
  rintro (h | h) <;> cases h

theorem not_ended_inProgress : ¬JobStatus.inProgress.Ended := by
  rintro (h | h) <;> cases h

theorem JobRow.Sound.claim {r : JobRow} (h : r.Sound) (now : Time) (workerId : String) :
    (Jobs.claimRow now workerId r).Sound where
  readable := by
    have hread : (Jobs.claimRow now workerId r).job.task? = r.job.task? :=
      JobRow.readable_congr rfl rfl
    rw [hread]
    exact h.readable
  limit := h.limit
  locked := iff_of_true rfl rfl
  worker := rfl
  claimed _ := by
    show 1 ≤ r.attempts + 1
    omega
  ended hs := absurd hs not_ended_inProgress

namespace Jobs

variable {jobs : Jobs}

theorem sound_enqueue (h : ∀ r ∈ jobs.table.rows, r.Sound) (now : Time) {kind : JobKind}
    {payload : Value} (delaySecs : ℕ)
    (hread : (Job.task? ⟨jobs.nextId, kind.asStr, payload, 0, 8⟩).isSome = true) :
    ∀ r ∈ (jobs.enqueue now kind payload delaySecs).table.rows, r.Sound := by
  refine Table.forall_put h
    { readable := hread, limit := rfl, locked := ?_, worker := rfl, claimed := ?_, ended := ?_ }
  · exact iff_of_false (fun h => nomatch h) Bool.false_ne_true
  · exact fun h => nomatch h
  · exact fun h => absurd h not_ended_pending

theorem playerSync_readable (id : ℕ) (discordId : String) :
    (Job.task? ⟨id, JobKind.playerSync.asStr, .object [("discord_id", .string discordId)], 0, 8⟩).isSome =
      true := by
  unfold Job.task?
  rw [JobKind.fromDb_asStr]
  rfl

theorem configSync_readable (id : ℕ) (guildId roleId : String) :
    (Job.task? ⟨id, JobKind.configSync.asStr, configSyncPayload guildId roleId, 0, 8⟩).isSome = true := by
  unfold Job.task?
  rw [JobKind.fromDb_asStr]
  rfl

/-- An update that keeps each row sound. -/
theorem sound_update (h : ∀ r ∈ jobs.table.rows, r.Sound) {f : JobRow → JobRow}
    {hf : ∀ r, (f r).id = r.id} (hsound : ∀ r ∈ jobs.table.rows, r.Sound → (f r).Sound) :
    ∀ r ∈ (jobs.update f hf).table.rows, r.Sound := Table.forall_modify h hf hsound

theorem sound_report (h : ∀ r ∈ jobs.table.rows, r.Sound) (now : Time) (job : Job) (report : Report) :
    ∀ r ∈ (report.apply jobs now job).table.rows, r.Sound := by
  cases report with
  | complete | failDead err =>
    refine sound_update h fun r _ hr => ?_
    split
    · exact hr.unlocked rfl rfl rfl rfl rfl (fun h => nomatch h) fun _ => rfl
    · exact hr
  | failRetry err jitterMs =>
    refine sound_update h fun r _ hr => ?_
    split
    · exact hr.unlocked rfl rfl rfl rfl rfl (fun h => nomatch h) fun hended =>
        absurd hended not_ended_pending
    · exact hr

theorem sound_queue (h : ∀ r ∈ jobs.table.rows, r.Sound) (s : QueueStatement) :
    ∀ r ∈ (s.after jobs).table.rows, r.Sound := by
  cases s with
  | enqueuePlayerSync now discordId => exact sound_enqueue h now 0 (playerSync_readable _ _)
  | enqueueConfigSync now link => exact sound_enqueue h now 5 (configSync_readable _ _ _)
  | enqueueConfigSyncUnique now link =>
    show ∀ r ∈ (jobs.enqueueConfigSyncUnique now link.1 link.2).table.rows, r.Sound
    rcases jobs.enqueueConfigSyncUnique_cases now link with ⟨-, he⟩ | ⟨-, he⟩
    · rw [he]
      exact h
    · rw [he]
      exact sound_enqueue h now 0 (configSync_readable _ _ _)
  | claimBatch now workerId batchSize locked =>
    refine sound_update h fun r _ hr => ?_
    split
    · exact hr.claim now workerId
    · exact hr
  | report now job report => exact sound_report h now job report
  | reapStuck now maxLockSecs =>
    refine sound_update h fun r _ hr => ?_
    split
    · exact hr.unlocked rfl rfl rfl rfl rfl (fun h => nomatch h) fun hended =>
        absurd hended not_ended_pending
    · exact hr
  | gcOld now => exact Table.forall_deleteWhere h _

end Jobs

/-! ### The statements of the runs -/

section

variable {C : Crates} {db db' : Database}

/-- Assignments of links that are there. -/
theorem sound_insertAssignments {link : LinkKey} (hlink : (db.roleLinks.get? link).isSome = true) :
    ∀ (ids : List String) {d : Database}, d.roleLinks = db.roleLinks →
      (∀ a ∈ d.assignments.rows, (db.roleLinks.get? a.link).isSome = true) →
      ∀ a ∈ (ids.foldl (fun db id => db.insertAssignment link id) d).assignments.rows,
        (db.roleLinks.get? a.link).isSome = true
  | [], _, _, h => h
  | _ :: ids, _, hsame, h => sound_insertAssignments hlink ids hsame (Table.forall_put h hlink)

theorem roleLinks_rewrite (db : Database) (link : LinkKey) (ids : List String) :
    ∃ assignments, db.rewriteAssignments link ids = { db with assignments := assignments } := by
  have key : ∀ (ids : List String) (db' : Database), (∃ x, db' = { db with assignments := x }) →
      ∃ x, ids.foldl (fun db id => db.insertAssignment link id) db' = { db with assignments := x } := by
    intro ids
    induction ids with
    | nil => exact fun db' h => h
    | cons id ids ih =>
      rintro db' ⟨x, rfl⟩
      exact ih _ ⟨_, rfl⟩
  exact key ids _ ⟨_, rfl⟩

theorem Database.Sound.assignments_only (h : db.Sound C) {assignments : Assignments}
    (ha : ∀ a ∈ assignments.rows, (db.roleLinks.get? a.link).isSome = true) :
    Database.Sound C { db with assignments := assignments } :=
  { h with assignments := ha }

/-- Whoever deletes a link, its assignments go with it. -/
theorem Database.Sound.deleteLink (h : db.Sound C) (guildId roleId : String) :
    (db.deleteLink guildId roleId).Sound C where
  birthdays := h.birthdays
  rules := Table.forall_deleteWhere h.rules _
  versions := Table.forall_deleteWhere h.versions _
  permissions := h.permissions
  assignments a ha := by
    obtain ⟨ha, hother⟩ := List.mem_filter.mp ha
    have hne : a.link ≠ (guildId, roleId) := by simpa using hother
    show ((db.roleLinks.remove (guildId, roleId)).get? a.link).isSome = true
    rw [Table.get?_remove, if_neg hne]
    exact h.assignments a ha
  jobs := h.jobs

theorem Database.Sound.sync (h : db.Sound C) {postgres : Postgres} {s : Statement} {v : s.Result}
    (hs : s.Answers postgres db v) : (s.after db).Sound C := by
  cases s with
  | selectLinks | selectBirthday | selectAssigned | selectLink | selectQualifying | selectCurrent
  | existsAssigned => exact h
  | insertAssignment link discordId =>
    exact h.assignments_only (Table.forall_put h.assignments hs)
  | deleteAssignment link discordId | clearAssignments link =>
    exact h.assignments_only (Table.forall_deleteWhere h.assignments _)
  | rewriteAssignments link ids =>
    have hcleared : ∀ a ∈ (db.clearAssignments link).assignments.rows,
      (db.roleLinks.get? a.link).isSome = true := Table.forall_deleteWhere h.assignments _
    rcases hs.2 with rfl | hlink
    · exact h.assignments_only hcleared
    · have hrows := sound_insertAssignments hlink ids (d := db.clearAssignments link) rfl hcleared
      obtain ⟨assignments, he⟩ := roleLinks_rewrite db link ids
      show (db.rewriteAssignments link ids).Sound C
      have hrows : ∀ a ∈ (db.rewriteAssignments link ids).assignments.rows,
        (db.roleLinks.get? a.link).isSome = true := hrows
      rw [he] at hrows ⊢
      exact h.assignments_only hrows
  | deleteRoleLink link => exact h.deleteLink link.1 link.2

/-! ### The statements of the requests -/

theorem Database.Sound.upsertToken (h : db.Sound C) (now : Time) (guildId roleId token : String) :
    Database.Sound C { db with roleLinks := db.roleLinks.upsertToken now guildId roleId token } := by
  -- the token is all that changes of a link that is there
  have hlinks : ∀ {P : RoleLink → Prop}, (∀ l ∈ db.roleLinks.rows, P l) →
      (∀ l, P l → P { l with apiToken := token, updatedAt := now }) →
      P ⟨guildId, roleId, token, unconfiguredTree, 1, now⟩ →
      ∀ l ∈ (db.roleLinks.upsertToken now guildId roleId token).rows, P l := by
    intro P hall hold hfirst
    refine Table.forall_put hall ?_
    cases hl : db.roleLinks.get? (guildId, roleId) with
    | none => exact hfirst
    | some l => exact hold l (hall l (Table.get?_eq_some.mp hl).1)
  refine { h with rules := ?_, versions := ?_, assignments := ?_ }
  · exact hlinks h.rules (fun _ hl => hl) ⟨default, Or.inl ⟨rfl, rfl⟩⟩
  · exact hlinks h.versions (fun _ hl => hl) (by norm_num)
  · exact fun a ha => Table.isSome_put (h.assignments a ha) _

theorem Database.Sound.insertSettings (h : db.Sound C) (now : Time) (guildId : String) :
    (db.insertSettings now guildId).Sound C := by
  unfold Database.insertSettings
  cases db.settings.get? guildId with
  | some s => exact h
  | none => exact { h with permissions := Table.forall_put h.permissions (by simp) }

theorem Database.Sound.updateTree (h : db.Sound C) {now : Time} {guildId roleId : String}
    {expected : ℤ} {body : RuleTreeBody} {tree : RuleTree} {updated : RoleLinks × ℕ}
    (hparse : parseRuleTree C body = .ok tree)
    (hup : db.roleLinks.updateTree now tree.toValue guildId roleId expected = .ok updated) :
    Database.Sound C { db with roleLinks := updated.1 } := by
  unfold RoleLinks.updateTree at hup
  split at hup
  · cases hup
  split at hup
  · rename_i l hl
    split at hup
    · split at hup
      · rename_i hlt
        cases hup
        have hold := h.versions l (Table.get?_eq_some.mp hl).1
        have hversion : 1 ≤ l.ruleTreeVersion + 1 := by omega
        refine { h with rules := ?_, versions := ?_, assignments := ?_ }
        · exact Table.forall_put h.rules ⟨tree, Or.inr ⟨body, hparse, rfl⟩⟩
        · exact Table.forall_put h.versions ⟨hversion, hlt⟩
        · exact fun a ha => Table.isSome_put (h.assignments a ha) _
      · cases hup
    · cases hup
      exact h
  · cases hup
    exact h

/-- Every statement keeps what is stored sound. -/
theorem Database.Sound.write (h : db.Sound C) (hw : Database.Write C db db') : db'.Sound C := by
  cases hw with
  | upsertToken now guildId roleId token => exact h.upsertToken now guildId roleId token
  | insertSettings now guildId => exact h.insertSettings now guildId
  | deleteOwned guildId roleId token =>
    rw [db.deleteOwnedLink_eq]
    split
    · exact h.deleteLink guildId roleId
    · exact h
  | updateTree hparse hup => exact h.updateTree hparse hup
  | setViewPermission hvp => exact { h with permissions := Table.forall_put h.permissions hvp }
  | upsertBirthday hrow =>
    exact { h with birthdays := Table.forall_put h.birthdays ⟨_, _, _, _, _, hrow⟩ }
  | deleteBirthday discordId => exact { h with birthdays := Table.forall_deleteWhere h.birthdays _ }
  | sync v hv => exact h.sync hv
  | queue s => exact { h with jobs := Jobs.sound_queue h.jobs s }

end

/-! ### Whole requests -/

section

variable {C : Crates} {K : TokenCrates} {state : AppState} {around : Surroundings} {db : Database}
  {headers : Headers}

theorem Routes.permissionCheck_ok {guildId viewPermission : String}
    (h : Routes.permissionCheck K state around headers guildId viewPermission = .ok ()) :
    viewPermission ∈ ["disabled", "managers", "members"] := by
  obtain ⟨_, -, h⟩ := bind_ok h
  obtain ⟨_, -, h⟩ := bind_ok h
  exact (require_ok h).1

/-- The statements of a request, as its handler comes to them. -/
def RouteStatement.Checked : RouteStatement → Prop
  | setViewPermission _ viewPermission => viewPermission ∈ ["disabled", "managers", "members"]
  | _ => True

theorem RouteStatement.stored (h : db.Stored C) {op : RouteStatement} (hop : op.Checked) :
    (op.apply around db).2.Stored C := by
  cases op with
  | upsertToken guildId roleId token => exact h.tail (.upsertToken around.now guildId roleId token)
  | insertSettings guildId => exact h.tail (.insertSettings around.now guildId)
  | deleteOwned guildId roleId token => exact h.tail (.deleteOwned guildId roleId token)
  | setViewPermission guildId viewPermission => exact h.tail (.setViewPermission hop)
  | findByToken | findOwned | selectToken | selectConfig | selectRule | selectViewPermission | count
  | selectMembers | selectBirthday | countLinks | ping => exact h

theorem Requests.previewCountFor_calls (guildId : String) (tree : RuleTree) :
    (Requests.previewCountFor around guildId tree).Calls RouteStatement.Checked := by
  unfold Requests.previewCountFor
  cases around.gateway.memberIds guildId with
  | error e => exact trivial
  | ok memberIds =>
    by_cases hnil : memberIds = []
    · simp only [if_pos hnil]
      exact trivial
    · simp only [if_neg hnil]
      exact .bind (.perform trivial) fun counted => .done_bind fun linked _ =>
        .bind (.perform trivial) fun counted => .done_bind fun matching _ => trivial

theorem Requests.handler_calls (route : Route) :
    (Requests.handler C K state around headers route).Calls RouteStatement.Checked := by
  cases route with
  | register guildId roleId =>
    exact .done_bind fun token _ => .bind (.perform trivial) fun _ => .bind (.perform trivial) fun _ =>
      trivial
  | getConfig =>
    exact .done_bind fun token _ => .bind (.perform trivial) fun found => .done_bind fun link _ => trivial
  | postConfig guildId roleId =>
    refine .done_bind fun token _ => .bind (.perform trivial) fun owned => ?_
    split <;> exact trivial
  | deleteConfig guildId roleId =>
    refine .done_bind fun token _ => .bind (.perform trivial) fun deleted => ?_
    split <;> exact trivial
  | roleConfigPage guildId roleId rlToken =>
    show (Requests.roleConfigPage K state around headers guildId roleId rlToken).Calls _
    unfold Requests.roleConfigPage
    cases rlToken.filter (· ≠ "") with
    | none => exact trivial
    | some token => exact ⟨trivial, fun _ => trivial⟩
  | roleConfigData guildId roleId =>
    exact .done_bind fun _ _ => .bind (.perform trivial) fun found => .done_bind fun link _ =>
      .bind (.perform trivial) fun _ => trivial
  | roleConfigPreview guildId roleId =>
    exact .done_bind fun _ _ => .bind (.perform trivial) fun found => .done_bind fun rawTree _ =>
      Requests.previewCountFor_calls guildId _
  | roleConfigPreviewEdit guildId roleId tree =>
    exact .done_bind fun _ _ => .done_bind fun _ _ => .done_bind fun parsed _ =>
      Requests.previewCountFor_calls guildId parsed
  | setViewPermission guildId viewPermission =>
    exact .done_bind fun _ hc => .bind (.perform (Routes.permissionCheck_ok hc)) fun _ => trivial
  | usersData guildId =>
    exact .bind (.perform trivial) fun viewPermission => .done_bind fun access _ =>
      .bind (.perform trivial) fun rows => trivial
  | verifyStatus =>
    show (Requests.verifyStatus K state around headers).Calls _
    unfold Requests.verifyStatus
    cases readSession K state around.now headers with
    | error e => exact trivial
    | ok session => exact .bind (.perform trivial) fun row => trivial
  | dweebStatus guild =>
    show (Requests.dweebStatus guild).Calls _
    unfold Requests.dweebStatus
    cases guild.filter Routes.isSnowflake with
    | none => exact trivial
    | some guildId =>
      refine ⟨trivial, fun r => ?_⟩
      cases r <;> exact trivial
  | health => exact ⟨trivial, fun _ => trivial⟩
  | usersPage | verifyPage | verifyLogin | favicon | ready | unrouted | roleConfigSave | verifySave
  | verifyUnlink => exact trivial

/-- The statements of a request that writes a birthday, as its handler comes to them. -/
def BirthdayStatement.Checked (C : Crates) : BirthdayStatement → Prop
  | upsert row => row.Saved C
  | _ => True

theorem BirthdayStatement.stored (h : db.Stored C) (now : Time) {op : BirthdayStatement}
    (hop : op.Checked C) : (op.apply now db).2.Stored C := by
  cases op with
  | upsert row =>
    obtain ⟨_, _, _, _, _, hrow⟩ := hop
    exact h.tail (.upsertBirthday hrow)
  | delete discordId => exact h.tail (.deleteBirthday discordId)
  | enqueuePlayerSync discordId => exact h.tail (.queue (.enqueuePlayerSync now discordId))

theorem BirthdayWrites.handler_calls (request : BirthdayRequest) :
    (BirthdayWrites.handler C K state around headers request).Calls
      (BirthdayStatement.Checked C) := by
  have hthen (discordId : String) :
      (BirthdayWrites.enqueueAnd discordId).Calls (BirthdayStatement.Checked C) :=
    .bind (.perform trivial) fun _ => trivial
  cases request with
  | save body =>
    rw [BirthdayWrites.handler_save]
    refine .done_bind fun row hc => ?_
    obtain ⟨_, -, hc⟩ := bind_ok hc
    obtain ⟨session, -, hrow⟩ := bind_ok hc
    have hop : (BirthdayStatement.upsert row).Checked C := ⟨_, _, _, _, _, hrow⟩
    exact .bind (.perform hop) fun _ => hthen row.discordId
  | unlink =>
    rw [BirthdayWrites.handler_unlink]
    refine .done_bind fun session _ => ?_
    have hop : (BirthdayStatement.delete session.1).Checked C := trivial
    refine .bind (.perform hop) fun removed => ?_
    split
    · exact trivial
    · exact hthen session.1

def ConfigStatement.Checked (C : Crates) : ConfigStatement → Prop
  | updateTree raw _ _ _ => ∃ body tree, parseRuleTree C body = .ok tree ∧ raw = tree.toValue
  | _ => True

theorem ConfigStatement.stored (h : db.Stored C) (now : Time) {op : ConfigStatement}
    (hop : op.Checked C) : (op.apply now db).2.Stored C := by
  cases op with
  | updateTree raw guildId roleId expected =>
    obtain ⟨body, tree, hparse, rfl⟩ := hop
    show (ConfigStatement.apply now (.updateTree tree.toValue guildId roleId expected) db).2.Stored C
    cases hup : db.roleLinks.updateTree now tree.toValue guildId roleId expected with
    | error e =>
      simp only [ConfigStatement.apply, hup]
      exact h
    | ok updated =>
      simp only [ConfigStatement.apply, hup]
      exact h.tail (.updateTree hparse hup)
  | findVersion guildId roleId | fetchVersion guildId roleId => exact h
  | enqueueConfigSync guildId roleId =>
    exact h.tail (.queue (.enqueueConfigSync now (guildId, roleId)))

theorem ConfigWrites.handler_calls (guildId roleId : String) (ruleTreeVersion : ℤ)
    (tree : RuleTreeBody) :
    (ConfigWrites.roleConfigSave C K state around headers guildId roleId ruleTreeVersion tree).Calls
      (ConfigStatement.Checked C) := by
  unfold ConfigWrites.roleConfigSave
  refine .done_bind fun parsed hc => ?_
  obtain ⟨_, -, -, hparse⟩ := Routes.saveCheck_ok hc
  have hop : (ConfigStatement.updateTree parsed.toValue guildId roleId ruleTreeVersion).Checked C :=
    ⟨tree, parsed, hparse, rfl⟩
  refine .bind (.perform hop) fun updated => .done_bind fun affected _ => ?_
  split
  · exact .bind (.perform trivial) fun _ => trivial
  · refine .bind (.perform trivial) fun fetched => .done_bind fun newVersion _ => ?_
    exact ⟨trivial, fun _ => trivial⟩

/-- What a request does, wherever it breaks off, is a few of the statements. -/
theorem Database.Stored.outcome (h : db.Stored C) (K : TokenCrates) (state : AppState)
    (around : Surroundings) (request : HttpRequest) (F : Prog.Faults AppError) :
    (Requests.outcome C K state around db request F).2.Stored C := by
  have hroute : ∀ op db, RouteStatement.Checked op → db.Stored C → (op.apply around db).2.Stored C :=
    fun _ _ hop hs => RouteStatement.stored hs hop
  have hconfig : ∀ op db, ConfigStatement.Checked C op → db.Stored C →
      (op.apply around.now db).2.Stored C := fun _ _ hop hs => ConfigStatement.stored hs _ hop
  have hbirthday : ∀ op db, BirthdayStatement.Checked C op → db.Stored C →
      (op.apply around.now db).2.Stored C := fun _ _ hop hs => BirthdayStatement.stored hs _ hop
  obtain ⟨route, headers⟩ := request
  cases route with
  | roleConfigSave guildId roleId version tree =>
    exact Prog.Calls.under hconfig (ConfigWrites.handler_calls guildId roleId version tree) 0 db h
  | verifySave body =>
    exact Prog.Calls.under hbirthday (BirthdayWrites.handler_calls (.save body)) 0 db h
  | verifyUnlink => exact Prog.Calls.under hbirthday (BirthdayWrites.handler_calls .unlink) 0 db h
  | register | getConfig | postConfig | deleteConfig | roleConfigPage | roleConfigData
  | roleConfigPreview | roleConfigPreviewEdit | setViewPermission | usersPage | usersData | verifyPage
  | verifyStatus | verifyLogin | favicon | dweebStatus | health | ready | unrouted =>
    exact Prog.Calls.under hroute (Requests.handler_calls _) 0 db h

end

/-! ### Whatever was written -/

variable {C : Crates} {db : Database}

theorem Database.sound_empty (C : Crates) : Database.empty.Sound C := by
  refine ⟨?_, ?_, ?_, ?_, ?_, ?_⟩ <;> exact fun _ h => nomatch h

theorem Database.Stored.isSound (h : db.Stored C) : db.Sound C := by
  induction h with
  | refl => exact Database.sound_empty C
  | tail _ hw ih => exact ih.write hw

/-- Whatever was carried out, what is stored is sound, and no request makes it otherwise,
wherever its statements fail and the process stops. -/
theorem Database.Stored.sound (h : db.Stored C) : db.Sound C ∧
    ∀ K state around request F, (Requests.outcome C K state around db request F).2.Stored C :=
  ⟨h.isSound, h.outcome⟩

section Written

def writtenBody : RuleTreeBody := ⟨false, [⟨[⟨"is_birthday_today", "eq", .bool true, none⟩]⟩]⟩

def writtenTree : RuleTree := ⟨false, [⟨[⟨.isBirthdayToday, .eq, .bool true, none⟩]⟩]⟩

/-- The queue after a save of a rule and one of a birthday. -/
def writtenJobs : Jobs := (Jobs.empty.enqueueConfigSync 0 "g" "r").enqueuePlayerSync 0 "1"

/-- A link whose rule was saved, a birthday, and their jobs, one of them claimed. -/
def written : Database where
  roleLinks := (∅ : RoleLinks).put ⟨"g", "r", "t", writtenTree.toValue, 2, 0⟩
  assignments := ∅
  birthdays := (∅ : Birthdays).put leoRow
  settings := (∅ : Table GuildSettings.guildId).put ⟨"g", "managers", 0⟩
  jobs := (writtenJobs.claimBatch 5 "worker-0" 1 fun _ => false).1

theorem written_stored : written.Stored .ascii := by
  have hparse : parseRuleTree .ascii writtenBody = .ok writtenTree := rfl
  have hrow : verifySaveRow .ascii 2024 0 "1" "a" ⟨8, 1, some 2000, none, false⟩ = .ok leoRow := rfl
  have hup : ((∅ : RoleLinks).upsertToken 0 "g" "r" "t").updateTree 0 writtenTree.toValue "g" "r" 1 =
      .ok ((∅ : RoleLinks).put ⟨"g", "r", "t", writtenTree.toValue, 2, 0⟩, 1) := rfl
  have hregistered : Database.Stored .ascii
      ({ Database.empty with roleLinks := (∅ : RoleLinks).upsertToken 0 "g" "r" "t" }.insertSettings 0
        "g") := (Relation.ReflTransGen.single (.upsertToken 0 "g" "r" "t")).tail (.insertSettings 0 "g")
  exact ((((hregistered.tail (.updateTree hparse hup)).tail
    (.queue (.enqueueConfigSync 0 ("g", "r")))).tail (.upsertBirthday hrow)).tail
    (.queue (.enqueuePlayerSync 0 "1"))).tail (.queue (.claimBatch 5 "worker-0" 1 fun _ => false))

/-- It is sound, and a removal of the birthday that breaks off leaves what can be stored. -/
theorem Database.Stored.sound_written : written.Sound .ascii ∧
    (Requests.outcome .ascii BirthdayWrites.exampleCrates BirthdayWrites.exampleState (.silent 0)
      written ⟨.verifyUnlink, BirthdayWrites.exampleHeaders⟩ BirthdayWrites.secondFails).2.Stored
      .ascii := by
  obtain ⟨hsound, hbroken⟩ := Database.Stored.sound written_stored
  exact ⟨hsound, hbroken BirthdayWrites.exampleCrates BirthdayWrites.exampleState (.silent 0)
    ⟨.verifyUnlink, BirthdayWrites.exampleHeaders⟩ BirthdayWrites.secondFails⟩

end Written

end BirthdayRole
