/-
# Changes on their way

A change of a birthday or of a rule is on its way to a place from the moment the row is
written: first in the request that is bound to enqueue the job, then in the job, pending
or in a worker's hands, and then in the run, which is bound to write the list there or to
find that the row is as it should be (`OnItsWay`). Here is what each step of the service
makes of what is on its way, a section for each kind of step.
-/
import BirthdayRole.JobsInHand

namespace BirthdayRole

open Prog

namespace Service

section

variable (C : Crates) (H : HttpCrates) (s : Service)

/-- A job for a place is pending, or in a worker's hands and not dispatched, or a request
is bound to enqueue one. -/
def Coming (a : Place) : Prop :=
  (∃ q ∈ s.requests, q.BoundFor a) ∨ s.db.Awaits a ∨
    ∃ h ∈ s.held, s.thread h.job.id = none ∧ h.job.Covers a

/-- A thread is bound to attend to a place. -/
def Running (a : Place) (j : ℕ) : Prop :=
  ∃ th, s.pool.threads[j]? = some th ∧ BirthdayRole.BoundFor C H a s.world th.prog

/-- Something is on its way to the place of a member, apart from some threads. -/
def OnItsWay (others : ℕ → Prop) (a : Place) : Prop :=
  a.2 ∈ s.world.members a.1.1 ∧ (s.Coming a ∨ ∃ j, others j ∧ s.Running C H a j)

/-- A write brings what the stored birthday and rule say when it lands, and a row that is
read as they say is not behind the list. -/
structure Current (w : World) (a : Place) (e : SyncEvent) : Prop where
  written : ∀ b, e.op.written w a = some b → b = w.deserves C a
  reported : rowReported a e = some (w.deserves C a) → w.users a = w.deserves C a

/-- Wherever nothing else is on its way, a call of a run is current. -/
def InTime : Label → Prop
  | .run (.call i e) => ∀ a : Place, (s.db.roleLinks.get? a.1).isSome = true →
      s.OnItsWay C H (fun j => j ≠ i) a ∨ Current C s.world a e
  | _ => True

/-- The list of every link is right at every place to which nothing is on its way. -/
structure Inv : Prop where
  kept : s.Kept
  proper : s.world.Proper C
  stages : ∀ q ∈ s.requests, q.Stage C
  lists : ∀ a : Place, (s.db.roleLinks.get? a.1).isSome = true →
    s.world.users a = s.world.deserves C a ∨ s.OnItsWay C H (fun _ => True) a

end

section

variable {C : Crates} {K : TokenCrates} {state : AppState} {H : HttpCrates} {s s' : Service} {a : Place}

/-! ### What stays on its way -/

theorem Running.alike {j : ℕ} (h : s.Running C H a j) (hsame : World.Alike a s.world s'.world)
    (hthread : s'.pool.threads[j]? = s.pool.threads[j]?) : s'.Running C H a j := by
  obtain ⟨th, hj, hbound⟩ := h
  exact ⟨th, hthread.trans hj, hbound.alike hsame⟩

/-- Where the place stays as it is, what is on its way stays so if each part does. -/
theorem OnItsWay.alike {others : ℕ → Prop} (h : s.OnItsWay C H others a)
    (hsame : World.Alike a s.world s'.world)
    (hcoming : a.2 ∈ s.world.members a.1.1 → s.Coming a → s'.Coming a ∨ ∃ j, s'.Running C H a j)
    (hrunning : ∀ j, others j → s.Running C H a j → ∃ j', s'.Running C H a j') :
    s'.OnItsWay C H (fun _ => True) a := by
  obtain ⟨hmember, h⟩ := h
  refine ⟨by rw [hsame.members]; exact hmember, ?_⟩
  rcases h with h | ⟨j, hj, h⟩
  · rcases hcoming hmember h with h | ⟨j, h⟩
    · exact Or.inl h
    · exact Or.inr ⟨j, trivial, h⟩
  · obtain ⟨j', h⟩ := hrunning j hj h
    exact Or.inr ⟨j', trivial, h⟩

/-- The same of a place that is right. -/
theorem lists_alike
    (h : s.world.users a = s.world.deserves C a ∨ s.OnItsWay C H (fun _ => True) a)
    (hsame : World.Alike a s.world s'.world) (husers : s'.world.users a = s.world.users a)
    (hcoming : a.2 ∈ s.world.members a.1.1 → s.Coming a → s'.Coming a ∨ ∃ j, s'.Running C H a j)
    (hrunning : ∀ j, s.Running C H a j → ∃ j', s'.Running C H a j') :
    s'.world.users a = s'.world.deserves C a ∨ s'.OnItsWay C H (fun _ => True) a := by
  rcases h with h | h
  · left
    rw [husers, hsame.deserves, h]
  · exact Or.inr (h.alike hsame hcoming fun j _ => hrunning j)

/-! ### Requests -/

/-- A job that is enqueued is pending. -/
theorem awaits_enqueue (db : Database) (now : Time) (kind : JobKind) (payload : Json.Value)
    (delaySecs : ℕ) (hcovers : ∀ id, Job.Covers a ⟨id, kind.asStr, payload, 0, 8⟩) :
    Database.Awaits { db with jobs := db.jobs.enqueue now kind payload delaySecs } a :=
  ⟨db.jobs.nextId, _, Table.get?_put_self _ _, rfl, hcovers _⟩

/-- The job of a member covers their places. -/
theorem covers_playerSync (link : LinkKey) (discordId : String) (id : ℕ) :
    Job.Covers (link, discordId)
      ⟨id, JobKind.playerSync.asStr, .object [("discord_id", .string discordId)], 0, 8⟩ := by
  refine ⟨.player discordId, ?_, rfl⟩
  unfold Job.task?
  rw [JobKind.fromDb_asStr]
  rfl

/-- The job of a link covers its places. -/
theorem covers_configSync (guildId roleId discordId : String) (id : ℕ) :
    Job.Covers ((guildId, roleId), discordId)
      ⟨id, JobKind.configSync.asStr, Jobs.configSyncPayload guildId roleId, 0, 8⟩ := by
  refine ⟨.roleLink (guildId, roleId), ?_, rfl⟩
  unfold Job.task?
  rw [JobKind.fromDb_asStr]
  rfl

/-- A request that is bound for a place stays so until it has enqueued the job. -/
theorem boundFor_next {q q' : RequestRun} {db db' : Database} (h : q.BoundFor a)
    (hn : q.next db = some (q', db')) (hlink : (db.roleLinks.get? a.1).isSome = true) :
    q'.BoundFor a ∨ db'.Awaits a := by
  cases q with
  | birthday now prog =>
    cases prog with
    | done x => cases hn
    | call op k =>
      cases hn
      rcases h (.ok (op.apply now db).1) ⟨db, rfl⟩ with hgoal | hk
      · right
        cases op with
        | upsert | delete => exact hgoal.elim
        | enqueuePlayerSync discordId =>
          obtain ⟨link, _⟩ := a
          obtain rfl : discordId = _ := hgoal
          exact awaits_enqueue db now _ _ _ (covers_playerSync link discordId)
      · exact Or.inl hk
  | config now prog =>
    cases prog with
    | done x => cases hn
    | call op k =>
      cases hn
      rcases h (.ok (op.apply now db).1) ⟨db, hlink, rfl⟩ with hgoal | hk
      · right
        cases op with
        | updateTree | findVersion | fetchVersion => exact hgoal.elim
        | enqueueConfigSync guildId roleId =>
          obtain ⟨_, discordId⟩ := a
          obtain rfl : (guildId, roleId) = _ := hgoal
          exact awaits_enqueue db now _ _ _ (covers_configSync guildId roleId discordId)
      · exact Or.inl hk

/-- The service after a statement of a request. -/
def afterRequest (s : Service) (i : ℕ) (q' : RequestRun) (db : Database) : Service :=
  { s.setDb db with requests := s.requests.set i q' }

theorem mem_afterRequest {i : ℕ} {q q' : RequestRun} (hi : s.requests[i]? = some q) (db : Database) :
    q' ∈ (s.afterRequest i q' db).requests :=
  List.mem_set (List.getElem?_eq_some_iff.mp hi).1 q'

theorem coming_request {i : ℕ} {q q' : RequestRun} {db : Database} (hi : s.requests[i]? = some q)
    (hn : q.next s.db = some (q', db)) (hlink : (s.db.roleLinks.get? a.1).isSome = true)
    (heffect : RequestRun.Effect C s.db q' db) (h : s.Coming a) :
    (s.afterRequest i q' db).Coming a := by
  rcases h with ⟨p, hp, hbound⟩ | ⟨id, row, hrow, hpending, hcovers⟩ | h
  · obtain ⟨j, hj⟩ := List.getElem?_of_mem hp
    by_cases hji : i = j
    · subst hji
      rw [hi] at hj
      cases hj
      rcases boundFor_next hbound hn hlink with hbound | hawaits
      · exact Or.inl ⟨q', mem_afterRequest hi db, hbound⟩
      · exact Or.inr (Or.inl hawaits)
    · refine Or.inl ⟨p, List.mem_of_getElem? (i := j) ?_, hbound⟩
      show (s.requests.set i q')[j]? = some p
      rw [List.getElem?_set_ne hji, hj]
  · exact Or.inr (Or.inl ⟨id, row, heffect.jobs hrow, hpending, hcovers⟩)
  · exact Or.inr (Or.inr h)

/-- A statement of a request leaves a place as it is, or the rest of the request is bound
for it. -/
theorem effect_alike {q' : RequestRun} {db : Database} (heffect : RequestRun.Effect C s.db q' db)
    (i : ℕ) (a : Place) : World.Alike a s.world (s.afterRequest i q' db).world ∨ q'.BoundFor a := by
  cases heffect with
  | reads => exact Or.inl (.refl a s.world)
  | enqueue => exact Or.inl ⟨rfl, rfl, rfl, rfl, rfl, rfl⟩
  | @upsert row _ hbound =>
    by_cases hid : a.2 = row.discordId
    · right
      obtain ⟨link, _⟩ := a
      obtain rfl : _ = row.discordId := hid
      exact hbound link
    · exact Or.inl ⟨rfl, rfl, rfl, rfl, Table.get?_put_ne _ hid, rfl⟩
  | @delete discordId hbound =>
    have hsame : a.2 ≠ discordId ∨ s.db.birthdays.get? discordId = none →
        World.Alike a s.world (s.afterRequest i q'
          { s.db with birthdays := s.db.birthdays.remove discordId }).world := by
      intro h
      refine ⟨rfl, rfl, rfl, rfl, ?_, rfl⟩
      show (s.db.birthdays.remove discordId).get? a.2 = s.db.birthdays.get? a.2
      rw [Table.get?_remove]
      by_cases hid : a.2 = discordId
      · rw [if_pos hid, hid, h.resolve_left fun hne => hne hid]
      · rw [if_neg hid]
    rcases hbound with hnone | hbound
    · exact Or.inl (hsame (Or.inr hnone))
    · by_cases hid : a.2 = discordId
      · right
        obtain ⟨link, _⟩ := a
        obtain rfl : _ = discordId := hid
        exact hbound link
      · exact Or.inl (hsame (Or.inl hid))
  | @update now link l raw tree hl _ hbound =>
    by_cases hlink : a.1 = link
    · right
      obtain ⟨_, discordId⟩ := a
      obtain rfl : _ = link := hlink
      exact hbound discordId
    · refine Or.inl ⟨rfl, rfl, rfl, rfl, rfl, congrArg _ (Table.get?_put_ne _ ?_)⟩
      have hkey : RoleLink.key l = link := Table.key_of_get? hl
      show a.1 ≠ RoleLink.key l
      rw [hkey]
      exact hlink

/-- A link that is there was there. -/
theorem effect_link {q' : RequestRun} {db : Database} (heffect : RequestRun.Effect C s.db q' db)
    {link : LinkKey} (h : (db.roleLinks.get? link).isSome = true) :
    (s.db.roleLinks.get? link).isSome = true := by
  cases heffect with
  | reads | enqueue | upsert | delete => exact h
  | @update now key l raw tree hl =>
    have hkey : RoleLink.key l = key := Table.key_of_get? hl
    by_cases hlink : link = RoleLink.key l
    · rw [hlink, hkey, hl]
      rfl
    · rw [← h]
      refine congrArg Option.isSome (Eq.symm ?_)
      exact Table.get?_put_ne _ hlink

/-- A request saves birthdays that are valid and rules that were parsed. -/
theorem effect_proper {q' : RequestRun} {db : Database} (heffect : RequestRun.Effect C s.db q' db)
    (h : s.world.Proper C) {w : World} (hdb : w.db = db) (hpostgres : w.postgres = s.world.postgres)
    (htoday : w.localToday = s.world.localToday) (hroom : w.HasRoom C) : w.Proper C := by
  refine ⟨fun row hrow => ?_, fun link l hl => ?_, ?_, by rw [hpostgres]; exact h.regex, hroom⟩
  · rw [hdb] at hrow
    cases heffect with
    | reads | enqueue | update => exact h.saved row hrow
    | @upsert new hnew =>
      have hget := Table.get?_eq_some.mpr ⟨hrow, rfl⟩
      rw [Table.get?_put] at hget
      split at hget
      · rw [← Option.some.inj hget]
        exact hnew
      · exact h.saved row (Table.get?_eq_some.mp hget).1
    | delete => exact h.saved row (List.mem_filter.mp hrow).1
  · rw [hdb] at hl
    cases heffect with
    | reads | enqueue | upsert | delete => exact h.stored link l hl
    | @update now key old raw tree hold hrule =>
      rw [Table.get?_put] at hl
      split at hl
      · rw [← Option.some.inj hl]
        exact ⟨tree, hrule⟩
      · exact h.stored link l hl
  · rw [hpostgres, htoday]
    exact h.dates

/-- After a statement of a request. -/
theorem Inv.lists_request (h : s.Inv C H) {i : ℕ} {q q' : RequestRun} {db : Database}
    (hi : s.requests[i]? = some q) (hn : q.next s.db = some (q', db))
    (hlink : (db.roleLinks.get? a.1).isSome = true) :
    (s.afterRequest i q' db).world.users a = (s.afterRequest i q' db).world.deserves C a ∨
      (s.afterRequest i q' db).OnItsWay C H (fun _ => True) a := by
  obtain ⟨-, heffect⟩ := (h.stages q (List.mem_of_getElem? hi)).next hn
  have hlink := effect_link heffect hlink
  have hlists := h.lists a hlink
  rcases effect_alike heffect i a with hsame | hbound
  · refine lists_alike hlists hsame rfl ?_ fun j hj => ⟨j, hj.alike hsame rfl⟩
    exact fun _ hc => Or.inl (coming_request hi hn hlink heffect hc)
  by_cases hmember : a.2 ∈ s.world.members a.1.1
  · exact Or.inr ⟨hmember, Or.inl (Or.inl ⟨q', mem_afterRequest hi db, hbound⟩)⟩
  · -- nothing is on its way to somebody who is not a member
    have hright := hlists.resolve_right fun hway => hmember hway.1
    have hmember' : a.2 ∉ (s.afterRequest i q' db).world.members a.1.1 := hmember
    left
    show s.world.users a = _
    rw [hright, deserves_of_not_member hmember, deserves_of_not_member hmember']

/-! ### Workers -/

/-- What a claimed job covers, it covered before. -/
theorem coming_claim (hkept : s.Kept) (now : Time) (worker : String) (locked : ℕ → Bool)
    (h : s.Coming a) :
    Coming { s.setDb { s.db with jobs := (s.db.jobs.claimBatch now worker batchSize locked).1 } with
      held := s.held ++ (s.db.jobs.claimBatch now worker batchSize locked).2.map fun job =>
        ⟨worker, job⟩ } a := by
  rcases h with h | ⟨id, row, hrow, hpending, hcovers⟩ | ⟨x, hx, hnone, hcovers⟩
  · exact Or.inl h
  · by_cases hid : id ∈ s.db.jobs.claimedIds now batchSize locked
    · have hkey : row.id = id := Table.key_of_get? hrow
      refine Or.inr (Or.inr ⟨⟨worker, (Jobs.claimRow now worker row).job⟩,
        List.mem_append_right _ (List.mem_map_of_mem (Jobs.claimed_job hrow hid worker)), ?_, hcovers⟩)
      -- it was pending, so nobody had dispatched it
      show s.thread row.id = none
      rw [hkey, Option.eq_none_iff_forall_ne_some]
      intro i hi
      obtain ⟨row', hrow', hstatus⟩ := hkept.dispatched id i hi
      rw [hrow] at hrow'
      cases hrow'
      exact hstatus hpending
    · refine Or.inr (Or.inl ⟨id, row, ?_, hpending, hcovers⟩)
      have hkey : row.id = id := Table.key_of_get? hrow
      show (s.db.jobs.claimBatch now worker batchSize locked).1.get? id = some row
      rw [Jobs.get?_claimBatch, hrow, Option.map_some, hkey, if_neg hid]
  · exact Or.inr (Or.inr ⟨x, List.mem_append_left _ hx, hnone, hcovers⟩)

/-- A job that is dispatched goes on in its thread. -/
theorem coming_dispatch (h : s.Inv C H) {x : HeldJob} {t : SyncTask} (hx : x ∈ s.held)
    (htask : x.job.task? = some t) (hlink : (s.db.roleLinks.get? a.1).isSome = true)
    (hmember : a.2 ∈ s.world.members a.1.1) {s' : Service}
    (hs' : s' = { s with
      pool := s.pool.add none (t.body C)
      thread := Function.update s.thread x.job.id (some s.pool.threads.length) })
    (hcoming : s.Coming a) : s'.Coming a ∨ ∃ j, s'.Running C H a j := by
  subst hs'
  rcases hcoming with hq | hawaits | ⟨y, hy, hnone, hcovers⟩
  · exact Or.inl (Or.inl hq)
  · exact Or.inl (Or.inr (Or.inl hawaits))
  by_cases hid : y.job.id = x.job.id
  · obtain ⟨row, hrow, -, hjob⟩ := h.kept.held x hx
    obtain ⟨row', hrow', -, hjob'⟩ := h.kept.held y hy
    rw [hid, hrow] at hrow'
    cases hrow'
    rw [← hjob', hjob] at hcovers
    obtain ⟨t', htask', hcovers⟩ := hcovers
    rw [htask] at htask'
    cases htask'
    obtain ⟨l, hl⟩ := Option.isSome_iff_exists.mp hlink
    exact Or.inr ⟨_, ⟨none, t.body C⟩, Pool.getElem?_add_length _ _ _,
      body_bound h.proper hl hmember hcovers⟩
  · refine Or.inl (Or.inr (Or.inr ⟨y, hy, ?_, hcovers⟩))
    rw [← hnone]
    exact Function.update_of_ne hid _ _

/-- A job that is completed had been dispatched. -/
theorem coming_complete (hkept : s.Kept) {x : HeldJob} {i : ℕ} (hx : x ∈ s.held)
    (hi : s.thread x.job.id = some i) (now : Time) (h : s.Coming a) :
    Coming { s.setDb { s.db with jobs := s.db.jobs.complete now x.job.id } with
      held := s.held.filter fun h' => h'.job.id ≠ x.job.id } a := by
  rcases h with h | ⟨id, row, hrow, hpending, hcovers⟩ | ⟨y, hy, hnone, hcovers⟩
  · exact Or.inl h
  · refine Or.inr (Or.inl ⟨id, row, ?_, hpending, hcovers⟩)
    have hne : id ≠ x.job.id := by
      rintro rfl
      obtain ⟨row', hrow', hstatus, -⟩ := hkept.held x hx
      rw [hrow] at hrow'
      cases hrow'
      rw [hpending] at hstatus
      cases hstatus
    exact (Jobs.get?_complete_ne _ now hne).trans hrow
  · have hne : y.job.id ≠ x.job.id := by
      intro he
      rw [he, hi] at hnone
      cases hnone
    exact Or.inr (Or.inr ⟨y, List.mem_filter.mpr ⟨hy, decide_eq_true hne⟩, hnone, hcovers⟩)

/-! ### Runs -/

/-- A call of one thread leaves the others bound. -/
theorem Running.call {i : ℕ} {parent : Option ℕ} {c : SyncCall} {v : c.Result}
    {k : Except AppError c.Result → Sync (List SyncTask)}
    (hi : s.pool.threads[i]? = some ⟨parent, .call c k⟩)
    (hsame : World.Alike a s.world (s.world.after c v)) {j : ℕ} (hj : j ≠ i)
    (h : s.Running C H a j) :
    Running C H { s with pool := s.pool.update (s.world.after c v) i parent (k (.ok v)) } a j := by
  refine h.alike hsame ?_
  show (s.pool.update (s.world.after c v) i parent (k (.ok v))).threads[j]? = s.pool.threads[j]?
  rw [Pool.getElem?_update hi, if_neg hj]

/-- A call that nothing else makes up for leaves the list right, or its thread bound. -/
theorem Inv.lists_call (h : s.Inv C H) {i : ℕ} {parent : Option ℕ} {c : SyncCall} {v : c.Result}
    {k : Except AppError c.Result → Sync (List SyncTask)} {w : World}
    (hi : s.pool.threads[i]? = some ⟨parent, .call c k⟩) (hans : World.faultless H c s.world (.ok v) w)
    (hin : s.OnItsWay C H (fun j => j ≠ i) a ∨ Current C s.world a ⟨c, .ok v⟩) {s' : Service}
    (hs' : s' = { s with pool := s.pool.update (s.world.after c v) i parent (k (.ok v)) })
    (hlink : (s'.db.roleLinks.get? a.1).isSome = true) :
    s'.world.users a = s'.world.deserves C a ∨ s'.OnItsWay C H (fun _ => True) a := by
  subst hs'
  obtain ⟨φ, ψ, hm, hstaged⟩ := h.kept.moves hi v
  have hinputs := hm.sameInputs s.world
  have hsame := hinputs.alike a
  have hlink : (s.db.roleLinks.get? a.1).isSome = true := by
    rw [show s.db.roleLinks = _ from hinputs.roleLinks.symm]
    exact hlink
  have hcoming : s.Coming a → Coming
      { s with pool := s.pool.update (s.world.after c v) i parent (k (.ok v)) } a := by
    rintro (hq | ⟨id, row, hrow, hrest⟩ | hheld)
    · exact Or.inl hq
    · refine Or.inr (Or.inl ⟨id, row, ?_, hrest⟩)
      show (s.world.after c v).db.jobs.get? id = some row
      rw [hinputs.jobs]
      exact hrow
    · exact Or.inr (Or.inr hheld)
  rcases hin with hothers | hcurrent
  · exact Or.inr (hothers.alike hsame (fun _ hc => Or.inl (hcoming hc))
      fun j hj hrun => ⟨j, hrun.call hi hsame hj⟩)
  have hdeserves : (s.world.after c v).deserves C a = s.world.deserves C a := hsame.deserves
  cases hwritten : c.written s.world a with
  | some b =>
    left
    show (s.world.after c v).users a = (s.world.after c v).deserves C a
    rw [users_after, hwritten, Option.getD_some, hdeserves]
    exact hcurrent.written b hwritten
  | none =>
    have husers : (s.world.after c v).users a = s.world.users a := by
      rw [users_after, hwritten, Option.getD_none]
    have hnot : ¬c.Writes a := fun hwrites => by
      obtain ⟨b, hb⟩ := hm.written hstaged hwrites
      rw [hwritten] at hb
      cases hb
    by_cases hright : s.world.users a = s.world.deserves C a
    · left
      show (s.world.after c v).users a = (s.world.after c v).deserves C a
      rw [husers, hdeserves, hright]
    refine Or.inr (((h.lists a hlink).resolve_left hright).alike hsame
      (fun _ hc => Or.inl (hcoming hc)) fun j _ hrun => ?_)
    by_cases hj : j = i
    · -- the call of a thread that is bound for the place: it found that the row is not right
      subst hj
      obtain ⟨th, hth, hbound⟩ := hrun
      rw [hi] at hth
      cases hth
      have hgoal : ¬Attends C s.world a ⟨c, .ok v⟩ := by
        rintro (hwrites | hreported)
        · exact hnot hwrites
        · exact hright (hcurrent.reported hreported)
      have hrest := (hbound (.ok v) ⟨s.world, w, .refl a s.world, h.proper, hans⟩).resolve_left hgoal
      refine ⟨j, ⟨parent, k (.ok v)⟩, ?_, BoundFor.alike hrest hsame⟩
      show (s.pool.update (s.world.after c v) j parent (k (.ok v))).threads[j]? = _
      rw [Pool.getElem?_update hi, if_pos rfl]
    · exact ⟨j, hrun.call hi hsame hj⟩

/-- A thread that ends with an action for a place hands it over. -/
theorem Running.start {i j : ℕ} {parent : Option ℕ} {t : SyncTask} {ts : List SyncTask}
    (hi : s.pool.threads[i]? = some ⟨parent, .done (.ok (t :: ts))⟩) (h : s.Running C H a j)
    {s' : Service} (hs' : s' = { s with
      pool := (s.pool.update s.pool.state i parent (.done (.ok ts))).add (some i) (t.body C) }) :
    ∃ j', s'.Running C H a j' := by
  subst hs'
  obtain ⟨th, hj, hbound⟩ := h
  -- the pool before the new thread
  have hupdate := Pool.getElem?_update hi s.pool.state parent (.done (.ok ts))
  by_cases hji : j = i
  · subst hji
    rw [hi] at hj
    cases hj
    obtain ⟨_, hts, u, hu, hacts⟩ := hbound
    cases hts
    rcases List.mem_cons.mp hu with rfl | hu
    · exact ⟨_, ⟨some j, u.body C⟩, Pool.getElem?_add_length _ _ _, act_bound hacts⟩
    · refine ⟨j, ⟨parent, .done (.ok ts)⟩, Pool.getElem?_add_of_some ?_ _ _, ⟨ts, rfl, u, hu, hacts⟩⟩
      rw [hupdate, if_pos rfl]
  · refine ⟨j, th, Pool.getElem?_add_of_some ?_ _ _, hbound⟩
    rw [hupdate, if_neg hji, hj]

end

end Service

end BirthdayRole
