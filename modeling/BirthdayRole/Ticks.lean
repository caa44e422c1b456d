/-
# The tick worker (`tasks/tick.rs`, `enqueue_config_sync_unique`)

A tick enqueues a `config_sync` for every link, but not where one is pending. Any number
of tick workers do so next to the saves, the workers, the reaper and the garbage
collector (`TickingQueue.step`).

A tick must not pile up jobs where the workers are slow. It does not (`tickedOpen_le`):
whatever the order of the steps, of the jobs that ticks have enqueued for a link no more
are open, pending or in progress, than the workers have in progress for the link when a
tick comes to it, and one. This needs that the reaper takes no job that a worker still has:
the late report of a job that was reaped may open one that another worker has finished.
-/
import BirthdayRole.JobQueue
import BirthdayRole.Service

namespace BirthdayRole

open Json

/-! ### A tick -/

/-- What the dedupe compares: a `config_sync` of the link. -/
def JobRow.syncsLink (link : LinkKey) (r : JobRow) : Bool :=
  r.kind = "config_sync" && (r.payload.index "guild_id").asStr = some link.1 &&
    (r.payload.index "role_id").asStr = some link.2

namespace Jobs

/-- `enqueue_resync_all_role_links` after its `SELECT`; a statement that fails is only
logged. -/
def enqueueResyncAllRoleLinks (jobs : Jobs) (now : LinkKey → Time) (failed : LinkKey → Bool)
    (links : List LinkKey) : Jobs :=
  links.foldl (fun jobs link =>
    if failed link then jobs else jobs.enqueueConfigSyncUnique (now link) link.1 link.2) jobs

/-- The statements of one tick: the garbage goes first. -/
def tick (jobs : Jobs) (gcNow : Time) (gcFailed : Bool) (now : LinkKey → Time)
    (failed : LinkKey → Bool) (links : List LinkKey) : Jobs :=
  (if gcFailed then jobs else jobs.gcOld gcNow).enqueueResyncAllRoleLinks now failed links

end Jobs

/-- A value that is read as a string was found as one. -/
theorem get_of_index_asStr {v : Value} {key s : String} (h : (v.index key).asStr = some s) :
    v.get key = some (.string s) := by
  cases v with
  | object o =>
    have h : ((o.lookup key).getD .null).asStr = some s := h
    show o.lookup key = some (.string s)
    cases hl : o.lookup key with
    | none =>
      rw [hl] at h
      cases h
    | some x =>
      rw [hl] at h
      cases x with
      | string s' =>
        cases h
        rfl
      | null | bool | number | array | object => cases h
  | null | bool | number | string | array => cases h

/-- What the dedupe finds is a job that a worker runs for the link. -/
theorem JobRow.syncsLink_task {link : LinkKey} {r : JobRow} (h : r.syncsLink link = true) :
    r.job.task? = some (.roleLink link) := by
  unfold syncsLink at h
  simp only [Bool.and_eq_true, decide_eq_true_eq] at h
  obtain ⟨⟨hkind, hguild⟩, hrole⟩ := h
  have hg := get_of_index_asStr hguild
  have hr := get_of_index_asStr hrole
  unfold Job.task?
  rw [show r.job.kind = JobKind.configSync.asStr from hkind, JobKind.fromDb_asStr]
  simp only [show r.job.payload = r.payload from rfl, hg, hr]
  rfl

/-- The row that an enqueue of a `config_sync` adds is one of its link and of no other. -/
theorem syncsLink_configSyncPayload (guildId roleId : String) (link : LinkKey) {r : JobRow}
    (hkind : r.kind = JobKind.configSync.asStr)
    (hpayload : r.payload = Jobs.configSyncPayload guildId roleId) :
    r.syncsLink link = decide (link = (guildId, roleId)) := by
  obtain ⟨g, s⟩ := link
  have hguild : (r.payload.index "guild_id").asStr = some guildId := by rw [hpayload]; rfl
  have hrole : (r.payload.index "role_id").asStr = some roleId := by rw [hpayload]; rfl
  unfold JobRow.syncsLink
  rw [hkind, hguild, hrole]
  simp only [show JobKind.configSync.asStr = "config_sync" from rfl, decide_true, Bool.true_and,
    Option.some.injEq, Prod.mk.injEq]
  rw [Bool.eq_iff_iff]
  simp only [Bool.and_eq_true, decide_eq_true_eq]
  exact ⟨fun h => ⟨h.1.symm, h.2.symm⟩, fun h => ⟨h.1.symm, h.2.symm⟩⟩

/-- A row that still counts: pending or in progress. -/
def JobStatus.isOpen : JobStatus → Bool
  | .pending | .inProgress => true
  | _ => false

namespace Jobs

/-- What the deduplicated statement does: nothing where a job of the link is pending, and
else it enqueues one. -/
theorem enqueueConfigSyncUnique_cases (jobs : Jobs) (now : Time) (link : LinkKey) :
    ((∃ row ∈ jobs.table.rows, row.status = .pending ∧ row.syncsLink link = true) ∧
        jobs.enqueueConfigSyncUnique now link.1 link.2 = jobs) ∨
      ((∀ row ∈ jobs.table.rows, row.syncsLink link = true → row.status ≠ .pending) ∧
        jobs.enqueueConfigSyncUnique now link.1 link.2 =
          jobs.enqueue now .configSync (configSyncPayload link.1 link.2) 0) := by
  have hsame : (fun r : JobRow => decide (r.status = .pending) && decide (r.kind = "config_sync") &&
      decide ((r.payload.index "guild_id").asStr = some link.1) &&
      decide ((r.payload.index "role_id").asStr = some link.2)) =
        fun r => decide (r.status = .pending) && r.syncsLink link := by
    funext r
    simp only [JobRow.syncsLink, Bool.and_assoc]
  unfold enqueueConfigSyncUnique
  rw [hsame]
  by_cases h : (jobs.table.rows.any fun r => decide (r.status = .pending) && r.syncsLink link) = true
  · rw [if_pos h]
    obtain ⟨row, hrow, hand⟩ := List.any_eq_true.mp h
    simp only [Bool.and_eq_true, decide_eq_true_eq] at hand
    exact Or.inl ⟨⟨row, hrow, hand⟩, rfl⟩
  · rw [if_neg h]
    refine Or.inr ⟨fun row hrow hsyncs hpending => h (List.any_eq_true.mpr ⟨row, hrow, ?_⟩), rfl⟩
    simp [hpending, hsyncs]

theorem get?_enqueue_nextId (jobs : Jobs) (now : Time) (kind : JobKind) (payload : Value)
    (delaySecs : ℕ) : ∃ row, (jobs.enqueue now kind payload delaySecs).get? jobs.nextId = some row ∧
      row.status = .pending ∧ row.kind = kind.asStr ∧ row.payload = payload :=
  ⟨_, Table.get?_put_self _ _, rfl, rfl, rfl⟩

/-- Afterwards a job of the link is pending. -/
theorem enqueueConfigSyncUnique_pending (jobs : Jobs) (now : Time) (link : LinkKey) :
    ∃ id row, (jobs.enqueueConfigSyncUnique now link.1 link.2).get? id = some row ∧
      row.status = .pending ∧ row.syncsLink link = true := by
  rcases jobs.enqueueConfigSyncUnique_cases now link with ⟨⟨row, hrow, hpending, hsyncs⟩, he⟩ | ⟨-, he⟩
  · rw [he]
    exact ⟨row.id, row, Table.get?_eq_some.mpr ⟨hrow, rfl⟩, hpending, hsyncs⟩
  · rw [he]
    obtain ⟨row, hrow, hpending, hkind, hpayload⟩ :=
      jobs.get?_enqueue_nextId now .configSync (configSyncPayload link.1 link.2) 0
    refine ⟨_, row, hrow, hpending, ?_⟩
    rw [syncsLink_configSyncPayload link.1 link.2 link hkind hpayload]
    exact decide_eq_true rfl

/-- The jobs that are there stay as they are. -/
theorem get?_enqueueConfigSyncUnique {jobs : Jobs} (now : Time) (link : LinkKey) {id : ℕ} {row : JobRow}
    (h : jobs.get? id = some row) :
    (jobs.enqueueConfigSyncUnique now link.1 link.2).get? id = some row := by
  rcases jobs.enqueueConfigSyncUnique_cases now link with ⟨-, he⟩ | ⟨-, he⟩
  · rw [he, h]
  · rw [he, get?_enqueue _ _ _ _ _ (get?_lt h).ne, h]

theorem nextId_le_unique (jobs : Jobs) (now : Time) (link : LinkKey) :
    jobs.nextId ≤ (jobs.enqueueConfigSyncUnique now link.1 link.2).nextId := by
  rcases jobs.enqueueConfigSyncUnique_cases now link with ⟨-, he⟩ | ⟨-, he⟩
  · rw [he]
  · rw [he]
    exact Nat.le_succ _

/-! ### A whole tick -/

theorem id_lt {jobs : Jobs} {r : JobRow} (hr : r ∈ jobs.table.rows) : r.id < jobs.nextId :=
  get?_lt (Table.get?_eq_some.mpr ⟨hr, rfl⟩)

/-- A `config_sync` of the link is pending. -/
def Awaited (jobs : Jobs) (link : LinkKey) : Prop :=
  ∃ row ∈ jobs.table.rows, row.status = .pending ∧ row.syncsLink link = true

theorem rows_enqueue (jobs : Jobs) (now : Time) (kind : JobKind) (payload : Value) (delaySecs : ℕ) :
    ∃ row : JobRow, row.id = jobs.nextId ∧ row.kind = kind.asStr ∧ row.payload = payload ∧
      row.status = .pending ∧
      (jobs.enqueue now kind payload delaySecs).table.rows = jobs.table.rows ++ [row] := by
  refine ⟨⟨jobs.nextId, kind.asStr, payload, .pending, 0, 8, now + seconds delaySecs, none, none,
    none, none⟩, rfl, rfl, rfl, rfl, ?_⟩
  show (jobs.table.put _).rows = _
  unfold Table.put
  rw [dif_neg]
  rintro ⟨r, hr, hid⟩
  exact absurd hid (id_lt hr).ne

/-- What a tick has added for some links: a pending job for each, where none was. -/
structure Added (jobs : Jobs) (links : List LinkKey) (new : List JobRow) : Prop where
  pending : ∀ row ∈ new, row.status = .pending
  needed : ∀ row ∈ new, ∃ link ∈ links, row.syncsLink link = true ∧ ¬jobs.Awaited link
  once : ∀ link, new.countP (fun row => row.syncsLink link) ≤ 1

theorem Awaited.of_rows {jobs jobs' : Jobs} {new : List JobRow} {link : LinkKey}
    (h : jobs.Awaited link) (hrows : jobs'.table.rows = jobs.table.rows ++ new) :
    jobs'.Awaited link := by
  obtain ⟨row, hrow, hpending⟩ := h
  exact ⟨row, by rw [hrows]; exact List.mem_append_left _ hrow, hpending⟩

/-- The statements of a tick one after the other. -/
theorem enqueueResyncAllRoleLinks_spec (now : LinkKey → Time) (failed : LinkKey → Bool) :
    ∀ (links : List LinkKey) (jobs : Jobs), ∃ new,
      (jobs.enqueueResyncAllRoleLinks now failed links).table.rows = jobs.table.rows ++ new ∧
        jobs.Added links new ∧ ∀ link ∈ links, failed link = false →
          (jobs.enqueueResyncAllRoleLinks now failed links).Awaited link
  | [], jobs => by
    refine ⟨[], (List.append_nil _).symm, ⟨?_, ?_, fun _ => Nat.zero_le 1⟩, ?_⟩
    all_goals exact fun _ h => absurd h List.not_mem_nil
  | link :: links, jobs => by
    let first := if failed link then jobs else jobs.enqueueConfigSyncUnique (now link) link.1 link.2
    have hrest : jobs.enqueueResyncAllRoleLinks now failed (link :: links) =
      first.enqueueResyncAllRoleLinks now failed links := rfl
    obtain ⟨new, hrows, hadded, hawaited⟩ :=
      enqueueResyncAllRoleLinks_spec now failed links first
    -- what the first statement adds
    have hfirst : (first = jobs ∧ (failed link = false → jobs.Awaited link)) ∨
        ∃ row, first.table.rows = jobs.table.rows ++ [row] ∧ row.status = .pending ∧
          (∀ other, row.syncsLink other = decide (other = link)) ∧ ¬jobs.Awaited link := by
      by_cases hfailed : failed link = true
      · exact Or.inl ⟨if_pos hfailed, fun h => absurd (h.symm.trans hfailed) Bool.false_ne_true⟩
      have hf : first = jobs.enqueueConfigSyncUnique (now link) link.1 link.2 := if_neg hfailed
      rcases jobs.enqueueConfigSyncUnique_cases (now link) link with ⟨hfound, he⟩ | ⟨hnone, he⟩
      · exact Or.inl ⟨hf.trans he, fun _ => hfound⟩
      · obtain ⟨row, -, hkind, hpayload, hpending, hnew⟩ := jobs.rows_enqueue (now link) .configSync
          (configSyncPayload link.1 link.2) 0
        refine Or.inr ⟨row, by rw [hf, he, hnew], hpending, fun other => ?_, ?_⟩
        · exact syncsLink_configSyncPayload link.1 link.2 other hkind hpayload
        · rintro ⟨r, hr, hpending, hsyncs⟩
          exact hnone r hr hsyncs hpending
    rw [hrest]
    clear_value first
    rcases hfirst with ⟨rfl, hthere⟩ | ⟨row, hf, hpending, hsyncs, hnone⟩
    · refine ⟨new, hrows, ⟨hadded.pending, fun r hr => ?_, hadded.once⟩, fun other hother hok => ?_⟩
      · obtain ⟨other, hother, h⟩ := hadded.needed r hr
        exact ⟨other, List.mem_cons_of_mem _ hother, h⟩
      · rcases List.mem_cons.mp hother with rfl | hother
        · exact (hthere hok).of_rows hrows
        · exact hawaited other hother hok
    · have hthere : first.Awaited link := by
        refine ⟨row, ?_, hpending, by rw [hsyncs]; exact decide_eq_true rfl⟩
        rw [hf]
        exact List.mem_append_right _ (List.mem_singleton_self row)
      -- nothing more is added for the first link
      have hnotnew : ∀ r ∈ new, r.syncsLink link = false := by
        intro r hr
        rw [Bool.eq_false_iff]
        intro hr'
        obtain ⟨other, -, hother, hnot⟩ := hadded.needed r hr
        have h1 := JobRow.syncsLink_task hr'
        rw [JobRow.syncsLink_task hother] at h1
        cases h1
        exact hnot hthere
      refine ⟨row :: new, ?_, ⟨fun r hr => ?_, fun r hr => ?_, fun other => ?_⟩,
        fun other hother hok => ?_⟩
      · rw [hrows, hf, List.append_assoc, List.singleton_append]
      · rcases List.mem_cons.mp hr with rfl | hr
        · exact hpending
        · exact hadded.pending r hr
      · rcases List.mem_cons.mp hr with rfl | hr
        · exact ⟨link, List.mem_cons_self, by rw [hsyncs]; exact decide_eq_true rfl, hnone⟩
        · obtain ⟨other, hother, hs, hnot⟩ := hadded.needed r hr
          exact ⟨other, List.mem_cons_of_mem _ hother, hs, fun h => hnot (h.of_rows hf)⟩
      · have hle := hadded.once other
        rw [List.countP_cons, hsyncs]
        by_cases hother : other = link
        · have hzero : new.countP (fun r => r.syncsLink other) = 0 := by
            rw [hother]
            exact List.countP_eq_zero.mpr fun r hr => by rw [hnotnew r hr]; exact Bool.false_ne_true
          rw [hzero]
          split <;> omega
        · rw [decide_eq_false hother, if_neg Bool.false_ne_true]
          exact hle
      · rcases List.mem_cons.mp hother with rfl | hother
        · exact hthere.of_rows hrows
        · exact hawaited other hother hok

/-- Where every link is awaited, a tick adds nothing. -/
theorem enqueueResyncAllRoleLinks_awaited (now : LinkKey → Time) (failed : LinkKey → Bool)
    {jobs : Jobs} : ∀ {links : List LinkKey}, (∀ link ∈ links, failed link = false →
      jobs.Awaited link) → jobs.enqueueResyncAllRoleLinks now failed links = jobs
  | [], _ => rfl
  | link :: links, h => by
    have hfirst : (if failed link then jobs
        else jobs.enqueueConfigSyncUnique (now link) link.1 link.2) = jobs := by
      by_cases hfailed : failed link = true
      · rw [if_pos hfailed]
      rw [if_neg hfailed]
      rcases jobs.enqueueConfigSyncUnique_cases (now link) link with ⟨-, he⟩ | ⟨hnone, -⟩
      · exact he
      · obtain ⟨row, hrow, hpending, hsyncs⟩ := h link List.mem_cons_self (by simpa using hfailed)
        exact absurd hpending (hnone row hrow hsyncs)
    show (if failed link then jobs else _ : Jobs).enqueueResyncAllRoleLinks now failed links = jobs
    rw [hfirst]
    exact enqueueResyncAllRoleLinks_awaited now failed fun l hl => h l (List.mem_cons_of_mem _ hl)

/-- The garbage collector takes no job that is awaited. -/
theorem awaited_gcOld (jobs : Jobs) (now : Time) (link : LinkKey) :
    (jobs.gcOld now).Awaited link ↔ jobs.Awaited link := by
  constructor
  · rintro ⟨row, hrow, h⟩
    exact ⟨row, (List.mem_filter.mp hrow).1, h⟩
  · rintro ⟨row, hrow, hpending, hsyncs⟩
    refine ⟨row, List.mem_filter.mpr ⟨hrow, ?_⟩, hpending, hsyncs⟩
    simp [isOld, hpending]

/-- After a tick a job is pending for each of its links whose statement did not fail. The
jobs that were there are there as they were, but for those that ended long ago; one job is
added for a link at most, and none where one was pending. A tick right after it, of links that
it came to and whose statements did not fail, does no more than take out what is old. -/
theorem tick_spec (jobs : Jobs) (gcNow : Time) (gcFailed : Bool) (now : LinkKey → Time)
    (failed : LinkKey → Bool) (links : List LinkKey) :
    let after := jobs.tick gcNow gcFailed now failed links
    (∀ link ∈ links, failed link = false → after.Awaited link) ∧
      (∃ new, after.table.rows = (jobs.table.rows.filter fun r => gcFailed || !isOld gcNow r) ++ new ∧
        jobs.Added links new) ∧
      ∀ gcNow' gcFailed' now' failed' links',
        (∀ link ∈ links', failed' link = false → link ∈ links ∧ failed link = false) →
          after.tick gcNow' gcFailed' now' failed' links' =
            if gcFailed' then after else after.gcOld gcNow' := by
  intro after
  let swept := if gcFailed then jobs else jobs.gcOld gcNow
  have hrowsSwept : swept.table.rows = jobs.table.rows.filter fun r => gcFailed || !isOld gcNow r := by
    cases gcFailed
    · rfl
    · exact (List.filter_eq_self.mpr fun _ _ => rfl).symm
  have hsame : ∀ link, swept.Awaited link ↔ jobs.Awaited link := by
    intro link
    cases gcFailed
    · exact jobs.awaited_gcOld gcNow link
    · exact Iff.rfl
  obtain ⟨new, hrows, hadded, hawaited⟩ := enqueueResyncAllRoleLinks_spec now failed links swept
  refine ⟨hawaited, ⟨new, hrowsSwept ▸ hrows, hadded.pending, fun row hrow => ?_, hadded.once⟩, ?_⟩
  · obtain ⟨link, hlink, hsyncs, hnot⟩ := hadded.needed row hrow
    exact ⟨link, hlink, hsyncs, fun h => hnot ((hsame link).mpr h)⟩
  · intro gcNow' gcFailed' now' failed' links' hsub
    refine enqueueResyncAllRoleLinks_awaited now' failed' fun link hlink hok => ?_
    obtain ⟨hmem, hok⟩ := hsub link hlink hok
    cases gcFailed' with
    | true => exact hawaited link hmem hok
    | false => exact (after.awaited_gcOld gcNow' link).mpr (hawaited link hmem hok)

/-! ### Open jobs -/

/-- The jobs of a link that a worker has claimed. -/
def inProgress (jobs : Jobs) (link : LinkKey) : ℕ :=
  jobs.table.rows.countP fun r => r.syncsLink link && r.status = .inProgress

/-- The open jobs of a link among some ids. -/
def openAmong (jobs : Jobs) (ids : ℕ → Bool) (link : LinkKey) : ℕ :=
  jobs.table.rows.countP fun r => ids r.id && (r.syncsLink link && r.status.isOpen)

/-- An id that was not given out yet does not matter. -/
theorem openAmong_congr {jobs : Jobs} {ids ids' : ℕ → Bool} (link : LinkKey)
    (h : ∀ id < jobs.nextId, ids id = ids' id) : jobs.openAmong ids link = jobs.openAmong ids' link :=
  List.countP_congr fun r hr => by rw [h r.id (id_lt hr)]

/-- A job of another link does not count. -/
theorem openAmong_enqueue_other (jobs : Jobs) (now : Time) (delaySecs : ℕ) (ids : ℕ → Bool)
    {link other : LinkKey} (h : link ≠ other) :
    (jobs.enqueue now .configSync (configSyncPayload other.1 other.2) delaySecs).openAmong ids link =
      jobs.openAmong ids link := by
  obtain ⟨row, -, hkind, hpayload, -, hrows⟩ :=
    jobs.rows_enqueue now .configSync (configSyncPayload other.1 other.2) delaySecs
  have hsyncs := syncsLink_configSyncPayload other.1 other.2 link hkind hpayload
  rw [decide_eq_false h] at hsyncs
  unfold openAmong
  rw [hrows, List.countP_append, List.countP_singleton, hsyncs, Bool.false_and, Bool.and_false,
    if_neg Bool.false_ne_true, Nat.add_zero]

/-- The row that an enqueue adds counts once at most. -/
theorem openAmong_enqueue_le (jobs : Jobs) (now : Time) (kind : JobKind) (payload : Value)
    (delaySecs : ℕ) (ids : ℕ → Bool) (link : LinkKey) :
    (jobs.enqueue now kind payload delaySecs).openAmong ids link ≤
      jobs.openAmong ids link + if ids jobs.nextId then 1 else 0 := by
  obtain ⟨row, hid, -, -, -, hrows⟩ := jobs.rows_enqueue now kind payload delaySecs
  unfold openAmong
  rw [hrows, List.countP_append, List.countP_singleton, hid]
  cases ids jobs.nextId with
  | false => simp
  | true =>
    simp only [Bool.true_and, if_true]
    split <;> omega

/-- A statement that opens no job: a row stays a row of its link, and what has ended stays
so. -/
theorem openAmong_update_le {jobs : Jobs} {f : JobRow → JobRow} {hf : ∀ r, (f r).id = r.id}
    {ids : ℕ → Bool} {link : LinkKey} (hlink : ∀ r, (f r).syncsLink link = r.syncsLink link)
    (hopen : ∀ r ∈ jobs.table.rows, (f r).status.isOpen = true → r.status.isOpen = true) :
    (jobs.update f hf).openAmong ids link ≤ jobs.openAmong ids link := by
  show (jobs.table.rows.map f).countP _ ≤ _
  rw [List.countP_map]
  refine List.countP_mono_left fun r hr h => ?_
  simp only [Function.comp_apply, hf, hlink, Bool.and_eq_true] at h ⊢
  exact ⟨h.1, h.2.1, hopen r hr h.2.2⟩

/-- Where no job of a link is pending, the open ones are in progress. -/
theorem openAmong_le_inProgress {jobs : Jobs} {link : LinkKey} (ids : ℕ → Bool)
    (h : ∀ row ∈ jobs.table.rows, row.syncsLink link = true → row.status ≠ .pending) :
    jobs.openAmong ids link ≤ jobs.inProgress link := by
  refine List.countP_mono_left fun r hr hcounted => ?_
  simp only [Bool.and_eq_true, decide_eq_true_eq] at hcounted ⊢
  obtain ⟨-, hsyncs, hopen⟩ := hcounted
  refine ⟨hsyncs, ?_⟩
  cases hs : r.status with
  | inProgress => rfl
  | pending => exact absurd hs (h r hr hsyncs)
  | completed | dead =>
    rw [hs] at hopen
    exact absurd hopen (by decide)

end Jobs

/-! ### Ticks next to everything else -/

/-- A queue, and which jobs the ticks have enqueued; the program does not keep that. -/
structure TickingQueue where
  queue : Queue
  ticked : ℕ → Bool

inductive TickAction where
  | queue (a : QueueAction)
  /-- the statement of a tick for a link -/
  | tick (now : Time) (link : LinkKey)

namespace TickingQueue

def step (t : TickingQueue) : TickAction → Option TickingQueue
  | .queue a => (t.queue.step a).map fun q => { t with queue := q }
  | .tick now link =>
    let jobs := t.queue.jobs.enqueueConfigSyncUnique now link.1 link.2
    some
      { queue := { t.queue with jobs := jobs }
        ticked := fun id => t.ticked id || decide (t.queue.jobs.nextId ≤ id ∧ id < jobs.nextId) }

def start (jobs : Jobs) : TickingQueue := ⟨.start jobs, fun _ => false⟩

/-- The reaper takes no job that is still held, and when a tick comes to the link, no more
than `width` of its jobs are in progress. -/
def Narrow (link : LinkKey) (width : ℕ) (t : TickingQueue) : TickAction → Prop
  | .queue a => t.queue.NoHeldReaped a
  | .tick _ other => other = link → t.queue.jobs.inProgress link ≤ width

/-- The open jobs of a link that ticks have enqueued. -/
def tickedOpen (t : TickingQueue) (link : LinkKey) : ℕ := t.queue.jobs.openAmong t.ticked link

/-- The bound, with what it rests on. -/
structure Bounded (link : LinkKey) (width : ℕ) (t : TickingQueue) : Prop where
  queue : t.queue.Inv
  given : ∀ id, t.ticked id = true → id < t.queue.jobs.nextId
  open_le : t.tickedOpen link ≤ width + 1

variable {link : LinkKey} {width : ℕ}

/-- No step of the queue opens a job that a tick has enqueued. -/
theorem openAmong_step {q q' : Queue} {a : QueueAction} {ids : ℕ → Bool} (hq : q.Inv)
    (hids : ∀ id, ids id = true → id < q.jobs.nextId) (hs : q.step a = some q') :
    q'.jobs.openAmong ids link ≤ q.jobs.openAmong ids link := by
  cases a with
  | enqueue now kind payload delaySecs =>
    cases hs
    have hle := q.jobs.openAmong_enqueue_le now kind payload delaySecs ids link
    have hnew : ids q.jobs.nextId = false := by
      rw [Bool.eq_false_iff]
      exact fun h => absurd (hids _ h) (Nat.lt_irrefl _)
    rwa [hnew, if_neg Bool.false_ne_true, Nat.add_zero] at hle
  | claimBatch now workerId batchSize locked =>
    cases hs
    refine Jobs.openAmong_update_le (fun r => ?_) fun r hr hopen => ?_
    · split <;> rfl
    · split at hopen
      · rename_i hid
        obtain ⟨r', hr', hpending⟩ := Jobs.pending_of_mem_claimedIds hid
        have hget : q.jobs.get? r.id = some r := Table.get?_eq_some.mpr ⟨hr, rfl⟩
        rw [hget] at hr'
        cases hr'
        rw [hpending]
        rfl
      · exact hopen
  | report now claim id r =>
    obtain ⟨h, hh, rfl⟩ := Option.map_eq_some_iff.mp hs
    obtain ⟨hmem, rfl, rfl⟩ := Queue.hold?_spec hh
    obtain ⟨-, row, hrow, hstatus⟩ := hq h hmem
    -- the reported row is in progress, so the report opens nothing
    have hreported : ∀ r' ∈ q.jobs.table.rows, r'.id = h.job.id → r'.status.isOpen = true := by
      intro r' hr' hid
      have hget : q.jobs.get? h.job.id = some r' := Table.get?_eq_some.mpr ⟨hr', hid⟩
      rw [hrow] at hget
      cases hget
      rw [hstatus]
      rfl
    cases r with
    | complete | failDead | failRetry =>
      refine Jobs.openAmong_update_le (fun r => ?_) fun r hr hopen => ?_
      · split <;> rfl
      · by_cases hid : r.id = h.job.id
        · exact hreported r hr hid
        · rwa [if_neg hid] at hopen
  | abandon claim id =>
    obtain ⟨h, -, rfl⟩ := Option.map_eq_some_iff.mp hs
    exact Nat.le_refl _
  | reapStuck now maxLockSecs =>
    cases hs
    refine Jobs.openAmong_update_le (fun r => ?_) fun r hr hopen => ?_
    · split <;> rfl
    · split at hopen
      · rename_i hstuck
        unfold Jobs.isStuck at hstuck
        simp only [Bool.and_eq_true, decide_eq_true_eq] at hstuck
        rw [hstuck.1]
        rfl
      · exact hopen
  | gcOld now =>
    cases hs
    exact List.Sublist.countP_le List.filter_sublist

/-- Ids are given out in order. -/
theorem nextId_step {q q' : Queue} {a : QueueAction} (hs : q.step a = some q') :
    q.jobs.nextId ≤ q'.jobs.nextId := by
  cases a with
  | enqueue | claimBatch | reapStuck | gcOld =>
    cases hs
    first | exact Nat.le_refl _ | exact Nat.le_succ _
  | report now claim id r =>
    obtain ⟨h, -, rfl⟩ := Option.map_eq_some_iff.mp hs
    cases r <;> exact Nat.le_refl _
  | abandon claim id =>
    obtain ⟨h, -, rfl⟩ := Option.map_eq_some_iff.mp hs
    exact Nat.le_refl _

/-- One step. -/
theorem bounded_step {t t' : TickingQueue} {a : TickAction} (ht : t.Bounded link width)
    (ha : t.Narrow link width a) (hs : t.step a = some t') : t'.Bounded link width := by
  obtain ⟨hq, hgiven, hopen⟩ := ht
  cases a with
  | queue b =>
    obtain ⟨q', hq', rfl⟩ := Option.map_eq_some_iff.mp hs
    refine ⟨Queue.inv_step hq ha hq', fun id hid => ?_, ?_⟩
    · exact (hgiven id hid).trans_le (nextId_step hq')
    · exact (openAmong_step hq hgiven hq').trans hopen
  | tick now other =>
    cases hs
    refine ⟨fun x hx => ?_, fun id hid => ?_, ?_⟩
    · obtain ⟨ho, row, hrow, hst⟩ := hq x hx
      exact ⟨ho, row, Jobs.get?_enqueueConfigSyncUnique now other hrow, hst⟩
    · simp only [Bool.or_eq_true, decide_eq_true_eq] at hid
      rcases hid with hid | hid
      · exact (hgiven id hid).trans_le (Jobs.nextId_le_unique _ _ _)
      · exact hid.2
    let jobs := t.queue.jobs
    let marked : ℕ → Bool := fun id => t.ticked id || decide (jobs.nextId ≤ id ∧
      id < (jobs.enqueueConfigSyncUnique now other.1 other.2).nextId)
    have hmarked : jobs.openAmong marked link = t.tickedOpen link := by
      refine Jobs.openAmong_congr link fun id hid => ?_
      have hnew : ¬(jobs.nextId ≤ id ∧
          id < (jobs.enqueueConfigSyncUnique now other.1 other.2).nextId) := by omega
      simp only [marked, decide_eq_false hnew, Bool.or_false]
    show (jobs.enqueueConfigSyncUnique now other.1 other.2).openAmong marked link ≤ width + 1
    rcases jobs.enqueueConfigSyncUnique_cases now other with ⟨-, he⟩ | ⟨hnone, he⟩
    · rw [he, hmarked]
      exact hopen
    by_cases hlink : other = link
    · -- no job of the link is pending, so what is open is in progress
      subst hlink
      have hin := (Jobs.openAmong_le_inProgress marked hnone).trans (ha rfl)
      have hadd := jobs.openAmong_enqueue_le now .configSync
        (Jobs.configSyncPayload other.1 other.2) 0 marked other
      rw [he]
      refine hadd.trans ?_
      split <;> omega
    · rw [he, jobs.openAmong_enqueue_other now 0 marked (Ne.symm hlink), hmarked]
      exact hopen

/-- However the ticks, the saves, the workers, the reaper and the garbage collector take
turns, as long as no job is reaped that a worker still has, of the jobs that ticks have
enqueued for a link no more are open than are in progress for it when a tick comes, and one. -/
theorem tickedOpen_le {jobs : Jobs} {t : TickingQueue}
    (h : Lts.Reached step (Narrow link width) (start jobs) t) : t.tickedOpen link ≤ width + 1 := by
  have hstart : (start jobs).Bounded link width := by
    refine ⟨Queue.inv_start jobs, fun id hid => absurd hid Bool.false_ne_true, ?_⟩
    have hzero : (start jobs).tickedOpen link = 0 :=
      List.countP_eq_zero.mpr fun r _ => Bool.false_ne_true
    omega
  exact (h.invariant hstart fun _ _ _ ht ha hs => bounded_step ht ha hs).open_le

/-- A worker runs the job of one tick when the next tick comes: two are open, and no more. -/
theorem tickedOpen_le_overtaken : ∃ t, Lts.Reached step (Narrow ("g", "r") 1) (start .empty) t ∧
    t.tickedOpen ("g", "r") = 2 ∧ t.tickedOpen ("g", "r") ≤ 1 + 1 := by
  have h0 : Lts.Reached step (Narrow ("g", "r") 1) (start .empty) (start .empty) := .refl
  have h1 := h0.step (show Narrow _ _ _ (.tick 0 ("g", "r")) from fun _ => Nat.zero_le 1) rfl
  have h2 := h1.step (show Narrow _ _ _ (.queue (.claimBatch 1 "w" 8 fun _ => false)) from trivial) rfl
  have h3 := h2.step (show Narrow _ _ _ (.tick 2 ("g", "r")) from fun _ => by decide) rfl
  exact ⟨_, h3, by decide, tickedOpen_le h3⟩

end TickingQueue

end BirthdayRole
