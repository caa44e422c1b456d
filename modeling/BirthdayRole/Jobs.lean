/-
# The job queue (`services/jobs.rs`, migration 003)

The `jobs` table and its statements, each one atomic. `now` is the statement's
`now()` in microseconds. `claimBatch` skips the rows another statement has locked
(`FOR UPDATE SKIP LOCKED`). The outcome statements `complete`, `failRetry` and
`failDead` find their row by its id and by nothing else.

What each statement does to the row of an id is `get?_enqueue` and so on.
-/
import Mathlib.Data.List.Sort
import BirthdayRole.Db
import BirthdayRole.Lib.Table

namespace BirthdayRole

open Json

inductive JobKind where
  | playerSync | configSync
  deriving DecidableEq

namespace JobKind

def asStr : JobKind → String
  | playerSync => "player_sync"
  | configSync => "config_sync"

def fromDb : String → Option JobKind
  | "player_sync" => some playerSync
  | "config_sync" => some configSync
  | _ => none

theorem fromDb_asStr (k : JobKind) : fromDb k.asStr = some k := by cases k <;> rfl

end JobKind

inductive JobStatus where
  | pending | inProgress | completed | dead
  deriving DecidableEq

/-- A row of `jobs`. -/
structure JobRow where
  id : ℕ
  kind : String
  payload : Value
  status : JobStatus
  attempts : ℕ
  maxAttempts : ℕ
  nextRunAt : Time
  lastError : Option String
  lockedBy : Option String
  lockedAt : Option Time
  completedAt : Option Time

/-- What a worker gets of a row it claims. -/
structure Job where
  id : ℕ
  kind : String
  payload : Value
  attempts : ℕ
  maxAttempts : ℕ

def JobRow.job (r : JobRow) : Job := ⟨r.id, r.kind, r.payload, r.attempts, r.maxAttempts⟩

/-- The table and the sequence of its ids; an id that was not given out yet has no row. -/
structure Jobs where
  table : Table JobRow.id
  nextId : ℕ
  fresh : ∀ id, nextId ≤ id → table.get? id = none

namespace Jobs

def empty : Jobs := ⟨∅, 1, fun _ _ => rfl⟩

def get? (jobs : Jobs) (id : ℕ) : Option JobRow := jobs.table.get? id

def seconds (n : ℕ) : Time := n * 1000000

def enqueue (jobs : Jobs) (now : Time) (kind : JobKind) (payload : Value) (delaySecs : ℕ) : Jobs where
  table := jobs.table.put
    { id := jobs.nextId
      kind := kind.asStr
      payload := payload
      status := .pending
      attempts := 0
      maxAttempts := 8
      nextRunAt := now + seconds delaySecs
      lastError := none
      lockedBy := none
      lockedAt := none
      completedAt := none }
  nextId := jobs.nextId + 1
  fresh id h := by
    rw [Table.get?_put_ne _ (by show id ≠ jobs.nextId; omega)]
    exact jobs.fresh id (by omega)

/-- An `UPDATE` of the rows. -/
def update (jobs : Jobs) (f : JobRow → JobRow) (hf : ∀ r, (f r).id = r.id) : Jobs where
  table := jobs.table.modify f hf
  nextId := jobs.nextId
  fresh id h := by rw [Table.get?_modify, jobs.fresh id h, Option.map_none]

/-- An `UPDATE … WHERE id = …`. -/
def updateRow (jobs : Jobs) (id : ℕ) (f : JobRow → JobRow) (hf : ∀ r, (f r).id = r.id) : Jobs :=
  jobs.update (fun r => if r.id = id then f r else r) fun r => by
    split
    · exact hf r
    · rfl

/-- Whether a row can be claimed. -/
def claimable (now : Time) (locked : ℕ → Bool) (r : JobRow) : Bool :=
  r.status = .pending && r.nextRunAt ≤ now && !locked r.id

/-- The ids `claim_batch` takes. -/
def claimedIds (jobs : Jobs) (now : Time) (batchSize : ℕ) (locked : ℕ → Bool) : List ℕ :=
  (((jobs.table.rows.filter (claimable now locked)).map JobRow.id).insertionSort (· ≤ ·)).take
    batchSize

def claimRow (now : Time) (workerId : String) (r : JobRow) : JobRow :=
  { r with
    status := .inProgress
    lockedBy := some workerId
    lockedAt := some now
    attempts := r.attempts + 1 }

def claimBatch (jobs : Jobs) (now : Time) (workerId : String) (batchSize : ℕ) (locked : ℕ → Bool) :
    Jobs × List Job :=
  let ids := jobs.claimedIds now batchSize locked
  let claimed := jobs.update (fun r => if r.id ∈ ids then claimRow now workerId r else r)
    fun r => by split <;> rfl
  (claimed, (claimed.table.rows.filter fun r => r.id ∈ ids).map JobRow.job)

def complete (jobs : Jobs) (now : Time) (id : ℕ) : Jobs :=
  jobs.updateRow id (fun r =>
    { r with status := .completed, completedAt := some now, lockedBy := none, lockedAt := none })
    fun _ => rfl

/-- `backoff_delay`, with the jitter drawn below a second. -/
def backoffDelay (attempt jitterMs : ℕ) : Time :=
  (2 ^ (max 1 (min 8 attempt)) * 1000 + jitterMs) * 1000

def failRetry (jobs : Jobs) (now : Time) (job : Job) (err : String) (jitterMs : ℕ) : Jobs :=
  jobs.updateRow job.id (fun r =>
    { r with
      status := .pending
      nextRunAt := now + backoffDelay job.attempts jitterMs
      lastError := some err
      lockedBy := none
      lockedAt := none }) fun _ => rfl

def failDead (jobs : Jobs) (now : Time) (id : ℕ) (err : String) : Jobs :=
  jobs.updateRow id (fun r =>
    { r with
      status := .dead
      completedAt := some now
      lastError := some err
      lockedBy := none
      lockedAt := none }) fun _ => rfl

/-- Whether the reaper takes a row. -/
def isStuck (now : Time) (maxLockSecs : ℕ) (r : JobRow) : Bool :=
  r.status = .inProgress && r.lockedAt.any fun t => t + seconds maxLockSecs < now

def reapStuck (jobs : Jobs) (now : Time) (maxLockSecs : ℕ) : Jobs :=
  jobs.update (fun r => if isStuck now maxLockSecs r then
    { r with status := .pending, nextRunAt := now, lockedBy := none, lockedAt := none }
    else r) fun r => by split <;> rfl

/-- Whether a row has ended long enough ago. -/
def isOld (now : Time) (r : JobRow) : Bool :=
  (r.status = .completed && r.completedAt.any fun t => t + seconds (6 * 3600) < now) ||
    (r.status = .dead && r.completedAt.any fun t => t + seconds (7 * 24 * 3600) < now)

def gcOld (jobs : Jobs) (now : Time) : Jobs where
  table := jobs.table.deleteWhere (isOld now)
  nextId := jobs.nextId
  fresh id h := by rw [Table.get?_deleteWhere, jobs.fresh id h, Option.filter_none]

/-! ### The typed helpers -/

def enqueuePlayerSync (jobs : Jobs) (now : Time) (discordId : String) : Jobs :=
  jobs.enqueue now .playerSync (.object [("discord_id", .string discordId)]) 0

def configSyncPayload (guildId roleId : String) : Value :=
  .object [("guild_id", .string guildId), ("role_id", .string roleId)]

/-- Delayed, to absorb a burst of saves. -/
def enqueueConfigSync (jobs : Jobs) (now : Time) (guildId roleId : String) : Jobs :=
  jobs.enqueue now .configSync (configSyncPayload guildId roleId) 5

def enqueueConfigSyncUnique (jobs : Jobs) (now : Time) (guildId roleId : String) : Jobs :=
  if jobs.table.rows.any fun r => r.status = .pending && r.kind = "config_sync" &&
      (r.payload.index "guild_id").asStr = some guildId &&
      (r.payload.index "role_id").asStr = some roleId then jobs
  else jobs.enqueue now .configSync (configSyncPayload guildId roleId) 0

/-! ### The row of an id -/

theorem get?_lt {jobs : Jobs} {id : ℕ} {r : JobRow} (h : jobs.get? id = some r) :
    id < jobs.nextId := by
  by_contra hc
  rw [get?, jobs.fresh id (by omega)] at h
  cases h

@[simp] theorem get?_update (jobs : Jobs) (f : JobRow → JobRow) (hf : ∀ r, (f r).id = r.id) (id : ℕ) :
    (jobs.update f hf).get? id = (jobs.get? id).map f :=
  Table.get?_modify _ f hf id

/-- The other rows are not touched. -/
theorem get?_updateRow_ne {jobs : Jobs} {f : JobRow → JobRow} {hf : ∀ r, (f r).id = r.id}
    {id i : ℕ} (h : i ≠ id) : (jobs.updateRow id f hf).get? i = jobs.get? i := by
  rw [updateRow, get?_update]
  cases hg : jobs.get? i with
  | none => rfl
  | some r =>
    have hkey : r.id = i := Table.key_of_get? hg
    rw [Option.map_some, if_neg (by rw [hkey]; exact h)]

theorem get?_complete_ne (jobs : Jobs) (now : Time) {id i : ℕ} (h : i ≠ id) :
    (jobs.complete now id).get? i = jobs.get? i := get?_updateRow_ne h

theorem get?_complete_self {jobs : Jobs} {id : ℕ} {r : JobRow} (h : jobs.get? id = some r)
    (now : Time) : ∃ r', (jobs.complete now id).get? id = some r' ∧ r'.status = .completed := by
  have hkey : r.id = id := Table.key_of_get? h
  rw [complete, updateRow, get?_update, h, Option.map_some, if_pos hkey]
  exact ⟨_, rfl, rfl⟩

theorem get?_reapStuck (jobs : Jobs) (now : Time) (maxLockSecs : ℕ) {id : ℕ} {r : JobRow}
    (h : jobs.get? id = some r) (hs : isStuck now maxLockSecs r = false) :
    (jobs.reapStuck now maxLockSecs).get? id = some r := by
  rw [reapStuck, get?_update, h, Option.map_some, if_neg (by rw [hs]; decide)]

theorem get?_enqueue (jobs : Jobs) (now : Time) (kind : JobKind) (payload : Value) (delaySecs : ℕ)
    {id : ℕ} (h : id ≠ jobs.nextId) :
    (jobs.enqueue now kind payload delaySecs).get? id = jobs.get? id :=
  Table.get?_put_ne _ h

@[simp] theorem get?_gcOld (jobs : Jobs) (now : Time) (id : ℕ) :
    (jobs.gcOld now).get? id = (jobs.get? id).filter fun r => !isOld now r :=
  Table.get?_deleteWhere _ _ id

/-- Only pending rows are claimed. -/
theorem pending_of_mem_claimedIds {jobs : Jobs} {now : Time} {batchSize : ℕ} {locked : ℕ → Bool}
    {id : ℕ} (h : id ∈ jobs.claimedIds now batchSize locked) :
    ∃ r, jobs.get? id = some r ∧ r.status = .pending := by
  have h := List.mem_of_mem_take h
  rw [List.mem_insertionSort] at h
  obtain ⟨r, hr, rfl⟩ := List.mem_map.mp h
  obtain ⟨hr, hc⟩ := List.mem_filter.mp hr
  refine ⟨r, Table.get?_eq_some.mpr ⟨hr, rfl⟩, ?_⟩
  unfold claimable at hc
  simp only [Bool.and_eq_true, decide_eq_true_eq] at hc
  exact hc.1.1

theorem get?_claimBatch (jobs : Jobs) (now : Time) (workerId : String) (batchSize : ℕ)
    (locked : ℕ → Bool) (id : ℕ) :
    (jobs.claimBatch now workerId batchSize locked).1.get? id = (jobs.get? id).map fun r =>
      if r.id ∈ jobs.claimedIds now batchSize locked then claimRow now workerId r else r :=
  get?_update _ _ _ id

theorem not_mem_claimedIds {jobs : Jobs} {id : ℕ} {r : JobRow} (h : jobs.get? id = some r)
    (hstatus : r.status ≠ .pending) (now : Time) (batchSize : ℕ) (locked : ℕ → Bool) :
    id ∉ jobs.claimedIds now batchSize locked := by
  intro hid
  obtain ⟨r', hr', hpending⟩ := pending_of_mem_claimedIds hid
  rw [h] at hr'
  cases hr'
  exact hstatus hpending

/-- A row that is not pending stays as it is. -/
theorem get?_claimBatch_of_ne {jobs : Jobs} {id : ℕ} {r : JobRow} (h : jobs.get? id = some r)
    (hstatus : r.status ≠ .pending) (now : Time) (workerId : String) (batchSize : ℕ)
    (locked : ℕ → Bool) : (jobs.claimBatch now workerId batchSize locked).1.get? id = some r := by
  have hkey : r.id = id := Table.key_of_get? h
  rw [get?_claimBatch, h, Option.map_some, hkey, if_neg (not_mem_claimedIds h hstatus _ _ _)]

/-- A claimed job is one of the ids, and what its row says, which is in progress afterwards. -/
theorem mem_claimBatch {jobs : Jobs} {now : Time} {workerId : String} {batchSize : ℕ}
    {locked : ℕ → Bool} {job : Job}
    (h : job ∈ (jobs.claimBatch now workerId batchSize locked).2) :
    job.id ∈ jobs.claimedIds now batchSize locked ∧
      ∃ r, (jobs.claimBatch now workerId batchSize locked).1.get? job.id = some r ∧
        r.status = .inProgress ∧ r.job = job := by
  obtain ⟨r, hr, rfl⟩ := List.mem_map.mp h
  obtain ⟨hr, hid⟩ := List.mem_filter.mp hr
  have hid : r.id ∈ jobs.claimedIds now batchSize locked := by simpa using hid
  have hget : (jobs.claimBatch now workerId batchSize locked).1.get? r.id = some r :=
    Table.get?_eq_some.mpr ⟨hr, rfl⟩
  refine ⟨hid, r, hget, ?_, rfl⟩
  obtain ⟨r', hr', -⟩ := pending_of_mem_claimedIds hid
  have hkey : r'.id = r.id := Table.key_of_get? hr'
  rw [get?_claimBatch, hr', Option.map_some, hkey, if_pos hid] at hget
  rw [← Option.some.inj hget]
  rfl

/-- The job of a row that is claimed. -/
theorem claimed_job {jobs : Jobs} {now : Time} {batchSize : ℕ} {locked : ℕ → Bool} {id : ℕ}
    {r : JobRow} (hget : jobs.get? id = some r) (hid : id ∈ jobs.claimedIds now batchSize locked)
    (workerId : String) : (claimRow now workerId r).job ∈
      (jobs.claimBatch now workerId batchSize locked).2 := by
  have hkey : r.id = id := Table.key_of_get? hget
  have hrow : (jobs.claimBatch now workerId batchSize locked).1.get? id =
      some (claimRow now workerId r) := by
    rw [get?_claimBatch, hget, Option.map_some, hkey, if_pos hid]
  refine List.mem_map_of_mem (List.mem_filter.mpr ⟨(Table.get?_eq_some.mp hrow).1, ?_⟩)
  exact decide_eq_true (by rw [← hkey] at hid; exact hid)

end Jobs

end BirthdayRole
