/-
# When the attempts of a job can be made (`backoff_delay`, `fail_retry`, `reap_stuck`)

A retry makes a job wait twice as long as the one before it, up to 256 seconds; a worker that
does not report makes it wait until the reaper comes, which is longer. The statements match a
row by its id alone, so a worker whose job the reaper has given away can still report, and its
report, with the short wait of an early attempt, puts an end to a later one.

Even so no run gets through the attempts of a job faster than by one retry after the other
(`TimedQueue.reached_paced`). `JobRow.Paced` is what holds of a row, the attempts that are in
somebody's hands, and the clock; each statement keeps it. The clock is that of the database,
which does not go back.
-/
import BirthdayRole.JobAttempts
import BirthdayRole.Lib.Backoff

namespace BirthdayRole

open Json

namespace Jobs

/-- The wait after an attempt, without the jitter. -/
def retryWait (attempt : ℕ) : Time := seconds (2 ^ max 1 (min 8 attempt))

/-- The longest of them. -/
def longestWait : Time := seconds 256

theorem retryWait_le (attempt : ℕ) : retryWait attempt ≤ longestWait := by
  have hpow : 2 ^ max 1 (min 8 attempt) ≤ 2 ^ 8 := Nat.pow_le_pow_right (by omega) (by omega)
  exact Nat.mul_le_mul_right 1000000 hpow

theorem retryWait_le_backoffDelay (attempt jitterMs : ℕ) :
    retryWait attempt ≤ backoffDelay attempt jitterMs := by
  show 2 ^ max 1 (min 8 attempt) * 1000000 ≤ (2 ^ max 1 (min 8 attempt) * 1000 + jitterMs) * 1000
  omega

end Jobs

open Backoff Jobs

/-- What is known of a row, of the attempts at it that are not reported, and of the time. -/
structure JobRow.Paced (row : JobRow) (born : Time) (out : List ℕ) (clock : Time) : Prop where
  limit : row.maxAttempts = 8
  distinct : out.Nodup
  upto : ∀ k ∈ out, 1 ≤ k ∧ k ≤ row.attempts
  past : Past retryWait longestWait born row.attempts out clock
  due : row.status = .pending → Due retryWait longestWait born row.attempts out row.nextRunAt
  locked : row.status = .inProgress → 1 ≤ row.attempts ∧ ∃ t, row.lockedAt = some t ∧ t ≤ clock ∧
    Past retryWait longestWait born row.attempts out t

namespace JobRow.Paced

variable {row : JobRow} {born clock now : Time} {out : List ℕ}

/-- Time passes, and attempts are abandoned. -/
theorem mono {out' : List ℕ} (h : row.Paced born out clock) (hnow : clock ≤ now)
    (hout : out'.Sublist out) : row.Paced born out' now where
  limit := h.limit
  distinct := h.distinct.sublist hout
  upto k hk := h.upto k (hout.subset hk)
  past := h.past.mono hnow hout
  due hp := (h.due hp).mono le_rfl hout
  locked hp := by
    obtain ⟨h1, t, ht, hle, hpast⟩ := h.locked hp
    exact ⟨h1, t, ht, hle.trans hnow, hpast.mono le_rfl hout⟩

/-- A row that is neither pending nor in progress. -/
theorem of_ended {row' : JobRow} (h : row.Paced born out clock) (hatt : row'.attempts = row.attempts)
    (hmax : row'.maxAttempts = row.maxAttempts) (hended : row'.status.Ended) :
    row'.Paced born out clock where
  limit := hmax.trans h.limit
  distinct := h.distinct
  upto := by
    rw [hatt]
    exact h.upto
  past := by
    rw [hatt]
    exact h.past
  due hp := by rcases hended with he | he <;> rw [he] at hp <;> cases hp
  locked hp := by rcases hended with he | he <;> rw [he] at hp <;> cases hp

/-- A claim. -/
theorem claim (h : row.Paced born out clock) (hp : row.status = .pending) (hdue : row.nextRunAt ≤ now)
    (workerId : String) :
    (claimRow now workerId row).Paced born (out ++ [row.attempts + 1]) now := by
  have hle : ∀ k ∈ out, k ≤ row.attempts := fun k hk => (h.upto k hk).2
  have hpast := ((h.due hp).mono hdue (List.Sublist.refl out)).claim hle
  refine ⟨h.limit, ?_, fun k hk => ?_, hpast, fun hp' => ?_, fun _ => ?_⟩
  · refine List.nodup_append.mpr ⟨h.distinct, List.nodup_singleton _, fun a ha b hb => ?_⟩
    have := hle a ha
    have := List.mem_singleton.mp hb
    omega
  · show 1 ≤ k ∧ k ≤ row.attempts + 1
    rcases List.mem_append.mp hk with hk | hk
    · have := h.upto k hk
      omega
    · have := List.mem_singleton.mp hk
      omega
  · cases hp'
  · exact ⟨Nat.succ_le_succ (Nat.zero_le _), now, rfl, le_rfl, hpast⟩

/-- A retry, by the holder of any attempt. -/
theorem retried {j : ℕ} (h : row.Paced born out clock) (hnow : clock ≤ now) (hj : j ∈ out)
    (err : String) (jitterMs : ℕ) :
    { row with
      status := .pending
      nextRunAt := now + backoffDelay j jitterMs
      lastError := some err
      lockedBy := none
      lockedAt := none : JobRow }.Paced born (out.filter (· ≠ j)) now := by
  have hnow := h.mono hnow (List.Sublist.refl out)
  have hless := hnow.mono le_rfl (List.filter_sublist : (out.filter (· ≠ j)).Sublist out)
  have hdue := hnow.past.report h.distinct h.upto retryWait_le hj
  have hwait := Nat.add_le_add_left (retryWait_le_backoffDelay j jitterMs) now
  exact ⟨h.limit, hless.distinct, hless.upto, hless.past,
    fun _ => hdue.mono hwait (List.Sublist.refl _), fun hp => by cases hp⟩

/-- The reaper takes a row. -/
theorem reaped {maxLockSecs : ℕ} (h : row.Paced born out clock) (hnow : clock ≤ now)
    (hlong : longestWait ≤ seconds maxLockSecs) (hstuck : isStuck now maxLockSecs row = true) :
    { row with
      status := .pending
      nextRunAt := now
      lockedBy := none
      lockedAt := none : JobRow }.Paced born out now := by
  unfold isStuck at hstuck
  rw [Bool.and_eq_true, decide_eq_true_eq] at hstuck
  obtain ⟨h1, t, ht, -, hpast⟩ := h.locked hstuck.1
  have hlate := hstuck.2
  rw [ht, Option.any_some, decide_eq_true_eq] at hlate
  have hle : ∀ k ∈ out, k ≤ row.attempts := fun k hk => (h.upto k hk).2
  have hdue := hpast.expire h.distinct hle h1 retryWait_le
  have hwait : t + longestWait ≤ now := Nat.le_trans (Nat.add_le_add_left hlong t) (Nat.le_of_lt hlate)
  exact ⟨h.limit, h.distinct, h.upto, h.past.mono hnow (List.Sublist.refl out),
    fun _ => hdue.mono hwait (List.Sublist.refl out), fun hp => by cases hp⟩

end JobRow.Paced

/-! ### The attempts that are out -/

/-- What passes one filter and is kept by another. -/
theorem filter_sublist_filter {α : Type} {p r : α → Bool} {l : List α}
    (h : ∀ x ∈ l, p x = true → r x = true) : (l.filter p).Sublist (l.filter r) := by
  have hboth : l.filter p = (l.filter r).filter p := by
    rw [List.filter_filter]
    refine List.filter_congr fun x hx => ?_
    cases hp : p x with
    | false => rfl
    | true => simp [h x hx hp]
  rw [hboth]
  exact List.filter_sublist

namespace Queue

/-- The attempts at a job among some holds. -/
def out (held : List Hold) (id : ℕ) : List ℕ := (held.filter (·.job.id = id)).map (·.job.attempts)

theorem mem_out {held : List Hold} {id k : ℕ} :
    k ∈ out held id ↔ ∃ h ∈ held, h.job.id = id ∧ h.job.attempts = k := by
  simp [out, and_assoc]

theorem out_sublist {held held' : List Hold} (h : held'.Sublist held) (id : ℕ) :
    (out held' id).Sublist (out held id) := (h.filter _).map _

/-- The attempt of a hold that is given back is not out. -/
theorem out_release_self {q : Queue} {claim id : ℕ} {h : Hold} (hh : q.hold? claim id = some h)
    (hout : (out q.held id).Nodup) :
    (out (q.release claim id) id).Sublist ((out q.held id).filter (· ≠ h.job.attempts)) := by
  obtain ⟨hmem, hclaim, hid⟩ := hold?_spec hh
  have hown : h ∈ q.held.filter (·.job.id = id) := by simp [hmem, hid]
  -- no other hold of the job has this attempt
  have hother : ∀ x ∈ q.held.filter (·.job.id = id),
      (!(x.claim = claim && x.job.id = id)) = true → x.job.attempts ≠ h.job.attempts := by
    intro x hx hkept hsame
    have hxh : x = h := List.inj_on_of_nodup_map hout hx hown hsame
    rw [hxh, hclaim, hid] at hkept
    simp at hkept
  have hcomm : (q.release claim id).filter (·.job.id = id) =
      (q.held.filter (·.job.id = id)).filter fun x => !(x.claim = claim && x.job.id = id) :=
    List.filter_comm ..
  rw [out, hcomm, out, List.filter_map]
  refine List.Sublist.map _ ?_
  exact filter_sublist_filter fun x hx hkept => decide_eq_true (hother x hx hkept)

/-- A claim adds the attempts of the rows it takes. -/
theorem out_claimBatch (q : Queue) (now : Time) (workerId : String) (batchSize : ℕ) (locked : ℕ → Bool)
    {id : ℕ} {row : JobRow} (hrow : q.jobs.get? id = some row) :
    out (q.held ++ (q.jobs.claimBatch now workerId batchSize locked).2.map
        fun job => ⟨workerId, q.nextClaim, job⟩) id =
      out q.held id ++
        if id ∈ q.jobs.claimedIds now batchSize locked then [row.attempts + 1] else [] := by
  have hkey : row.id = id := Table.key_of_get? hrow
  have hget := q.jobs.get?_claimBatch now workerId batchSize locked id
  rw [hrow, Option.map_some, hkey] at hget
  have hrows := Table.filter_key (q.jobs.claimBatch now workerId batchSize locked).1.table id
  unfold out
  rw [List.filter_append, List.map_append]
  refine congrArg (_ ++ ·) ?_
  have hjobs : (q.jobs.claimBatch now workerId batchSize locked).2 =
      ((q.jobs.claimBatch now workerId batchSize locked).1.table.rows.filter
        fun r => decide (r.id ∈ q.jobs.claimedIds now batchSize locked)).map JobRow.job := rfl
  have hcomm := List.filter_comm (fun r : JobRow => decide (r.id = id))
    (fun r => decide (r.id ∈ q.jobs.claimedIds now batchSize locked))
    (q.jobs.claimBatch now workerId batchSize locked).1.table.rows
  rw [hjobs, List.map_map, List.filter_map, List.map_map]
  show (((_ : List JobRow).filter _).filter fun r : JobRow => decide (r.id = id)).map
    (fun r : JobRow => r.attempts) = _
  rw [hcomm, hrows, show Table.get? _ id = _ from hget]
  by_cases hid : id ∈ q.jobs.claimedIds now batchSize locked
  · rw [if_pos hid, if_pos hid]
    simp [Jobs.claimRow, hkey, hid]
  · rw [if_neg hid, if_neg hid]
    simp [hkey, hid]

end Queue

/-- Only rows that are due are claimed. -/
theorem Jobs.due_of_mem_claimedIds {jobs : Jobs} {now : Time} {batchSize : ℕ} {locked : ℕ → Bool}
    {id : ℕ} {row : JobRow} (hrow : jobs.get? id = some row)
    (h : id ∈ jobs.claimedIds now batchSize locked) : row.status = .pending ∧ row.nextRunAt ≤ now := by
  have h := List.mem_of_mem_take h
  rw [List.mem_insertionSort] at h
  obtain ⟨r, hr, rfl⟩ := List.mem_map.mp h
  obtain ⟨hr, hc⟩ := List.mem_filter.mp hr
  have hsame : jobs.get? r.id = some r := Table.get?_eq_some.mpr ⟨hr, rfl⟩
  rw [hrow] at hsame
  cases hsame
  unfold claimable at hc
  simp only [Bool.and_eq_true, decide_eq_true_eq] at hc
  exact hc.1

/-! ### Runs -/

/-- The time of a statement. -/
def QueueAction.now : QueueAction → Option Time
  | .enqueue now _ _ _ | .claimBatch now _ _ _ | .report now _ _ _ | .reapStuck now _ | .gcOld now =>
    some now
  | .abandon _ _ => none

/-- A queue, the time of the last statement, and when each job was enqueued. -/
structure TimedQueue where
  queue : Queue
  clock : Time
  born : ℕ → Time

namespace TimedQueue

def bornAfter (s : TimedQueue) : QueueAction → ℕ → Time
  | .enqueue now _ _ _ => Function.update s.born s.queue.jobs.nextId now
  | _ => s.born

/-- A statement, which is not earlier than the one before. -/
def step (s : TimedQueue) (a : QueueAction) : Option TimedQueue :=
  let now := a.now.getD s.clock
  if s.clock ≤ now then (s.queue.step a).map fun q => ⟨q, now, s.bornAfter a⟩ else none

def start : TimedQueue := ⟨.start .empty, 0, fun _ => 0⟩

/-- The reaper leaves a job alone for as long as the longest retry would; it does so for half an
hour (`STUCK_LOCK_SECS`). -/
def Patient : QueueAction → Prop
  | .reapStuck _ maxLockSecs => 256 ≤ maxLockSecs
  | _ => True

/-- No attempt at a job is made, and none is due, before the waits of those before it have passed
since it was enqueued; and when a worker has none left, 254 seconds have. -/
structure Paced (s : TimedQueue) : Prop where
  held : ∀ h ∈ s.queue.held, s.born h.job.id + total retryWait (h.job.attempts - 1) ≤ s.clock
  pending : ∀ id row, s.queue.jobs.get? id = some row → row.status = .pending →
    s.born id + total retryWait row.attempts ≤ row.nextRunAt
  exhausted : ∀ h ∈ s.queue.held, h.job.maxAttempts ≤ h.job.attempts →
    s.born h.job.id + seconds 254 ≤ s.clock

structure Inv (s : TimedQueue) : Prop where
  row : ∀ id row, s.queue.jobs.get? id = some row →
    row.Paced (s.born id) (Queue.out s.queue.held id) s.clock
  held : ∀ h ∈ s.queue.held, h.job.id < s.queue.jobs.nextId ∧ h.job.maxAttempts = 8 ∧
    s.born h.job.id + total retryWait (h.job.attempts - 1) ≤ s.clock

variable {s s' : TimedQueue} {now : Time}

theorem inv_start : start.Inv where
  row _ _ h := by cases h
  held _ h := absurd h List.not_mem_nil

/-- Only the clock moves, and some jobs are let go. -/
theorem Inv.held_mono (hs : s.Inv) (hnow : s.clock ≤ now) {held : List Hold}
    (hsub : held.Sublist s.queue.held) : ∀ h ∈ held, h.job.id < s.queue.jobs.nextId ∧
      h.job.maxAttempts = 8 ∧ s.born h.job.id + total retryWait (h.job.attempts - 1) ≤ now := by
  intro h hh
  obtain ⟨hid, hmax, hborn⟩ := hs.held h (hsub.subset hh)
  exact ⟨hid, hmax, hborn.trans hnow⟩

theorem Inv.enqueue (hs : s.Inv) (hnow : s.clock ≤ now) (kind : JobKind) (payload : Value)
    (delaySecs : ℕ) : Inv ⟨{ s.queue with jobs := s.queue.jobs.enqueue now kind payload delaySecs }, now,
      Function.update s.born s.queue.jobs.nextId now⟩ := by
  have hborn : ∀ id, id < s.queue.jobs.nextId →
      Function.update s.born s.queue.jobs.nextId now id = s.born id := by
    intro id hid
    exact Function.update_of_ne (by omega) _ _
  refine ⟨fun id row hrow => ?_, fun h hh => ?_⟩
  · by_cases hid : id = s.queue.jobs.nextId
    · have hnone : Queue.out s.queue.held id = [] := by
        refine List.eq_nil_iff_forall_not_mem.mpr fun k hk => ?_
        obtain ⟨h, hh, hhid, -⟩ := Queue.mem_out.mp hk
        have := (hs.held h hh).1
        omega
      subst hid
      rw [Jobs.get?, Jobs.enqueue, Table.get?_put_self] at hrow
      cases hrow
      show JobRow.Paced _ (Function.update s.born _ now _) (Queue.out s.queue.held _) now
      rw [hnone, Function.update_self]
      exact ⟨rfl, List.nodup_nil, fun k hk => absurd hk List.not_mem_nil, le_rfl,
        fun _ => Nat.le_add_right now _, fun hp => absurd hp (by simp)⟩
    · have hold := (Jobs.get?_enqueue s.queue.jobs now kind payload delaySecs hid).symm.trans hrow
      show JobRow.Paced row (Function.update s.born _ now id) (Queue.out s.queue.held _) now
      rw [hborn id (Jobs.get?_lt hold)]
      exact (hs.row id row hold).mono hnow (List.Sublist.refl _)
  · obtain ⟨hid, hmax, hpast⟩ := hs.held_mono hnow (List.Sublist.refl _) h hh
    refine ⟨Nat.lt_succ_of_lt hid, hmax, ?_⟩
    show Function.update s.born _ now _ + _ ≤ now
    rw [hborn _ hid]
    exact hpast

theorem Inv.claimBatch (hs : s.Inv) (hnow : s.clock ≤ now) (workerId : String) (batchSize : ℕ)
    (locked : ℕ → Bool) {q : Queue}
    (hq : s.queue.step (.claimBatch now workerId batchSize locked) = some q) :
    Inv ⟨q, now, s.born⟩ := by
  have hrows : ∀ id row, q.jobs.get? id = some row →
      row.Paced (s.born id) (Queue.out q.held id) now := by
    intro id row' hrow'
    cases hq
    rw [Jobs.get?_claimBatch] at hrow'
    obtain ⟨row, hrow, rfl⟩ := Option.map_eq_some_iff.mp hrow'
    have hkey : row.id = id := Table.key_of_get? hrow
    have hold := hs.row id row hrow
    have hout := s.queue.out_claimBatch now workerId batchSize locked hrow
    show JobRow.Paced _ _ (Queue.out (_ ++ _) id) now
    rw [hout, hkey]
    by_cases hid : id ∈ s.queue.jobs.claimedIds now batchSize locked
    · obtain ⟨hp, hdue⟩ := Jobs.due_of_mem_claimedIds hrow hid
      rw [if_pos hid, if_pos hid]
      exact (hold.mono hnow (List.Sublist.refl _)).claim hp hdue workerId
    · rw [if_neg hid, if_neg hid, List.append_nil]
      exact hold.mono hnow (List.Sublist.refl _)
  refine ⟨hrows, fun h hh => ?_⟩
  rcases Queue.hold_of_step hq hh with hold | ⟨-, -, row, row', hrow, hrow', -, hatt, hjob, hmax⟩
  · obtain ⟨hid, hmax, hpast⟩ := hs.held_mono hnow (List.Sublist.refl _) h hold
    exact ⟨hid.trans_le (Queue.next_of_step hq).1, hmax, hpast⟩
  · have hpast := (hrows _ row' hrow').past.total_le
    rw [← hjob] at hpast
    exact ⟨Jobs.get?_lt hrow', hmax.trans (hs.row _ row hrow).limit, hpast⟩

theorem Inv.report (hs : s.Inv) (hnow : s.clock ≤ now) {claim id : ℕ} {h : Hold}
    (hh : s.queue.hold? claim id = some h) (r : Report) :
    Inv ⟨{ s.queue with
      jobs := r.apply s.queue.jobs now h.job
      held := s.queue.release claim id
      owner := Function.update s.queue.owner id none }, now, s.born⟩ := by
  obtain ⟨hmem, hclaim, hid⟩ := Queue.hold?_spec hh
  have hsub : (s.queue.release claim id).Sublist s.queue.held := List.filter_sublist
  have hnext : (r.apply s.queue.jobs now h.job).nextId = s.queue.jobs.nextId := by cases r <;> rfl
  refine ⟨fun i row' hrow' => ?_, fun h' hh' => ?_⟩
  · show row'.Paced _ (Queue.out (s.queue.release claim id) i) now
    by_cases hi : i = h.job.id
    · subst hid hi
      -- the report changes the row, if it is still there
      have hback : ∀ {f : JobRow → JobRow} (hf : ∀ r, (f r).id = r.id),
          (s.queue.jobs.updateRow h.job.id f hf).get? h.job.id = some row' →
          ∃ row, s.queue.jobs.get? h.job.id = some row ∧ f row = row' := by
        intro f hf hf'
        rw [Jobs.updateRow, Jobs.get?_update] at hf'
        obtain ⟨row, hrow, hrow'⟩ := Option.map_eq_some_iff.mp hf'
        have hkey : row.id = h.job.id := Table.key_of_get? hrow
        rw [if_pos hkey] at hrow'
        exact ⟨row, hrow, hrow'⟩
      cases r with
      | complete =>
        obtain ⟨row, hrow, rfl⟩ := hback (by exact fun _ => rfl) hrow'
        exact ((hs.row _ row hrow).mono hnow (Queue.out_sublist hsub _)).of_ended rfl rfl (Or.inl rfl)
      | failRetry err jitterMs =>
        obtain ⟨row, hrow, rfl⟩ := hback (by exact fun _ => rfl) hrow'
        have hold := hs.row _ row hrow
        have hj : h.job.attempts ∈ Queue.out s.queue.held h.job.id :=
          Queue.mem_out.mpr ⟨h, hmem, rfl, rfl⟩
        exact (hold.retried hnow hj err jitterMs).mono le_rfl (Queue.out_release_self hh hold.distinct)
      | failDead err =>
        obtain ⟨row, hrow, rfl⟩ := hback (by exact fun _ => rfl) hrow'
        exact ((hs.row _ row hrow).mono hnow (Queue.out_sublist hsub _)).of_ended rfl rfl (Or.inr rfl)
    · have hrow : s.queue.jobs.get? i = some row' :=
        (Queue.report_get?_ne _ _ _ _ hi).symm.trans hrow'
      exact (hs.row i row' hrow).mono hnow (Queue.out_sublist hsub i)
  · show h'.job.id < (r.apply s.queue.jobs now h.job).nextId ∧ _
    rw [hnext]
    exact hs.held_mono hnow hsub h' hh'

theorem Inv.reapStuck (hs : s.Inv) (hnow : s.clock ≤ now) {maxLockSecs : ℕ} (hlong : 256 ≤ maxLockSecs)
    (owner : ℕ → Option ℕ) :
    Inv ⟨{ s.queue with jobs := s.queue.jobs.reapStuck now maxLockSecs, owner := owner }, now,
      s.born⟩ := by
  refine ⟨fun id row' hrow' => ?_, hs.held_mono hnow (List.Sublist.refl _)⟩
  have hmap := (Jobs.get?_update s.queue.jobs _ _ id).symm.trans hrow'
  obtain ⟨row, hrow, rfl⟩ := Option.map_eq_some_iff.mp hmap
  have hold := hs.row id row hrow
  by_cases hstuck : isStuck now maxLockSecs row = true
  · rw [if_pos hstuck]
    exact hold.reaped hnow (Nat.mul_le_mul_right 1000000 hlong) hstuck
  · rw [if_neg hstuck]
    exact hold.mono hnow (List.Sublist.refl _)

theorem Inv.gcOld (hs : s.Inv) (hnow : s.clock ≤ now) :
    Inv ⟨{ s.queue with jobs := s.queue.jobs.gcOld now }, now, s.born⟩ := by
  refine ⟨fun id row hrow => ?_, hs.held_mono hnow (List.Sublist.refl _)⟩
  have hrow := (Jobs.get?_gcOld s.queue.jobs now id).symm.trans hrow
  exact (hs.row id row (Option.filter_eq_some_iff.mp hrow).1).mono hnow (List.Sublist.refl _)

/-- One statement. -/
theorem inv_step {a : QueueAction} (hs : s.Inv) (ha : Patient a) (hstep : s.step a = some s') :
    s'.Inv := by
  unfold step at hstep
  by_cases hnow : s.clock ≤ a.now.getD s.clock
  · rw [if_pos hnow] at hstep
    obtain ⟨q, hq, rfl⟩ := Option.map_eq_some_iff.mp hstep
    cases a with
    | enqueue now kind payload delaySecs =>
      cases hq
      exact hs.enqueue hnow kind payload delaySecs
    | claimBatch now workerId batchSize locked => exact hs.claimBatch hnow workerId batchSize locked hq
    | report now claim id r =>
      obtain ⟨h, hh, rfl⟩ := Option.map_eq_some_iff.mp hq
      exact hs.report hnow hh r
    | abandon claim id =>
      obtain ⟨h, -, rfl⟩ := Option.map_eq_some_iff.mp hq
      exact ⟨fun i row hrow => (hs.row i row hrow).mono le_rfl (Queue.out_sublist List.filter_sublist i),
        hs.held_mono le_rfl List.filter_sublist⟩
    | reapStuck now maxLockSecs =>
      cases hq
      exact hs.reapStuck hnow ha _
    | gcOld now =>
      cases hq
      exact hs.gcOld hnow
  · rw [if_neg hnow] at hstep
    cases hstep

theorem Inv.paced (hs : s.Inv) : s.Paced where
  held h hh := (hs.held h hh).2.2
  pending id row hrow hp := ((hs.row id row hrow).due hp).total_le
  exhausted h hh hspent := by
    obtain ⟨-, hmax, hpast⟩ := hs.held h hh
    have hseven : total retryWait 7 = seconds 254 := by decide
    have hmono : total retryWait 7 ≤ total retryWait (h.job.attempts - 1) := total_mono (by omega)
    calc s.born h.job.id + seconds 254 = s.born h.job.id + total retryWait 7 := by rw [hseven]
      _ ≤ s.born h.job.id + total retryWait (h.job.attempts - 1) := Nat.add_le_add_left hmono _
      _ ≤ s.clock := hpast

/-- In every run, with any number of workers, crashes and late reports, the attempts at a job are
no closer to each other than one retry after the other would have them. -/
theorem reached_paced (h : Lts.Reached step (fun _ => Patient) start s) : s.Paced :=
  (h.invariant inv_start fun _ _ _ => inv_step).paced

/-- A worker hangs, the reaper gives its job to another, and then its report ends the second
attempt, with the wait of the first. -/
def overtakenRun : List QueueAction :=
  [.enqueue 0 .playerSync .null 0, .claimBatch 0 "worker-0" 8 fun _ => false,
    .reapStuck (seconds 1801) 1800, .claimBatch (seconds 1801) "worker-1" 8 fun _ => false,
    .report (seconds 1801) 0 1 (.failRetry "timeout" 0)]

theorem reached_paced_overtaken : ∃ s, Lts.run step start overtakenRun = some s ∧
    (∃ row, s.queue.jobs.get? 1 = some row ∧ row.status = .pending ∧ row.attempts = 2 ∧
      row.nextRunAt = seconds 1803) ∧ s.Paced := by
  have hpatient : ∀ a ∈ overtakenRun, ∀ _ : TimedQueue, Patient a := by
    intro a ha _
    simp only [overtakenRun, List.mem_cons, List.not_mem_nil, or_false] at ha
    rcases ha with rfl | rfl | rfl | rfl | rfl <;> simp [Patient]
  refine ⟨_, rfl, ⟨_, rfl, rfl, rfl, rfl⟩, reached_paced (Lts.Reached.refl.of_run hpatient rfl)⟩

end TimedQueue

end BirthdayRole
