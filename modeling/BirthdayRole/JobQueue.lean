/-
# Workers on the queue

Any number of workers, the reaper and the garbage collector on one `jobs` table.
A worker holds the jobs it has claimed until it reports their outcome, however
late, or crashes (`abandon`). Each claim gets a number, and `owner` says under
which claim a row is in progress; the program keeps neither, they are here to say
what a claim is worth.

A report should change a row only while it is in progress under the reporter's own
claim, and a row that has ended should stay so (`Queue.StepOk`). The statements
match the row by its id alone, so a report after the reaper has given the job away
hits the next holder's claim, or a row that has ended (`lateReport_notOk`). As long
as the reaper takes no job that is still held, every step is right
(`reached_stepOk`).
-/
import BirthdayRole.Jobs
import BirthdayRole.Lib.Reach

namespace BirthdayRole

open Json

/-- A job in a worker's hands. -/
structure Hold where
  worker : String
  claim : ℕ
  job : Job

structure Queue where
  jobs : Jobs
  held : List Hold
  owner : ℕ → Option ℕ
  nextClaim : ℕ

/-- How a worker reports a job. -/
inductive Report where
  | complete
  | failRetry (err : String) (jitterMs : ℕ)
  | failDead (err : String)

inductive QueueAction where
  | enqueue (now : Time) (kind : JobKind) (payload : Value) (delaySecs : ℕ)
  | claimBatch (now : Time) (workerId : String) (batchSize : ℕ) (locked : ℕ → Bool)
  | report (now : Time) (claim id : ℕ) (r : Report)
  | abandon (claim id : ℕ)
  | reapStuck (now : Time) (maxLockSecs : ℕ)
  | gcOld (now : Time)

def Report.apply (jobs : Jobs) (now : Time) (job : Job) : Report → Jobs
  | .complete => jobs.complete now job.id
  | .failRetry err jitterMs => jobs.failRetry now job err jitterMs
  | .failDead err => jobs.failDead now job.id err

namespace Queue

/-- The job held under a claim. -/
def hold? (q : Queue) (claim id : ℕ) : Option Hold :=
  q.held.find? fun h => h.claim = claim ∧ h.job.id = id

def release (q : Queue) (claim id : ℕ) : List Hold :=
  q.held.filter fun h => !(h.claim = claim && h.job.id = id)

def step (q : Queue) : QueueAction → Option Queue
  | .enqueue now kind payload delaySecs =>
    some { q with jobs := q.jobs.enqueue now kind payload delaySecs }
  | .claimBatch now workerId batchSize locked =>
    let claimed := q.jobs.claimBatch now workerId batchSize locked
    some
      { jobs := claimed.1
        held := q.held ++ claimed.2.map fun job => ⟨workerId, q.nextClaim, job⟩
        owner := fun id =>
          if id ∈ q.jobs.claimedIds now batchSize locked then some q.nextClaim else q.owner id
        nextClaim := q.nextClaim + 1 }
  | .report now claim id r =>
    (q.hold? claim id).map fun h =>
      { q with
        jobs := Report.apply q.jobs now h.job r
        held := q.release claim id
        owner := Function.update q.owner id none }
  | .abandon claim id => (q.hold? claim id).map fun _ => { q with held := q.release claim id }
  | .reapStuck now maxLockSecs =>
    some
      { q with
        jobs := q.jobs.reapStuck now maxLockSecs
        owner := fun id =>
          if (q.jobs.get? id).any (Jobs.isStuck now maxLockSecs) then none else q.owner id }
  | .gcOld now => some { q with jobs := q.jobs.gcOld now }

/-- A queue nobody works on yet. -/
def start (jobs : Jobs) : Queue := ⟨jobs, [], fun _ => none, 0⟩

end Queue

/-- The row has ended. -/
def JobStatus.Ended (s : JobStatus) : Prop := s = .completed ∨ s = .dead

namespace Queue

/-- A report changes its own row at most, while that row is in progress under the
reported claim; and what has ended stays ended. -/
structure StepOk (q : Queue) (a : QueueAction) (q' : Queue) : Prop where
  fenced : ∀ now claim id r, a = .report now claim id r → ∀ i, q'.jobs.get? i ≠ q.jobs.get? i →
    i = id ∧ q.owner i = some claim ∧ ∃ row, q.jobs.get? i = some row ∧ row.status = .inProgress
  ended : ∀ i row row', q.jobs.get? i = some row → row.status.Ended → q'.jobs.get? i = some row' →
    row'.status.Ended

/-- The reaper takes no job that a worker still holds. -/
def NoHeldReaped (q : Queue) : QueueAction → Prop
  | .reapStuck now maxLockSecs => ∀ h ∈ q.held, ∀ row, q.jobs.get? h.job.id = some row →
      Jobs.isStuck now maxLockSecs row = false
  | _ => True

/-- A held job is in progress under the claim it is held under. -/
def Inv (q : Queue) : Prop :=
  ∀ h ∈ q.held, q.owner h.job.id = some h.claim ∧
    ∃ row, q.jobs.get? h.job.id = some row ∧ row.status = .inProgress

theorem hold?_spec {q : Queue} {claim id : ℕ} {h : Hold} (hh : q.hold? claim id = some h) :
    h ∈ q.held ∧ h.claim = claim ∧ h.job.id = id :=
  ⟨List.mem_of_find?_eq_some hh, by simpa using List.find?_some hh⟩

/-- A hold that is kept is on another job or under another claim. -/
theorem mem_release {q : Queue} {claim id : ℕ} {h : Hold} :
    h ∈ q.release claim id ↔ h ∈ q.held ∧ ¬(h.claim = claim ∧ h.job.id = id) := by
  simp [release, imp_iff_not_or]

theorem report_get?_ne (jobs : Jobs) (now : Time) (job : Job) (r : Report) {i : ℕ} (h : i ≠ job.id) :
    (r.apply jobs now job).get? i = jobs.get? i := by
  cases r with
  | complete => rw [Report.apply, Jobs.complete, Jobs.get?_updateRow_ne h]
  | failRetry err jitterMs => rw [Report.apply, Jobs.failRetry, Jobs.get?_updateRow_ne h]
  | failDead err => rw [Report.apply, Jobs.failDead, Jobs.get?_updateRow_ne h]

theorem inv_start (jobs : Jobs) : (start jobs).Inv := fun _ h => absurd h List.not_mem_nil

/-- One step: a case for each statement. -/
theorem inv_step {q q' : Queue} {a : QueueAction} (hq : q.Inv) (ha : q.NoHeldReaped a)
    (hs : q.step a = some q') : q'.Inv := by
  intro h hh
  cases a with
  | enqueue now kind payload delaySecs =>
    cases hs
    obtain ⟨ho, row, hrow, hst⟩ := hq h hh
    refine ⟨ho, row, ?_, hst⟩
    exact (Jobs.get?_enqueue _ _ _ _ _ (Jobs.get?_lt hrow).ne).trans hrow
  | claimBatch now workerId batchSize locked =>
    cases hs
    rcases List.mem_append.mp hh with hh | hh
    · obtain ⟨ho, row, hrow, hst⟩ := hq h hh
      have hne : row.status ≠ .pending := by
        rw [hst]
        decide
      exact ⟨(if_neg (Jobs.not_mem_claimedIds hrow hne _ _ _)).trans ho, row,
        Jobs.get?_claimBatch_of_ne hrow hne _ _ _ _, hst⟩
    · obtain ⟨job, hjob, rfl⟩ := List.mem_map.mp hh
      obtain ⟨hid, row, hrow, hst, -⟩ := Jobs.mem_claimBatch hjob
      exact ⟨if_pos hid, row, hrow, hst⟩
  | report now claim id r =>
    obtain ⟨h', hh', rfl⟩ := Option.map_eq_some_iff.mp hs
    obtain ⟨hmem, rfl, rfl⟩ := hold?_spec hh'
    obtain ⟨hin, hne⟩ := mem_release.mp hh
    obtain ⟨ho, row, hrow, hst⟩ := hq h hin
    have hid : h.job.id ≠ h'.job.id := by
      intro he
      have ho' := (hq h' hmem).1
      rw [← he, ho, Option.some.injEq] at ho'
      exact hne ⟨ho', he⟩
    refine ⟨?_, row, ?_, hst⟩
    · exact (Function.update_of_ne hid _ _).trans ho
    · exact (report_get?_ne _ _ _ _ hid).trans hrow
  | abandon claim id =>
    obtain ⟨h', -, rfl⟩ := Option.map_eq_some_iff.mp hs
    exact hq h (mem_release.mp hh).1
  | reapStuck now maxLockSecs =>
    cases hs
    obtain ⟨ho, row, hrow, hst⟩ := hq h hh
    have hstuck := ha h hh row hrow
    refine ⟨?_, row, Jobs.get?_reapStuck _ _ _ hrow hstuck, hst⟩
    show (if _ then none else q.owner h.job.id) = _
    rw [hrow, Option.any_some, hstuck]
    exact ho
  | gcOld now =>
    cases hs
    obtain ⟨ho, row, hrow, hst⟩ := hq h hh
    refine ⟨ho, row, ?_, hst⟩
    have hnew : Jobs.isOld now row = false := by simp [Jobs.isOld, hst]
    rw [Jobs.get?_gcOld, hrow, Option.filter_some, hnew]
    rfl

/-- From the invariant every step is right. -/
theorem stepOk_of_inv {q q' : Queue} {a : QueueAction} (hq : q.Inv) (hs : q.step a = some q') :
    q.StepOk a q' := by
  constructor
  · rintro now claim id r rfl i hi
    obtain ⟨h, hh, rfl⟩ := Option.map_eq_some_iff.mp hs
    obtain ⟨hmem, rfl, rfl⟩ := hold?_spec hh
    have hid : i = h.job.id := by
      by_contra hne
      exact hi (report_get?_ne _ _ _ _ hne)
    subst hid
    exact ⟨rfl, hq h hmem⟩
  · intro i row row' hrow hend hrow'
    have hnp : row.status ≠ .pending ∧ row.status ≠ .inProgress := by
      rcases hend with h | h <;> rw [h] <;> decide
    have hsame : row' = row := by
      cases a with
      | enqueue now kind payload delaySecs =>
        cases hs
        have := (Jobs.get?_enqueue q.jobs now kind payload delaySecs (Jobs.get?_lt hrow).ne).symm.trans
          hrow'
        rw [hrow] at this
        exact (Option.some.inj this).symm
      | claimBatch now workerId batchSize locked =>
        cases hs
        rw [Jobs.get?_claimBatch, hrow, Option.map_some, if_neg] at hrow'
        · exact (Option.some.inj hrow').symm
        · rw [show row.id = i from Table.key_of_get? hrow]
          intro hid
          obtain ⟨r, hr, hp⟩ := Jobs.pending_of_mem_claimedIds hid
          rw [hrow] at hr
          cases hr
          exact hnp.1 hp
      | report now claim id r =>
        obtain ⟨h, hh, rfl⟩ := Option.map_eq_some_iff.mp hs
        obtain ⟨hmem, rfl, rfl⟩ := hold?_spec hh
        have hid : i ≠ h.job.id := by
          rintro rfl
          obtain ⟨-, r', hr', hst⟩ := hq h hmem
          rw [hrow] at hr'
          cases hr'
          exact hnp.2 hst
        have := (report_get?_ne q.jobs now h.job r hid).symm.trans hrow'
        rw [hrow] at this
        exact (Option.some.inj this).symm
      | abandon claim id =>
        obtain ⟨h, hh, rfl⟩ := Option.map_eq_some_iff.mp hs
        exact Option.some.inj (hrow'.symm.trans hrow)
      | reapStuck now maxLockSecs =>
        cases hs
        have hstuck : Jobs.isStuck now maxLockSecs row = false := by simp [Jobs.isStuck, hnp.2]
        exact Option.some.inj (hrow'.symm.trans (Jobs.get?_reapStuck _ _ _ hrow hstuck))
      | gcOld now =>
        cases hs
        rw [Jobs.get?_gcOld, hrow, Option.filter_some] at hrow'
        split at hrow'
        · exact (Option.some.inj hrow').symm
        · cases hrow'
    rw [hsame]
    exact hend

/-- In a run whose reaps take no held job, every step is right. -/
theorem reached_stepOk {jobs : Jobs} {q q' : Queue} {a : QueueAction}
    (h : Lts.Reached step NoHeldReaped (start jobs) q) (hs : q.step a = some q') :
    q.StepOk a q' :=
  stepOk_of_inv (h.invariant (inv_start jobs) fun _ _ _ => inv_step) hs

/-- One job, claimed, reaped half an hour later while it still runs, and claimed again. -/
def reapedRun : List QueueAction :=
  [.enqueue 0 .playerSync .null 0, .claimBatch 0 "worker-0" 8 fun _ => false,
    .reapStuck (Jobs.seconds 1801) 1800, .claimBatch (Jobs.seconds 1801) "worker-1" 8 fun _ => false]

/-- The first worker's late report ends the job under the second one's claim, and
the second one's report brings it back. -/
theorem lateReport_notOk : ∃ q q' q'', Lts.Reached step (fun _ _ => True) (start .empty) q ∧
    q.step (.report (Jobs.seconds 1802) 0 1 .complete) = some q' ∧
    q'.step (.report (Jobs.seconds 1803) 1 1 (.failRetry "timeout" 0)) = some q'' ∧
    ¬q.StepOk (.report (Jobs.seconds 1802) 0 1 .complete) q' ∧
    ¬q'.StepOk (.report (Jobs.seconds 1803) 1 1 (.failRetry "timeout" 0)) q'' := by
  refine ⟨_, _, _, Lts.Reached.refl.of_run (fun _ _ _ => trivial)
    (show Lts.run step (start .empty) reapedRun = some _ from rfl), rfl, rfl, fun h => ?_, fun h => ?_⟩
  · have hc := (h.fenced _ 0 1 .complete rfl 1 fun he =>
      absurd (congrArg (Option.map JobRow.status) he) (by decide)).2.1
    exact absurd hc (by decide)
  · have he := h.ended 1 _ _ rfl (Or.inl rfl) rfl
    rcases he with he | he <;> exact absurd he (by decide)

/-- A reap that comes in time to find nothing stuck, and then the report. -/
theorem reached_stepOk_inTime : ∃ q q',
    Lts.run step (start .empty) [.enqueue 0 .playerSync .null 0,
      .claimBatch 0 "worker-0" 8 fun _ => false, .reapStuck (Jobs.seconds 600) 1800] = some q ∧
    q.step (.report (Jobs.seconds 601) 0 1 .complete) = some q' ∧
    q.StepOk (.report (Jobs.seconds 601) 0 1 .complete) q' := by
  refine ⟨_, _, rfl, rfl, reached_stepOk (.step (a := .reapStuck (Jobs.seconds 600) 1800)
    (.step (a := .claimBatch 0 "worker-0" 8 fun _ => false)
      (.step (a := .enqueue 0 .playerSync .null 0) .refl trivial rfl) trivial rfl) ?_ rfl) rfl⟩
  intro h hh row hrow
  cases List.mem_singleton.mp hh
  cases hrow
  decide

end Queue

end BirthdayRole
