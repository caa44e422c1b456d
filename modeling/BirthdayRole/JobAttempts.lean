/-
# How often a job is dispatched

The queue of `JobQueue` with the dispatches: a job that is held is dispatched at
most once under its claim, or released at shutdown, and its outcome decides the
report (`Report.ofOutcome`). A claim raises `attempts`, and so no two claims of a
job see the same number of them.

`attempts` is compared with `max_attempts` before a retry and nowhere else. The
reaper and the release at shutdown make a row pending that has no attempt left, and
so does the retry of an earlier claim; the next claim then goes over the limit
(`crashes_exceed_limit`). As long as no row is made pending without an attempt left,
every job stays within its limit (`reached_withinLimit`).
-/
import Mathlib.Data.List.Perm.Subperm
import BirthdayRole.JobQueue
import BirthdayRole.JobWorker

namespace BirthdayRole

open Json

/-- The report of an outcome. -/
def Report.ofOutcome (job : Job) (jitterMs : ℕ) : Except JobError Unit → Report
  | .ok () => .complete
  | .error (.terminal msg) => .failDead msg
  | .error (.retry msg) =>
    if job.attempts ≥ job.maxAttempts then .failDead msg else .failRetry msg jitterMs

/-- The report of a job that is released at shutdown. -/
def Report.atShutdown (jitterMs : ℕ) : Report := .failRetry "worker shutting down" jitterMs

/-- A queue and the holds whose job was dispatched. -/
structure Dispatcher where
  queue : Queue
  dispatched : List Hold

inductive DispatcherAction where
  /-- any statement but a report -/
  | statement (a : QueueAction)
  | dispatch (claim id : ℕ)
  | finish (now : Time) (claim id : ℕ) (outcome : Except JobError Unit) (jitterMs : ℕ)
  | release (now : Time) (claim id : ℕ) (jitterMs : ℕ)

namespace Queue

/-- A statement makes this row pending, whatever it was. -/
def Returns (row : JobRow) : QueueAction → Prop
  | .report _ _ id (.failRetry _ _) => row.id = id
  | .reapStuck now maxLockSecs => Jobs.isStuck now maxLockSecs row = true
  | _ => False

/-- What an update of one row leaves of any row. -/
theorem row_of_updateRow {jobs : Jobs} {i id : ℕ} {f : JobRow → JobRow} {row' : JobRow}
    (hf : ∀ r, (f r).id = r.id) (h : (jobs.updateRow i f hf).get? id = some row') :
    ∃ row, jobs.get? id = some row ∧ (row' = row ∨ row.id = i ∧ row' = f row) := by
  rw [Jobs.updateRow, Jobs.get?_update] at h
  obtain ⟨row, hrow, rfl⟩ := Option.map_eq_some_iff.mp h
  refine ⟨row, hrow, ?_⟩
  by_cases hid : row.id = i
  · exact Or.inr ⟨hid, if_pos hid⟩
  · exact Or.inl (if_neg hid)

/-- A report leaves the attempts, and only a retry makes its row pending. -/
theorem row_of_report {jobs : Jobs} {now : Time} {job : Job} {r : Report} {id : ℕ} {row' : JobRow}
    (h : (r.apply jobs now job).get? id = some row') (claim : ℕ) :
    ∃ row, jobs.get? id = some row ∧ row'.maxAttempts = row.maxAttempts ∧
      row'.attempts = row.attempts ∧
      (row'.status = .pending → row.status = .pending ∨ Returns row (.report now claim job.id r)) := by
  cases r with
  | complete =>
    obtain ⟨row, hrow, rfl | ⟨-, rfl⟩⟩ := row_of_updateRow (by exact fun _ => rfl) h
    · exact ⟨row', hrow, rfl, rfl, Or.inl⟩
    · exact ⟨row, hrow, rfl, rfl, fun hp => by cases hp⟩
  | failRetry err jitterMs =>
    obtain ⟨row, hrow, rfl | ⟨hid, rfl⟩⟩ := row_of_updateRow (by exact fun _ => rfl) h
    · exact ⟨row', hrow, rfl, rfl, Or.inl⟩
    · exact ⟨row, hrow, rfl, rfl, fun _ => Or.inr hid⟩
  | failDead err =>
    obtain ⟨row, hrow, rfl | ⟨-, rfl⟩⟩ := row_of_updateRow (by exact fun _ => rfl) h
    · exact ⟨row', hrow, rfl, rfl, Or.inl⟩
    · exact ⟨row, hrow, rfl, rfl, fun hp => by cases hp⟩

/-- What a statement leaves of a row: a new one, one that was claimed, or one with the
attempts it had. -/
theorem row_of_step {q q' : Queue} {a : QueueAction} {id : ℕ} {row' : JobRow}
    (hs : q.step a = some q') (hrow' : q'.jobs.get? id = some row') :
    (id = q.jobs.nextId ∧ row'.attempts = 0 ∧ row'.maxAttempts = 8) ∨
    ∃ row, q.jobs.get? id = some row ∧ row'.maxAttempts = row.maxAttempts ∧
      ((row.status = .pending ∧ row'.status = .inProgress ∧ row'.attempts = row.attempts + 1) ∨
        (row'.attempts = row.attempts ∧
          (row'.status = .pending → row.status = .pending ∨ Returns row a))) := by
  cases a with
  | enqueue now kind payload delaySecs =>
    cases hs
    by_cases hid : id = q.jobs.nextId
    · rw [hid, Jobs.get?, Jobs.enqueue, Table.get?_put_self] at hrow'
      cases hrow'
      exact Or.inl ⟨hid, rfl, rfl⟩
    · have hrow := (Jobs.get?_enqueue q.jobs now kind payload delaySecs hid).symm.trans hrow'
      exact Or.inr ⟨row', hrow, rfl, Or.inr ⟨rfl, Or.inl⟩⟩
  | claimBatch now workerId batchSize locked =>
    cases hs
    rw [Jobs.get?_claimBatch] at hrow'
    obtain ⟨row, hrow, rfl⟩ := Option.map_eq_some_iff.mp hrow'
    refine Or.inr ⟨row, hrow, ?_⟩
    by_cases hid : row.id ∈ q.jobs.claimedIds now batchSize locked
    · rw [if_pos hid]
      obtain ⟨r, hr, hp⟩ := Jobs.pending_of_mem_claimedIds hid
      rw [show row.id = id from Table.key_of_get? hrow, hrow] at hr
      cases hr
      exact ⟨rfl, Or.inl ⟨hp, rfl, rfl⟩⟩
    · rw [if_neg hid]
      exact ⟨rfl, Or.inr ⟨rfl, Or.inl⟩⟩
  | report now claim id' r =>
    obtain ⟨h, hh, rfl⟩ := Option.map_eq_some_iff.mp hs
    obtain ⟨-, -, rfl⟩ := hold?_spec hh
    obtain ⟨row, hrow, hmax, hatt⟩ := row_of_report hrow' claim
    exact Or.inr ⟨row, hrow, hmax, Or.inr hatt⟩
  | abandon claim id' =>
    obtain ⟨h, -, rfl⟩ := Option.map_eq_some_iff.mp hs
    exact Or.inr ⟨row', hrow', rfl, Or.inr ⟨rfl, Or.inl⟩⟩
  | reapStuck now maxLockSecs =>
    cases hs
    have hmap := (Jobs.get?_update q.jobs _ _ id).symm.trans hrow'
    obtain ⟨row, hrow, rfl⟩ := Option.map_eq_some_iff.mp hmap
    refine Or.inr ⟨row, hrow, ?_⟩
    by_cases hstuck : Jobs.isStuck now maxLockSecs row = true
    · rw [if_pos hstuck]
      exact ⟨rfl, Or.inr ⟨rfl, fun _ => Or.inr hstuck⟩⟩
    · rw [if_neg hstuck]
      exact ⟨rfl, Or.inr ⟨rfl, Or.inl⟩⟩
  | gcOld now =>
    cases hs
    have hrow := (Jobs.get?_gcOld q.jobs now id).symm.trans hrow'
    exact Or.inr ⟨row', (Option.filter_eq_some_iff.mp hrow).1, rfl, Or.inr ⟨rfl, Or.inl⟩⟩

/-- A job that is held after a statement was held before, or was claimed by it. -/
theorem hold_of_step {q q' : Queue} {a : QueueAction} {h : Hold} (hs : q.step a = some q')
    (hh : h ∈ q'.held) : h ∈ q.held ∨ (h.claim = q.nextClaim ∧ q'.nextClaim = q.nextClaim + 1 ∧
      ∃ row row', q.jobs.get? h.job.id = some row ∧ q'.jobs.get? h.job.id = some row' ∧
        row.status = .pending ∧ row'.attempts = row.attempts + 1 ∧ h.job.attempts = row'.attempts ∧
        h.job.maxAttempts = row.maxAttempts) := by
  cases a with
  | enqueue now kind payload delaySecs =>
    cases hs
    exact Or.inl hh
  | claimBatch now workerId batchSize locked =>
    cases hs
    rcases List.mem_append.mp hh with hh | hh
    · exact Or.inl hh
    · obtain ⟨job, hjob, rfl⟩ := List.mem_map.mp hh
      refine Or.inr ⟨rfl, rfl, ?_⟩
      obtain ⟨r, hr, rfl⟩ := List.mem_map.mp hjob
      obtain ⟨hr, hid⟩ := List.mem_filter.mp hr
      have hget : (q.jobs.claimBatch now workerId batchSize locked).1.get? r.id = some r :=
        Table.get?_eq_some.mpr ⟨hr, rfl⟩
      have hmap := hget
      rw [Jobs.get?_claimBatch] at hmap
      obtain ⟨row, hrow, hr'⟩ := Option.map_eq_some_iff.mp hmap
      have hid : r.id ∈ q.jobs.claimedIds now batchSize locked := by simpa using hid
      rw [show row.id = r.id from Table.key_of_get? hrow, if_pos hid] at hr'
      obtain ⟨row', hrow', hp⟩ := Jobs.pending_of_mem_claimedIds hid
      rw [hrow] at hrow'
      cases hrow'
      refine ⟨row, r, hrow, hget, hp, ?_, rfl, ?_⟩
      · rw [← hr', Jobs.claimRow]
      · show r.maxAttempts = row.maxAttempts
        rw [← hr', Jobs.claimRow]
  | report now claim id r =>
    obtain ⟨h', hh', rfl⟩ := Option.map_eq_some_iff.mp hs
    exact Or.inl (mem_release.mp hh).1
  | abandon claim id =>
    obtain ⟨h', hh', rfl⟩ := Option.map_eq_some_iff.mp hs
    exact Or.inl (mem_release.mp hh).1
  | reapStuck now maxLockSecs =>
    cases hs
    exact Or.inl hh
  | gcOld now =>
    cases hs
    exact Or.inl hh

/-- Ids and claims are given out in order. -/
theorem next_of_step {q q' : Queue} {a : QueueAction} (hs : q.step a = some q') :
    q.jobs.nextId ≤ q'.jobs.nextId ∧ q.nextClaim ≤ q'.nextClaim := by
  cases a with
  | enqueue now kind payload delaySecs =>
    cases hs
    exact ⟨Nat.le_succ _, le_rfl⟩
  | claimBatch now workerId batchSize locked =>
    cases hs
    exact ⟨le_rfl, Nat.le_succ _⟩
  | report now claim id r =>
    obtain ⟨h', -, rfl⟩ := Option.map_eq_some_iff.mp hs
    refine ⟨?_, le_rfl⟩
    cases r <;> exact le_rfl
  | abandon claim id =>
    obtain ⟨h', -, rfl⟩ := Option.map_eq_some_iff.mp hs
    exact ⟨le_rfl, le_rfl⟩
  | reapStuck now maxLockSecs =>
    cases hs
    exact ⟨le_rfl, le_rfl⟩
  | gcOld now =>
    cases hs
    exact ⟨le_rfl, le_rfl⟩

end Queue

namespace Dispatcher

def isDispatched (d : Dispatcher) (claim id : ℕ) : Bool :=
  d.dispatched.any fun h => h.claim = claim && h.job.id = id

/-- The statement of an action. -/
def statement? (d : Dispatcher) : DispatcherAction → Option QueueAction
  | .statement (.report _ _ _ _) => none
  | .statement a => some a
  | .dispatch _ _ => none
  | .finish now claim id outcome jitterMs =>
    if d.isDispatched claim id then
      (d.queue.hold? claim id).map fun h =>
        .report now claim id (Report.ofOutcome h.job jitterMs outcome)
    else none
  | .release now claim id jitterMs =>
    if d.isDispatched claim id then none else some (.report now claim id (.atShutdown jitterMs))

def step (d : Dispatcher) : DispatcherAction → Option Dispatcher
  | .dispatch claim id =>
    if d.isDispatched claim id then none
    else (d.queue.hold? claim id).map fun h => { d with dispatched := h :: d.dispatched }
  | a => (d.statement? a).bind fun a => (d.queue.step a).map fun q => { d with queue := q }

/-- No jobs yet. -/
def start : Dispatcher := ⟨Queue.start .empty, []⟩

/-- How often a job was dispatched. -/
def dispatches (d : Dispatcher) (id : ℕ) : ℕ := (d.dispatched.filter (·.job.id = id)).length

/-- No job has more attempts, or was dispatched more often, than it may. -/
structure WithinLimit (d : Dispatcher) : Prop where
  attempts : ∀ id row, d.queue.jobs.get? id = some row → row.attempts ≤ row.maxAttempts
  dispatches : ∀ h ∈ d.dispatched, d.dispatches h.job.id ≤ h.job.maxAttempts

/-- No statement makes a row pending that has no attempt left. -/
def NoSpentReturn (d : Dispatcher) (a : DispatcherAction) : Prop :=
  ∀ s, d.statement? a = some s → ∀ id row, d.queue.jobs.get? id = some row → Queue.Returns row s →
    row.attempts < row.maxAttempts

/-! ### One attempt, one claim -/

/-- A hold that was given out. -/
def Given (d : Dispatcher) (h : Hold) : Prop := h ∈ d.queue.held ∨ h ∈ d.dispatched

/-- A pending row has an attempt left, a hold has the attempts of its claim, and no
other claim of the job has as many. -/
structure Inv (d : Dispatcher) : Prop where
  left : ∀ id row, d.queue.jobs.get? id = some row → row.attempts ≤ row.maxAttempts ∧
    (row.status = .pending → row.attempts < row.maxAttempts)
  limit : ∀ id row, d.queue.jobs.get? id = some row → row.maxAttempts = 8
  given : ∀ h, d.Given h → h.claim < d.queue.nextClaim ∧ h.job.id < d.queue.jobs.nextId ∧
    1 ≤ h.job.attempts ∧ h.job.attempts ≤ h.job.maxAttempts ∧ h.job.maxAttempts = 8
  below : ∀ h, d.Given h → ∀ row, d.queue.jobs.get? h.job.id = some row →
    h.job.attempts ≤ row.attempts
  oneClaim : ∀ h h', d.Given h → d.Given h' → h.job.id = h'.job.id →
    h.job.attempts = h'.job.attempts → h.claim = h'.claim
  once : d.dispatched.Pairwise fun h h' => ¬(h.job.id = h'.job.id ∧ h.claim = h'.claim)

theorem inv_start : start.Inv where
  left _ _ h := by cases h
  limit _ _ h := by cases h
  given _ h := by rcases h with h | h <;> cases h
  below _ h := by rcases h with h | h <;> cases h
  oneClaim _ _ h := by rcases h with h | h <;> cases h
  once := List.Pairwise.nil

/-- A statement of the queue. -/
theorem inv_queue {d : Dispatcher} {s : QueueAction} {q : Queue} (hd : d.Inv)
    (hleft : ∀ id row, d.queue.jobs.get? id = some row → Queue.Returns row s →
      row.attempts < row.maxAttempts) (hs : d.queue.step s = some q) :
    ({ d with queue := q } : Dispatcher).Inv := by
  obtain ⟨hid, hclaim⟩ := Queue.next_of_step hs
  -- a hold is an old one, or its attempts are more than those of every old one
  have hgiven : ∀ h, ({ d with queue := q } : Dispatcher).Given h → d.Given h ∨
      (h.claim = d.queue.nextClaim ∧ h.claim < q.nextClaim ∧
        ∃ row row', d.queue.jobs.get? h.job.id = some row ∧ q.jobs.get? h.job.id = some row' ∧
          row.status = .pending ∧ row'.attempts = row.attempts + 1 ∧
          h.job.attempts = row'.attempts ∧ h.job.maxAttempts = row.maxAttempts) := by
    rintro h (hh | hh)
    · rcases Queue.hold_of_step hs hh with hold | ⟨hc, hn, hrow⟩
      · exact Or.inl (Or.inl hold)
      · exact Or.inr ⟨hc, by omega, hrow⟩
    · exact Or.inl (Or.inr hh)
  refine ⟨fun id row' hrow' => ?_, fun id row' hrow' => ?_, fun h hh => ?_, fun h hh row' hrow' => ?_,
    fun h h' hh hh' hsame hatt => ?_, hd.once⟩
  · rcases Queue.row_of_step hs hrow' with ⟨-, h0, h8⟩ | ⟨row, hrow, hmax, hcase⟩
    · omega
    · obtain ⟨hle, hlt⟩ := hd.left id row hrow
      rcases hcase with ⟨hp, hp', hatt⟩ | ⟨hatt, hp⟩
      · have := hlt hp
        exact ⟨by omega, fun h => by rw [hp'] at h; cases h⟩
      · refine ⟨by omega, fun h => ?_⟩
        rcases hp h with h | h
        · have := hlt h
          omega
        · have := hleft id row hrow h
          omega
  · rcases Queue.row_of_step hs hrow' with ⟨-, -, h8⟩ | ⟨row, hrow, hmax, -⟩
    · exact h8
    · rw [hmax, hd.limit id row hrow]
  · rcases hgiven h hh with hh | ⟨hc, hlt, row, row', hrow, -, hp, hatt, hjob, hmax⟩
    · have := hd.given h hh
      show h.claim < q.nextClaim ∧ h.job.id < q.jobs.nextId ∧ _
      omega
    · have := (hd.left _ row hrow).2 hp
      have := hd.limit _ row hrow
      have := Jobs.get?_lt hrow
      show h.claim < q.nextClaim ∧ h.job.id < q.jobs.nextId ∧ _
      omega
  · rcases hgiven h hh with hh | ⟨-, -, row, row'', -, hnew, -, -, hjob, -⟩
    · rcases Queue.row_of_step hs hrow' with ⟨hnew, -⟩ | ⟨row, hrow, -, hcase⟩
      · have := (hd.given h hh).2.1
        omega
      · have := hd.below h hh row hrow
        rcases hcase with ⟨-, -, h⟩ | ⟨h, -⟩ <;> omega
    · have hnew := hnew.symm.trans hrow'
      cases hnew
      omega
  · rcases hgiven h hh with hh | ⟨hc, -, row, row', hrow, -, -, hrowatt, hjob, -⟩
    · rcases hgiven h' hh' with hh' | ⟨hc', -, row, row', hrow, -, -, hrowatt, hjob, -⟩
      · exact hd.oneClaim h h' hh hh' hsame hatt
      · have := hd.below h hh row (by rw [hsame]; exact hrow)
        omega
    · rcases hgiven h' hh' with hh' | ⟨hc', -⟩
      · have := hd.below h' hh' row (by rw [← hsame]; exact hrow)
        omega
      · rw [hc, hc']

/-- One action. -/
theorem inv_step {d d' : Dispatcher} {a : DispatcherAction} (hd : d.Inv) (ha : d.NoSpentReturn a)
    (hs : d.step a = some d') : d'.Inv := by
  cases a with
  | dispatch claim id =>
    simp only [step] at hs
    by_cases hdis : d.isDispatched claim id = true
    · rw [if_pos hdis] at hs
      cases hs
    · rw [if_neg hdis] at hs
      obtain ⟨h, hh, rfl⟩ := Option.map_eq_some_iff.mp hs
      obtain ⟨hmem, rfl, rfl⟩ := Queue.hold?_spec hh
      have hgiven : ∀ h', ({ d with dispatched := h :: d.dispatched } : Dispatcher).Given h' →
          d.Given h' := by
        rintro h' (hh' | hh')
        · exact Or.inl hh'
        · rcases List.mem_cons.mp hh' with rfl | hh'
          · exact Or.inl hmem
          · exact Or.inr hh'
      refine ⟨hd.left, hd.limit, fun h' hh' => hd.given h' (hgiven h' hh'),
        fun h' hh' => hd.below h' (hgiven h' hh'),
        fun h' h'' hh' hh'' => hd.oneClaim h' h'' (hgiven h' hh') (hgiven h'' hh''),
        List.pairwise_cons.mpr ⟨fun h' hh' hsame => hdis ?_, hd.once⟩⟩
      refine List.any_eq_true.mpr ⟨h', hh', ?_⟩
      simp [hsame.1, hsame.2]
  | statement a =>
    obtain ⟨s, hstat, hs⟩ := Option.bind_eq_some_iff.mp hs
    obtain ⟨q, hq, rfl⟩ := Option.map_eq_some_iff.mp hs
    exact inv_queue hd (ha s hstat) hq
  | finish now claim id outcome jitterMs =>
    obtain ⟨s, hstat, hs⟩ := Option.bind_eq_some_iff.mp hs
    obtain ⟨q, hq, rfl⟩ := Option.map_eq_some_iff.mp hs
    exact inv_queue hd (ha s hstat) hq
  | release now claim id jitterMs =>
    obtain ⟨s, hstat, hs⟩ := Option.bind_eq_some_iff.mp hs
    obtain ⟨q, hq, rfl⟩ := Option.map_eq_some_iff.mp hs
    exact inv_queue hd (ha s hstat) hq

/-- The dispatches of a job have different attempts, from one up to the limit. -/
theorem Inv.withinLimit {d : Dispatcher} (hd : d.Inv) : d.WithinLimit := by
  refine ⟨fun id row hrow => (hd.left id row hrow).1, fun h hh => ?_⟩
  obtain ⟨-, -, -, -, hmax⟩ := hd.given h (Or.inr hh)
  rw [hmax]
  let own := d.dispatched.filter (·.job.id = h.job.id)
  have hown : ∀ h' ∈ own, h' ∈ d.dispatched ∧ h'.job.id = h.job.id := by
    intro h' hh'
    simpa [own] using hh'
  have hnodup : (own.map fun h => h.job.attempts).Nodup := by
    refine List.pairwise_map.mpr ?_
    refine List.Pairwise.imp_of_mem ?_ (hd.once.filter _)
    intro h' h'' hh' hh'' hne hatt
    obtain ⟨hmem', hid'⟩ := hown h' hh'
    obtain ⟨hmem'', hid''⟩ := hown h'' hh''
    have hsame : h'.job.id = h''.job.id := hid'.trans hid''.symm
    exact hne ⟨hsame, hd.oneClaim h' h'' (Or.inr hmem') (Or.inr hmem'') hsame hatt⟩
  have hrange : (own.map fun h => h.job.attempts) ⊆ List.range' 1 8 := by
    intro n hn
    obtain ⟨h', hh', rfl⟩ := List.mem_map.mp hn
    obtain ⟨-, -, h1, hle, h8⟩ := hd.given h' (Or.inr (hown h' hh').1)
    rw [List.mem_range'_1]
    omega
  calc d.dispatches h.job.id = (own.map fun h => h.job.attempts).length := by
        rw [List.length_map, dispatches]
    _ ≤ (List.range' 1 8).length := (List.Nodup.subperm hnodup hrange).length_le
    _ = 8 := List.length_range'

/-- In a run that makes no row pending without an attempt left, every job stays within
its limit. -/
theorem reached_withinLimit {d : Dispatcher} (h : Lts.Reached step NoSpentReturn start d) :
    d.WithinLimit :=
  (h.invariant inv_start fun _ _ _ => inv_step).withinLimit

/-- One job, whose first attempt is retried. -/
theorem reached_withinLimit_retry : ∃ d, Lts.run step start
    [.statement (.enqueue 0 .playerSync .null 0),
      .statement (.claimBatch 0 "worker-0" 8 fun _ => false), .dispatch 0 1,
      .finish 1 0 1 (.error (.retry "timeout")) 0] = some d ∧ d.dispatches 1 = 1 ∧ d.WithinLimit := by
  refine ⟨_, rfl, rfl, reached_withinLimit
    (.step (a := .finish 1 0 1 (.error (.retry "timeout")) 0) (.step (a := .dispatch 0 1)
      (.step (a := .statement (.claimBatch 0 "worker-0" 8 fun _ => false))
        (.step (a := .statement (.enqueue 0 .playerSync .null 0)) .refl ?_ rfl) ?_ rfl) ?_ rfl) ?_ rfl)⟩
  · rintro s ⟨⟩ id row - ⟨⟩
  · rintro s ⟨⟩ id row - ⟨⟩
  · rintro s ⟨⟩
  · rintro s ⟨⟩ id row hrow -
    cases List.mem_singleton.mp (Table.get?_eq_some.mp hrow).1
    decide

/-- A job is claimed and dispatched, its worker crashes, and half an hour later the
reaper takes it. -/
def crash (n : ℕ) : List DispatcherAction :=
  [.statement (.claimBatch (Jobs.seconds (1801 * n)) "worker-0" 8 fun _ => false),
    .dispatch n 1, .statement (.abandon n 1),
    .statement (.reapStuck (Jobs.seconds (1801 * (n + 1))) 1800)]

/-- A job whose worker crashes nine times. -/
def crashes : List DispatcherAction :=
  .statement (.enqueue 0 .playerSync .null 0) :: (List.range 9).flatMap crash

theorem crashes_exceed_limit : ∃ d, Lts.Reached step (fun _ _ => True) start d ∧
    (∃ row, d.queue.jobs.get? 1 = some row ∧ row.attempts = 9 ∧ row.maxAttempts = 8) ∧
    d.dispatches 1 = 9 ∧ ¬d.WithinLimit := by
  refine ⟨_, Lts.Reached.refl.of_run (fun _ _ _ => trivial)
    (show Lts.run step start crashes = some _ from rfl), ⟨_, rfl, rfl, rfl⟩, rfl, fun h => ?_⟩
  exact absurd (h.attempts 1 _ rfl) (by decide)

end Dispatcher

end BirthdayRole
