/-
# A job worker and the shutdown signal (`tasks/job_worker.rs`, `tasks/shutdown.rs`)

The loop of `run` as a machine: one step is one check, one call or one `select!`,
and the rest of the world answers it. The signal arrives before any one step.

The guard is a broadcast receiver, not a latch: a check takes the message, and the
next check finds none. So what the first check after the signal is decides
everything. At the top of the loop, or in a `select!`, the worker stops. Before a
job of a batch, that job is released and then nothing remembers the signal: the
next job is dispatched, or the next batch claimed. `respectsShutdown_iff`: the
worker does as it should exactly when the signal finds no such check ahead
(`DuringBatch`).
-/
import BirthdayRole.Jobs

namespace BirthdayRole

/-- A receiver of the shutdown channel, whose sender lives: the message, if it
was sent and not yet taken. -/
structure ShutdownGuard where
  queued : Bool

/-- `is_triggered`: `try_recv`, which takes the message. -/
def ShutdownGuard.isTriggered (g : ShutdownGuard) : Bool × ShutdownGuard := (g.queued, ⟨false⟩)

inductive JobError where
  | terminal (msg : String)
  | retry (msg : String)

/-- Where the worker is. -/
inductive Pc where
  | top
  | reap
  | claim
  /-- the `select!` after a claim that failed -/
  | errWait
  /-- the `select!` after a claim of nothing -/
  | idle
  /-- the jobs of the batch that are left -/
  | next (batch : List Job)
  | release (job : Job) (rest : List Job)
  | dispatch (job : Job) (rest : List Job)
  | report (job : Job) (outcome : Except JobError Unit) (rest : List Job)
  | stopped

structure Worker where
  pc : Pc
  guard : ShutdownGuard

/-- What the world answers to a step; a step uses the part that it asks for. -/
structure Answer where
  /-- two minutes since the last reap -/
  elapsed : Bool
  claimed : Option (List Job)
  /-- a `select!` takes the branch of the shutdown, if that is ready -/
  shutdownBranch : Bool
  outcome : Except JobError Unit

/-- The calls of the worker to the outside. -/
inductive Call where
  | reapStuck
  | claimBatch
  | dispatch (job : Job)
  | complete (id : ℕ)
  | failRetry (job : Job) (err : String)
  | failDead (id : ℕ) (err : String)

namespace Worker

def start : Worker := ⟨.top, ⟨false⟩⟩

/-- A `select!` of the shutdown and something that sends the worker to the top. -/
def select (a : Answer) (w : Worker) : Worker :=
  if a.shutdownBranch && w.guard.queued then ⟨.stopped, ⟨false⟩⟩ else ⟨.top, w.guard⟩

def step (a : Answer) (w : Worker) : Worker :=
  match w.pc with
  | .top =>
    let (triggered, guard) := w.guard.isTriggered
    ⟨if triggered then .stopped else .reap, guard⟩
  | .reap => { w with pc := .claim }
  | .claim =>
    match a.claimed with
    | none => { w with pc := .errWait }
    | some [] => { w with pc := .idle }
    | some (job :: rest) => { w with pc := .next (job :: rest) }
  | .errWait | .idle => w.select a
  | .next [] => { w with pc := .top }
  | .next (job :: rest) =>
    let (triggered, guard) := w.guard.isTriggered
    ⟨if triggered then .release job rest else .dispatch job rest, guard⟩
  | .release _ rest => { w with pc := .next rest }
  | .dispatch job rest => { w with pc := .report job a.outcome rest }
  | .report _ _ rest => { w with pc := .next rest }
  | .stopped => w

def call (a : Answer) (w : Worker) : Option Call :=
  match w.pc with
  | .reap => if a.elapsed then some .reapStuck else none
  | .claim => some .claimBatch
  | .release job _ => some (.failRetry job "worker shutting down")
  | .dispatch job _ => some (.dispatch job)
  | .report job (.ok ()) _ => some (.complete job.id)
  | .report job (.error (.terminal msg)) _ => some (.failDead job.id msg)
  | .report job (.error (.retry msg)) _ =>
    if job.attempts ≥ job.maxAttempts then some (.failDead job.id msg) else some (.failRetry job msg)
  | _ => none

/-- The worker asks whether the shutdown was triggered, or hears of it. -/
def IsCheck (a : Answer) (w : Worker) : Prop :=
  match w.pc with
  | .top | .next (_ :: _) => True
  | .errWait | .idle => a.shutdownBranch = true ∧ w.guard.queued = true
  | _ => False

/-- The jobs of the current batch that were not dispatched. -/
def undispatched (w : Worker) : List Job :=
  match w.pc with
  | .next batch => batch
  | _ => []

end Worker

/-- A run: the world's answers, and the step before which the signal arrives. -/
structure WorkerRun where
  answer : ℕ → Answer
  signal : ℕ

namespace WorkerRun

def receive (r : WorkerRun) (n : ℕ) (w : Worker) : Worker :=
  if n = r.signal then { w with guard := ⟨true⟩ } else w

/-- The worker before its `n`-th step. -/
def state (r : WorkerRun) : ℕ → Worker
  | 0 => r.receive 0 Worker.start
  | n + 1 => r.receive (n + 1) (Worker.step (r.answer n) (r.state n))

def call (r : WorkerRun) (n : ℕ) : Option Call := Worker.call (r.answer n) (r.state n)

def IsCheck (r : WorkerRun) (n : ℕ) : Prop := Worker.IsCheck (r.answer n) (r.state n)

/-- From check `n` on: nothing is dispatched or claimed, and the rest of the batch
is released. -/
def Drains (r : WorkerRun) (n : ℕ) : Prop :=
  (∀ m, n ≤ m → r.call m ≠ some .claimBatch ∧ ∀ job, r.call m ≠ some (.dispatch job)) ∧
    ∀ job ∈ (r.state n).undispatched, ∃ m, n ≤ m ∧
      r.call m = some (.failRetry job "worker shutting down")

/-- The first check at or after `k` drains the worker. -/
def RespectsFrom (r : WorkerRun) (k : ℕ) : Prop :=
  ∀ n, k ≤ n → r.IsCheck n → (∀ m, k ≤ m → m < n → ¬r.IsCheck m) → r.Drains n

/-- From the first check after the signal on, the worker does nothing new. -/
def RespectsShutdown (r : WorkerRun) : Prop := r.RespectsFrom r.signal

/-- The signal arrives with a check before a job ahead: while jobs of the batch are
left, or between the check at the top and a claim that returns some. -/
def DuringBatch (r : WorkerRun) : Prop :=
  match (r.state r.signal).pc with
  | .reap => ∃ job rest, (r.answer (r.signal + 1)).claimed = some (job :: rest)
  | .claim => ∃ job rest, (r.answer r.signal).claimed = some (job :: rest)
  | .next (_ :: _) | .dispatch _ (_ :: _) | .report _ _ (_ :: _) => True
  | _ => False

/-! ### Before and after the signal -/

variable {r : WorkerRun} {n : ℕ}

theorem state_succ (h : r.signal ≤ n) :
    r.state (n + 1) = Worker.step (r.answer n) (r.state n) :=
  if_neg (by omega)

/-- A worker that has no message neither stops nor releases. -/
theorem step_quiet (a : Answer) {w : Worker} (hq : w.guard.queued = false) (hs : w.pc ≠ .stopped)
    (hr : ∀ job rest, w.pc ≠ .release job rest) : (w.step a).guard.queued = false ∧
      (w.step a).pc ≠ .stopped ∧ ∀ job rest, (w.step a).pc ≠ .release job rest := by
  obtain ⟨pc, ⟨q⟩⟩ := w
  cases hq
  cases pc with
  | top | reap | dispatch | report => simp [Worker.step, ShutdownGuard.isTriggered]
  | claim =>
    simp only [Worker.step]
    split <;> simp
  | errWait | idle => simp [Worker.step, Worker.select]
  | next batch => cases batch <;> simp [Worker.step, ShutdownGuard.isTriggered]
  | release job rest => exact absurd rfl (hr job rest)
  | stopped => exact absurd rfl hs

/-- Until the signal, no message is queued, no job is released and the worker runs. -/
theorem before_signal : ∀ {n : ℕ}, n ≤ r.signal →
    (n < r.signal → (r.state n).guard.queued = false) ∧ (r.state n).pc ≠ .stopped ∧
      ∀ job rest, (r.state n).pc ≠ .release job rest
  | 0, _ => by
    unfold state receive Worker.start
    split
    · exact ⟨fun h => absurd h (by omega), by simp, by simp⟩
    · exact ⟨fun _ => rfl, by simp, by simp⟩
  | n + 1, hn => by
    obtain ⟨hq, hs, hr⟩ := before_signal (n := n) (by omega)
    obtain ⟨hq', hs', hr'⟩ := step_quiet (r.answer n) (hq (by omega)) hs hr
    unfold state receive
    split
    · exact ⟨fun h => absurd h (by omega), hs', hr'⟩
    · exact ⟨fun _ => hq', hs', hr'⟩

theorem queued_at_signal : (r.state r.signal).guard.queued = true := by
  cases h : r.signal with
  | zero =>
    unfold state receive
    rw [if_pos h.symm]
  | succ k =>
    unfold state receive
    rw [if_pos h.symm]

/-! ### The first check -/

/-- A step that is no check puts the first check off. -/
theorem respectsFrom_succ (hn : ¬r.IsCheck n) : r.RespectsFrom n ↔ r.RespectsFrom (n + 1) := by
  constructor
  · intro h k hk hc hfirst
    refine h k (by omega) hc fun m hm hmk => ?_
    rcases Nat.eq_or_lt_of_le hm with rfl | hm
    · exact hn
    · exact hfirst m hm hmk
  · intro h k hk hc hfirst
    rcases Nat.eq_or_lt_of_le hk with rfl | hk
    · exact absurd hc hn
    · exact h k hk hc fun m hm hmk => hfirst m (by omega) hmk

/-- A check decides. -/
theorem respectsFrom_check (hn : r.IsCheck n) : r.RespectsFrom n ↔ r.Drains n := by
  constructor
  · exact fun h => h n le_rfl hn fun m hm hmn => absurd hm (by omega)
  · intro h k hk hc hfirst
    rcases Nat.eq_or_lt_of_le hk with rfl | hk
    · exact h
    · exact absurd hn (hfirst n le_rfl hk)

/-- A worker that has stopped calls nothing. -/
theorem stopped_forever {g : ShutdownGuard} (hsig : r.signal ≤ n) (hn : r.state n = ⟨.stopped, g⟩) :
    ∀ m, n ≤ m → r.state m = ⟨.stopped, g⟩
  | m, hm => by
    induction m, hm using Nat.le_induction with
    | base => exact hn
    | succ m hm ih => rw [state_succ (by omega), ih]; rfl

/-- A check after which the worker stops drains it, if it had no jobs left. -/
theorem drains_of_stops {g : ShutdownGuard} (hsig : r.signal ≤ n)
    (hcall : r.call n = none) (hbatch : (r.state n).undispatched = [])
    (hstop : r.state (n + 1) = ⟨.stopped, g⟩) : r.Drains n := by
  constructor
  · intro m hm
    have hnone : r.call m = none := by
      rcases Nat.eq_or_lt_of_le hm with rfl | hm
      · exact hcall
      · unfold call
        rw [stopped_forever (n := n + 1) (by omega) hstop m hm]
        rfl
    rw [hnone]
    exact ⟨by simp, by simp⟩
  · rw [hbatch]
    exact fun job hjob => absurd hjob List.not_mem_nil

/-- At the top with the message: the worker stops. -/
theorem respects_top (hsig : r.signal ≤ n) (hn : r.state n = ⟨.top, ⟨true⟩⟩) : r.RespectsFrom n := by
  have hc : r.IsCheck n := by unfold IsCheck; rw [hn]; trivial
  have hs : r.state (n + 1) = ⟨.stopped, ⟨false⟩⟩ := by rw [state_succ hsig, hn]; rfl
  refine (respectsFrom_check hc).mpr (drains_of_stops hsig ?_ ?_ hs)
  · unfold call; rw [hn]; rfl
  · rw [hn]; rfl

/-- In a `select!` with the message: it is heard here or at the top. -/
theorem respects_select {pc : Pc} (hsig : r.signal ≤ n) (hpc : pc = .errWait ∨ pc = .idle)
    (hn : r.state n = ⟨pc, ⟨true⟩⟩) : r.RespectsFrom n := by
  have hstep : Worker.step (r.answer n) ⟨pc, ⟨true⟩⟩ =
      Worker.select (r.answer n) ⟨pc, ⟨true⟩⟩ := by rcases hpc with rfl | rfl <;> rfl
  cases hb : (r.answer n).shutdownBranch with
  | true =>
    have hc : r.IsCheck n := by
      unfold IsCheck
      rw [hn]
      rcases hpc with rfl | rfl <;> exact ⟨hb, rfl⟩
    have hs : r.state (n + 1) = ⟨.stopped, ⟨false⟩⟩ := by
      rw [state_succ hsig, hn, hstep, Worker.select, hb]
      rfl
    refine (respectsFrom_check hc).mpr (drains_of_stops hsig ?_ ?_ hs)
    · unfold call; rw [hn]; rcases hpc with rfl | rfl <;> rfl
    · rw [hn]; rcases hpc with rfl | rfl <;> rfl
  | false =>
    have hc : ¬r.IsCheck n := by
      unfold IsCheck
      rw [hn]
      rcases hpc with rfl | rfl <;> simp [Worker.IsCheck, hb]
    have hs : r.state (n + 1) = ⟨.top, ⟨true⟩⟩ := by
      rw [state_succ hsig, hn, hstep, Worker.select, hb]
      rfl
    exact (respectsFrom_succ hc).mpr (respects_top (by omega) hs)

/-- At the end of a batch with the message. -/
theorem respects_batchEnd (hsig : r.signal ≤ n) (hn : r.state n = ⟨.next [], ⟨true⟩⟩) :
    r.RespectsFrom n := by
  have hc : ¬r.IsCheck n := by unfold IsCheck; rw [hn]; exact fun h => h
  have hs : r.state (n + 1) = ⟨.top, ⟨true⟩⟩ := by rw [state_succ hsig, hn]; rfl
  exact (respectsFrom_succ hc).mpr (respects_top (by omega) hs)

/-- Before a job with the message: the job is released, and the next dispatch or
claim comes all the same. -/
theorem not_respects_batch {job : Job} {rest : List Job} (hsig : r.signal ≤ n)
    (hn : r.state n = ⟨.next (job :: rest), ⟨true⟩⟩) : ¬r.RespectsFrom n := by
  have hc : r.IsCheck n := by unfold IsCheck; rw [hn]; trivial
  rw [respectsFrom_check hc]
  rintro ⟨hnew, -⟩
  have h1 : r.state (n + 1) = ⟨.release job rest, ⟨false⟩⟩ := by rw [state_succ hsig, hn]; rfl
  have h2 : r.state (n + 2) = ⟨.next rest, ⟨false⟩⟩ := by rw [state_succ (by omega), h1]; rfl
  cases rest with
  | nil =>
    have h3 : r.state (n + 3) = ⟨.top, ⟨false⟩⟩ := by rw [state_succ (by omega), h2]; rfl
    have h4 : r.state (n + 4) = ⟨.reap, ⟨false⟩⟩ := by rw [state_succ (by omega), h3]; rfl
    have h5 : r.state (n + 5) = ⟨.claim, ⟨false⟩⟩ := by rw [state_succ (by omega), h4]; rfl
    refine (hnew (n + 5) (by omega)).1 ?_
    unfold call
    rw [h5]
    rfl
  | cons job' rest =>
    have h3 : r.state (n + 3) = ⟨.dispatch job' rest, ⟨false⟩⟩ := by
      rw [state_succ (by omega), h2]; rfl
    refine (hnew (n + 3) (by omega)).2 job' ?_
    unfold call
    rw [h3]
    rfl

/-- A step of a worker with the message that is no check and keeps it. -/
theorem respects_skip {pc pc' : Pc} (hsig : r.signal ≤ n) (hn : r.state n = ⟨pc, ⟨true⟩⟩)
    (hc : ∀ a, ¬Worker.IsCheck a ⟨pc, ⟨true⟩⟩)
    (hstep : Worker.step (r.answer n) ⟨pc, ⟨true⟩⟩ = ⟨pc', ⟨true⟩⟩) :
    r.state (n + 1) = ⟨pc', ⟨true⟩⟩ ∧ (r.RespectsFrom n ↔ r.RespectsFrom (n + 1)) := by
  refine ⟨by rw [state_succ hsig, hn, hstep], respectsFrom_succ ?_⟩
  unfold IsCheck
  rw [hn]
  exact hc _

theorem respects_next {batch : List Job} (hsig : r.signal ≤ n)
    (hn : r.state n = ⟨.next batch, ⟨true⟩⟩) : r.RespectsFrom n ↔ batch = [] := by
  cases batch with
  | nil => exact ⟨fun _ => rfl, fun _ => respects_batchEnd hsig hn⟩
  | cons job rest => exact ⟨fun h => absurd h (not_respects_batch hsig hn), fun h => by cases h⟩

theorem respects_report {job : Job} {outcome : Except JobError Unit} {rest : List Job}
    (hsig : r.signal ≤ n) (hn : r.state n = ⟨.report job outcome rest, ⟨true⟩⟩) :
    r.RespectsFrom n ↔ rest = [] := by
  obtain ⟨hs, hiff⟩ := respects_skip hsig hn (fun _ h => h) rfl
  rw [hiff, respects_next (by omega) hs]

theorem respects_dispatch {job : Job} {rest : List Job} (hsig : r.signal ≤ n)
    (hn : r.state n = ⟨.dispatch job rest, ⟨true⟩⟩) : r.RespectsFrom n ↔ rest = [] := by
  obtain ⟨hs, hiff⟩ := respects_skip hsig hn (fun _ h => h) rfl
  rw [hiff, respects_report (by omega) hs]

theorem respects_claim (hsig : r.signal ≤ n) (hn : r.state n = ⟨.claim, ⟨true⟩⟩) :
    r.RespectsFrom n ↔ ¬∃ job rest, (r.answer n).claimed = some (job :: rest) := by
  cases ha : (r.answer n).claimed with
  | none =>
    obtain ⟨hs, hiff⟩ := respects_skip hsig hn (fun _ h => h)
      (show Worker.step (r.answer n) ⟨.claim, ⟨true⟩⟩ = ⟨.errWait, ⟨true⟩⟩ by
        simp only [Worker.step, ha])
    rw [hiff]
    exact ⟨fun _ => by simp, fun _ => respects_select (by omega) (Or.inl rfl) hs⟩
  | some batch =>
    cases batch with
    | nil =>
      obtain ⟨hs, hiff⟩ := respects_skip hsig hn (fun _ h => h)
        (show Worker.step (r.answer n) ⟨.claim, ⟨true⟩⟩ = ⟨.idle, ⟨true⟩⟩ by
          simp only [Worker.step, ha])
      rw [hiff]
      exact ⟨fun _ => by simp, fun _ => respects_select (by omega) (Or.inr rfl) hs⟩
    | cons job rest =>
      obtain ⟨hs, hiff⟩ := respects_skip hsig hn (fun _ h => h)
        (show Worker.step (r.answer n) ⟨.claim, ⟨true⟩⟩ = ⟨.next (job :: rest), ⟨true⟩⟩ by
          simp only [Worker.step, ha])
      rw [hiff, respects_next (by omega) hs]
      simp

theorem respects_reap (hsig : r.signal ≤ n) (hn : r.state n = ⟨.reap, ⟨true⟩⟩) :
    r.RespectsFrom n ↔ ¬∃ job rest, (r.answer (n + 1)).claimed = some (job :: rest) := by
  obtain ⟨hs, hiff⟩ := respects_skip hsig hn (fun _ h => h) rfl
  rw [hiff, respects_claim (by omega) hs]

/-- A worker respects the shutdown exactly when the signal does not arrive with a
check before a job ahead. -/
theorem respectsShutdown_iff (r : WorkerRun) : r.RespectsShutdown ↔ ¬r.DuringBatch := by
  unfold RespectsShutdown DuringBatch
  obtain ⟨-, hstop, hrel⟩ := before_signal (r := r) le_rfl
  have hq := queued_at_signal (r := r)
  cases hw : r.state r.signal with
  | mk pc guard =>
    obtain ⟨q⟩ := guard
    rw [hw] at hstop hrel hq
    cases hq
    cases pc with
    | top => exact ⟨fun _ h => h, fun _ => respects_top le_rfl hw⟩
    | reap => exact respects_reap le_rfl hw
    | claim => exact respects_claim le_rfl hw
    | errWait => exact ⟨fun _ h => h, fun _ => respects_select le_rfl (Or.inl rfl) hw⟩
    | idle => exact ⟨fun _ h => h, fun _ => respects_select le_rfl (Or.inr rfl) hw⟩
    | next batch =>
      rw [respects_next le_rfl hw]
      cases batch <;> simp
    | dispatch job rest =>
      rw [respects_dispatch le_rfl hw]
      cases rest <;> simp
    | report job outcome rest =>
      rw [respects_report le_rfl hw]
      cases rest <;> simp
    | release job rest => exact absurd rfl (hrel job rest)
    | stopped => exact absurd rfl hstop

/-- Two jobs in the batch, and the signal while the first is dispatched. -/
def midBatchRun : WorkerRun where
  answer _ := ⟨false, some [⟨1, "player_sync", .null, 1, 8⟩, ⟨2, "player_sync", .null, 1, 8⟩], false,
    .ok ()⟩
  signal := 4

/-- The second job is released and the worker claims again. -/
theorem midBatchRun_claims : ¬midBatchRun.RespectsShutdown := by
  intro h
  have hc : midBatchRun.IsCheck 6 := trivial
  have hfirst : ∀ m, 4 ≤ m → m < 6 → ¬midBatchRun.IsCheck m := by
    intro m h4 h6 hm
    obtain rfl | rfl : m = 4 ∨ m = 5 := by omega
    · exact hm
    · exact hm
  exact ((h 6 (by decide) hc hfirst).1 11 (by decide)).1 rfl

end WorkerRun

end BirthdayRole
