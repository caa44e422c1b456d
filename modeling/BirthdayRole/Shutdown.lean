/-
# The end of a replica (`main.rs`, `tasks/shutdown.rs`)

A replica is a server, some job workers, the job listener and the tick worker, each with a
receiver of the shutdown channel of its own. The signal task flips `draining` and then sends
the message. `main` subscribes for the server only after it has spawned that task, serves, and
joins the others one after the other.

What `main` waits for is over when it returns (`returned_clean`): every job that a worker has
claimed was reported, and no request is answered any more. But it need not return. A worker
that takes the message before a job of its batch releases that job and hears nothing again, so
a replica ends exactly if no worker ever releases a job and the message was sent after `main`
had subscribed for the server (`returns_iff`).

No task panics, and every call of a task answers at some time (`ReplicaRun.Fair`).
-/
import Mathlib.Data.Finset.Lattice.Fold
import Mathlib.Data.Fintype.Basic
import BirthdayRole.JobWorker
import BirthdayRole.Lib.Fair

namespace BirthdayRole

open Filter

/-! ### The tasks -/

/-- A `select!` that is offered the message takes that branch. -/
def ShutdownGuard.hears (g : ShutdownGuard) (branch : Bool) : Bool := branch && g.queued

/-- Where the job listener is. -/
inductive ListenerPc where
  | top
  | connect
  | listen
  /-- the `select!` after a connection or a `LISTEN` that failed -/
  | retry
  /-- the `select!` of a notification and the shutdown -/
  | recv
  | stopped
  deriving DecidableEq

structure Listener where
  pc : ListenerPc
  guard : ShutdownGuard

structure ListenerAnswer where
  /-- the call succeeds, or what is received is a notification -/
  ok : Bool
  shutdownBranch : Bool

/-- `job_listener::run`. -/
def Listener.step (a : ListenerAnswer) (l : Listener) : Listener :=
  match l.pc with
  | .top =>
    let (triggered, guard) := l.guard.isTriggered
    ⟨if triggered then .stopped else .connect, guard⟩
  | .connect => { l with pc := if a.ok then .listen else .retry }
  | .listen => { l with pc := if a.ok then .recv else .retry }
  | .retry => if l.guard.hears a.shutdownBranch then ⟨.stopped, ⟨false⟩⟩ else ⟨.top, l.guard⟩
  | .recv =>
    if l.guard.hears a.shutdownBranch then ⟨.stopped, ⟨false⟩⟩
    else { l with pc := if a.ok then .recv else .top }
  | .stopped => l

/-- The message is ready in a `select!`. -/
def Listener.Offered (l : Listener) : Prop := (l.pc = .retry ∨ l.pc = .recv) ∧ l.guard.queued = true

/-- Where the tick worker is. -/
inductive TickerPc where
  /-- the `select!` of the initial delay and the shutdown -/
  | delay
  | gc
  | resync
  /-- the `select!` of the interval and the shutdown -/
  | interval
  | stopped
  deriving DecidableEq

structure Ticker where
  pc : TickerPc
  guard : ShutdownGuard

/-- `tick::run`. -/
def Ticker.step (shutdownBranch : Bool) (t : Ticker) : Ticker :=
  match t.pc with
  | .delay | .interval =>
    if t.guard.hears shutdownBranch then ⟨.stopped, ⟨false⟩⟩ else { t with pc := .gc }
  | .gc => { t with pc := .resync }
  | .resync => { t with pc := .interval }
  | .stopped => t

/-- The message is ready in a `select!`. -/
def Ticker.Offered (t : Ticker) : Prop :=
  (t.pc = .delay ∨ t.pc = .interval) ∧ t.guard.queued = true

/-- `axum::serve` with its graceful shutdown: a receiver once there is one, and the requests
that are being answered. -/
structure Server where
  guard : Option ShutdownGuard
  closed : Bool
  inFlight : ℕ

def Server.accept (s : Server) : Server :=
  if s.closed then s else { s with inFlight := s.inFlight + 1 }

def Server.close (s : Server) : Server :=
  if s.guard.any ShutdownGuard.queued then ⟨some ⟨false⟩, true, s.inFlight⟩ else s

/-- Where the task is that waits for the signal of the system. -/
inductive SignalPc where
  | waiting
  | caught
  | triggered
  deriving DecidableEq

/-- Where `main` is, once all tasks are spawned. -/
inductive MainPc where
  | subscribe
  | serve
  | joinWorker (i : ℕ)
  | joinListener
  | joinTick
  | returned
  deriving DecidableEq

/-- A replica with its workers. -/
structure Replica (n : ℕ) where
  workers : Fin n → Worker
  listener : Listener
  ticker : Ticker
  server : Server
  signal : SignalPc
  draining : Bool
  main : MainPc

inductive ReplicaEvent (n : ℕ) where
  | worker (i : Fin n) (a : Answer)
  | listener (a : ListenerAnswer)
  | ticker (shutdownBranch : Bool)
  /-- the server takes a request -/
  | accept
  | respond
  /-- the server hears of the shutdown -/
  | close
  | signal
  | main

namespace Worker

def isStopped (w : Worker) : Bool :=
  match w.pc with
  | .stopped => true
  | _ => false

/-- The jobs that the worker has claimed and not reported. -/
def inHand (w : Worker) : List Job :=
  match w.pc with
  | .next batch => batch
  | .release job rest | .dispatch job rest | .report job _ rest => job :: rest
  | _ => []

/-- The jobs that a step claims. -/
def claims (a : Answer) (w : Worker) : List Job :=
  match w.pc with
  | .claim => a.claimed.getD []
  | _ => []

end Worker

/-- The job that a call reports. -/
def Call.reports : Call → Option ℕ
  | .complete id | .failDead id _ => some id
  | .failRetry job _ => some job.id
  | .reapStuck | .claimBatch | .dispatch _ => none

namespace Replica

variable {n : ℕ}

/-- All tasks are spawned; `main` goes on. -/
def start (n : ℕ) : Replica n where
  workers _ := Worker.start
  listener := ⟨.top, ⟨false⟩⟩
  ticker := ⟨.delay, ⟨false⟩⟩
  server := ⟨none, false, 0⟩
  signal := .waiting
  draining := false
  main := .subscribe

/-- `Shutdown::trigger`: every receiver there is gets the message. -/
def trigger (r : Replica n) : Replica n :=
  { r with
    workers := fun i => { r.workers i with guard := ⟨true⟩ }
    listener := { r.listener with guard := ⟨true⟩ }
    ticker := { r.ticker with guard := ⟨true⟩ }
    server := { r.server with guard := r.server.guard.map fun _ => ⟨true⟩ } }

/-- The task that waits for the signal. -/
def onSignal (r : Replica n) : Replica n :=
  match r.signal with
  | .waiting => { r with signal := .caught, draining := true }
  | .caught => { r.trigger with signal := .triggered }
  | .triggered => r

/-- `main`, which waits where it joins. -/
def onMain (r : Replica n) : Replica n :=
  match r.main with
  | .subscribe => { r with main := .serve, server := { r.server with guard := some ⟨false⟩ } }
  | .serve =>
    if r.server.closed = true ∧ r.server.inFlight = 0 then { r with main := .joinWorker 0 } else r
  | .joinWorker i =>
    if h : i < n then
      if (r.workers ⟨i, h⟩).isStopped then { r with main := .joinWorker (i + 1) } else r
    else { r with main := .joinListener }
  | .joinListener => if r.listener.pc = .stopped then { r with main := .joinTick } else r
  | .joinTick => if r.ticker.pc = .stopped then { r with main := .returned } else r
  | .returned => r

/-- The server, while `main` serves. -/
def onServer (r : Replica n) (f : Server → Server) : Replica n :=
  if r.main = .serve then { r with server := f r.server } else r

def step (r : Replica n) : ReplicaEvent n → Replica n
  | .worker i a => { r with workers := Function.update r.workers i ((r.workers i).step a) }
  | .listener a => { r with listener := r.listener.step a }
  | .ticker branch => { r with ticker := r.ticker.step branch }
  | .accept => r.onServer Server.accept
  | .respond => r.onServer fun s => { s with inFlight := s.inFlight - 1 }
  | .close => r.onServer Server.close
  | .signal => r.onSignal
  | .main => r.onMain

end Replica

/-- A run without an end. -/
structure ReplicaRun (n : ℕ) where
  event : ℕ → ReplicaEvent n

namespace ReplicaRun

variable {n : ℕ}

/-- The replica before the `m`-th event. -/
def state (r : ReplicaRun n) : ℕ → Replica n
  | 0 => Replica.start n
  | m + 1 => (r.state m).step (r.event m)

/-- The jobs that a worker has claimed. -/
def claimed (r : ReplicaRun n) (i : Fin n) : ℕ → List Job
  | 0 => []
  | m + 1 => r.claimed i m ++
    match r.event m with
    | .worker j a => if j = i then ((r.state m).workers i).claims a else []
    | _ => []

/-- The jobs that a worker has reported, as completed, to be retried or dead. -/
def reported (r : ReplicaRun n) (i : Fin n) : ℕ → List ℕ
  | 0 => []
  | m + 1 => r.reported i m ++
    match r.event m with
    | .worker j a =>
      if j = i then ((Worker.call a ((r.state m).workers i)).bind Call.reports).toList else []
    | _ => []

/-- Every task goes on again and again, and a `select!` that is offered the message again and
again takes it. -/
structure Fair (r : ReplicaRun n) : Prop where
  worker : ∀ i, ∃ᶠ m in atTop, ∃ a, r.event m = .worker i a
  listener : ∃ᶠ m in atTop, ∃ a, r.event m = .listener a
  ticker : ∃ᶠ m in atTop, ∃ branch, r.event m = .ticker branch
  respond : ∃ᶠ m in atTop, r.event m = .respond
  close : ∃ᶠ m in atTop, r.event m = .close
  main : ∃ᶠ m in atTop, r.event m = .main
  listenerSelect : Fair.Chosen
    (fun m => (∃ a, r.event m = .listener a) ∧ (r.state m).listener.Offered)
    fun m => ∃ a, r.event m = .listener a ∧ a.shutdownBranch = true
  tickerSelect : Fair.Chosen
    (fun m => (∃ branch, r.event m = .ticker branch) ∧ (r.state m).ticker.Offered)
    fun m => r.event m = .ticker true

end ReplicaRun

/-! ### One step of a task -/

namespace Worker

variable {w : Worker}

/-- What a worker claims stays in its hands until it is reported. -/
theorem step_inHand (a : Answer) (w : Worker) : w.inHand.map Job.id ++ (w.claims a).map Job.id =
    ((w.call a).bind Call.reports).toList ++ (w.step a).inHand.map Job.id := by
  obtain ⟨pc, guard⟩ := w
  cases pc with
  | top =>
    unfold step
    cases h : guard.isTriggered with
    | mk triggered guard => cases triggered <;> rfl
  | reap => cases h : a.elapsed <;> simp [inHand, claims, call, step, h, Call.reports]
  | claim =>
    rcases h : a.claimed with _ | _ | ⟨job, rest⟩ <;>
      simp [inHand, claims, call, step, h, Call.reports]
  | errWait | idle =>
    unfold step select
    dsimp only
    by_cases h : (a.shutdownBranch && guard.queued) = true
    · rw [if_pos h]
      rfl
    · rw [if_neg h]
      rfl
  | next batch =>
    cases batch with
    | nil => rfl
    | cons job rest =>
      unfold step
      cases h : guard.isTriggered with
      | mk triggered guard => cases triggered <;> simp [inHand, claims, call]
  | release job rest | dispatch job rest => simp [inHand, claims, call, step, Call.reports]
  | report job outcome rest =>
    rcases outcome with (msg | msg) | -
    · simp [inHand, claims, call, step, Call.reports]
    · by_cases h : job.attempts ≥ job.maxAttempts <;>
        simp [inHand, claims, call, step, h, Call.reports]
    · simp [inHand, claims, call, step, Call.reports]
  | stopped => rfl

/-- A worker that has stopped has nothing in its hands. -/
theorem inHand_of_stopped (h : w.isStopped = true) : w.inHand = [] := by
  obtain ⟨pc, guard⟩ := w
  cases pc <;> first | rfl | exact absurd h Bool.false_ne_true

theorem isStopped_iff : w.isStopped = true ↔ w.pc = .stopped := by
  obtain ⟨pc, guard⟩ := w
  cases pc <;> simp [isStopped]

theorem step_stopped (a : Answer) (h : w.isStopped = true) : w.step a = w := by
  obtain ⟨pc, guard⟩ := w
  obtain rfl := isStopped_iff.mp h
  rfl

/-- A worker without the message goes on. -/
theorem step_deaf (a : Answer) (hq : w.guard.queued = false) (hs : w.isStopped = false) :
    (w.step a).guard.queued = false ∧ (w.step a).isStopped = false := by
  obtain ⟨pc, ⟨q⟩⟩ := w
  cases hq
  cases pc with
  | top | reap | dispatch | report | release => exact ⟨rfl, rfl⟩
  | claim => rcases h : a.claimed with _ | _ | ⟨job, rest⟩ <;> simp [step, h, isStopped]
  | errWait | idle => simp [step, select, isStopped]
  | next batch => cases batch <;> exact ⟨rfl, rfl⟩
  | stopped => cases hs

/-- A job is released by a worker that has taken the message. -/
theorem step_release (a : Answer) {job : Job} {rest : List Job} (h : (w.step a).pc = .release job rest) :
    (w.step a).guard.queued = false ∧ w.guard.queued = true := by
  obtain ⟨pc, ⟨q⟩⟩ := w
  cases pc with
  | top => cases q <;> cases h
  | reap | dispatch | report | release => cases h
  | claim => rcases hc : a.claimed with _ | _ | ⟨job, rest⟩ <;> simp [step, hc] at h
  | errWait | idle => cases hb : a.shutdownBranch && q <;> simp [step, select, hb] at h
  | next batch =>
    cases batch with
    | nil => cases h
    | cons job' rest' =>
      cases q with
      | true => exact ⟨rfl, rfl⟩
      | false => cases h
  | stopped => cases h

/-- How many steps a worker with the message has left, if it comes to no other job. -/
def left (w : Worker) : ℕ :=
  match w.pc with
  | .dispatch _ _ | .reap => 4
  | .report _ _ _ | .claim => 3
  | .next _ | .errWait | .idle => 2
  | .top => 1
  | .release _ _ | .stopped => 0

/-- A worker with the message that comes to no other job is a step nearer to its end. -/
theorem step_left (a : Answer) (hq : w.guard.queued = true) (hs : w.isStopped = false)
    (hr : ∀ job rest, w.pc ≠ .release job rest) (hr' : ∀ job rest, (w.step a).pc ≠ .release job rest) :
    (w.step a).left < w.left ∧ ((w.step a).isStopped = true ∨ (w.step a).guard.queued = true) := by
  obtain ⟨pc, ⟨q⟩⟩ := w
  cases hq
  cases pc with
  | top | reap | dispatch | report => simp [step, left, ShutdownGuard.isTriggered, isStopped]
  | claim => rcases h : a.claimed with _ | _ | ⟨job, rest⟩ <;> simp [step, h, left]
  | errWait | idle => cases hb : a.shutdownBranch <;> simp [step, select, hb, left, isStopped]
  | next batch =>
    cases batch with
    | nil => simp [step, left]
    | cons job rest => exact absurd rfl (hr' job rest)
  | release job rest => exact absurd rfl (hr job rest)
  | stopped => cases hs

end Worker

/-- A listener without the message goes on. -/
theorem Listener.step_quiet (a : ListenerAnswer) {l : Listener} (hq : l.guard.queued = false)
    (hs : l.pc ≠ .stopped) : (l.step a).guard.queued = false ∧ (l.step a).pc ≠ .stopped := by
  obtain ⟨pc, ⟨q⟩⟩ := l
  cases hq
  cases pc with
  | top => simp [step, ShutdownGuard.isTriggered]
  | connect | listen => cases h : a.ok <;> simp [step, h]
  | retry => simp [step, ShutdownGuard.hears]
  | recv => cases h : a.ok <;> simp [step, ShutdownGuard.hears, h]
  | stopped => exact absurd rfl hs

theorem Listener.step_stopped (a : ListenerAnswer) {l : Listener} (h : l.pc = .stopped) :
    l.step a = l := by
  unfold step
  rw [h]

theorem Ticker.step_stopped (branch : Bool) {t : Ticker} (h : t.pc = .stopped) :
    t.step branch = t := by
  unfold step
  rw [h]

/-- How many steps a listener has left to a `select!`. -/
def Listener.left (l : Listener) : ℕ :=
  match l.pc with
  | .connect => 2
  | .listen => 1
  | .top | .retry | .recv | .stopped => 0

/-- A listener with the message that does not stop keeps it, and comes nearer to a `select!`. -/
theorem Listener.step_queued (a : ListenerAnswer) {l : Listener} (hq : l.guard.queued = true)
    (hs : (l.step a).pc ≠ .stopped) : (l.step a).guard.queued = true ∧
      (¬l.Offered → (l.step a).left < l.left) := by
  obtain ⟨pc, ⟨q⟩⟩ := l
  cases hq
  unfold Offered
  cases pc with
  | top => exact absurd rfl hs
  | connect | listen => cases h : a.ok <;> simp [step, h, left]
  | retry => cases hb : a.shutdownBranch <;> simp [step, ShutdownGuard.hears, hb] at hs ⊢
  | recv => cases hb : a.shutdownBranch <;> simp [step, ShutdownGuard.hears, hb] at hs ⊢
  | stopped => exact absurd rfl hs

theorem Ticker.step_quiet (branch : Bool) {t : Ticker} (hq : t.guard.queued = false)
    (hs : t.pc ≠ .stopped) : (t.step branch).guard.queued = false ∧ (t.step branch).pc ≠ .stopped := by
  obtain ⟨pc, ⟨q⟩⟩ := t
  cases hq
  cases pc with
  | delay | interval => simp [step, ShutdownGuard.hears]
  | gc | resync => simp [step]
  | stopped => exact absurd rfl hs

/-- How many steps a tick worker has left to a `select!`. -/
def Ticker.left (t : Ticker) : ℕ :=
  match t.pc with
  | .gc => 2
  | .resync => 1
  | .delay | .interval | .stopped => 0

theorem Ticker.step_queued (branch : Bool) {t : Ticker} (hq : t.guard.queued = true)
    (hs : (t.step branch).pc ≠ .stopped) : (t.step branch).guard.queued = true ∧
      (¬t.Offered → (t.step branch).left < t.left) := by
  obtain ⟨pc, ⟨q⟩⟩ := t
  cases hq
  unfold Offered
  cases pc with
  | delay | interval => cases branch <;> simp [step, ShutdownGuard.hears] at hs ⊢
  | gc | resync => simp [step, left]
  | stopped => exact absurd rfl hs

/-- What an event leaves of the server, while it is served. -/
def Server.after {n : ℕ} (s : Server) : ReplicaEvent n → Server
  | .accept => s.accept
  | .respond => { s with inFlight := s.inFlight - 1 }
  | .close => s.close
  | _ => s

/-- The server is closed, or has the message. -/
def Server.Ending (s : Server) : Prop := s.closed = true ∨ s.guard = some ⟨true⟩

section

variable {n : ℕ} {s : Server} (e : ReplicaEvent n)

theorem Server.closed_of_close (h : s.Ending) : s.close.closed = true := by
  unfold close
  rcases h with h | h
  · split
    · rfl
    · exact h
  · rw [h]
    rfl

theorem Server.Ending.after (h : s.Ending) : (s.after e).Ending := by
  cases e with
  | accept =>
    by_cases hs : s.closed = true
    · rw [Server.after, Server.accept, if_pos hs]
      exact h
    · rw [Server.after, Server.accept, if_neg hs]
      exact h
  | close => exact Or.inl (Server.closed_of_close h)
  | worker | listener | ticker | respond | signal | main => exact h

theorem Server.Ending.of_after (h : (s.after e).Ending) : s.Ending := by
  cases e with
  | accept =>
    by_cases hs : s.closed = true
    · exact Or.inl hs
    · rw [Server.after, Server.accept, if_neg hs] at h
      exact h
  | close =>
    by_cases hq : s.guard.any ShutdownGuard.queued = true
    · refine Or.inr ?_
      cases hg : s.guard with
      | none => simp [hg] at hq
      | some g =>
        obtain ⟨q⟩ := g
        obtain rfl : q = true := by simpa [hg] using hq
        rfl
    · rw [Server.after, Server.close, if_neg hq] at h
      exact h
  | worker | listener | ticker | respond | signal | main => exact h

theorem Server.after_closed (h : s.closed = true) : (s.after e).closed = true := by
  cases e with
  | accept =>
    rw [Server.after, Server.accept, if_pos h]
    exact h
  | close => exact Server.closed_of_close (Or.inl h)
  | worker | listener | ticker | respond | signal | main => exact h

theorem Server.inFlight_after (h : s.closed = true) {e : ReplicaEvent n} (he : e ≠ .respond) :
    (s.after e).inFlight = s.inFlight := by
  cases e with
  | accept => rw [Server.after, Server.accept, if_pos h]
  | respond => exact absurd rfl he
  | close =>
    show s.close.inFlight = s.inFlight
    unfold Server.close
    split <;> rfl
  | worker | listener | ticker | signal | main => rfl

theorem Server.after_drained (h : s.closed = true ∧ s.inFlight = 0) :
    (s.after e).closed = true ∧ (s.after e).inFlight = 0 := by
  refine ⟨Server.after_closed e h.1, ?_⟩
  by_cases he : e = .respond
  · subst he
    show s.inFlight - 1 = 0
    omega
  · rw [Server.inFlight_after h.1 he, h.2]

end

/-! ### What holds in every run -/

namespace Replica

variable {n : ℕ}

/-- No task has heard of a shutdown. -/
structure Quiet (r : Replica n) : Prop where
  worker : ∀ i, (r.workers i).guard.queued = false ∧ (r.workers i).pc ≠ .stopped ∧
    ∀ job rest, (r.workers i).pc ≠ .release job rest
  listener : r.listener.guard.queued = false ∧ r.listener.pc ≠ .stopped
  ticker : r.ticker.guard.queued = false ∧ r.ticker.pc ≠ .stopped
  server : r.server.closed = false ∧ r.server.guard.any ShutdownGuard.queued = false

/-- The server is closed and has answered what it took. -/
def Drained (r : Replica n) : Prop := r.server.closed = true ∧ r.server.inFlight = 0

/-- What `main` has waited for is over. -/
def Joined (r : Replica n) : Prop :=
  match r.main with
  | .subscribe | .serve => True
  | .joinWorker i => r.Drained ∧ ∀ j : Fin n, j < i → (r.workers j).isStopped = true
  | .joinListener => r.Drained ∧ ∀ j, (r.workers j).isStopped = true
  | .joinTick => r.Drained ∧ (∀ j, (r.workers j).isStopped = true) ∧ r.listener.pc = .stopped
  | .returned => r.Drained ∧ (∀ j, (r.workers j).isStopped = true) ∧ r.listener.pc = .stopped ∧
      r.ticker.pc = .stopped

structure Inv (r : Replica n) : Prop where
  quiet : r.signal ≠ .triggered → r.Quiet
  draining : r.draining = true ↔ r.signal ≠ .waiting
  released : ∀ i job rest, (r.workers i).pc = .release job rest →
    (r.workers i).guard.queued = false
  subscribed : r.server.guard.isSome = true ↔ r.main ≠ .subscribe
  joined : r.Joined

theorem inv_start (n : ℕ) : (start n).Inv where
  quiet _ := ⟨fun _ => ⟨rfl, by simp [start, Worker.start], by simp [start, Worker.start]⟩,
    ⟨rfl, by simp [start]⟩, ⟨rfl, by simp [start]⟩, ⟨rfl, rfl⟩⟩
  draining := by simp [start]
  released i job rest h := by cases h
  subscribed := by simp [start]
  joined := trivial

/-- The workers, the listener and the tick worker are left alone by the server and by `main`. -/
theorem onServer_tasks (r : Replica n) (f : Server → Server) :
    (r.onServer f).workers = r.workers ∧ (r.onServer f).listener = r.listener ∧
      (r.onServer f).ticker = r.ticker ∧ (r.onServer f).signal = r.signal ∧
      (r.onServer f).main = r.main := by
  unfold onServer
  split <;> exact ⟨rfl, rfl, rfl, rfl, rfl⟩

theorem onMain_tasks (r : Replica n) : r.onMain.workers = r.workers ∧ r.onMain.listener = r.listener ∧
    r.onMain.ticker = r.ticker ∧ r.onMain.signal = r.signal := by
  unfold onMain
  cases r.main with
  | subscribe | returned => exact ⟨rfl, rfl, rfl, rfl⟩
  | serve | joinListener | joinTick =>
    dsimp only
    split <;> exact ⟨rfl, rfl, rfl, rfl⟩
  | joinWorker i =>
    dsimp only
    repeat' split
    all_goals exact ⟨rfl, rfl, rfl, rfl⟩

theorem onMain_server (r : Replica n) (h : r.main ≠ .subscribe) : r.onMain.server = r.server := by
  unfold onMain
  cases hm : r.main with
  | subscribe => exact absurd hm h
  | returned => rfl
  | serve | joinListener | joinTick =>
    dsimp only
    split <;> rfl
  | joinWorker i =>
    dsimp only
    repeat' split
    all_goals rfl

/-- A worker is moved by its own steps only; the message does not move it. -/
theorem step_worker {r : Replica n} {e : ReplicaEvent n} {i : Fin n} (he : ∀ a, e ≠ .worker i a) :
    ((r.step e).workers i).pc = (r.workers i).pc ∧
      (r.signal ≠ .caught → (r.step e).workers i = r.workers i) := by
  have hsame : ∀ {r' : Replica n}, r'.workers = r.workers →
      (r'.workers i).pc = (r.workers i).pc ∧ (r.signal ≠ .caught → r'.workers i = r.workers i) :=
    fun h => ⟨by rw [h], fun _ => by rw [h]⟩
  cases e with
  | worker j a =>
    have hij : i ≠ j := fun hij => he a (hij ▸ rfl)
    have hw : (r.step (.worker j a)).workers i = r.workers i := Function.update_of_ne hij _ _
    exact ⟨by rw [hw], fun _ => hw⟩
  | listener a => exact hsame rfl
  | ticker branch => exact hsame rfl
  | accept | respond | close => exact hsame (r.onServer_tasks _).1
  | signal =>
    cases hs : r.signal with
    | waiting | triggered =>
      have hw : (r.step .signal).workers = r.workers := by simp [step, onSignal, hs]
      exact hs ▸ hsame hw
    | caught =>
      have hw : (r.step .signal).workers = r.trigger.workers := by simp [step, onSignal, hs]
      rw [hw]
      exact ⟨rfl, fun h => absurd rfl h⟩
  | main => exact hsame r.onMain_tasks.1

theorem step_main {r : Replica n} {e : ReplicaEvent n} (he : e ≠ .main) :
    (r.step e).main = r.main := by
  cases e with
  | worker | listener | ticker => rfl
  | accept | respond | close => exact (r.onServer_tasks _).2.2.2.2
  | signal => cases h : r.signal <;> simp [step, onSignal, h, trigger]
  | main => exact absurd rfl he

theorem step_listener (r : Replica n) {e : ReplicaEvent n} (he : ¬∃ a, e = .listener a)
    (hs : r.signal ≠ .caught) : (r.step e).listener = r.listener := by
  cases e with
  | listener a => exact absurd ⟨a, rfl⟩ he
  | worker | ticker => rfl
  | accept | respond | close => exact (r.onServer_tasks _).2.1
  | signal => cases h : r.signal <;> simp [step, onSignal, h] at hs ⊢
  | main => exact r.onMain_tasks.2.1

theorem step_ticker (r : Replica n) {e : ReplicaEvent n} (he : ¬∃ branch, e = .ticker branch)
    (hs : r.signal ≠ .caught) : (r.step e).ticker = r.ticker := by
  cases e with
  | ticker branch => exact absurd ⟨branch, rfl⟩ he
  | worker | listener => rfl
  | accept | respond | close => exact (r.onServer_tasks _).2.2.1
  | signal => cases h : r.signal <;> simp [step, onSignal, h] at hs ⊢
  | main => exact r.onMain_tasks.2.2.1

theorem step_inHand {r : Replica n} {e : ReplicaEvent n} {i : Fin n} (he : ∀ a, e ≠ .worker i a) :
    ((r.step e).workers i).inHand = (r.workers i).inHand := by
  unfold Worker.inHand
  rw [(step_worker he).1]

/-- How many steps `main` has left. -/
def mainLeft (r : Replica n) : ℕ :=
  match r.main with
  | .subscribe => n + 5
  | .serve => n + 4
  | .joinWorker i => n - i + 3
  | .joinListener => 2
  | .joinTick => 1
  | .returned => 0

theorem mainLeft_lt_of_subscribed {r : Replica n} (hsub : r.main ≠ .subscribe) :
    r.mainLeft < n + 5 := by
  unfold mainLeft
  cases hm : r.main with
  | subscribe => exact absurd hm hsub
  | joinWorker i =>
    dsimp only
    omega
  | serve | joinListener | joinTick | returned =>
    dsimp only
    omega

theorem mainLeft_le_of_served {r : Replica n} (hsub : r.main ≠ .subscribe) (hserve : r.main ≠ .serve) :
    r.mainLeft ≤ n + 3 := by
  unfold mainLeft
  cases hm : r.main with
  | subscribe => exact absurd hm hsub
  | serve => exact absurd hm hserve
  | joinWorker i =>
    dsimp only
    omega
  | joinListener | joinTick | returned =>
    dsimp only
    omega

/-- `main` never goes back. -/
theorem mainLeft_step_le (r : Replica n) (e : ReplicaEvent n) : (r.step e).mainLeft ≤ r.mainLeft := by
  by_cases he : e = .main
  · subst he
    show r.onMain.mainLeft ≤ r.mainLeft
    unfold onMain
    cases hm : r.main with
    | subscribe => simp [mainLeft, hm]
    | serve | joinListener | joinTick =>
      dsimp only
      split <;> simp [mainLeft, hm]
    | joinWorker i =>
      by_cases hi : i < n
      · by_cases hs : (r.workers ⟨i, hi⟩).isStopped = true
        · simp [mainLeft, hm, hi, hs]
          omega
        · simp [hi, hs]
      · simp [mainLeft, hm, hi]
    | returned => exact le_rfl
  · unfold mainLeft
    rw [step_main he]

/-- What is joined stays so, if what has stopped does. -/
theorem Joined.mono {r r' : Replica n} (h : r.Joined) (hmain : r'.main = r.main)
    (hdrained : r.main ≠ .serve → r.Drained → r'.Drained)
    (hworker : ∀ j, (r.workers j).isStopped = true → (r'.workers j).isStopped = true)
    (hlistener : r.listener.pc = .stopped → r'.listener.pc = .stopped)
    (hticker : r.ticker.pc = .stopped → r'.ticker.pc = .stopped) : r'.Joined := by
  unfold Joined at h ⊢
  rw [hmain]
  have hdrained := hdrained
  cases hm : r.main with
  | subscribe | serve => trivial
  | joinWorker i =>
    rw [hm] at h hdrained
    exact ⟨hdrained (by simp) h.1, fun j hj => hworker j (h.2 j hj)⟩
  | joinListener =>
    rw [hm] at h hdrained
    exact ⟨hdrained (by simp) h.1, fun j => hworker j (h.2 j)⟩
  | joinTick =>
    rw [hm] at h hdrained
    exact ⟨hdrained (by simp) h.1, fun j => hworker j (h.2.1 j), hlistener h.2.2⟩
  | returned =>
    rw [hm] at h hdrained
    exact ⟨hdrained (by simp) h.1, fun j => hworker j (h.2.1 j), hlistener h.2.2.1,
      hticker h.2.2.2⟩

theorem Inv.worker {r : Replica n} (h : r.Inv) (i : Fin n) (a : Answer) :
    (r.step (.worker i a)).Inv := by
  have hsame : ∀ j, j ≠ i → (r.step (.worker i a)).workers j = r.workers j := fun j hj =>
    Function.update_of_ne hj _ _
  have hself : (r.step (.worker i a)).workers i = (r.workers i).step a := Function.update_self _ _ _
  refine ⟨fun hs => ?_, h.draining, fun j job rest hj => ?_, h.subscribed, ?_⟩
  · have hquiet := h.quiet hs
    refine { hquiet with worker := fun j => ?_ }
    by_cases hj : j = i
    · subst hj
      rw [hself]
      obtain ⟨hq, hp, hr⟩ := hquiet.worker j
      exact WorkerRun.step_quiet a hq hp hr
    · rw [hsame j hj]
      exact hquiet.worker j
  · by_cases hji : j = i
    · subst hji
      rw [hself] at hj ⊢
      exact (Worker.step_release a hj).1
    · rw [hsame j hji] at hj ⊢
      exact h.released j job rest hj
  · refine h.joined.mono rfl (fun _ hd => hd) (fun j hj => ?_) id id
    by_cases hji : j = i
    · subst hji
      rw [hself, Worker.step_stopped a hj]
      exact hj
    · rw [hsame j hji]
      exact hj

theorem Inv.listener {r : Replica n} (h : r.Inv) (a : ListenerAnswer) :
    (r.step (.listener a)).Inv := by
  refine ⟨fun hs => ?_, h.draining, h.released, h.subscribed, ?_⟩
  · have hquiet := h.quiet hs
    exact { hquiet with listener := Listener.step_quiet a hquiet.listener.1 hquiet.listener.2 }
  · refine h.joined.mono rfl (fun _ hd => hd) (fun _ hj => hj) (fun hl => ?_) id
    exact (congrArg Listener.pc (Listener.step_stopped a hl)).trans hl

theorem Inv.ticker {r : Replica n} (h : r.Inv) (branch : Bool) :
    (r.step (.ticker branch)).Inv := by
  refine ⟨fun hs => ?_, h.draining, h.released, h.subscribed, ?_⟩
  · have hquiet := h.quiet hs
    exact { hquiet with ticker := Ticker.step_quiet branch hquiet.ticker.1 hquiet.ticker.2 }
  · refine h.joined.mono rfl (fun _ hd => hd) (fun _ hj => hj) id (fun ht => ?_)
    exact (congrArg Ticker.pc (Ticker.step_stopped branch ht)).trans ht

theorem Inv.server {r : Replica n} (h : r.Inv) {f : Server → Server}
    (hf : ∀ s : Server, s.closed = false ∧ s.guard.any ShutdownGuard.queued = false →
      (f s).closed = false ∧ (f s).guard.any ShutdownGuard.queued = false)
    (hguard : ∀ s, (f s).guard.isSome = s.guard.isSome) : (r.onServer f).Inv := by
  unfold onServer
  by_cases hm : r.main = .serve
  · rw [if_pos hm]
    refine ⟨fun hs => ?_, h.draining, h.released, by rw [hguard]; exact h.subscribed, ?_⟩
    · have hquiet := h.quiet hs
      exact { hquiet with server := hf _ hquiet.server }
    · exact h.joined.mono rfl (fun hne => absurd hm hne) (fun _ hj => hj) id id
  · rw [if_neg hm]
    exact h

theorem Inv.goes {r : Replica n} (h : r.Inv) {main : MainPc} (hold : r.main ≠ .subscribe)
    (hnew : main ≠ .subscribe) (hjoined : ({ r with main := main } : Replica n).Joined) :
    ({ r with main := main }).Inv where
  quiet hs := ⟨(h.quiet hs).worker, (h.quiet hs).listener, (h.quiet hs).ticker, (h.quiet hs).server⟩
  draining := h.draining
  released := h.released
  subscribed := iff_of_true (h.subscribed.mpr hold) hnew
  joined := hjoined

theorem Inv.signal {r : Replica n} (h : r.Inv) : r.onSignal.Inv := by
  unfold onSignal
  cases hs : r.signal with
  | waiting =>
    have hquiet := h.quiet (by simp [hs])
    exact ⟨fun _ => ⟨hquiet.worker, hquiet.listener, hquiet.ticker, hquiet.server⟩, by simp,
      h.released, h.subscribed, h.joined⟩
  | caught =>
    have hquiet := h.quiet (by simp [hs])
    refine ⟨fun hne => absurd rfl hne, by simp [trigger, h.draining, hs], fun i job rest hi => ?_,
      ?_, ?_⟩
    · exact absurd hi ((hquiet.worker i).2.2 job rest)
    · exact (iff_of_eq (congrArg (· = true) Option.isSome_map)).trans h.subscribed
    · exact h.joined.mono rfl (fun _ hd => hd) (fun _ hj => hj) id id
  | triggered => exact h

theorem Inv.main {r : Replica n} (h : r.Inv) : r.onMain.Inv := by
  have hj := h.joined
  unfold Joined at hj
  unfold onMain
  cases hm : r.main with
  | subscribe =>
    refine ⟨fun hs => ?_, h.draining, h.released, by simp, trivial⟩
    have hquiet := h.quiet hs
    exact { hquiet with server := ⟨hquiet.server.1, rfl⟩ }
  | serve =>
    dsimp only
    by_cases hd : r.server.closed = true ∧ r.server.inFlight = 0
    · rw [if_pos hd]
      exact h.goes (by simp [hm]) (by simp) ⟨hd, fun j hj => absurd hj (Nat.not_lt_zero _)⟩
    · rw [if_neg hd]
      exact h
  | joinWorker i =>
    rw [hm] at hj
    dsimp only
    by_cases hi : i < n
    · rw [dif_pos hi]
      by_cases hstop : (r.workers ⟨i, hi⟩).isStopped = true
      · rw [if_pos hstop]
        refine h.goes (by simp [hm]) (by simp) ⟨hj.1, fun j hji => ?_⟩
        have hle : (j : ℕ) ≤ i := Nat.lt_succ_iff.mp hji
        by_cases hlt : (j : ℕ) < i
        · exact hj.2 j hlt
        · have heq : j = ⟨i, hi⟩ := Fin.ext (Nat.le_antisymm hle (Nat.le_of_not_lt hlt))
          exact heq ▸ hstop
      · rw [if_neg hstop]
        exact h
    · rw [dif_neg hi]
      exact h.goes (by simp [hm]) (by simp) ⟨hj.1, fun j => hj.2 j (by omega)⟩
  | joinListener =>
    rw [hm] at hj
    dsimp only
    by_cases hl : r.listener.pc = .stopped
    · rw [if_pos hl]
      exact h.goes (by simp [hm]) (by simp) ⟨hj.1, hj.2, hl⟩
    · rw [if_neg hl]
      exact h
  | joinTick =>
    rw [hm] at hj
    dsimp only
    by_cases ht : r.ticker.pc = .stopped
    · rw [if_pos ht]
      exact h.goes (by simp [hm]) (by simp) ⟨hj.1, hj.2.1, hj.2.2, ht⟩
    · rw [if_neg ht]
      exact h
  | returned => exact h

theorem Inv.step {r : Replica n} (h : r.Inv) (e : ReplicaEvent n) : (r.step e).Inv := by
  cases e with
  | worker i a => exact h.worker i a
  | listener a => exact h.listener a
  | ticker branch => exact h.ticker branch
  | accept =>
    refine h.server (fun s hs => ?_) fun s => ?_ <;> unfold Server.accept
    · rw [if_neg (by rw [hs.1]; simp)]
      exact hs
    · split <;> rfl
  | respond =>
    exact h.server (f := fun s => { s with inFlight := s.inFlight - 1 }) (fun s hs => hs) fun s => rfl
  | close =>
    refine h.server (fun s hs => ?_) fun s => ?_ <;> unfold Server.close
    · rw [if_neg (by rw [hs.2]; simp)]
      exact hs
    · cases hg : s.guard with
      | none => exact congrArg Option.isSome hg
      | some g => cases hq : g.queued <;> simp [hg, hq]
  | signal => exact h.signal
  | main => exact h.main

theorem Inv.triggered_of_closed {r : Replica n} (h : r.Inv) (hclosed : r.server.closed = true) :
    r.signal = .triggered := by
  by_contra hs
  have hopen := (h.quiet hs).server.1
  rw [hclosed] at hopen
  cases hopen

end Replica

namespace ReplicaRun

variable {n : ℕ} (r : ReplicaRun n)

theorem inv : ∀ m, (r.state m).Inv
  | 0 => Replica.inv_start n
  | m + 1 => (inv m).step (r.event m)

/-- A worker has reported what it has claimed, but for what is in its hands. -/
theorem claimed_eq (i : Fin n) : ∀ m, (r.claimed i m).map Job.id =
    r.reported i m ++ ((r.state m).workers i).inHand.map Job.id
  | 0 => rfl
  | m + 1 => by
    have ih := claimed_eq i m
    show (r.claimed i m ++ _).map Job.id =
      r.reported i m ++ _ ++ (((r.state m).step (r.event m)).workers i).inHand.map Job.id
    rw [List.map_append, ih]
    by_cases he : ∃ a, r.event m = .worker i a
    · obtain ⟨a, ha⟩ := he
      have hstep := Worker.step_inHand a ((r.state m).workers i)
      have hnew : ((r.state m).step (.worker i a)).workers i = ((r.state m).workers i).step a :=
        Function.update_self _ _ _
      rw [ha, hnew]
      dsimp only
      rw [if_pos rfl, if_pos rfl, List.append_assoc, List.append_assoc, hstep]
    · have hother : ∀ a, r.event m ≠ .worker i a := fun a ha => he ⟨a, ha⟩
      rw [Replica.step_inHand hother]
      cases hm : r.event m with
      | worker j a =>
        have hj : j ≠ i := fun hj => hother a (hj ▸ hm)
        simp [hj]
      | listener | ticker | accept | respond | close | signal | main => simp

/-- When `main` returns, `/ready` has been saying that the replica drains, every request that was
taken is answered, and every job that a worker has claimed was reported, in the order of the
claims and once each; no task is left. -/
theorem returned_clean {m : ℕ} (h : (r.state m).main = .returned) :
    (r.state m).draining = true ∧ (r.state m).Drained ∧
    (∀ i, ((r.state m).workers i).isStopped = true ∧ (r.claimed i m).map Job.id = r.reported i m) ∧
    (r.state m).listener.pc = .stopped ∧ (r.state m).ticker.pc = .stopped := by
  have hinv := r.inv m
  have hjoined := hinv.joined
  unfold Replica.Joined at hjoined
  rw [h] at hjoined
  obtain ⟨hdrained, hworkers, hlistener, hticker⟩ := hjoined
  have htriggered : (r.state m).signal = .triggered := hinv.triggered_of_closed hdrained.1
  refine ⟨hinv.draining.mpr (by simp [htriggered]), hdrained, fun i => ⟨hworkers i, ?_⟩, hlistener,
    hticker⟩
  rw [r.claimed_eq i m, Worker.inHand_of_stopped (hworkers i), List.map_nil, List.append_nil]

/-! ### After the message -/

variable {r} {k : ℕ}

theorem triggered_of_le (hk : (r.state k).signal = .triggered) {m : ℕ} (hm : k ≤ m) :
    (r.state m).signal = .triggered := by
  refine Fair.forall_of_stable (p := fun m => (r.state m).signal = .triggered) hk (fun m _ h => ?_) hm
  show ((r.state m).step (r.event m)).signal = .triggered
  cases r.event m with
  | worker | listener | ticker => exact h
  | accept | respond | close => exact ((r.state m).onServer_tasks _).2.2.2.1.trans h
  | signal => simp [Replica.step, Replica.onSignal, h]
  | main => exact (r.state m).onMain_tasks.2.2.2.trans h

/-- After the message a property of a worker that its own steps keep stays. -/
theorem worker_stable {p : Worker → Prop} {i : Fin n} (hk : (r.state k).signal = .triggered)
    (hstep : ∀ m a, k ≤ m → r.event m = .worker i a → p ((r.state m).workers i) →
      p (((r.state m).workers i).step a))
    (h : p ((r.state k).workers i)) {m : ℕ} (hm : k ≤ m) : p ((r.state m).workers i) := by
  refine Fair.forall_of_stable (p := fun m => p ((r.state m).workers i)) h (fun m hm hp => ?_) hm
  show p (((r.state m).step (r.event m)).workers i)
  by_cases he : ∃ a, r.event m = .worker i a
  · obtain ⟨a, ha⟩ := he
    have hself : ((r.state m).step (.worker i a)).workers i = ((r.state m).workers i).step a :=
      Function.update_self _ _ _
    rw [ha, hself]
    exact hstep m a hm ha hp
  · have hsame := (Replica.step_worker (r := r.state m) (e := r.event m) (i := i)
      fun a ha => he ⟨a, ha⟩).2
    rw [hsame (by simp [triggered_of_le hk hm])]
    exact hp

theorem stopped_of_le {i : Fin n} (hk : (r.state k).signal = .triggered)
    (h : ((r.state k).workers i).isStopped = true) {m : ℕ} (hm : k ≤ m) :
    ((r.state m).workers i).isStopped = true := by
  refine worker_stable (p := fun w => w.isStopped = true) hk (fun m a _ _ hp => ?_) h hm
  rw [Worker.step_stopped a hp]
  exact hp

/-- A worker that has released a job never stops. -/
theorem released_never_stops {i : Fin n} {job : Job} {rest : List Job}
    (h : ((r.state k).workers i).pc = .release job rest) {m : ℕ} (hm : k ≤ m) :
    ((r.state m).workers i).isStopped = false := by
  have hinv := r.inv k
  have htriggered : (r.state k).signal = .triggered := by
    by_contra hs
    exact ((hinv.quiet hs).worker i).2.2 job rest h
  have hrun : ((r.state k).workers i).isStopped = false := by simp [Worker.isStopped, h]
  exact (worker_stable (p := fun w => w.guard.queued = false ∧ w.isStopped = false) htriggered
    (fun m a _ _ hp => Worker.step_deaf a hp.1 hp.2) ⟨hinv.released i job rest h, hrun⟩ hm).2

/-- A worker that does not release a job stops. -/
theorem worker_stops (hfair : r.Fair) (i : Fin n) (hk : (r.state k).signal = .triggered)
    (hqueued : ((r.state k).workers i).guard.queued = true)
    (hnone : ∀ m job rest, ((r.state m).workers i).pc ≠ .release job rest) :
    ∃ m, k ≤ m ∧ ((r.state m).workers i).isStopped = true := by
  have hself : ∀ {m a}, r.event m = .worker i a →
      (r.state (m + 1)).workers i = ((r.state m).workers i).step a := by
    intro m a ha
    show ((r.state m).step (r.event m)).workers i = _
    rw [ha]
    exact Function.update_self _ _ _
  have hchosen : ∀ offered, Fair.Chosen offered fun _ => True := fun _ h =>
    h.mono fun _ h => ⟨h, trivial⟩
  refine Fair.exists_stopped (fun m => (r.state m).workers i) (fun w => w.guard.queued = true)
    (fun w => w.isStopped = true) (fun w => w.isStopped = true) Worker.left (hfair.worker i)
    (fun m hm he => ?_) ?_ (hchosen _) ?_ hqueued
  · refine (Replica.step_worker (e := r.event m) fun a ha => he ⟨a, ha⟩).2 ?_
    simp [triggered_of_le hk hm]
  · rintro m - ⟨a, ha⟩ hq hrun
    have hnext := hnone (m + 1)
    rw [hself ha] at hnext hrun ⊢
    by_cases hstop : ((r.state m).workers i).isStopped = true
    · rw [Worker.step_stopped a hstop] at hrun
      exact absurd hstop hrun
    · obtain ⟨hleft, hq⟩ := Worker.step_left a hq (by simpa using hstop) (hnone m) hnext
      exact ⟨hq.resolve_left hrun, fun _ => hleft⟩
  · rintro m ⟨a, ha⟩ hstop -
    rw [hself ha, Worker.step_stopped a hstop]
    exact hstop

/-- The listener and the tick worker stop: their `select!`s take the message at some time. -/
theorem listener_stops (hfair : r.Fair) (hk : (r.state k).signal = .triggered)
    (hqueued : (r.state k).listener.guard.queued = true) :
    ∃ m, k ≤ m ∧ (r.state m).listener.pc = .stopped := by
  have hself : ∀ {m a}, r.event m = .listener a →
      (r.state (m + 1)).listener = (r.state m).listener.step a := by
    intro m a ha
    show ((r.state m).step (r.event m)).listener = _
    rw [ha]
    rfl
  refine Fair.exists_stopped (fun m => (r.state m).listener) (fun l => l.guard.queued = true)
    Listener.Offered (fun l => l.pc = .stopped) Listener.left hfair.listener
    (fun m hm he => (r.state m).step_listener he (by simp [triggered_of_le hk hm])) ?_
    hfair.listenerSelect ?_ hqueued
  · rintro m - ⟨a, ha⟩ hq hrun
    rw [hself ha] at hrun ⊢
    exact Listener.step_queued a hq hrun
  · rintro m - ⟨hpc, hq⟩ ⟨a, ha, hbranch⟩
    rw [hself ha]
    rcases hpc with hpc | hpc <;> simp [Listener.step, hpc, ShutdownGuard.hears, hbranch, hq]

theorem ticker_stops (hfair : r.Fair) (hk : (r.state k).signal = .triggered)
    (hqueued : (r.state k).ticker.guard.queued = true) :
    ∃ m, k ≤ m ∧ (r.state m).ticker.pc = .stopped := by
  have hself : ∀ {m branch}, r.event m = .ticker branch →
      (r.state (m + 1)).ticker = (r.state m).ticker.step branch := by
    intro m branch ha
    show ((r.state m).step (r.event m)).ticker = _
    rw [ha]
    rfl
  refine Fair.exists_stopped (fun m => (r.state m).ticker) (fun t => t.guard.queued = true)
    Ticker.Offered (fun t => t.pc = .stopped) Ticker.left hfair.ticker
    (fun m hm he => (r.state m).step_ticker he (by simp [triggered_of_le hk hm])) ?_
    hfair.tickerSelect ?_ hqueued
  · rintro m - ⟨branch, ha⟩ hq hrun
    rw [hself ha] at hrun ⊢
    exact Ticker.step_queued branch hq hrun
  · rintro m - ⟨hpc, hq⟩ ha
    rw [hself ha]
    rcases hpc with hpc | hpc <;> simp [Ticker.step, hpc, ShutdownGuard.hears, hq]

/-- While `main` serves, only the server's own events change it. -/
theorem server_succ {m : ℕ} (hm : (r.state m).signal = .triggered) (hs : (r.state m).main = .serve) :
    (r.state (m + 1)).server = (r.state m).server.after (r.event m) := by
  show ((r.state m).step (r.event m)).server = _
  cases r.event m with
  | worker | listener | ticker => rfl
  | accept | respond | close => simp only [Replica.step, Replica.onServer, if_pos hs, Server.after]
  | signal => simp only [Replica.step, Replica.onSignal, hm, Server.after]
  | main =>
    simp only [Replica.step, Replica.onMain, hs, Server.after]
    split <;> rfl

/-- The server closes and answers what it has taken, and `main` goes on. -/
theorem server_drains (hfair : r.Fair) (hk : (r.state k).signal = .triggered)
    (hqueued : (r.state k).server.guard = some ⟨true⟩) :
    ∃ m, k ≤ m ∧ (r.state m).main ≠ .serve := by
  by_contra hnone
  have hserve : ∀ m, k ≤ m → (r.state m).main = .serve := fun m hm =>
    by_contra fun h => hnone ⟨m, hm, h⟩
  have hsucc : ∀ m, k ≤ m → (r.state (m + 1)).server = (r.state m).server.after (r.event m) :=
    fun m hm => server_succ (triggered_of_le hk hm) (hserve m hm)
  have hstable : ∀ (p : Server → Prop) (j : ℕ), k ≤ j → p (r.state j).server →
      (∀ s (e : ReplicaEvent n), p s → p (s.after e)) → ∀ m, j ≤ m → p (r.state m).server := by
    intro p j hj h hstep m hm
    refine Fair.forall_of_stable (p := fun m => p (r.state m).server) h (fun m hm hp => ?_) hm
    show p (r.state (m + 1)).server
    rw [hsucc m (by omega)]
    exact hstep _ _ hp
  -- it hears of the shutdown
  obtain ⟨c, hc, hclose⟩ := frequently_atTop.mp hfair.close k
  have hclosed : (r.state (c + 1)).server.closed = true := by
    rw [hsucc c hc, hclose]
    exact Server.closed_of_close (hstable Server.Ending k le_rfl (Or.inr hqueued)
      (fun s e h => h.after e) c hc)
  have hclosed : ∀ m, c + 1 ≤ m → (r.state m).server.closed = true :=
    hstable (fun s => s.closed = true) (c + 1) (by omega) hclosed fun s e h => Server.after_closed e h
  -- nothing is taken from then on
  have hempty : ∃ᶠ m in atTop, r.event m = .respond ∧ (r.state m).server.inFlight = 0 := by
    refine Fair.frequently_of_descent (fun m => (r.state m).server.inFlight) hfair.respond
      (fun m (hm : c + 1 ≤ m) he => ?_) fun m hm he hne => ?_
    · rw [hsucc m (by omega), Server.inFlight_after (hclosed m hm) he]
    · rw [hsucc m (by omega), he]
      show (r.state m).server.inFlight - 1 < (r.state m).server.inFlight
      omega
  obtain ⟨z, hz, -, hzero⟩ := frequently_atTop.mp hempty (c + 1)
  have hdrained : ∀ m, z ≤ m → (r.state m).Drained :=
    hstable (fun s => s.closed = true ∧ s.inFlight = 0) z (by omega) ⟨hclosed z hz, hzero⟩
      fun s e h => Server.after_drained e h
  obtain ⟨j, hj, hmain⟩ := frequently_atTop.mp hfair.main z
  refine absurd (hserve (j + 1) (by omega)) ?_
  show ((r.state j).step (r.event j)).main ≠ .serve
  rw [hmain]
  have hd : (r.state j).server.closed = true ∧ (r.state j).server.inFlight = 0 := hdrained j hj
  simp [Replica.step, Replica.onMain, hserve j (by omega), hd]

/-- All that `main` waits for comes. -/
theorem main_returns (hfair : r.Fair) (hdone : ∀ m, k ≤ m → (r.state m).main ≠ .subscribe ∧
      (r.state m).main ≠ .serve ∧ (∀ i, ((r.state m).workers i).isStopped = true) ∧
      (r.state m).listener.pc = .stopped ∧ (r.state m).ticker.pc = .stopped) :
    ∃ m, (r.state m).main = .returned := by
  suffices hreturned : ∃ᶠ m in atTop, r.event m = .main ∧ (r.state m).main = .returned by
    obtain ⟨m, -, -, h⟩ := frequently_atTop.mp hreturned 0
    exact ⟨m, h⟩
  refine Fair.frequently_of_descent (fun m => (r.state m).mainLeft) hfair.main
    (fun m (hm : k ≤ m) he => ?_) fun m hm he hne => ?_
  · show ((r.state m).step (r.event m)).mainLeft ≤ _
    unfold Replica.mainLeft
    rw [Replica.step_main he]
  · obtain ⟨hsub, hserve, hworkers, hlistener, hticker⟩ := hdone m hm
    show ((r.state m).step (r.event m)).mainLeft < _
    rw [he]
    show (r.state m).onMain.mainLeft < _
    unfold Replica.onMain Replica.mainLeft
    cases hmain : (r.state m).main with
    | subscribe => exact absurd hmain hsub
    | serve => exact absurd hmain hserve
    | joinWorker i =>
      by_cases hi : i < n
      · simp [hi, hworkers]
        omega
      · simp [hi]
    | joinListener => simp [hlistener]
    | joinTick => simp [hticker]
    | returned => exact absurd hmain hne

theorem mainLeft_le {m : ℕ} (hm : k ≤ m) : (r.state m).mainLeft ≤ (r.state k).mainLeft :=
  Fair.forall_of_stable (p := fun m => (r.state m).mainLeft ≤ (r.state k).mainLeft) le_rfl
    (fun m _ h => ((r.state m).mainLeft_step_le (r.event m)).trans h) hm

/-- What has stopped does not go on. -/
theorem listener_stopped_of_le (hk : (r.state k).listener.pc = .stopped)
    (hs : (r.state k).signal = .triggered) {m : ℕ} (hm : k ≤ m) :
    (r.state m).listener.pc = .stopped := by
  refine Fair.forall_of_stable (p := fun m => (r.state m).listener.pc = .stopped) hk
    (fun m hm h => ?_) hm
  show ((r.state m).step (r.event m)).listener.pc = .stopped
  by_cases he : ∃ a, r.event m = .listener a
  · obtain ⟨a, ha⟩ := he
    rw [ha]
    exact (congrArg Listener.pc (Listener.step_stopped a h)).trans h
  · rw [(r.state m).step_listener he (by simp [triggered_of_le hs hm])]
    exact h

theorem ticker_stopped_of_le (hk : (r.state k).ticker.pc = .stopped)
    (hs : (r.state k).signal = .triggered) {m : ℕ} (hm : k ≤ m) :
    (r.state m).ticker.pc = .stopped := by
  refine Fair.forall_of_stable (p := fun m => (r.state m).ticker.pc = .stopped) hk
    (fun m hm h => ?_) hm
  show ((r.state m).step (r.event m)).ticker.pc = .stopped
  by_cases he : ∃ branch, r.event m = .ticker branch
  · obtain ⟨branch, ha⟩ := he
    rw [ha]
    exact (congrArg Ticker.pc (Ticker.step_stopped branch h)).trans h
  · rw [(r.state m).step_ticker he (by simp [triggered_of_le hs hm])]
    exact h

/-- The message is sent when `main` has subscribed for the server, so that all hear of it. -/
def SentToAll (r : ReplicaRun n) (k : ℕ) : Prop :=
  r.event k = .signal ∧ (r.state k).signal = .caught ∧ (r.state k).main ≠ .subscribe

/-- The server is told by a message that was sent to all. -/
theorem sentToAll_of_ending : ∀ {m}, (r.state m).server.Ending → ∃ k, r.SentToAll k
  | 0, h => by rcases h with h | h <;> cases h
  | m + 1, h => by
    by_cases hm : (r.state m).server.Ending
    · exact sentToAll_of_ending hm
    have hnot : ∀ {s : Server}, s = (r.state m).server → ¬s.Ending := fun hs => hs ▸ hm
    have hserver : ∀ {f : Server → Server}, (∀ s, (f s).Ending → s.Ending) →
        ¬((r.state m).onServer f).server.Ending := by
      intro f hf hf'
      unfold Replica.onServer at hf'
      split at hf'
      · exact hm (hf _ hf')
      · exact hm hf'
    have h : ((r.state m).step (r.event m)).server.Ending := h
    cases he : r.event m with
    | worker | listener | ticker =>
      rw [he] at h
      exact absurd h hm
    | accept =>
      rw [he] at h
      exact absurd h (hserver fun s => Server.Ending.of_after (n := n) .accept)
    | respond =>
      rw [he] at h
      exact absurd h (hserver fun s => Server.Ending.of_after (n := n) .respond)
    | close =>
      rw [he] at h
      exact absurd h (hserver fun s => Server.Ending.of_after (n := n) .close)
    | signal =>
      cases hs : (r.state m).signal with
      | waiting | triggered =>
        simp only [he, Replica.step, Replica.onSignal, hs] at h
        exact absurd h hm
      | caught =>
        simp only [he, Replica.step, Replica.onSignal, hs] at h
        refine ⟨m, he, hs, (r.inv m).subscribed.mp ?_⟩
        rcases h with h | h
        · exact absurd (Or.inl h) hm
        · rw [← Option.isSome_map (f := fun _ => (⟨true⟩ : ShutdownGuard))]
          exact congrArg Option.isSome h
    | main =>
      by_cases hsub : (r.state m).main = .subscribe
      · simp only [he, Replica.step, Replica.onMain, hsub] at h
        rcases h with h | h
        · exact absurd (Or.inl h) hm
        · cases h
      · rw [he] at h
        have hsame : (r.state m).onMain.server = (r.state m).server :=
          (r.state m).onMain_server hsub
        exact absurd h (hnot hsame)

/-- `main` returns exactly if the message is sent when it has subscribed for the server, and no
worker ever releases a job. -/
theorem returns_iff (r : ReplicaRun n) (hfair : r.Fair) :
    (∃ m, (r.state m).main = .returned) ↔ (∃ k, r.SentToAll k) ∧
      ∀ m i job rest, ((r.state m).workers i).pc ≠ .release job rest := by
  constructor
  · rintro ⟨m, hm⟩
    have hjoined := (r.inv m).joined
    unfold Replica.Joined at hjoined
    rw [hm] at hjoined
    obtain ⟨hdrained, hworkers, -⟩ := hjoined
    refine ⟨sentToAll_of_ending (Or.inl hdrained.1), fun m' i job rest hrelease => ?_⟩
    have htriggered : (r.state m).signal = .triggered := (r.inv m).triggered_of_closed hdrained.1
    have hstop := stopped_of_le htriggered (hworkers i) (le_max_left m m')
    rw [released_never_stops hrelease (le_max_right m m')] at hstop
    cases hstop
  · rintro ⟨⟨k, hevent, hcaught, hmain⟩, hnone⟩
    have hnext : r.state (k + 1) = { (r.state k).trigger with signal := .triggered } := by
      show (r.state k).step (r.event k) = _
      rw [hevent]
      show (r.state k).onSignal = _
      unfold Replica.onSignal
      rw [hcaught]
    have htriggered : (r.state (k + 1)).signal = .triggered := by rw [hnext]
    obtain ⟨l, hl, hlistener⟩ := listener_stops hfair htriggered (by rw [hnext]; rfl)
    obtain ⟨t, ht, hticker⟩ := ticker_stops hfair htriggered (by rw [hnext]; rfl)
    have hworkers : ∀ i, ∃ m, k + 1 ≤ m ∧ ((r.state m).workers i).isStopped = true := fun i =>
      worker_stops hfair i htriggered (by rw [hnext]; rfl) fun m => hnone m i
    choose w hw hstop using hworkers
    obtain ⟨d, hd, hserve⟩ : ∃ m, k + 1 ≤ m ∧ (r.state m).main ≠ .serve := by
      refine server_drains hfair htriggered ?_
      obtain ⟨g, hg⟩ := Option.isSome_iff_exists.mp ((r.inv k).subscribed.mpr hmain)
      rw [hnext]
      exact congrArg (Option.map fun _ => (⟨true⟩ : ShutdownGuard)) hg
    have hsub : (r.state d).main ≠ .subscribe := by
      intro h
      have hle : (r.state d).mainLeft ≤ (r.state k).mainLeft := mainLeft_le (by omega)
      have hlt := Replica.mainLeft_lt_of_subscribed hmain
      have heq : (r.state d).mainLeft = n + 5 := by simp [Replica.mainLeft, h]
      omega
    have hserved := Replica.mainLeft_le_of_served hsub hserve
    let last := max (max l t) (max d (Finset.univ.sup w))
    refine main_returns (k := last) hfair fun m hm => ?_
    have hle : l ≤ m ∧ t ≤ m ∧ d ≤ m ∧ Finset.univ.sup w ≤ m := by omega
    have hleft : (r.state m).mainLeft ≤ n + 3 := (mainLeft_le hle.2.2.1).trans hserved
    refine ⟨fun h => ?_, fun h => ?_, fun i => ?_, ?_, ?_⟩
    · simp [Replica.mainLeft, h] at hleft
    · simp [Replica.mainLeft, h] at hleft
    · have hi : w i ≤ m := (Finset.le_sup (Finset.mem_univ i)).trans hle.2.2.2
      exact stopped_of_le (triggered_of_le htriggered (hw i)) (hstop i) hi
    · exact listener_stopped_of_le hlistener (triggered_of_le htriggered hl) hle.1
    · exact ticker_stopped_of_le hticker (triggered_of_le htriggered ht) hle.2.1

/-- The only worker of a replica claims a job and completes it; then `main` subscribes, the
signal comes, and all tasks go on in turn. -/
def oneJobRun : ReplicaRun 1 where
  event m :=
    if m < 7 then .worker 0 ⟨false, some [⟨1, "player_sync", .null, 1, 8⟩], false, .ok ()⟩
    else if m = 7 then .main else if m < 10 then .signal else
      match m % 6 with
      | 0 => .worker 0 ⟨false, none, false, .ok ()⟩
      | 1 => .listener ⟨true, true⟩
      | 2 => .ticker true
      | 3 => .close
      | 4 => .respond
      | _ => .main

theorem oneJobRun_fair : oneJobRun.Fair := by
  have hagain : ∀ {e}, (∃ j, 12 ≤ j ∧ j < 18 ∧ oneJobRun.event j = e) →
      ∃ᶠ m in atTop, oneJobRun.event m = e := by
    rintro e ⟨j, hj, hj', rfl⟩
    refine frequently_atTop.mpr fun m => ⟨6 * m + j, by omega, ?_⟩
    have h6 : (6 * m + j) % 6 = j % 6 := by omega
    simp only [oneJobRun, h6]
    rw [if_neg (by omega), if_neg (by omega), if_neg (by omega), if_neg (by omega),
      if_neg (by omega), if_neg (by omega)]
  have htaken : ∀ m, (∀ a, oneJobRun.event m = .listener a → a.shutdownBranch = true) ∧
      ∀ branch, oneJobRun.event m = .ticker branch → branch = true := by
    intro m
    unfold oneJobRun
    dsimp only
    constructor <;> intro x hx <;> repeat' split at hx
    all_goals cases hx
    all_goals rfl
  refine ⟨fun i => ?_, ?_, ?_, ?_, ?_, ?_, ?_, ?_⟩
  · obtain rfl : i = 0 := Subsingleton.elim i 0
    exact (hagain ⟨12, by decide, by decide, rfl⟩).mono fun m h => ⟨_, h⟩
  · exact (hagain ⟨13, by decide, by decide, rfl⟩).mono fun m h => ⟨_, h⟩
  · exact (hagain ⟨14, by decide, by decide, rfl⟩).mono fun m h => ⟨_, h⟩
  · exact hagain ⟨16, by decide, by decide, rfl⟩
  · exact hagain ⟨15, by decide, by decide, rfl⟩
  · exact hagain ⟨17, by decide, by decide, rfl⟩
  · exact fun h => h.mono fun m hm => ⟨hm, hm.1.imp fun a ha => ⟨ha, (htaken m).1 a ha⟩⟩
  · refine fun h => h.mono fun m hm => ⟨hm, ?_⟩
    obtain ⟨branch, hb⟩ := hm.1
    rw [hb, (htaken m).2 branch hb]

theorem oneJobRun_returned : (oneJobRun.state 42).main = .returned := rfl

/-- It returns, and so no job was released. -/
theorem returns_iff_oneJobRun : (∃ k, oneJobRun.SentToAll k) ∧
    ∀ m i job rest, ((oneJobRun.state m).workers i).pc ≠ .release job rest :=
  (returns_iff oneJobRun oneJobRun_fair).mp ⟨42, oneJobRun_returned⟩

/-- The job that was claimed is the one that was reported. -/
theorem returned_clean_oneJobRun : (oneJobRun.state 42).Drained ∧
    (oneJobRun.claimed 0 42).map Job.id = [1] ∧
    (oneJobRun.claimed 0 42).map Job.id = oneJobRun.reported 0 42 := by
  obtain ⟨-, hdrained, hworkers, -⟩ := returned_clean oneJobRun oneJobRun_returned
  exact ⟨hdrained, rfl, (hworkers 0).2⟩

end ReplicaRun

end BirthdayRole
