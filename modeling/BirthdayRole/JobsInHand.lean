/-
# Whose work is in progress

A job that a worker has claimed stays in progress until the worker completes it, and
the worker does that only once its thread and the actions of the thread are over. So
every thread at work belongs to a job in progress (`Service.Kept`), and where no job is,
nothing runs.
-/
import BirthdayRole.Service

namespace BirthdayRole

open Prog

namespace Service

/-- The tasks that a thread ends with are actions, and only a run that was dispatched
ends with any. -/
def Tasks (parent : Option ℕ) (p : Sync (List SyncTask)) : Prop :=
  p.Bound (fun _ _ => True) (fun _ => False) fun x =>
    ∀ ts, x = .ok ts → ∀ t ∈ ts, parent = none ∧ ∃ discordId action, t = .act discordId action

/-- The jobs in the workers' hands are in progress, and every thread at work belongs to
one of them. -/
structure Kept (s : Service) : Prop where
  held : ∀ h ∈ s.held, ∃ row, s.db.jobs.get? h.job.id = some row ∧ row.status = .inProgress ∧
    row.job = h.job
  dispatched : ∀ id i, s.thread id = some i →
    ∃ row, s.db.jobs.get? id = some row ∧ row.status ≠ .pending
  ledger : ∃ φ owed, Ledger.Inv ⟨s.pool, owed⟩ φ
  tasks : ∀ th ∈ s.pool.threads, Tasks th.parent th.prog
  owned : ∀ j th, s.pool.threads[j]? = some th → th.finished = false →
    ∃ h ∈ s.held, ∃ i, s.thread h.job.id = some i ∧ (j = i ∨ th.parent = some i)

section

variable {C : Crates} {K : TokenCrates} {state : AppState} {H : HttpCrates} {s s' : Service}

theorem kept_start (w : World) : (start w).Kept where
  held h hh := absurd hh List.not_mem_nil
  dispatched id i hi := by cases hi
  ledger := ⟨_, _, .start w⟩
  tasks th hth := absurd hth List.not_mem_nil
  owned j th hth := by cases hth

/-! ### Tasks -/

/-- A program that ends with no tasks. -/
theorem tasks_nil {α : Type} {parent : Option ℕ} (p : Sync α) :
    Tasks parent (p >>= fun _ => pure []) := by
  refine (Bound.ends p).bind ?_ ?_
  · rintro _ - ts hts
    cases hts
    exact fun t ht => absurd ht List.not_mem_nil
  · rintro e - ts hts
    cases hts

/-- A run that is dispatched. -/
theorem tasks_body (C : Crates) (t : SyncTask) : Tasks none (t.body C) := by
  cases t with
  | player discordId =>
    refine (Bound.ends (planPlayer C discordId)).bind ?_ ?_
    · rintro actions - ts hts
      cases hts
      intro t ht
      obtain ⟨action, -, rfl⟩ := List.mem_map.mp ht
      exact ⟨rfl, discordId, action, rfl⟩
    · rintro e - ts hts
      cases hts
  | roleLink link => exact tasks_nil (syncForRoleLink link)
  | act discordId action => exact tasks_nil (action.run discordId)

/-- What is left after a call. -/
theorem Tasks.call {parent : Option ℕ} {c : SyncCall}
    {k : Except AppError c.Result → Sync (List SyncTask)} (h : Tasks parent (.call c k))
    (r : Except AppError c.Result) : Tasks parent (k r) :=
  (h r trivial).resolve_left id

/-! ### The queue -/

/-- The database changes and the jobs that are there do not. -/
theorem Kept.setDb (h : s.Kept) {db : Database} (requests : List RequestRun)
    (hjobs : ∀ id row, s.db.jobs.get? id = some row → db.jobs.get? id = some row) :
    Kept { s.setDb db with requests := requests } where
  held x hx := by
    obtain ⟨row, hrow, hstatus⟩ := h.held x hx
    exact ⟨row, hjobs _ _ hrow, hstatus⟩
  dispatched id i hi := by
    obtain ⟨row, hrow, hstatus⟩ := h.dispatched id i hi
    exact ⟨row, hjobs _ _ hrow, hstatus⟩
  ledger := by
    obtain ⟨φ, owed, hinv⟩ := h.ledger
    exact ⟨φ, owed, hinv.follows, hinv.rest, hinv.owed, hinv.staged, hinv.apart⟩
  tasks := h.tasks
  owned := h.owned

theorem Kept.claim (h : s.Kept) (now : Time) (worker : String) (locked : ℕ → Bool) :
    Kept { s.setDb { s.db with jobs := (s.db.jobs.claimBatch now worker batchSize locked).1 } with
      held := s.held ++ (s.db.jobs.claimBatch now worker batchSize locked).2.map fun job =>
        ⟨worker, job⟩ } where
  held x hx := by
    rcases List.mem_append.mp hx with hx | hx
    · obtain ⟨row, hrow, hstatus, hjob⟩ := h.held x hx
      refine ⟨row, Jobs.get?_claimBatch_of_ne hrow ?_ _ _ _ _, hstatus, hjob⟩
      rw [hstatus]
      decide
    · obtain ⟨job, hjob, rfl⟩ := List.mem_map.mp hx
      exact (Jobs.mem_claimBatch hjob).2
  dispatched id i hi := by
    obtain ⟨row, hrow, hstatus⟩ := h.dispatched id i hi
    exact ⟨row, Jobs.get?_claimBatch_of_ne hrow hstatus _ _ _ _, hstatus⟩
  ledger := by
    obtain ⟨φ, owed, hinv⟩ := h.ledger
    exact ⟨φ, owed, hinv.follows, hinv.rest, hinv.owed, hinv.staged, hinv.apart⟩
  tasks := h.tasks
  owned j th hj hth := by
    obtain ⟨x, hx, i, hi, hown⟩ := h.owned j th hj hth
    exact ⟨x, List.mem_append_left _ hx, i, hi, hown⟩

/-- A completed job leaves the worker's hands, and its threads are over. -/
theorem Kept.complete (h : s.Kept) {id i : ℕ} (hi : s.thread id = some i) (hover : Over s.pool i)
    (now : Time) :
    Kept { s.setDb { s.db with jobs := s.db.jobs.complete now id } with
      held := s.held.filter fun h' => h'.job.id ≠ id } where
  held x hx := by
    obtain ⟨hx, hne⟩ := List.mem_filter.mp hx
    obtain ⟨row, hrow, hstatus⟩ := h.held x hx
    exact ⟨row, (Jobs.get?_complete_ne _ now (of_decide_eq_true hne)).trans hrow, hstatus⟩
  dispatched n m hm := by
    obtain ⟨row, hrow, hstatus⟩ := h.dispatched n m hm
    by_cases hn : n = id
    · subst hn
      obtain ⟨row', hrow', hcompleted⟩ := Jobs.get?_complete_self hrow now
      refine ⟨row', hrow', ?_⟩
      rw [hcompleted]
      decide
    · exact ⟨row, (Jobs.get?_complete_ne _ now hn).trans hrow, hstatus⟩
  ledger := by
    obtain ⟨φ, owed, hinv⟩ := h.ledger
    exact ⟨φ, owed, hinv.follows, hinv.rest, hinv.owed, hinv.staged, hinv.apart⟩
  tasks := h.tasks
  owned j th hj hth := by
    obtain ⟨x, hx, m, hm, hown⟩ := h.owned j th hj hth
    have hne : x.job.id ≠ id := by
      intro he
      rw [he, hi] at hm
      cases hm
      rw [hover j th hj hown] at hth
      cases hth
    exact ⟨x, List.mem_filter.mpr ⟨hx, decide_eq_true hne⟩, m, hm, hown⟩

/-! ### The runs -/

/-- The thread of a job that is dispatched belongs to the job. -/
theorem Kept.dispatch (h : s.Kept) {x : HeldJob} (hx : x ∈ s.held)
    (hnone : s.thread x.job.id = none) (t : SyncTask) :
    Kept { s with
      pool := s.pool.add none (t.body C)
      thread := Function.update s.thread x.job.id (some s.pool.threads.length) } where
  held := h.held
  dispatched id i hi := by
    by_cases hid : id = x.job.id
    · subst hid
      obtain ⟨row, hrow, hstatus, -⟩ := h.held x hx
      refine ⟨row, hrow, ?_⟩
      rw [hstatus]
      decide
    · refine h.dispatched id i ?_
      rw [← hi]
      exact (Function.update_of_ne hid _ _).symm
  ledger := by
    obtain ⟨φ, owed, hinv⟩ := h.ledger
    exact ⟨φ, owed, hinv.add none (SyncTask.body_follows C t)⟩
  tasks th hth := by
    rcases Pool.mem_add hth with hth | rfl
    · exact h.tasks th hth
    · exact tasks_body C t
  owned j th hj hth := by
    replace hj : (s.pool.add none (t.body C)).threads[j]? = some th := hj
    rw [Pool.getElem?_add] at hj
    split at hj
    · rename_i hlen
      exact ⟨x, hx, _, Function.update_self _ _ _, Or.inl hlen⟩
    · obtain ⟨y, hy, i, hi, hown⟩ := h.owned j th hj hth
      have hne : y.job.id ≠ x.job.id := by
        intro he
        rw [he, hnone] at hi
        cases hi
      refine ⟨y, hy, i, ?_, hown⟩
      rw [← hi]
      exact Function.update_of_ne hne _ _

/-- The call of a thread is in order, and nothing else changes what a run reads. -/
theorem Kept.moves (h : s.Kept) {i : ℕ} {parent : Option ℕ} {c : SyncCall}
    {k : Except AppError c.Result → Sync (List SyncTask)}
    (hi : s.pool.threads[i]? = some ⟨parent, .call c k⟩) (v : c.Result) :
    ∃ φ ψ, Moves φ c v ψ ∧ ∀ id link ids, φ = .staging id link ids →
      s.world.roleLogic.uploads id = some (link, ids) := by
  obtain ⟨φ, owed, hinv⟩ := h.ledger
  obtain ⟨ψ, hm, -⟩ := hinv.follows i _ hi v
  exact ⟨φ i, ψ, hm, hinv.staged i⟩

theorem Kept.call (h : s.Kept) {i : ℕ} {parent : Option ℕ} {c : SyncCall} {v : c.Result}
    {k : Except AppError c.Result → Sync (List SyncTask)}
    (hi : s.pool.threads[i]? = some ⟨parent, .call c k⟩) (hans : s.world.Answers H c (.ok v)) :
    Kept { s with pool := s.pool.update (s.world.after c v) i parent (k (.ok v)) } := by
  obtain ⟨φ, ψ, hm, -⟩ := h.moves hi v
  have hjobs : (s.world.after c v).db.jobs = s.db.jobs := (hm.sameInputs s.world).jobs
  refine ⟨fun x hx => ?_, fun id n hn => ?_, ?_, fun th hth => ?_, fun j th hj hth => ?_⟩
  · show ∃ row, (s.world.after c v).db.jobs.get? x.job.id = some row ∧ _
    rw [hjobs]
    exact h.held x hx
  · show ∃ row, (s.world.after c v).db.jobs.get? id = some row ∧ _
    rw [hjobs]
    exact h.dispatched id n hn
  · obtain ⟨φ, owed, hinv⟩ := h.ledger
    obtain ⟨ψ, hm, hk⟩ := hinv.follows i _ hi v
    exact ⟨_, _, hinv.called hi hans hm hk⟩
  · rcases Pool.mem_update hth with hth | rfl
    · exact h.tasks th hth
    · exact (h.tasks _ (List.mem_of_getElem? hi)).call _
  · replace hj : (s.pool.update (s.world.after c v) i parent (k (.ok v))).threads[j]? = some th := hj
    rw [Pool.getElem?_update hi] at hj
    split at hj
    · rename_i hji
      cases hj
      subst hji
      obtain ⟨x, hx, n, hn, hown⟩ := h.owned j _ hi rfl
      exact ⟨x, hx, n, hn, hown⟩
    · exact h.owned j th hj hth

/-- An action that starts belongs to the job of its run. -/
theorem Kept.start (h : s.Kept) {i : ℕ} {parent : Option ℕ} {t : SyncTask} {ts : List SyncTask}
    (hi : s.pool.threads[i]? = some ⟨parent, .done (.ok (t :: ts))⟩) :
    Kept { s with
      pool := (s.pool.update s.pool.state i parent (.done (.ok ts))).add (some i) (t.body C) } := by
  have htasks := h.tasks _ (List.mem_of_getElem? hi) _ rfl
  obtain ⟨rfl, discordId, action, rfl⟩ := htasks t List.mem_cons_self
  obtain ⟨x, hx, n, hn, hown⟩ := h.owned i _ hi rfl
  have hown : i = n := hown.resolve_right fun hp => by cases hp
  subst hown
  refine ⟨h.held, h.dispatched, ?_, fun th hth => ?_, fun j th hj hth => ?_⟩
  · obtain ⟨φ, owed, hinv⟩ := h.ledger
    exact ⟨φ, owed, (hinv.started hi).add _ (SyncTask.body_follows C _)⟩
  · rcases Pool.mem_add hth with hth | rfl
    · rcases Pool.mem_update hth with hth | rfl
      · exact h.tasks th hth
      · intro us hus u hu
        cases hus
        exact htasks u (List.mem_cons_of_mem _ hu)
    · exact tasks_nil (action.run discordId)
  · replace hj : ((s.pool.update s.pool.state i none (.done (.ok ts))).add (some i)
      (SyncTask.body C (.act discordId action))).threads[j]? = some th := hj
    rw [Pool.getElem?_add] at hj
    split at hj
    · cases hj
      exact ⟨x, hx, i, hn, Or.inr rfl⟩
    · rw [Pool.getElem?_update hi] at hj
      split at hj
      · rename_i hji
        exact ⟨x, hx, i, hn, Or.inl hji⟩
      · exact h.owned j th hj hth

/-! ### A step -/

theorem Kept.step (h : s.Kept) {l : Label} (hstep : Step C K state H s l s')
    (hstage : ∀ q ∈ s.requests, q.Stage C) : s'.Kept := by
  cases hstep with
  | arrive arrival =>
    have hsame : ∀ id row, s.db.jobs.get? id = some row → s.db.jobs.get? id = some row :=
      fun _ _ hrow => hrow
    exact h.setDb _ hsame
  | @request i q q' db hi hn =>
    have heffect := ((hstage q (List.mem_of_getElem? hi)).next hn).2
    exact h.setDb _ fun _ _ hrow => heffect.jobs hrow
  | claim now worker locked _ => exact h.claim now worker locked
  | dispatch hx hnone _ => exact h.dispatch hx (hnone _ hx rfl) _
  | complete now hx hi _ hover => exact h.complete hi hover now
  | @run l p hrun =>
    cases hrun with
    | drift hd => exact hd.elim
    | spawn ht => exact ht.elim
    | @call i parent c k r w hi hr =>
      obtain ⟨⟨hans, rfl⟩, v, rfl⟩ := hr
      exact h.call hi hans
    | start hi _ => exact h.start hi

end

end Service

end BirthdayRole
