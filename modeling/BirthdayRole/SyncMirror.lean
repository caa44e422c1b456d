/-
# The rows follow the lists

Any number of runs side by side, no call failing. A run tells RoleLogic first and
writes its rows later, so the rows lag behind by the changes that are owed
(`Ledger.owed`, in the order RoleLogic accepted them).

Nothing keeps the writes in that order. A write that overtakes an earlier change of
the same link which says something else of some user leaves the rows wrong for good:
`overtaken` is such a run. As long as no write does (`InOrder`), a run of the engine
is one of `Mirror.Step` (`Ledger.simulates`), and whenever no run is in progress the
rows of every link are its list (`mirrored_of_inOrder`).
-/
import BirthdayRole.SyncPhases

namespace BirthdayRole

open Prog

abbrev SyncPool := Pool AppError SyncCall.Result World SyncTask

abbrev SyncLabel := Label AppError SyncCall.Result SyncTask

/-- A pool, and the changes that RoleLogic has accepted and the rows do not have yet,
each with the thread that owes it. -/
structure Ledger where
  pool : SyncPool
  owed : List (ℕ × Change)

/-- The changes owed after a step. -/
def record (w : World) (owed : List (ℕ × Change)) : SyncLabel → List (ℕ × Change)
  | .call i ⟨.roleLogic link _ c, .ok _⟩ =>
    owed ++ ((c.change w.roleLogic link).map fun change => (i, change)).toList
  | .call i ⟨.db s, .ok _⟩ => if s.change.isSome then owed.eraseP fun e => e.1 = i else owed
  | _ => owed

/-- A statement that writes a change finds no earlier one owed that disagrees with it. -/
def InOrder (owed : List (ℕ × Change)) : SyncLabel → Prop
  | .call i ⟨.db s, .ok _⟩ => ∀ change, s.change = some change →
      ∀ e ∈ owed.takeWhile fun e => e.1 ≠ i, e.2.Agrees change
  | _ => True

namespace Ledger

variable (S : System AppError SyncCall.Result World SyncTask)

/-- A step of the pool, whose change is recorded. -/
def Next (a a' : Ledger) : Prop :=
  ∃ l, Step S a.pool l a'.pool ∧ a'.owed = record a.pool.state a.owed l

/-- A step that is in order. -/
def NextInOrder (a a' : Ledger) : Prop :=
  ∃ l, Step S a.pool l a'.pool ∧ InOrder a.owed l ∧ a'.owed = record a.pool.state a.owed l

variable {S}

/-- The record forbids nothing: every run of the pool has one. -/
theorem exists_of_reached {p p' : SyncPool} (owed : List (ℕ × Change)) (h : Reached S p p') :
    ∃ owed', Relation.ReflTransGen (Next S) ⟨p, owed⟩ ⟨p', owed'⟩ := by
  induction h with
  | refl => exact ⟨owed, .refl⟩
  | tail _ hnext ih =>
    obtain ⟨owed', h⟩ := ih
    obtain ⟨l, hstep⟩ := hnext
    exact ⟨_, h.tail ⟨l, hstep, rfl⟩⟩

end Ledger

/-! ### One call -/

/-- The lists as the store, the rows as its copy. -/
def World.mirror (w : World) (owed : List (ℕ × Change)) :
    Mirror.State ℕ (LinkKey × String) Bool :=
  ⟨w.users, w.db.rows, owed.map fun e => (e.1, e.2.patch)⟩

/-- What a thread owes according to its phase. -/
def Phase.entries (φ : Phase) (i : ℕ) : List (ℕ × Change) :=
  (φ.owed.map fun change => (i, change)).toList

theorem Statement.Reads.change {s : Statement} (h : s.Reads) : s.change = none := by
  cases s <;> first | rfl | exact h.elim

theorem RlCall.change_of_direct {c : RlCall} {link : LinkKey} {change : Change} (rl : RoleLogic)
    (h : c.direct link = some change) : c.change rl link = some change := by
  cases c <;> first | exact h | cases h

section

variable {φ ψ : Phase} {c : SyncCall} {v : c.Result} {w : World} {owed : List (ℕ × Change)} {i : ℕ}

/-- The entry of a thread that owes a change, and what lies around it. -/
theorem entry_split {change : Change} (h : (owed.filter fun e => e.1 = i) = [(i, change)]) :
    ∃ before after, owed = before ++ (i, change) :: after ∧
      owed.takeWhile (fun e => e.1 ≠ i) = before ∧ owed.eraseP (fun e => e.1 = i) = before ++ after := by
  obtain ⟨before, after, rfl, hbefore, -, -⟩ := List.filter_eq_cons_iff.mp h
  have hne : ∀ e ∈ before, decide (e.1 ≠ i) = true := fun e he => by simpa using hbefore e he
  refine ⟨before, after, rfl, ?_, ?_⟩
  · rw [List.takeWhile_append_of_pos hne, List.takeWhile_cons_of_neg (by simp), List.append_nil]
  · rw [List.eraseP_append_right _ hbefore, List.eraseP_cons_of_pos (by simp)]

/-- A statement that reads is no step. -/
theorem mirror_read {s : Statement} (hs : s.Reads) (v : s.Result) :
    (w.after (.db s) v).mirror (record w owed (.call i ⟨.db s, .ok v⟩)) = w.mirror owed := by
  have hafter : w.after (.db s) v = w := by
    show { w with db := s.after w.db } = w
    rw [hs.after]
  have hrecord : record w owed (.call i ⟨.db s, .ok v⟩) = owed := by
    show (if s.change.isSome then _ else owed) = owed
    rw [hs.change]
    rfl
  rw [hafter, hrecord]

/-- Nor is a call that changes no list. -/
theorem mirror_quiet {link : LinkKey} {token : String} {c : RlCall} (v : c.Result)
    (hc : c.change w.roleLogic link = none) :
    (w.after (.roleLogic link token c) v).mirror
      (record w owed (.call i ⟨.roleLogic link token c, .ok v⟩)) = w.mirror owed := by
  have husers := RoleLogic.users_after w link token c v
  rw [hc] at husers
  have hrecord : record w owed (.call i ⟨.roleLogic link token c, .ok v⟩) = owed := by
    show owed ++ _ = owed
    rw [hc]
    exact List.append_nil owed
  rw [hrecord]
  unfold World.mirror
  rw [husers]
  rfl

/-- A call that changes a list is one that the copy has to follow. -/
theorem mirror_accept {link : LinkKey} {token : String} {c : RlCall} (v : c.Result) {change : Change}
    (hc : c.change w.roleLogic link = some change) :
    Mirror.Step (w.mirror owed) ((w.after (.roleLogic link token c) v).mirror
      (record w owed (.call i ⟨.roleLogic link token c, .ok v⟩))) := by
  have husers := RoleLogic.users_after w link token c v
  rw [hc] at husers
  have hrecord : record w owed (.call i ⟨.roleLogic link token c, .ok v⟩) = owed ++ [(i, change)] := by
    show owed ++ _ = _
    rw [hc]
    rfl
  have hmap : (owed ++ [(i, change)]).map (fun e => (e.1, e.2.patch)) =
      owed.map (fun e => (e.1, e.2.patch)) ++ [(i, change.patch)] := List.map_append
  rw [hrecord]
  unfold World.mirror
  rw [husers, hmap]
  exact Mirror.Step.accept (s := w.mirror owed) i change.patch

/-- A statement that writes the change its thread owes is one where the copy follows. -/
theorem mirror_copy {s : Statement} (v : s.Result) {change : Change} (hs : s.change = some change)
    (howed : (owed.filter fun e => e.1 = i) = [(i, change)])
    (horder : InOrder owed (.call i ⟨.db s, .ok v⟩)) :
    Mirror.Step (w.mirror owed)
      ((w.after (.db s) v).mirror (record w owed (.call i ⟨.db s, .ok v⟩))) := by
  obtain ⟨before, after, howed, htake, herase⟩ := entry_split howed
  have hrows := s.rows_after w.db fun link he => by rw [he] at hs; cases hs
  rw [hs] at hrows
  have hrecord : record w owed (.call i ⟨.db s, .ok v⟩) = before ++ after := by
    show (if s.change.isSome then owed.eraseP _ else owed) = _
    rw [hs, herase]
    rfl
  have hagree : ∀ e ∈ before.map fun e => (e.1, e.2.patch), e.2.Agree change.patch := by
    intro e he
    obtain ⟨e', he', rfl⟩ := List.mem_map.mp he
    exact horder change hs e' (htake ▸ he')
  rw [hrecord]
  show Mirror.Step (w.mirror owed)
    ⟨w.users, (s.after w.db).rows, (before ++ after).map fun e => (e.1, e.2.patch)⟩
  rw [hrows, List.map_append]
  refine Mirror.Step.copy (i := i) ?_ hagree
  show owed.map _ = _
  rw [howed, List.map_append, List.map_cons]

/-- A call that is in order is a step of the mirror, or none. -/
theorem Moves.mirror_step (h : Moves φ c v ψ)
    (hstaged : ∀ id link ids, φ = .staging id link ids → w.roleLogic.uploads id = some (link, ids))
    (howed : (owed.filter fun e => e.1 = i) = φ.entries i)
    (horder : InOrder owed (.call i ⟨c, .ok v⟩)) :
    Relation.ReflTransGen Mirror.Step (w.mirror owed)
      ((w.after c v).mirror (record w owed (.call i ⟨c, .ok v⟩))) := by
  cases h with
  | userGuildIds | guildMemberIds | localToday => exact .refl
  | read hs => rw [mirror_read hs]
  | getUserInfo | start | stage => rw [mirror_quiet _ rfl]
  | commit => exact .single (mirror_accept _ (by rw [RlCall.change, hstaged _ _ _ rfl]; rfl))
  | accept hc => exact .single (mirror_accept _ (RlCall.change_of_direct _ hc))
  | mirror hs => exact .single (mirror_copy _ hs howed horder)

/-- What the thread of a call owes is what its phase says. -/
theorem Moves.owed_self (h : Moves φ c v ψ)
    (hstaged : ∀ id link ids, φ = .staging id link ids → w.roleLogic.uploads id = some (link, ids))
    (howed : (owed.filter fun e => e.1 = i) = φ.entries i) :
    ((record w owed (.call i ⟨c, .ok v⟩)).filter fun e => e.1 = i) = ψ.entries i := by
  cases h with
  | userGuildIds | guildMemberIds | localToday => exact howed
  | @read _ s _ hs =>
    show ((if s.change.isSome then owed.eraseP _ else owed).filter _) = _
    rw [hs.change]
    exact howed
  | getUserInfo | start | stage =>
    show ((owed ++ []).filter _) = _
    rw [List.append_nil]
    exact howed
  | @commit link token id ids v =>
    have hchange : (RlCall.commitUpload id).change w.roleLogic link = some (.whole link ids) := by
      rw [RlCall.change, hstaged _ _ _ rfl]
      rfl
    show ((owed ++ _).filter _) = _
    rw [hchange, List.filter_append, howed]
    simp [Phase.entries, Phase.owed]
  | @accept link token c v change hc =>
    show ((owed ++ _).filter _) = _
    rw [RlCall.change_of_direct _ hc, List.filter_append, howed]
    simp [Phase.entries, Phase.owed]
  | @mirror s v change hs =>
    obtain ⟨before, after, rfl, hbefore, -, hafter⟩ := List.filter_eq_cons_iff.mp howed
    show ((if s.change.isSome then List.eraseP _ _ else _).filter _) = _
    rw [hs, Option.isSome_some, if_pos rfl, List.eraseP_append_right _ hbefore,
      List.eraseP_cons_of_pos (by simp), List.filter_append, hafter, List.append_nil]
    exact List.filter_eq_nil_iff.mpr hbefore

theorem filter_eraseP_other {j : ℕ} (hj : j ≠ i) : ∀ owed : List (ℕ × Change),
    ((owed.eraseP fun e => e.1 = i).filter fun e => e.1 = j) = owed.filter fun e => e.1 = j
  | [] => rfl
  | e :: owed => by
    by_cases he : e.1 = i
    · rw [List.eraseP_cons_of_pos (by simpa using he), List.filter_cons_of_neg]
      simpa [he] using Ne.symm hj
    · rw [List.eraseP_cons_of_neg (by simpa using he), List.filter_cons, List.filter_cons,
        filter_eraseP_other hj owed]

/-- No call touches what another thread owes. -/
theorem owed_other {j : ℕ} (hj : j ≠ i) (w : World) (owed : List (ℕ × Change)) (c : SyncCall)
    (v : c.Result) : ((record w owed (.call i ⟨c, .ok v⟩)).filter fun e => e.1 = j) =
      owed.filter fun e => e.1 = j := by
  cases c with
  | userGuildIds | guildMemberIds | localToday => rfl
  | db s =>
    show ((if s.change.isSome then owed.eraseP _ else owed).filter _) = _
    split
    · exact filter_eraseP_other hj owed
    · rfl
  | roleLogic link token c =>
    show ((owed ++ _).filter _) = _
    rw [List.filter_append]
    cases c.change w.roleLogic link with
    | none => exact List.append_nil _
    | some change => simp [Ne.symm hj]

/-- What a thread has staged is there. -/
theorem Moves.staged_self (h : Moves φ c v ψ)
    (hstaged : ∀ id link ids, φ = .staging id link ids → w.roleLogic.uploads id = some (link, ids)) :
    ∀ id link ids, ψ = .staging id link ids →
      (w.after c v).roleLogic.uploads id = some (link, ids) := by
  intro id link ids hψ
  cases h with
  | userGuildIds | guildMemberIds | localToday | read | getUserInfo => exact hstaged id link ids hψ
  | start =>
    cases hψ
    exact Function.update_self _ _ _
  | stage =>
    cases hψ
    show Function.update _ _ _ _ = _
    rw [Function.update_self, hstaged _ _ _ rfl]
    rfl
  | commit | accept | mirror => cases hψ

variable {H : HttpCrates}

/-- An upload that starts gets an id of its own. -/
theorem Moves.fresh (h : Moves φ c v ψ) (hans : w.Answers H c (.ok v)) {id : String} {link : LinkKey}
    {ids : List String} (hψ : ψ = .staging id link ids) :
    (∃ link ids, φ = .staging id link ids) ∨ w.roleLogic.uploads id = none := by
  cases h with
  | userGuildIds | guildMemberIds | localToday | read | getUserInfo => exact Or.inl ⟨link, ids, hψ⟩
  | start =>
    cases hψ
    obtain ⟨reply, hreply, hfresh⟩ := hans
    exact Or.inr (hfresh id hreply)
  | stage =>
    cases hψ
    exact Or.inl ⟨_, _, rfl⟩
  | commit | accept | mirror => cases hψ

/-- What others have staged stays. -/
theorem Moves.staged_other (h : Moves φ c v ψ) (hans : w.Answers H c (.ok v)) {id : String}
    {u : LinkKey × List String} (hu : w.roleLogic.uploads id = some u)
    (hφ : ∀ link ids, φ ≠ .staging id link ids) : (w.after c v).roleLogic.uploads id = some u := by
  cases h with
  | userGuildIds | guildMemberIds | localToday | read | getUserInfo | mirror => exact hu
  | @start link token id' =>
    obtain ⟨reply, hreply, hfresh⟩ := hans
    have hne : id ≠ id' := by
      rintro rfl
      rw [hfresh id hreply] at hu
      cases hu
    show Function.update _ _ _ _ = _
    rw [Function.update_of_ne hne, hu]
  | @stage link token id' ids =>
    have hne : id ≠ id' := fun he => hφ link ids (by rw [he])
    show Function.update _ _ _ _ = _
    rw [Function.update_of_ne hne, hu]
  | @commit link token id' ids v =>
    have hne : id ≠ id' := fun he => hφ link ids (by rw [he])
    show (w.roleLogic.after link (.commitUpload id') v).uploads id = some u
    rcases w.roleLogic.after_commitUpload link id' v with ⟨-, he⟩ | ⟨_, -, he⟩
    · rw [he, hu]
    · rw [he]
      show Function.update _ _ _ _ = _
      rw [Function.update_of_ne hne]
      exact hu
  | @accept link token c v change hc =>
    cases c with
    | addUser | removeUser | replaceUsers => exact hu
    | getUserInfo | startUpload | uploadChunk | commitUpload | cancelUpload => cases hc

end

/-! ### A run -/

/-- What else may happen while the engine runs: anything but to the lists, the open
uploads and the rows. -/
def World.Elsewhere (w w' : World) : Prop :=
  w'.roleLogic.lists = w.roleLogic.lists ∧ w'.roleLogic.uploads = w.roleLogic.uploads ∧
    w'.db.assignments = w.db.assignments

/-- Every thread is in a phase, and owes what the ledger says. -/
structure Ledger.Inv (a : Ledger) (φ : ℕ → Phase) : Prop where
  follows : ∀ i t, a.pool.threads[i]? = some t → Follows (φ i) t.prog fun _ ψ => ψ = .idle
  rest : ∀ i, a.pool.threads[i]? = none → φ i = .idle
  owed : ∀ i, (a.owed.filter fun e => e.1 = i) = (φ i).entries i
  staged : ∀ i id link ids, φ i = .staging id link ids →
    a.pool.state.roleLogic.uploads id = some (link, ids)
  apart : ∀ i j id, (∃ link ids, φ i = .staging id link ids) →
    (∃ link ids, φ j = .staging id link ids) → i = j

variable {C : Crates} {H : HttpCrates} {drift : World → World → Prop}

/-- The runs in which no call fails. -/
abbrev faultlessRuns (C : Crates) (H : HttpCrates) (drift : World → World → Prop) :
    System AppError SyncCall.Result World SyncTask :=
  syncSystem C (World.faultless H) drift

/-- Before the first thread. -/
theorem Ledger.Inv.start (w : World) : Ledger.Inv ⟨⟨w, []⟩, []⟩ fun _ => .idle where
  follows i t ht := by cases ht
  rest _ _ := rfl
  owed _ := rfl
  staged i id link ids hi := by cases hi
  apart := by
    rintro i j id ⟨link, ids, hi⟩
    cases hi

/-- The index of a new thread was idle. -/
theorem Ledger.Inv.next_idle {a : Ledger} {φ : ℕ → Phase} (h : a.Inv φ) :
    φ a.pool.threads.length = .idle :=
  h.rest _ (List.getElem?_eq_none le_rfl)

/-- A thread more, which owes nothing. -/
theorem Ledger.Inv.add {p : SyncPool} {owed : List (ℕ × Change)} {φ : ℕ → Phase}
    (h : Ledger.Inv ⟨p, owed⟩ φ) (parent : Option ℕ) {prog : Sync (List SyncTask)}
    (hprog : Follows .idle prog fun _ ψ => ψ = .idle) : Ledger.Inv ⟨p.add parent prog, owed⟩ φ where
  follows i t ht := by
    replace ht : (p.add parent prog).threads[i]? = some t := ht
    rw [Pool.getElem?_add] at ht
    split at ht
    · rename_i hi
      cases ht
      rw [hi, h.next_idle]
      exact hprog
    · exact h.follows i t ht
  rest i hi := by
    replace hi : (p.add parent prog).threads[i]? = none := hi
    rw [Pool.getElem?_add] at hi
    split at hi
    · cases hi
    · exact h.rest i hi
  owed := h.owed
  staged := h.staged
  apart := h.apart

/-- A thread at its end is idle, and may have fewer children to start. -/
theorem Ledger.Inv.started {p : SyncPool} {owed : List (ℕ × Change)} {φ : ℕ → Phase}
    (h : Ledger.Inv ⟨p, owed⟩ φ) {i : ℕ} {parent : Option ℕ} {t : SyncTask} {ts : List SyncTask}
    (hi : p.threads[i]? = some ⟨parent, done (.ok (t :: ts))⟩) :
    Ledger.Inv ⟨p.update p.state i parent (done (.ok ts)), owed⟩ φ where
  follows j u hu := by
    replace hu : (p.update p.state i parent (done (.ok ts))).threads[j]? = some u := hu
    rw [Pool.getElem?_update hi] at hu
    split at hu
    · rename_i hj
      subst hj
      cases hu
      obtain ⟨-, -, hidle⟩ := h.follows j _ hi
      exact ⟨ts, rfl, hidle⟩
    · exact h.follows j u hu
  rest j hj := by
    replace hj : (p.update p.state i parent (done (.ok ts))).threads[j]? = none := hj
    rw [Pool.getElem?_update hi] at hj
    split at hj
    · cases hj
    · exact h.rest j hj
  owed := h.owed
  staged := h.staged
  apart := h.apart

/-- A call that is in order moves its thread to the next phase, and no other thread. -/
theorem Ledger.Inv.called {p : SyncPool} {owed : List (ℕ × Change)} {φ : ℕ → Phase}
    (h : Ledger.Inv ⟨p, owed⟩ φ) {i : ℕ} {parent : Option ℕ} {c : SyncCall} {v : c.Result}
    {k : Except AppError c.Result → Sync (List SyncTask)} {ψ : Phase}
    (hi : p.threads[i]? = some ⟨parent, call c k⟩) (hans : p.state.Answers H c (.ok v))
    (hm : Moves (φ i) c v ψ) (hk : Follows ψ (k (.ok v)) fun _ ψ => ψ = .idle) :
    Ledger.Inv ⟨p.update (p.state.after c v) i parent (k (.ok v)),
      record p.state owed (.call i ⟨c, .ok v⟩)⟩ (Function.update φ i ψ) where
  follows j u hu := by
    replace hu : (p.update (p.state.after c v) i parent (k (.ok v))).threads[j]? = some u := hu
    rw [Pool.getElem?_update hi] at hu
    split at hu
    · rename_i hj
      subst hj
      cases hu
      rw [Function.update_self]
      exact hk
    · rename_i hj
      rw [Function.update_of_ne hj]
      exact h.follows j u hu
  rest j hj := by
    replace hj : (p.update (p.state.after c v) i parent (k (.ok v))).threads[j]? = none := hj
    rw [Pool.getElem?_update hi] at hj
    split at hj
    · cases hj
    · rename_i hne
      rw [Function.update_of_ne hne]
      exact h.rest j hj
  owed j := by
    by_cases hj : j = i
    · subst hj
      rw [Function.update_self]
      exact hm.owed_self (h.staged j) (h.owed j)
    · rw [Function.update_of_ne hj]
      exact (owed_other hj p.state owed c v).trans (h.owed j)
  staged j id link ids hj := by
    by_cases hji : j = i
    · subst hji
      rw [Function.update_self] at hj
      exact hm.staged_self (h.staged j) id link ids hj
    · rw [Function.update_of_ne hji] at hj
      refine hm.staged_other hans (h.staged j id link ids hj) fun link' ids' he => hji ?_
      exact h.apart j i id ⟨link, ids, hj⟩ ⟨link', ids', he⟩
  apart j l id hj hl := by
    -- an upload of the thread that moved is one it had, or one that nobody has
    have hmoved : ∀ n, (∃ link ids, ψ = .staging id link ids) →
        (∃ link ids, φ n = .staging id link ids) → i = n := by
      rintro n ⟨link, ids, hψ⟩ hn
      rcases hm.fresh hans hψ with hφ | hnone
      · exact h.apart i n id hφ hn
      · obtain ⟨link', ids', hn⟩ := hn
        have hsome := h.staged n id link' ids' hn
        rw [hnone] at hsome
        cases hsome
    by_cases hji : j = i <;> by_cases hli : l = i
    · rw [hji, hli]
    · subst hji
      rw [Function.update_self] at hj
      rw [Function.update_of_ne hli] at hl
      exact hmoved l hj hl
    · subst hli
      rw [Function.update_self] at hl
      rw [Function.update_of_ne hji] at hj
      exact (hmoved j hl hj).symm
    · rw [Function.update_of_ne hji] at hj
      rw [Function.update_of_ne hli] at hl
      exact h.apart j l id hj hl

/-- A step that is in order is a step of the mirror, or none. -/
theorem Ledger.simulates (hdrift : ∀ w w', drift w w' → w.Elsewhere w') {a a' : Ledger}
    {φ : ℕ → Phase} (hinv : a.Inv φ) (h : NextInOrder (faultlessRuns C H drift) a a') :
    (∃ φ', a'.Inv φ') ∧ Relation.ReflTransGen Mirror.Step (a.pool.state.mirror a.owed)
      (a'.pool.state.mirror a'.owed) := by
  obtain ⟨l, hstep, horder, howed⟩ := h
  obtain ⟨p, owed⟩ := a
  obtain ⟨p', owed'⟩ := a'
  cases howed
  cases hstep with
  | @drift w hd =>
    obtain ⟨hlists, huploads, hrows⟩ := hdrift _ _ hd
    refine ⟨⟨φ, hinv.follows, hinv.rest, hinv.owed, fun i id link ids hi => ?_, hinv.apart⟩, ?_⟩
    · show w.roleLogic.uploads id = _
      rw [huploads]
      exact hinv.staged i id link ids hi
    · have hsame : w.mirror owed = p.state.mirror owed := by
        unfold World.mirror World.users Database.rows
        rw [hlists, hrows]
      show Relation.ReflTransGen _ (p.state.mirror owed) (w.mirror owed)
      rw [hsame]
  | spawn ht => exact ⟨⟨φ, hinv.add none (SyncTask.body_follows C _)⟩, .refl⟩
  | start hi _ => exact ⟨⟨φ, (hinv.started hi).add _ (SyncTask.body_follows C _)⟩, .refl⟩
  | @call i parent c k r w hi hr =>
    obtain ⟨⟨hans, rfl⟩, v, rfl⟩ := hr
    obtain ⟨ψ, hm, hk⟩ := hinv.follows i _ hi v
    exact ⟨⟨_, hinv.called hi hans hm hk⟩, hm.mirror_step (hinv.staged i) (hinv.owed i) horder⟩

/-- A whole run whose steps are in order. -/
theorem Ledger.reached_inv (hdrift : ∀ w w', drift w w' → w.Elsewhere w') {w : World} {a : Ledger}
    (h : Relation.ReflTransGen (NextInOrder (faultlessRuns C H drift)) ⟨⟨w, []⟩, []⟩ a) :
    (∃ φ, a.Inv φ) ∧ Relation.ReflTransGen Mirror.Step (w.mirror []) (a.pool.state.mirror a.owed) := by
  induction h with
  | refl => exact ⟨⟨_, .start w⟩, .refl⟩
  | tail _ hnext ih =>
    obtain ⟨⟨φ, hinv⟩, hmirror⟩ := ih
    obtain ⟨hinv, hstep⟩ := Ledger.simulates hdrift hinv hnext
    exact ⟨hinv, hmirror.trans hstep⟩

/-- Where no run is in progress nothing is owed. -/
theorem Ledger.Inv.owed_nil {a : Ledger} {φ : ℕ → Phase} (h : a.Inv φ) (hquiet : a.pool.Quiescent) :
    a.owed = [] := by
  have hidle : ∀ i, φ i = .idle := by
    intro i
    cases hi : a.pool.threads[i]? with
    | none => exact h.rest i hi
    | some t =>
      have hfollows := h.follows i t hi
      have hfinished := hquiet t (List.mem_of_getElem? hi)
      obtain ⟨parent, prog⟩ := t
      cases prog with
      | done x =>
        obtain ⟨-, -, hidle⟩ := hfollows
        exact hidle
      | call => cases hfinished
  refine List.eq_nil_iff_forall_not_mem.mpr fun e he => ?_
  have hentry : e ∈ a.owed.filter fun e' => e'.1 = e.1 := List.mem_filter.mpr ⟨he, by simp⟩
  rw [h.owed, hidle] at hentry
  exact absurd hentry List.not_mem_nil

/-! ### In order and out of order -/

theorem inOrder_alone {owed : List (ℕ × Change)} {i : ℕ} (h : ∀ e ∈ owed, e.1 = i)
    (event : Event AppError SyncCall.Result) : InOrder owed (.call i event) := by
  obtain ⟨c, r⟩ := event
  cases c with
  | userGuildIds | guildMemberIds | localToday | roleLogic => trivial
  | db s =>
    cases r with
    | error e => trivial
    | ok v =>
      intro change _ e he
      cases owed with
      | nil => exact absurd he List.not_mem_nil
      | cons first owed =>
        rw [List.takeWhile_cons_of_neg (by simpa using h first List.mem_cons_self)] at he
        exact absurd he List.not_mem_nil

theorem record_alone {owed : List (ℕ × Change)} {i : ℕ} (h : ∀ e ∈ owed, e.1 = i) (w : World)
    (event : Event AppError SyncCall.Result) : ∀ e ∈ record w owed (.call i event), e.1 = i := by
  obtain ⟨c, r⟩ := event
  cases r with
  | error e => cases c <;> exact h
  | ok v =>
    cases c with
    | userGuildIds | guildMemberIds | localToday => exact h
    | db s =>
      show ∀ e ∈ if s.change.isSome then owed.eraseP _ else owed, e.1 = i
      split
      · exact fun e he => h e (List.eraseP_subset he)
      · exact h
    | roleLogic link token c =>
      show ∀ e ∈ owed ++ _, e.1 = i
      intro e he
      rcases List.mem_append.mp he with he | he
      · exact h e he
      · cases hc : c.change w.roleLogic link with
        | none => rw [hc] at he; exact absurd he List.not_mem_nil
        | some change => rw [hc] at he; rw [List.mem_singleton.mp he]

/-- A thread that runs to its end while nobody else owes anything is in order. -/
theorem Ledger.of_exec {S : System AppError SyncCall.Result World SyncTask}
    {prog : Sync (List SyncTask)} {w w' : World} {events : List (Event AppError SyncCall.Result)}
    {x : Except AppError (List SyncTask)} (h : Exec S.outside prog w events x w') {i : ℕ}
    {parent : Option ℕ} : ∀ {p : SyncPool} {owed : List (ℕ × Change)}, p.state = w →
      p.threads[i]? = some ⟨parent, prog⟩ → (∀ e ∈ owed, e.1 = i) →
      ∃ owed', Relation.ReflTransGen (NextInOrder S) ⟨p, owed⟩
        ⟨p.update w' i parent (done x), owed'⟩ := by
  induction h with
  | @done x w =>
    intro p owed hw hp _
    rw [Pool.update_self hp hw]
    exact ⟨owed, .refl⟩
  | @call c k r w w₁ w₂ events x hr _ ih =>
    intro p owed hw hp howed
    subst hw
    have hthis : (p.update w₁ i parent (k r)).threads[i]? = some ⟨parent, k r⟩ := by
      rw [Pool.getElem?_update hp, if_pos rfl]
    obtain ⟨owed', hrest⟩ := ih rfl hthis (record_alone howed p.state ⟨c, r⟩)
    rw [Pool.update_update] at hrest
    exact ⟨owed', hrest.head ⟨_, .call hp hr, inOrder_alone howed _, rfl⟩⟩

/-- A call that changes no list and no row. -/
def SyncCall.Quiet : SyncCall → Prop
  | .db s => s.Reads
  | .roleLogic _ _ .getUserInfo => True
  | .roleLogic _ _ _ => False
  | _ => True

/-- Such a call is in order whatever is owed. -/
theorem Ledger.quiet {S : System AppError SyncCall.Result World SyncTask} {p : SyncPool}
    {owed : List (ℕ × Change)} {i : ℕ} {parent : Option ℕ} {c : SyncCall}
    {k : Except AppError c.Result → Sync (List SyncTask)} {r : Except AppError c.Result} {w : World}
    {a : Ledger} (hi : p.threads[i]? = some ⟨parent, .call c k⟩) (hr : S.outside c p.state r w)
    (hc : c.Quiet)
    (h : Relation.ReflTransGen (NextInOrder S) ⟨p.update w i parent (k r), owed⟩ a) :
    Relation.ReflTransGen (NextInOrder S) ⟨p, owed⟩ a := by
  have hquiet : InOrder owed (.call i ⟨c, r⟩) ∧ record p.state owed (.call i ⟨c, r⟩) = owed := by
    cases r with
    | error e => cases c <;> exact ⟨trivial, rfl⟩
    | ok v =>
      cases c with
      | userGuildIds | guildMemberIds | localToday => exact ⟨trivial, rfl⟩
      | db s =>
        have hnone : s.change = none := Statement.Reads.change hc
        refine ⟨fun change h => ?_, ?_⟩
        · rw [hnone] at h
          cases h
        · show (if s.change.isSome then owed.eraseP _ else owed) = owed
          rw [hnone]
          rfl
      | roleLogic link token c =>
        cases c with
        | getUserInfo => exact ⟨trivial, List.append_nil owed⟩
        | addUser | removeUser | replaceUsers | startUpload | uploadChunk | commitUpload
        | cancelUpload => exact hc.elim
  exact h.head ⟨_, .call hi hr, hquiet.1, hquiet.2.symm⟩

/-- In every run of the engine in which no call fails and no row is written out of
order, the rows of every link are its list whenever no run is in progress. -/
theorem mirrored_of_inOrder (C : Crates) (H : HttpCrates) (drift : World → World → Prop)
    (hdrift : ∀ w w', drift w w' → w.Elsewhere w') {w : World} (hw : w.Mirrored) {a : Ledger}
    (hrun : Relation.ReflTransGen (Ledger.NextInOrder (faultlessRuns C H drift)) ⟨⟨w, []⟩, []⟩ a)
    (hquiet : a.pool.Quiescent) : a.pool.state.Mirrored := by
  obtain ⟨⟨φ, hinv⟩, hmirror⟩ := Ledger.reached_inv hdrift hrun
  have hstart : Mirror.Inv (w.mirror []) := World.mirrored_iff.mp hw
  have hend := Mirror.inv_of_reached hmirror hstart
  have howed := hinv.owed_nil hquiet
  exact World.mirrored_iff.mpr (hend.eq_of_settled (by rw [howed]; rfl))

/-- The pool of the runs that have started, in a guild of two. -/
def pairPool (lists : LinkKey → Finset String) (tasks : List SyncTask) : SyncPool :=
  ⟨pairWorld lists, tasks.map fun t => ⟨none, t.body .ascii⟩⟩

theorem pairWorld_mirrored : (pairWorld fun _ => ∅).Mirrored :=
  World.mirrored_iff.mpr (by funext a; rfl)

/-- The list of the link once the second member is on it. -/
def pairAdded : LinkKey → Finset String := Function.update (fun _ => ∅) pairLink (insert "2" ∅)

theorem pair_add : World.faultless pairHttp (.roleLogic pairLink "t" (.addUser "2"))
    (pairWorld fun _ => ∅) (.ok false) (pairWorld pairAdded) :=
  World.faultless_roleLogic (.replied 200 (.ok emptyBody)) rfl fun hfull => absurd hfull (by decide)

/-- The second member's run has planned to add them. -/
def pairPlanned : SyncPool :=
  ⟨pairWorld fun _ => ∅, [⟨none, done (.ok [])⟩,
    ⟨some 0, SyncTask.body .ascii (.act "2" (.add pairLink "t"))⟩]⟩

/-- The end of that action. -/
def pairInsert : Sync (List SyncTask) :=
  bestEffort (.insertAssignment pairLink "2") >>= fun _ => pure []

/-- They are on the list, and their row is not written. -/
def pairWaiting : SyncPool :=
  ⟨pairWorld pairAdded, [⟨none, done (.ok [])⟩, ⟨some 0, pairInsert⟩]⟩

/-- Their run and one of the link have come to their ends. -/
def pairEnded (w : World) : SyncPool :=
  ⟨w, [⟨none, done (.ok [])⟩, ⟨some 0, done (.ok [])⟩, ⟨none, done (.ok [])⟩]⟩

theorem pairEnded_quiescent (w : World) : (pairEnded w).Quiescent := by
  intro t ht
  rcases List.mem_cons.mp ht with rfl | ht
  · rfl
  · rcases List.mem_cons.mp ht with rfl | ht
    · rfl
    · rw [List.mem_singleton.mp ht]
      rfl

/-- The world once their row is written, too. -/
def pairJoined : World :=
  { pairWorld pairAdded with db := (pairWorld pairAdded).db.insertAssignment pairLink "2" }

/-- The world after a run of the link. -/
def pairReplaced : World :=
  { pairJoined with
    roleLogic := pairJoined.roleLogic.after pairLink (.replaceUsers ["1"]) ⟨0, zero_lt_usize⟩
    db := pairJoined.db.rewriteAssignments pairLink ["1"] }

/-- The end of a run of the link that has found the first member. -/
def pairFound : Sync (List SyncTask) :=
  (query (.selectCurrent pairLink) >>= fun current : List String =>
    if current = ["1"] then pure ()
    else uploadAndMirror pairLink ["1"] "t" (.rewriteAssignments pairLink ["1"])) >>= fun _ => pure []

theorem pairFound_replaces : ∃ events,
    Exec (World.faultless pairHttp) pairFound pairJoined events (.ok []) pairReplaced := by
  refine Exec.exists_call (World.faultless_read (s := .selectCurrent pairLink) ["2"] trivial rfl) ?_
  refine Exec.exists_call (World.faultless_roleLogic (c := .replaceUsers ["1"])
    (.replied 200 (.ok emptyBody)) rfl trivial) ?_
  refine Exec.exists_call (World.faultless_db (s := .rewriteAssignments pairLink ["1"]) (v := ())
    ⟨by decide, Or.inr rfl⟩) ?_
  exact ⟨_, .done⟩

/-- The second member is added while a run of the link is under way: their row is written before
the run replaces the list. -/
theorem mirrored_of_inOrder_together : ∃ a : Ledger, Relation.ReflTransGen
      (Ledger.NextInOrder (faultlessRuns .ascii pairHttp fun _ _ => False))
      ⟨pairPool (fun _ => ∅) [], []⟩ a ∧
    a.pool.Quiescent ∧ a.pool.state.roleLogic.lists pairLink = {"1"} ∧ a.pool.state.Mirrored := by
  obtain ⟨_, hfound⟩ := pairFound_replaces
  let S := faultlessRuns .ascii pairHttp fun _ _ => False
  let linking : SyncPool := pairWaiting.add none (SyncTask.body .ascii (.roleLink pairLink))
  let reading : SyncPool := pairWaiting.add none pairFound
  let joined : SyncPool :=
    ⟨pairJoined, [⟨none, done (.ok [])⟩, ⟨some 0, done (.ok [])⟩, ⟨none, pairFound⟩]⟩
  let owed : List (ℕ × Change) := [(1, .one pairLink "2" true)]
  have h1 : Ledger.NextInOrder S ⟨pairPool (fun _ => ∅) [], []⟩
      ⟨pairPool (fun _ => ∅) [.player "2"], []⟩ :=
    ⟨_, .spawn (t := SyncTask.player "2") trivial, trivial, rfl⟩
  have h2 : Relation.ReflTransGen (Ledger.NextInOrder S) ⟨pairPool (fun _ => ∅) [.player "2"], []⟩
      ⟨pairPlanned, []⟩ := by
    refine Ledger.quiet (i := 0) rfl (pair_guildIds _) trivial ?_
    refine Ledger.quiet (i := 0) rfl (World.faultless_read (s := .selectLinks ["g"])
      [(pairLink, "t", pairRule)] trivial (List.Perm.refl _)) trivial ?_
    refine Ledger.quiet (i := 0) rfl
      (World.faultless_read (s := .selectBirthday "2") (some leoRow.input) trivial rfl) trivial ?_
    refine Ledger.quiet (i := 0) rfl World.faultless_localToday trivial ?_
    refine Ledger.quiet (i := 0) rfl
      (World.faultless_read (s := .selectAssigned "2") [] trivial (List.Perm.refl _)) trivial ?_
    exact .single ⟨.start 0 (.act "2" (.add pairLink "t")), .start rfl (show 0 < 10 by decide),
      trivial, rfl⟩
  have h3 : Ledger.NextInOrder S ⟨pairPlanned, []⟩ ⟨pairWaiting, owed⟩ :=
    ⟨.call 1 ⟨.roleLogic pairLink "t" (.addUser "2"), .ok false⟩,
      .call (S := S) (p := pairPlanned) (i := 1) rfl pair_add, trivial, rfl⟩
  have h4 : Ledger.NextInOrder S ⟨pairWaiting, owed⟩ ⟨linking, owed⟩ :=
    ⟨_, .spawn (t := SyncTask.roleLink pairLink) trivial, trivial, rfl⟩
  have h5 : Relation.ReflTransGen (Ledger.NextInOrder S) ⟨linking, owed⟩ ⟨reading, owed⟩ := by
    refine Ledger.quiet (i := 2) rfl
      (World.faultless_read (s := .selectLink pairLink) (some ("t", pairRule)) trivial rfl) trivial ?_
    refine Ledger.quiet (i := 2) rfl (pair_memberIds _) trivial ?_
    refine Ledger.quiet (i := 2) rfl (World.faultless_roleLogic (c := .getUserInfo)
      (.replied 200 (.ok userInfoBody)) rfl (by rintro _ ⟨⟩; rfl)) trivial ?_
    refine Ledger.quiet (i := 2) rfl
      (World.faultless_read (s := .selectQualifying _) ["1"] trivial pair_qualifying) trivial ?_
    exact .refl
  -- what the row is written for is the first change that is owed
  have h6 : Ledger.NextInOrder S ⟨reading, owed⟩ ⟨joined, []⟩ :=
    ⟨.call 1 ⟨.db (.insertAssignment pairLink "2"), .ok ()⟩, .call (S := S) (p := reading) (i := 1) rfl
      (World.faultless_db (s := .insertAssignment pairLink "2") (v := ()) rfl),
      fun _ _ e he => absurd he List.not_mem_nil, rfl⟩
  obtain ⟨owed', h7⟩ := Ledger.of_exec (S := S) hfound (p := joined) (i := 2) rfl rfl
    (fun e he => absurd he List.not_mem_nil)
  have hrun := ((((((Relation.ReflTransGen.single h1).trans h2).tail h3).tail h4).trans h5).tail
    h6).trans h7
  have hquiet := pairEnded_quiescent pairReplaced
  have hlist : pairReplaced.roleLogic.lists pairLink = {"1"} := by decide
  exact ⟨_, hrun, hquiet, hlist,
    mirrored_of_inOrder .ascii pairHttp _ (fun _ _ => False.elim) pairWorld_mirrored hrun hquiet⟩

/-- The world once the second member's row is written too. -/
def pairOvertaken : World :=
  { pairSynced pairAdded with db := (pairSynced pairAdded).db.insertAssignment pairLink "2" }

theorem pair_insert : ∃ events, Exec (World.faultless pairHttp) pairInsert (pairSynced pairAdded)
    events (.ok []) pairOvertaken := by
  refine Exec.exists_call
    (World.faultless_db (s := .insertAssignment pairLink "2") (v := ()) rfl) ?_
  exact ⟨_, .done⟩

/-- The second member is added while the list has room. Before their row is written,
the run of the link replaces the list by the first member and rewrites the rows; then
the row of the second member follows. -/
theorem overtaken : (pairPool (fun _ => ∅) []).state.Mirrored ∧ ∃ p,
    Reached (faultlessRuns .ascii pairHttp fun _ _ => False) (pairPool (fun _ => ∅) []) p ∧
      p.Quiescent ∧ p.state.roleLogic.lists pairLink = {"1"} ∧
      p.state.db.assigned pairLink = ["1", "2"] ∧ ¬p.state.Mirrored := by
  refine ⟨pairWorld_mirrored, ?_⟩
  obtain ⟨_, hplayer⟩ := pair_player fun _ => ∅
  obtain ⟨_, hlink⟩ := pair_roleLink pairAdded
  obtain ⟨_, hinsert⟩ := pair_insert
  let act : SyncTask := .act "2" (.add pairLink "t")
  let read : SyncPool := ⟨pairWorld fun _ => ∅, [⟨none, done (.ok [act])⟩]⟩
  let linking : SyncPool := pairWaiting.add none (SyncTask.body .ascii (.roleLink pairLink))
  let synced : SyncPool :=
    ⟨pairSynced pairAdded, [⟨none, done (.ok [])⟩, ⟨some 0, pairInsert⟩, ⟨none, done (.ok [])⟩]⟩
  let S := faultlessRuns .ascii pairHttp fun _ _ => False
  have h1 : Next S (pairPool (fun _ => ∅) []) (pairPool (fun _ => ∅) [.player "2"]) :=
    ⟨_, .spawn (t := SyncTask.player "2") trivial⟩
  have h2 : Reached S (pairPool (fun _ => ∅) [.player "2"]) read :=
    Next.of_exec (S := S) hplayer (i := 0) rfl rfl
  have h3 : Next S read pairPlanned :=
    ⟨_, .start (S := S) (p := read) (i := 0) (t := act) rfl (show 0 < 10 by decide)⟩
  have h4 : Next S pairPlanned pairWaiting :=
    ⟨_, .call (S := S) (p := pairPlanned) (i := 1) rfl pair_add⟩
  have h5 : Next S pairWaiting linking := ⟨_, .spawn (t := SyncTask.roleLink pairLink) trivial⟩
  have h6 : Reached S linking synced := Next.of_exec (S := S) hlink (i := 2) rfl rfl
  have h7 : Reached S synced (synced.update pairOvertaken 1 (some 0) (done (.ok []))) :=
    Next.of_exec (S := S) hinsert (i := 1) rfl rfl
  refine ⟨_, ((((((Relation.ReflTransGen.single h1).trans h2).tail h3).tail h4).tail h5).trans h6).trans
    h7, pairEnded_quiescent pairOvertaken, ?_, ?_, ?_⟩
  · show pairOvertaken.roleLogic.lists pairLink = {"1"}
    decide
  · show pairOvertaken.db.assigned pairLink = ["1", "2"]
    decide
  · intro hmirrored
    have hlink : (pairOvertaken.db.assigned pairLink).toFinset = pairOvertaken.roleLogic.lists pairLink :=
      hmirrored pairLink
    revert hlink
    decide

end BirthdayRole
