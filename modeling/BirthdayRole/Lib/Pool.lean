/-
# Programs side by side

Threads that run programs over one state, a call of one thread at a time. A thread
may end with tasks; they run as its children, started in order and at most `limit`
of them at once. A task that is a root may start at any time.

What one thread does alone is a run of the pool (`Next.of_exec`). What holds of every
run is shown one thread at a time: if no call of a task breaks `R`, and the task does
what it should though others move along `R`, no run breaks `R` (`Reached.guarantee`).
-/
import Mathlib.Logic.Relation
import BirthdayRole.Lib.Prog

namespace Prog

variable {ε Op : Type} {Res : Op → Type} {σ Task : Type}

structure System (ε : Type) {Op : Type} (Res : Op → Type) (σ Task : Type) where
  /-- ends with the tasks to run after it -/
  body : Task → Prog ε Res (List Task)
  root : Task → Prop
  limit : ℕ
  outside : Outside ε Res σ
  /-- what happens to the state on its own -/
  drift : σ → σ → Prop

structure Thread (ε : Type) {Op : Type} (Res : Op → Type) (Task : Type) where
  parent : Option ℕ
  prog : Prog ε Res (List Task)

/-- Nothing left to do, and no child left to start. -/
def Thread.finished (t : Thread ε Res Task) : Bool :=
  match t.prog with
  | done (.ok (_ :: _)) => false
  | done _ => true
  | call _ _ => false

structure Pool (ε : Type) {Op : Type} (Res : Op → Type) (σ Task : Type) where
  state : σ
  threads : List (Thread ε Res Task)

namespace Pool

def Quiescent (p : Pool ε Res σ Task) : Prop := ∀ t ∈ p.threads, t.finished = true

/-- The children of a thread that are at work. -/
def children (p : Pool ε Res σ Task) (i : ℕ) : ℕ :=
  p.threads.countP fun t => t.parent == some i && !t.finished

/-- The pool with one thread changed. -/
def update (p : Pool ε Res σ Task) (s : σ) (i : ℕ) (parent : Option ℕ)
    (prog : Prog ε Res (List Task)) : Pool ε Res σ Task :=
  ⟨s, p.threads.set i ⟨parent, prog⟩⟩

/-- The pool with one thread more. -/
def add (p : Pool ε Res σ Task) (parent : Option ℕ) (prog : Prog ε Res (List Task)) :
    Pool ε Res σ Task :=
  ⟨p.state, p.threads ++ [⟨parent, prog⟩]⟩

end Pool

inductive Label (ε : Type) {Op : Type} (Res : Op → Type) (Task : Type) where
  | drift
  | spawn (t : Task)
  | call (i : ℕ) (event : Event ε Res)
  | start (i : ℕ) (t : Task)

variable (S : System ε Res σ Task)

inductive Step : Pool ε Res σ Task → Label ε Res Task → Pool ε Res σ Task → Prop where
  | drift {p : Pool ε Res σ Task} {s : σ} : S.drift p.state s → Step p .drift ⟨s, p.threads⟩
  | spawn {p : Pool ε Res σ Task} {t : Task} : S.root t → Step p (.spawn t) (p.add none (S.body t))
  | call {p : Pool ε Res σ Task} {i : ℕ} {parent : Option ℕ} {op : Op}
      {k : Except ε (Res op) → Prog ε Res (List Task)} {r : Except ε (Res op)} {s : σ} :
      p.threads[i]? = some ⟨parent, .call op k⟩ → S.outside op p.state r s →
      Step p (.call i ⟨op, r⟩) (p.update s i parent (k r))
  | start {p : Pool ε Res σ Task} {i : ℕ} {parent : Option ℕ} {t : Task} {ts : List Task} :
      p.threads[i]? = some ⟨parent, done (.ok (t :: ts))⟩ → p.children i < S.limit →
      Step p (.start i t) ((p.update p.state i parent (done (.ok ts))).add (some i) (S.body t))

def Next (p p' : Pool ε Res σ Task) : Prop := ∃ l, Step S p l p'

/-- A run leads from one pool to the other. -/
abbrev Reached : Pool ε Res σ Task → Pool ε Res σ Task → Prop := Relation.ReflTransGen (Next S)

variable {S} {p : Pool ε Res σ Task} {i : ℕ} {parent : Option ℕ}

theorem Pool.getElem?_update {t : Thread ε Res Task} (h : p.threads[i]? = some t)
    (s : σ) (parent : Option ℕ) (prog : Prog ε Res (List Task)) (j : ℕ) :
    (p.update s i parent prog).threads[j]? =
      if j = i then some ⟨parent, prog⟩ else p.threads[j]? := by
  unfold update
  rw [List.getElem?_set, if_pos (List.getElem?_eq_some_iff.mp h).1]
  exact if_congr eq_comm rfl rfl

theorem Pool.getElem?_add (p : Pool ε Res σ Task) (parent : Option ℕ) (prog : Prog ε Res (List Task))
    (j : ℕ) : (p.add parent prog).threads[j]? =
      if j = p.threads.length then some ⟨parent, prog⟩ else p.threads[j]? := by
  unfold add
  rw [List.getElem?_append]
  split
  · rw [if_neg (by omega)]
  · split
    · simp [*]
    · rw [List.getElem?_eq_none (by simp; omega), List.getElem?_eq_none (by omega)]

/-- The threads that were there. -/
theorem Pool.getElem?_add_of_some {t : Thread ε Res Task} {j : ℕ} (h : p.threads[j]? = some t)
    (parent : Option ℕ) (prog : Prog ε Res (List Task)) : (p.add parent prog).threads[j]? = some t := by
  have hlt := (List.getElem?_eq_some_iff.mp h).1
  rw [Pool.getElem?_add, if_neg (Nat.ne_of_lt hlt), h]

/-- The new one. -/
theorem Pool.getElem?_add_length (p : Pool ε Res σ Task) (parent : Option ℕ)
    (prog : Prog ε Res (List Task)) :
    (p.add parent prog).threads[p.threads.length]? = some ⟨parent, prog⟩ := by
  rw [Pool.getElem?_add, if_pos rfl]

theorem Pool.mem_update {prog : Prog ε Res (List Task)} {s : σ} {t : Thread ε Res Task}
    (h : t ∈ (p.update s i parent prog).threads) : t ∈ p.threads ∨ t = ⟨parent, prog⟩ :=
  List.mem_or_eq_of_mem_set h

theorem Pool.mem_add {prog : Prog ε Res (List Task)} {t : Thread ε Res Task}
    (h : t ∈ (p.add parent prog).threads) : t ∈ p.threads ∨ t = ⟨parent, prog⟩ := by
  rcases List.mem_append.mp h with h | h
  · exact Or.inl h
  · exact Or.inr (List.mem_singleton.mp h)

theorem Pool.update_self {prog : Prog ε Res (List Task)} {s : σ}
    (h : p.threads[i]? = some ⟨parent, prog⟩) (hs : p.state = s) : p.update s i parent prog = p := by
  obtain ⟨hi, hget⟩ := List.getElem?_eq_some_iff.mp h
  unfold update
  rw [← hs, ← hget, List.set_getElem_self]

theorem Pool.update_update (p : Pool ε Res σ Task) (s s' : σ) (i : ℕ) (parent parent' : Option ℕ)
    (prog prog' : Prog ε Res (List Task)) :
    (p.update s i parent prog).update s' i parent' prog' = p.update s' i parent' prog' := by
  unfold update
  rw [List.set_set]

/-- A thread may run to its end while the others wait. -/
theorem Next.of_exec {prog : Prog ε Res (List Task)} {s s' : σ} {events : List (Event ε Res)}
    {x : Except ε (List Task)} (h : Exec S.outside prog s events x s') :
    ∀ {p : Pool ε Res σ Task}, p.state = s → p.threads[i]? = some ⟨parent, prog⟩ →
      Reached S p (p.update s' i parent (done x)) := by
  induction h with
  | @done x s =>
    intro p hs hp
    rw [Pool.update_self hp hs]
  | @call op k r s s₁ s₂ events x hr _ ih =>
    intro p hs hp
    subst hs
    have hthis : (p.update s₁ i parent (k r)).threads[i]? = some ⟨parent, k r⟩ := by
      rw [Pool.getElem?_update hp, if_pos rfl]
    have hrest := ih rfl hthis
    rw [Pool.update_update] at hrest
    exact hrest.head ⟨_, Step.call hp hr⟩

/-! ### Rely and guarantee -/

/-- Whatever the outside answers, the state moves along `R`; and then others move it
along `R` too. -/
def shared (O : Outside ε Res σ) (R : σ → σ → Prop) : Rule ε Res σ := fun op s Q =>
  ∀ r s', O op s r s' → R s s' ∧ ∀ s'', R s' s'' → Q r s''

theorem shared_monotone (O : Outside ε Res σ) (R : σ → σ → Prop) : (shared O R).Monotone := by
  intro op s Q Q' h hQ r s' hr
  obtain ⟨hR, hQ⟩ := hQ r s' hr
  exact ⟨hR, fun s'' hs => h _ _ (hQ s'' hs)⟩

variable (S) in
/-- What a task has to make sure of, when started in a state where it is fine. -/
def Behaves (R : σ → σ → Prop) (Fine : Task → σ → Prop) (prog : Prog ε Res (List Task)) (s : σ) :
    Prop :=
  ∀ s', R s s' → wp (shared S.outside R) prog
    (fun x s'' => ∀ ts, x = .ok ts → ∀ t ∈ ts, Fine t s'') s'

variable {R : σ → σ → Prop} {Fine : Task → σ → Prop}

theorem Step.guarantee (hrefl : ∀ s, R s s) (htrans : ∀ s s' s'', R s s' → R s' s'' → R s s'')
    (hdrift : ∀ s s', S.drift s s' → R s s') (hroot : ∀ t, S.root t → Fine t p.state)
    (hbody : ∀ t s, Fine t s → Behaves S R Fine (S.body t) s) {p' : Pool ε Res σ Task}
    {l : Label ε Res Task} (h : Step S p l p')
    (hp : ∀ t ∈ p.threads, Behaves S R Fine t.prog p.state) :
    R p.state p'.state ∧ ∀ t ∈ p'.threads, Behaves S R Fine t.prog p'.state := by
  have hmove : ∀ s, R p.state s → ∀ t ∈ p.threads, Behaves S R Fine t.prog s :=
    fun s hs t ht s' hs' => hp t ht s' (htrans _ _ _ hs hs')
  cases h with
  | drift hd => exact ⟨hdrift _ _ hd, hmove _ (hdrift _ _ hd)⟩
  | @spawn t hr =>
    refine ⟨hrefl _, fun u hu => ?_⟩
    rcases Pool.mem_add hu with hu | rfl
    · exact hp u hu
    · exact hbody t _ (hroot t hr)
  | @call i parent op k r s hi hr =>
    have hthis := hp _ (List.mem_of_getElem? hi) _ (hrefl _)
    obtain ⟨hR, hthis⟩ := hthis r s hr
    refine ⟨hR, fun u hu => ?_⟩
    rcases Pool.mem_update hu with hu | rfl
    · exact hmove _ hR u hu
    · exact hthis
  | @start i parent t ts hi _ =>
    have hthis := hp _ (List.mem_of_getElem? hi)
    refine ⟨hrefl _, fun u hu => ?_⟩
    rcases Pool.mem_add hu with hu | rfl
    · rcases Pool.mem_update hu with hu | rfl
      · exact hp u hu
      · intro s hs us hus u hu
        cases hus
        exact hthis s hs _ rfl u (List.mem_cons_of_mem t hu)
    · exact hbody t _ (hthis _ (hrefl _) _ rfl t List.mem_cons_self)

theorem Reached.guarantee (hrefl : ∀ s, R s s) (htrans : ∀ s s' s'', R s s' → R s' s'' → R s s'')
    (hdrift : ∀ s s', S.drift s s' → R s s')
    (hroot : ∀ t s, R p.state s → S.root t → Fine t s)
    (hbody : ∀ t s, Fine t s → Behaves S R Fine (S.body t) s) {p' : Pool ε Res σ Task}
    (h : Reached S p p') (hp : ∀ t ∈ p.threads, Behaves S R Fine t.prog p.state) :
    R p.state p'.state := by
  suffices R p.state p'.state ∧ ∀ t ∈ p'.threads, Behaves S R Fine t.prog p'.state from this.1
  induction h with
  | refl => exact ⟨hrefl _, hp⟩
  | tail _ hnext ih =>
    obtain ⟨l, hstep⟩ := hnext
    obtain ⟨hR, hp'⟩ := hstep.guarantee hrefl htrans hdrift (fun t => hroot t _ ih.1) hbody ih.2
    exact ⟨htrans _ _ _ ih.1 hR, hp'⟩

end Prog
