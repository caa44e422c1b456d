/-
# What the labels of a run tell

The labels of a run say which calls each thread made (`eventsOf`) and which tasks it
started (`childrenOf`). A thread that has come to its end has executed the program of
its task with these calls, each of them answered in some state (`Traced.exec`): this
is all that is left of a thread when others run beside it, and it does not matter what
they do.
-/
import BirthdayRole.Lib.Pool

namespace Prog

variable {ε Op : Type} {Res : Op → Type} {σ Task α : Type}

/-! ### One program among others -/

/-- A call is answered in some state, whatever it is. -/
def anywhere (O : Outside ε Res σ) : Outside ε Res Unit := fun op _ r _ => ∃ s s', O op s r s'

/-- The calls of a program up to some point, and what it goes on with there. -/
inductive Path (O : Outside ε Res σ) (p : Prog ε Res α) : List (Event ε Res) → Prog ε Res α → Prop
  | refl : Path O p [] p
  | call {events : List (Event ε Res)} {op : Op} {k : Except ε (Res op) → Prog ε Res α}
      {r : Except ε (Res op)} {s s' : σ} : Path O p events (call op k) → O op s r s' →
      Path O p (events ++ [⟨op, r⟩]) (k r)

theorem Path.exec_append {O : Outside ε Res σ} {p q : Prog ε Res α} {events : List (Event ε Res)}
    (h : Path O p events q) : ∀ {more : List (Event ε Res)} {x : Except ε α},
      Exec (anywhere O) q () more x () → Exec (anywhere O) p () (events ++ more) x () := by
  induction h with
  | refl => exact fun hq => hq
  | call _ hr ih =>
    intro more x hq
    rw [List.append_assoc]
    exact ih (.call ⟨_, _, hr⟩ hq)

/-- A program that has come to its end has been executed. -/
theorem Path.exec {O : Outside ε Res σ} {p : Prog ε Res α} {events : List (Event ε Res)}
    {x : Except ε α} (h : Path O p events (done x)) : Exec (anywhere O) p () events x () := by
  have hexec := h.exec_append .done
  rwa [List.append_nil] at hexec

/-! ### A discipline -/

/-- A call has to be allowed after the calls before it, and is noted whatever it returns. -/
def noted (A : List (Event ε Res) → Op → Prop) : Rule ε Res (List (Event ε Res)) := fun op events Q =>
  A events op ∧ ∀ r, Q r (events ++ [⟨op, r⟩])

theorem noted_monotone (A : List (Event ε Res) → Op → Prop) : (noted A).Monotone :=
  fun _ _ _ _ h hQ => ⟨hQ.1, fun r => h _ _ (hQ.2 r)⟩

/-- A program whose calls are allowed, whatever was called before it. -/
def Free (A : List (Event ε Res) → Op → Prop) (p : Prog ε Res α) : Prop :=
  ∀ events, wp (noted A) p (fun _ _ => True) events

section

variable {β : Type} {A : List (Event ε Res) → Op → Prop} {p : Prog ε Res α} {f : α → Prog ε Res β}

theorem Free.done {x : Except ε α} : Free A (done x) := fun _ => trivial

theorem Free.perform {c : Op} (h : ∀ events, A events c) : Free A (perform c) :=
  fun events => ⟨h events, fun _ => trivial⟩

theorem Free.bind (hp : Free A p) (hf : ∀ a, Free A (f a)) : Free A (p >>= f) := by
  intro events
  rw [wp_bind]
  refine wp_mono (noted_monotone A) ?_ (hp events)
  intro x events' _
  cases x with
  | ok a => exact hf a events'
  | error e => exact trivial

end

/-- What a program keeps to, it keeps to from any point on. -/
theorem Path.wp_noted {A : List (Event ε Res) → Op → Prop} {O : Outside ε Res σ}
    {p q : Prog ε Res α} {events : List (Event ε Res)} {Q : Except ε α → List (Event ε Res) → Prop}
    (h : Path O p events q) (hp : wp (noted A) p Q []) : wp (noted A) q Q events := by
  induction h with
  | refl => exact hp
  | call _ _ ih => exact ih.2 _

/-! ### Labels -/

namespace Label

def eventOf (i : ℕ) : Label ε Res Task → Option (Event ε Res)
  | call j e => if j = i then some e else none
  | _ => none

theorem eventOf_eq_some {i : ℕ} {l : Label ε Res Task} {e : Event ε Res}
    (h : l.eventOf i = some e) : l = call i e := by
  cases l with
  | drift | spawn | start => cases h
  | call j e' =>
    obtain ⟨rfl, he⟩ := Option.ite_none_right_eq_some.mp h
    cases he
    rfl

/-- The thread that a label brings into being: its parent and its task. -/
def birth : Label ε Res Task → Option (Option ℕ × Task)
  | spawn t => some (none, t)
  | start i t => some (some i, t)
  | _ => none

def childOf (i : ℕ) : Label ε Res Task → Option Task
  | start j t => if j = i then some t else none
  | _ => none

end Label

/-- The calls of a thread. -/
def eventsOf (i : ℕ) (labels : List (Label ε Res Task)) : List (Event ε Res) :=
  labels.filterMap (Label.eventOf i)

/-- The parents and the tasks of the threads, in order. -/
def births (labels : List (Label ε Res Task)) : List (Option ℕ × Task) :=
  labels.filterMap Label.birth

/-- The tasks that a thread has started. -/
def childrenOf (i : ℕ) (labels : List (Label ε Res Task)) : List Task :=
  labels.filterMap (Label.childOf i)

section

variable {i : ℕ} {labels : List (Label ε Res Task)} {l : Label ε Res Task}

theorem eventsOf_concat (i : ℕ) (labels : List (Label ε Res Task)) (l : Label ε Res Task) :
    eventsOf i (labels ++ [l]) = eventsOf i labels ++ (l.eventOf i).toList := by
  unfold eventsOf
  rw [List.filterMap_append]
  cases h : l.eventOf i <;> simp [h]

theorem eventsOf_append (i : ℕ) (labels labels' : List (Label ε Res Task)) :
    eventsOf i (labels ++ labels') = eventsOf i labels ++ eventsOf i labels' := List.filterMap_append

/-- The calls of one thread after another. -/
theorem eventsOf_map_call (i j : ℕ) (events : List (Event ε Res)) :
    eventsOf i (events.map fun e => (Label.call j e : Label ε Res Task)) =
      if j = i then events else [] := by
  unfold eventsOf
  rw [List.filterMap_map]
  by_cases h : j = i <;> simp [Function.comp_def, Label.eventOf, h]

theorem births_map_call (j : ℕ) (events : List (Event ε Res)) :
    births (events.map fun e => (Label.call j e : Label ε Res Task)) = [] := by
  unfold births
  rw [List.filterMap_map]
  simp [Function.comp_def, Label.birth]

theorem births_append (labels labels' : List (Label ε Res Task)) :
    births (labels ++ labels') = births labels ++ births labels' := List.filterMap_append

theorem births_concat (labels : List (Label ε Res Task)) (l : Label ε Res Task) :
    births (labels ++ [l]) = births labels ++ l.birth.toList := by
  unfold births
  rw [List.filterMap_append]
  cases h : l.birth <;> simp [h]

theorem childrenOf_concat (i : ℕ) (labels : List (Label ε Res Task)) (l : Label ε Res Task) :
    childrenOf i (labels ++ [l]) = childrenOf i labels ++ (l.childOf i).toList := by
  unfold childrenOf
  rw [List.filterMap_append]
  cases h : l.childOf i <;> simp [h]

/-- The children of a thread are those whose parent it is. -/
theorem childrenOf_eq (i : ℕ) (labels : List (Label ε Res Task)) : childrenOf i labels =
    (births labels).filterMap fun b => if b.1 = some i then some b.2 else none := by
  unfold childrenOf births
  rw [List.filterMap_filterMap]
  refine List.filterMap_congr fun l _ => ?_
  cases l with
  | drift | call | spawn => rfl
  | start j t => simp [Label.childOf, Label.birth, Option.bind]

theorem mem_childrenOf {t : Task} :
    t ∈ childrenOf i labels ↔ ∃ j : ℕ, (births labels)[j]? = some (some i, t) := by
  rw [childrenOf_eq, List.mem_filterMap]
  constructor
  · rintro ⟨⟨parent, t'⟩, hb, h⟩
    obtain ⟨hi, rfl⟩ : parent = some i ∧ t' = t := by simpa using h
    rw [hi] at hb
    exact List.mem_iff_getElem?.mp hb
  · rintro ⟨j, hj⟩
    exact ⟨_, List.mem_of_getElem? hj, by simp⟩

end

/-! ### Runs with their labels -/

variable (S : System ε Res σ Task)

/-- A run, and the labels of its steps. -/
inductive Steps (p : Pool ε Res σ Task) : List (Label ε Res Task) → Pool ε Res σ Task → Prop
  | refl : Steps p [] p
  | tail {labels : List (Label ε Res Task)} {p' p'' : Pool ε Res σ Task} {l : Label ε Res Task} :
      Steps p labels p' → Step S p' l p'' → Steps p (labels ++ [l]) p''

/-- What is left of a program that ended with tasks, some of which have been started. -/
def Leaves (started : List Task) (q q' : Prog ε Res (List Task)) : Prop :=
  (started = [] ∧ q' = q) ∨ ∃ ts, q = done (.ok (started ++ ts)) ∧ q' = done (.ok ts)

/-- The labels account for a thread: its parent, the calls of its program, and the
tasks it has started. -/
def Traced (labels : List (Label ε Res Task)) (i : ℕ) (th : Thread ε Res Task) (t : Task) : Prop :=
  (births labels)[i]? = some (th.parent, t) ∧
    ∃ q, Path S.outside (S.body t) (eventsOf i labels) q ∧ Leaves (childrenOf i labels) q th.prog

/-- The labels account for every thread, and tell of no other. -/
structure Accounts (labels : List (Label ε Res Task)) (p : Pool ε Res σ Task) : Prop where
  length : (births labels).length = p.threads.length
  traced : ∀ i th, p.threads[i]? = some th → ∃ t, Traced S labels i th t
  noEvents : ∀ i, p.threads.length ≤ i → eventsOf i labels = []
  noChildren : ∀ i, p.threads.length ≤ i → childrenOf i labels = []

variable {S} {labels : List (Label ε Res Task)} {s : σ} {p p' : Pool ε Res σ Task}

theorem Leaves.concat {us ts : List Task} {t : Task} {q : Prog ε Res (List Task)}
    (h : Leaves us q (done (.ok (t :: ts)))) : Leaves (us ++ [t]) q (done (.ok ts)) := by
  rcases h with ⟨rfl, hq⟩ | ⟨ts', rfl, hts⟩
  · exact Or.inr ⟨ts, hq.symm, rfl⟩
  · cases hts
    refine Or.inr ⟨ts, ?_, rfl⟩
    rw [List.append_assoc, List.singleton_append]

theorem Leaves.of_call {us : List Task} {q : Prog ε Res (List Task)} {op : Op}
    {k : Except ε (Res op) → Prog ε Res (List Task)} (h : Leaves us q (call op k)) :
    us = [] ∧ q = call op k := by
  rcases h with ⟨hus, hq⟩ | ⟨ts, -, hts⟩
  · exact ⟨hus, hq.symm⟩
  · cases hts

/-- A step that is not of a thread leaves it accounted for. -/
theorem Traced.concat {i : ℕ} {th : Thread ε Res Task} {t : Task} (h : Traced S labels i th t)
    {l : Label ε Res Task} (hevent : l.eventOf i = none) (hchild : l.childOf i = none) :
    Traced S (labels ++ [l]) i th t := by
  obtain ⟨hbirth, q, hpath, hleaves⟩ := h
  refine ⟨?_, q, ?_, ?_⟩
  · rw [births_concat, List.getElem?_append_left (List.getElem?_eq_some_iff.mp hbirth).1]
    exact hbirth
  · rw [eventsOf_concat, hevent, Option.toList_none, List.append_nil]
    exact hpath
  · rw [childrenOf_concat, hchild, Option.toList_none, List.append_nil]
    exact hleaves

/-- A thread that has just come into being. -/
theorem Accounts.born (h : Accounts S labels p) {parent : Option ℕ} {t : Task}
    {l : Label ε Res Task} (hbirth : l.birth = some (parent, t))
    (hevent : l.eventOf p.threads.length = none) (hchild : l.childOf p.threads.length = none) :
    Traced S (labels ++ [l]) p.threads.length ⟨parent, S.body t⟩ t := by
  refine ⟨?_, S.body t, ?_, Or.inl ⟨?_, rfl⟩⟩
  · rw [births_concat, hbirth, ← h.length]
    exact List.getElem?_concat_length
  · rw [eventsOf_concat, hevent, h.noEvents _ (Nat.le_refl _)]
    exact .refl
  · rw [childrenOf_concat, hchild, h.noChildren _ (Nat.le_refl _)]
    rfl

theorem Accounts.step (h : Accounts S labels p) {l : Label ε Res Task} (hstep : Step S p l p') :
    Accounts S (labels ++ [l]) p' := by
  cases hstep with
  | drift _ =>
    refine ⟨?_, fun i th hi => ?_, fun i hi => ?_, fun i hi => ?_⟩
    · rw [births_concat]
      exact (congrArg List.length (List.append_nil _)).trans h.length
    · obtain ⟨t, ht⟩ := h.traced i th hi
      exact ⟨t, ht.concat rfl rfl⟩
    · rw [eventsOf_concat, h.noEvents i hi]
      rfl
    · rw [childrenOf_concat, h.noChildren i hi]
      rfl
  | @spawn t _ =>
    have hlength : (p.add none (S.body t)).threads.length = p.threads.length + 1 :=
      List.length_append
    refine ⟨?_, fun i th hi => ?_, fun i hi => ?_, fun i hi => ?_⟩
    · rw [births_concat, List.length_append, h.length, hlength]
      rfl
    · rw [Pool.getElem?_add] at hi
      split at hi
      · rename_i heq
        cases hi
        subst heq
        exact ⟨t, h.born rfl rfl rfl⟩
      · obtain ⟨t', ht'⟩ := h.traced i th hi
        exact ⟨t', ht'.concat rfl rfl⟩
    · rw [eventsOf_concat, h.noEvents i (by omega)]
      rfl
    · rw [childrenOf_concat, h.noChildren i (by omega)]
      rfl
  | @call j parent op k r s hj hr =>
    have hlt : j < p.threads.length := (List.getElem?_eq_some_iff.mp hj).1
    have hlength : (p.update s j parent (k r)).threads.length = p.threads.length := List.length_set
    have hevent : ∀ i, i ≠ j → (Label.call j ⟨op, r⟩ : Label ε Res Task).eventOf i = none :=
      fun i hi => if_neg (Ne.symm hi)
    refine ⟨?_, fun i th hi => ?_, fun i hi => ?_, fun i hi => ?_⟩
    · rw [births_concat, hlength]
      exact (congrArg List.length (List.append_nil _)).trans h.length
    · rw [Pool.getElem?_update hj] at hi
      split at hi
      · rename_i heq
        cases hi
        subst heq
        obtain ⟨t, hbirth, q, hpath, hleaves⟩ := h.traced i _ hj
        obtain ⟨hnone, rfl⟩ := hleaves.of_call
        refine ⟨t, ?_, k r, ?_, Or.inl ⟨?_, rfl⟩⟩
        · rw [births_concat, List.getElem?_append_left (List.getElem?_eq_some_iff.mp hbirth).1]
          exact hbirth
        · rw [eventsOf_concat, Label.eventOf, if_pos rfl]
          exact hpath.call hr
        · rw [childrenOf_concat, hnone]
          rfl
      · rename_i hne
        obtain ⟨t, ht⟩ := h.traced i th hi
        exact ⟨t, ht.concat (hevent i hne) rfl⟩
    · rw [eventsOf_concat, h.noEvents i (by omega), hevent i (by omega)]
      rfl
    · rw [childrenOf_concat, h.noChildren i (by omega)]
      rfl
  | @start j parent t ts hj _ =>
    have hlt : j < p.threads.length := (List.getElem?_eq_some_iff.mp hj).1
    have hset : (p.update p.state j parent (done (.ok ts))).threads.length = p.threads.length :=
      List.length_set
    have hlength : ((p.update p.state j parent (done (.ok ts))).add (some j) (S.body t)).threads.length
        = p.threads.length + 1 := List.length_append.trans (by rw [hset]; rfl)
    have hchild : ∀ i, i ≠ j → (Label.start j t : Label ε Res Task).childOf i = none :=
      fun i hi => if_neg (Ne.symm hi)
    refine ⟨?_, fun i th hi => ?_, fun i hi => ?_, fun i hi => ?_⟩
    · rw [births_concat, List.length_append, h.length, hlength]
      rfl
    · rw [Pool.getElem?_add, hset] at hi
      split at hi
      · rename_i heq
        cases hi
        subst heq
        exact ⟨t, h.born rfl rfl (hchild _ (by omega))⟩
      · rw [Pool.getElem?_update hj] at hi
        split at hi
        · rename_i heq
          cases hi
          subst heq
          obtain ⟨t', hbirth, q, hpath, hleaves⟩ := h.traced i _ hj
          refine ⟨t', ?_, q, ?_, ?_⟩
          · rw [births_concat, List.getElem?_append_left (List.getElem?_eq_some_iff.mp hbirth).1]
            exact hbirth
          · rw [eventsOf_concat]
            exact (List.append_nil (eventsOf i labels)).symm ▸ hpath
          · rw [childrenOf_concat, Label.childOf, if_pos rfl]
            exact hleaves.concat
        · rename_i hne
          obtain ⟨t', ht'⟩ := h.traced i th hi
          exact ⟨t', ht'.concat rfl (hchild i hne)⟩
    · rw [eventsOf_concat, h.noEvents i (by omega)]
      rfl
    · rw [childrenOf_concat, h.noChildren i (by omega), hchild i (by omega)]
      rfl

/-- The labels of a run that starts with no thread account for all of them. -/
theorem Steps.accounts (h : Steps S ⟨s, []⟩ labels p) : Accounts S labels p := by
  induction h with
  | refl =>
    exact ⟨rfl, fun i th hi => absurd hi (by simp), fun _ _ => rfl, fun _ _ => rfl⟩
  | tail _ hstep ih => exact ih.step hstep

/-- The program of a thread that has come to its end, and started all its children, has
been executed, and has ended with them. -/
theorem Traced.exec {i : ℕ} {parent : Option ℕ} {t : Task} {x : Except ε (List Task)}
    (h : Traced S labels i ⟨parent, done x⟩ t) (hnone : ∀ t' ts, x ≠ .ok (t' :: ts)) :
    Exec (anywhere S.outside) (S.body t) () (eventsOf i labels)
      (x.map fun _ => childrenOf i labels) () := by
  obtain ⟨-, q, hpath, hleaves⟩ := h
  rcases hleaves with ⟨hnil, hq⟩ | ⟨ts, rfl, hts⟩
  · rw [← hq] at hpath
    have hx : x = x.map fun _ => childrenOf i labels := by
      rcases x with e | _ | ⟨t', ts⟩
      · rfl
      · rw [hnil]
        rfl
      · exact absurd rfl (hnone t' ts)
    rw [← hx]
    exact hpath.exec
  · cases hts
    have hts : ts = [] := by
      cases ts with
      | nil => rfl
      | cons t' ts => exact absurd rfl (hnone t' ts)
    rw [hts, List.append_nil] at hpath
    exact hpath.exec

theorem Thread.finished_inv {th : Thread ε Res Task} (h : th.finished = true) :
    ∃ x, th.prog = done x ∧ ∀ t' ts, x ≠ .ok (t' :: ts) := by
  obtain ⟨parent, prog⟩ := th
  unfold Thread.finished at h
  split at h
  · cases h
  · rename_i x hx hprog
    exact ⟨x, hprog, fun t' ts he => hx t' ts he⟩
  · cases h

theorem Accounts.traced_birth (h : Accounts S labels p) {i : ℕ} {th : Thread ε Res Task}
    (hi : p.threads[i]? = some th) {parent : Option ℕ} {t : Task}
    (hb : (births labels)[i]? = some (parent, t)) : Traced S labels i th t := by
  obtain ⟨t', ht⟩ := h.traced i th hi
  have hsame : t' = t := congrArg Prod.snd (Option.some.inj (ht.1.symm.trans hb))
  rw [← hsame]
  exact ht

/-- The program of a thread that is finished has been executed. -/
theorem Accounts.exec (h : Accounts S labels p) {i : ℕ} {parent : Option ℕ} {t : Task}
    (hb : (births labels)[i]? = some (parent, t))
    (hfinished : ∀ th, p.threads[i]? = some th → th.finished = true) :
    ∃ x, Exec (anywhere S.outside) (S.body t) () (eventsOf i labels) x () := by
  have hlt : i < p.threads.length := by
    rw [← h.length]
    exact (List.getElem?_eq_some_iff.mp hb).1
  have hi := List.getElem?_eq_getElem hlt
  obtain ⟨x, hx, hnone⟩ := Thread.finished_inv (hfinished _ hi)
  have hthread : p.threads[i] = ⟨p.threads[i].parent, done x⟩ := by rw [← hx]
  rw [hthread] at hi
  have htraced := h.traced_birth hi hb
  exact ⟨_, htraced.exec hnone⟩

/-- A value that a list holds once is found in one place. -/
theorem index_of_filterMap_nodup {β γ : Type} {f : β → Option γ} {c : γ} : ∀ {bs : List β}
    {i j : ℕ} {b b' : β}, (bs.filterMap f).Nodup → bs[i]? = some b → bs[j]? = some b' →
    f b = some c → f b' = some c → i = j
  | [], i, _, _, _, _, hi, _, _, _ => by simp at hi
  | a :: bs, i, j, b, b', hnodup, hi, hj, hb, hb' => by
    have hmem : ∀ {n : ℕ} {b : β}, bs[n]? = some b → f b = some c → c ∈ bs.filterMap f :=
      fun hn hb => List.mem_filterMap.mpr ⟨_, List.mem_of_getElem? hn, hb⟩
    have htail : (bs.filterMap f).Nodup := hnodup.sublist ((List.sublist_cons_self a bs).filterMap f)
    have hhead : f a = some c → c ∉ bs.filterMap f := fun ha => by
      rw [List.filterMap_cons_some ha] at hnodup
      exact (List.nodup_cons.mp hnodup).1
    cases i with
    | zero =>
      cases j with
      | zero => rfl
      | succ j =>
        cases hi
        exact absurd (hmem hj hb') (hhead hb)
    | succ i =>
      cases j with
      | zero =>
        cases hj
        exact absurd (hmem hi hb) (hhead hb')
      | succ j => exact congrArg (· + 1) (index_of_filterMap_nodup htail hi hj hb hb')

/-- A thread that starts no task twice has one child for each. -/
theorem child_unique {i j j' : ℕ} {t : Task} (hnodup : (childrenOf i labels).Nodup)
    (hj : (births labels)[j]? = some (some i, t)) (hj' : (births labels)[j']? = some (some i, t)) :
    j = j' := by
  rw [childrenOf_eq] at hnodup
  exact index_of_filterMap_nodup hnodup hj hj' (if_pos rfl) (if_pos rfl)

/-- The calls of a thread are allowed, if its task keeps to what is. -/
theorem Accounts.allowed (h : Accounts S labels p) {i : ℕ} {e : Event ε Res}
    (hstep : Step S p (.call i e) p') {A : Task → List (Event ε Res) → Op → Prop}
    (hbody : ∀ t, ∃ Q, wp (noted (A t)) (S.body t) Q []) :
    ∃ parent t, (births labels)[i]? = some (parent, t) ∧ A t (eventsOf i labels) e.op := by
  cases hstep with
  | call hi hr =>
    obtain ⟨t, hbirth, q, hpath, hleaves⟩ := h.traced i _ hi
    obtain ⟨-, rfl⟩ := hleaves.of_call
    obtain ⟨Q, hQ⟩ := hbody t
    exact ⟨_, t, hbirth, (hpath.wp_noted hQ).1⟩

/-- A thread may run to its end while the others wait. -/
theorem Steps.exec {p₀ : Pool ε Res σ Task} {prog : Prog ε Res (List Task)} {t t' : σ}
    {events : List (Event ε Res)} {x : Except ε (List Task)} {i : ℕ} {parent : Option ℕ}
    (h : Exec S.outside prog t events x t') : ∀ {p : Pool ε Res σ Task}
      {labels : List (Label ε Res Task)}, Steps S p₀ labels p → p.state = t →
      p.threads[i]? = some ⟨parent, prog⟩ →
      Steps S p₀ (labels ++ events.map (.call i)) (p.update t' i parent (done x)) := by
  induction h with
  | @done x t =>
    intro p labels hsteps ht hi
    rw [Pool.update_self hi ht, List.map_nil, List.append_nil]
    exact hsteps
  | @call op k r t t₁ t₂ events x hr _ ih =>
    intro p labels hsteps ht hi
    subst ht
    have hthis : (p.update t₁ i parent (k r)).threads[i]? = some ⟨parent, k r⟩ := by
      rw [Pool.getElem?_update hi, if_pos rfl]
    have hrest := ih (hsteps.tail (Step.call hi hr)) rfl hthis
    rw [Pool.update_update, List.append_assoc] at hrest
    exact hrest

end Prog
