/-
# Programs that are bound to make a call

`Bound A goal last p`: however the calls of `p` are answered, as far as `A` lets them be,
`p` comes to a call that meets `goal`, or ends as `last` says. It is said of what is left
of a program, so a call either meets the goal or leaves a program that is still bound.
Sequences are shown bound a part at a time (`Bound.bind`).
-/
import BirthdayRole.Lib.Prog

namespace Prog

variable {ε Op : Type} {Res : Op → Type} {α β : Type}

def Bound (A : (op : Op) → Except ε (Res op) → Prop) (goal : Event ε Res → Prop)
    (last : Except ε α → Prop) : Prog ε Res α → Prop
  | done x => last x
  | call op k => ∀ r, A op r → goal ⟨op, r⟩ ∨ (k r).Bound A goal last

namespace Bound

variable {A A' : (op : Op) → Except ε (Res op) → Prop} {goal goal' : Event ε Res → Prop}
  {last last' : Except ε α → Prop} {p : Prog ε Res α}

/-- Fewer answers, more that meets the goal, more ways to end. -/
theorem mono (h : p.Bound A goal last) (hA : ∀ op r, A' op r → A op r)
    (hgoal : ∀ e, goal e → goal' e) (hlast : ∀ x, last x → last' x) : p.Bound A' goal' last' := by
  induction p with
  | done x => exact hlast x h
  | call op k ih =>
    intro r hr
    rcases h r (hA op r hr) with hg | hk
    · exact Or.inl (hgoal _ hg)
    · exact Or.inr (ih r hk)

/-- A part that is bound to meet the goal, or to end with something that can be gone on from. -/
theorem bind {f : α → Prog ε Res β} {last : Except ε β → Prop} {mid : Except ε α → Prop}
    (hp : p.Bound A goal mid) (hok : ∀ a, mid (.ok a) → (f a).Bound A goal last)
    (herror : ∀ e, mid (.error e) → last (.error e)) : (p >>= f).Bound A goal last := by
  induction p with
  | done x =>
    rcases x with e | a
    · exact herror e hp
    · exact hok a hp
  | call op k ih =>
    intro r hr
    rcases hp r hr with hg | hk
    · exact Or.inl hg
    · exact Or.inr (ih r hk)

/-- Any program ends. -/
theorem ends : ∀ p : Prog ε Res α, p.Bound A goal fun _ => True
  | done _ => trivial
  | call _ k => fun r _ => Or.inr (ends (k r))

theorem capture {last : Except ε (Except ε α) → Prop}
    (h : p.Bound A goal fun x => last (.ok x)) : p.capture.Bound A goal last := by
  induction p with
  | done x => exact h
  | call op k ih =>
    intro r hr
    rcases h r hr with hg | hk
    · exact Or.inl hg
    · exact Or.inr (ih r hk)

theorem perform {op : Op} {last : Except ε (Res op) → Prop}
    (h : ∀ r, A op r → goal ⟨op, r⟩ ∨ last r) : (perform op).Bound A goal last := h

/-- A program goes on with whatever a call that it attempts returns. -/
theorem attempt_bind {op : Op} {f : Except ε (Res op) → Prog ε Res β} {last : Except ε β → Prop}
    (h : ∀ r, A op r → goal ⟨op, r⟩ ∨ (f r).Bound A goal last) :
    (attempt op >>= f).Bound A goal last := h

/-- One that starts with a call which does not fail. -/
theorem perform_bind {op : Op} {f : Res op → Prog ε Res β} {last : Except ε β → Prop}
    (hworks : ∀ r, A op r → ∃ v, r = .ok v)
    (h : ∀ v, A op (.ok v) → goal ⟨op, .ok v⟩ ∨ (f v).Bound A goal last) :
    (Prog.perform op >>= f).Bound A goal last := by
  intro r hr
  obtain ⟨v, rfl⟩ := hworks r hr
  exact h v hr

/-- A program that is bound to end one way, and has come to its end, has ended so. -/
theorem exec {σ : Type} {O : Outside ε Res σ} (hO : ∀ op s r s', O op s r s' → A op r) {s s' : σ}
    {events : List (Event ε Res)} {x : Except ε α} (h : Exec O p s events x s')
    (hp : p.Bound A (fun _ => False) last) : last x := by
  induction h with
  | done => exact hp
  | call hr _ ih =>
    rcases hp _ (hO _ _ _ _ hr) with hg | hk
    · exact hg.elim
    · exact ih hk

end Bound

end Prog
