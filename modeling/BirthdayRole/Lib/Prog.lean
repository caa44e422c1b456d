/-
# Programs that call the outside

A program ends with a value or an error, or makes a call and goes on with what comes
back; a call fails like anything else, with an error. `perform` passes the failure of
a call on, as `?` does, and `attempt` hands it to the program.

What a program does is said in two ways. `Exec` is one execution, with the calls it
made; one that is over is read backwards, a part of the program at a time
(`Exec.bind_inv`). `wp` is what has to hold of the state at the start for something to
hold at the end, whatever the calls return: a call is a predicate transformer (`Rule`),
and `wp` of a sequence is `wp` of its parts (`wp_bind`).
-/
import Mathlib.Data.List.Basic

variable {ε Op : Type} {Res : Op → Type} {σ α β : Type}

inductive Prog (ε : Type) {Op : Type} (Res : Op → Type) (α : Type) where
  | done (x : Except ε α)
  | call (op : Op) (k : Except ε (Res op) → Prog ε Res α)

namespace Prog

/-- An error ends a sequence. -/
def bind : Prog ε Res α → (α → Prog ε Res β) → Prog ε Res β
  | done (.ok a), f => f a
  | done (.error e), _ => done (.error e)
  | call op k, f => call op fun r => (k r).bind f

instance : Monad (Prog ε Res) where
  pure a := done (.ok a)
  bind := bind

def perform (op : Op) : Prog ε Res (Res op) := call op done

def attempt (op : Op) : Prog ε Res (Except ε (Res op)) := call op fun r => done (.ok r)

def raise (e : ε) : Prog ε Res α := done (.error e)

/-- A program that ends with the result of another, error or not. -/
def capture : Prog ε Res α → Prog ε Res (Except ε α)
  | done x => done (.ok x)
  | call op k => call op fun r => (k r).capture

/-! ### What a program makes sure of -/

/-- What a call needs of the state, for something to hold of its result and the state after. -/
abbrev Rule (ε : Type) {Op : Type} (Res : Op → Type) (σ : Type) :=
  (op : Op) → σ → (Except ε (Res op) → σ → Prop) → Prop

variable {Φ : Rule ε Res σ} {Q : Except ε α → σ → Prop} {s : σ}

/-- What a program needs of the state it starts in, for something to hold at its end. -/
def wp (Φ : Rule ε Res σ) : Prog ε Res α → (Except ε α → σ → Prop) → σ → Prop
  | done x, Q, s => Q x s
  | call op k, Q, s => Φ op s fun r s' => wp Φ (k r) Q s'

/-- What the first part of a sequence has to make sure of. -/
def Onward (Φ : Rule ε Res σ) (f : α → Prog ε Res β) (Q : Except ε β → σ → Prop) :
    Except ε α → σ → Prop
  | .ok a, s => wp Φ (f a) Q s
  | .error e, s => Q (.error e) s

theorem wp_bind (f : α → Prog ε Res β) (Q : Except ε β → σ → Prop) : ∀ (p : Prog ε Res α) (s : σ),
    wp Φ (p >>= f) Q s = wp Φ p (Onward Φ f Q) s
  | done (.ok _), _ => rfl
  | done (.error _), _ => rfl
  | call op k, s => by
    show Φ op s _ = Φ op s _
    congr
    funext r s'
    exact wp_bind f Q (k r) s'

theorem wp_capture (Q : Except ε (Except ε α) → σ → Prop) : ∀ (p : Prog ε Res α) (s : σ),
    wp Φ p.capture Q s = wp Φ p (fun x s' => Q (.ok x) s') s
  | done _, _ => rfl
  | call op k, s => by
    show Φ op s _ = Φ op s _
    congr
    funext r s'
    exact wp_capture Q (k r) s'

/-- A call that promises something promises what follows from it. -/
def Rule.Monotone (Φ : Rule ε Res σ) : Prop :=
  ∀ op s (Q Q' : Except ε (Res op) → σ → Prop), (∀ r s', Q r s' → Q' r s') → Φ op s Q → Φ op s Q'

theorem wp_mono (hΦ : Φ.Monotone) {Q' : Except ε α → σ → Prop} (h : ∀ x s', Q x s' → Q' x s') :
    ∀ {p : Prog ε Res α} {s : σ}, wp Φ p Q s → wp Φ p Q' s
  | done x, s, hp => h x s hp
  | call op _, s, hp => hΦ op s _ _ (fun _ _ hr => wp_mono hΦ h hr) hp

/-! ### Executions -/

/-- A call and what came back. -/
structure Event (ε : Type) {Op : Type} (Res : Op → Type) where
  op : Op
  result : Except ε (Res op)

/-- What the outside can answer to a call, and where that leaves it. -/
abbrev Outside (ε : Type) {Op : Type} (Res : Op → Type) (σ : Type) :=
  (op : Op) → σ → Except ε (Res op) → σ → Prop

/-- One execution: the calls, the result and the last state. -/
inductive Exec (O : Outside ε Res σ) :
    Prog ε Res α → σ → List (Event ε Res) → Except ε α → σ → Prop where
  | done {x : Except ε α} {s : σ} : Exec O (done x) s [] x s
  | call {op : Op} {k : Except ε (Res op) → Prog ε Res α} {r : Except ε (Res op)} {s s' s'' : σ}
      {events : List (Event ε Res)} {x : Except ε α} :
      O op s r s' → Exec O (k r) s' events x s'' → Exec O (call op k) s (⟨op, r⟩ :: events) x s''

/-- An execution from its first call on, whatever its calls are. -/
theorem Exec.exists_call {O : Outside ε Res σ} {op : Op} {k : Except ε (Res op) → Prog ε Res α}
    {r : Except ε (Res op)} {s s' s'' : σ} {x : Except ε α} (hr : O op s r s') :
    (∃ events, Exec O (k r) s' events x s'') → ∃ events, Exec O (.call op k) s events x s''
  | ⟨_, h⟩ => ⟨_, .call hr h⟩

/-- An execution is one of every outside that can answer more. -/
theorem Exec.mono {O O' : Outside ε Res σ} (hO : ∀ op s r s', O op s r s' → O' op s r s')
    {p : Prog ε Res α} {s s' : σ} {events : List (Event ε Res)} {x : Except ε α}
    (h : Exec O p s events x s') : Exec O' p s events x s' := by
  induction h with
  | done => exact .done
  | call hr _ ih => exact .call (hO _ _ _ _ hr) ih

/-! ### Reading an execution backwards -/

namespace Exec

variable {O : Outside ε Res σ} {s s' : σ} {events : List (Event ε Res)}

/-- Each call of an execution was answered in some state. -/
theorem answered {p : Prog ε Res α} {x : Except ε α} (h : Exec O p s events x s')
    {e : Event ε Res} (he : e ∈ events) : ∃ t t', O e.op t e.result t' := by
  induction h with
  | done => exact absurd he List.not_mem_nil
  | call hr _ ih =>
    rcases List.mem_cons.mp he with rfl | he
    · exact ⟨_, _, hr⟩
    · exact ih he

theorem done_inv {x y : Except ε α} (h : Exec O (.done x) s events y s') :
    y = x ∧ events = [] ∧ s' = s := by
  cases h
  exact ⟨rfl, rfl, rfl⟩

theorem call_inv {op : Op} {k : Except ε (Res op) → Prog ε Res α} {x : Except ε α}
    (h : Exec O (.call op k) s events x s') : ∃ r s₁ rest, O op s r s₁ ∧
      Exec O (k r) s₁ rest x s' ∧ events = ⟨op, r⟩ :: rest := by
  cases h with
  | call hr hk => exact ⟨_, _, _, hr, hk, rfl⟩

theorem perform_inv {op : Op} {x : Except ε (Res op)} (h : Exec O (perform op) s events x s') :
    O op s x s' ∧ events = [⟨op, x⟩] := by
  obtain ⟨r, s₁, rest, hr, hk, rfl⟩ := h.call_inv
  obtain ⟨rfl, rfl, rfl⟩ := hk.done_inv
  exact ⟨hr, rfl⟩

/-- A program goes on with whatever a call that it attempts returns. -/
theorem attempt_bind_inv {op : Op} {f : Except ε (Res op) → Prog ε Res β} {y : Except ε β}
    (h : Exec O (attempt op >>= f) s events y s') : ∃ r s₁ rest, O op s r s₁ ∧
      Exec O (f r) s₁ rest y s' ∧ events = ⟨op, r⟩ :: rest := h.call_inv

/-- A sequence ends with the error of its first part, or goes on from its value. -/
theorem bind_inv {f : α → Prog ε Res β} {y : Except ε β} : ∀ {p : Prog ε Res α} {s : σ}
    {events : List (Event ε Res)}, Exec O (p >>= f) s events y s' →
    (∃ e, Exec O p s events (.error e) s' ∧ y = .error e) ∨
    ∃ a first s₁ rest, Exec O p s first (.ok a) s₁ ∧ Exec O (f a) s₁ rest y s' ∧
      events = first ++ rest
  | .done (.error e), s, events, h => by
    obtain ⟨rfl, rfl, rfl⟩ := h.done_inv
    exact Or.inl ⟨e, .done, rfl⟩
  | .done (.ok a), s, events, h => Or.inr ⟨a, [], s, events, .done, h, rfl⟩
  | .call op k, s, events, h => by
    obtain ⟨r, s₁, rest, hr, hk, rfl⟩ := h.call_inv
    rcases bind_inv hk with ⟨e, hp, hy⟩ | ⟨a, first, s₂, rest, hp, hf, rfl⟩
    · exact Or.inl ⟨e, .call hr hp, hy⟩
    · exact Or.inr ⟨a, _, s₂, rest, .call hr hp, hf, rfl⟩

/-- One that starts with a call ends if that fails. -/
theorem perform_bind_inv {op : Op} {f : Res op → Prog ε Res β} {y : Except ε β}
    (h : Exec O (perform op >>= f) s events y s') :
    (∃ e, O op s (.error e) s' ∧ events = [⟨op, .error e⟩] ∧ y = .error e) ∨
    ∃ v s₁ rest, O op s (.ok v) s₁ ∧ Exec O (f v) s₁ rest y s' ∧ events = ⟨op, .ok v⟩ :: rest := by
  rcases h.bind_inv with ⟨e, hp, rfl⟩ | ⟨v, first, s₁, rest, hp, hf, rfl⟩
  · obtain ⟨hr, rfl⟩ := hp.perform_inv
    exact Or.inl ⟨e, hr, rfl, rfl⟩
  · obtain ⟨hr, rfl⟩ := hp.perform_inv
    exact Or.inr ⟨v, s₁, rest, hr, hf, rfl⟩

theorem capture_inv {y : Except ε (Except ε α)} : ∀ {p : Prog ε Res α} {s : σ}
    {events : List (Event ε Res)}, Exec O p.capture s events y s' →
    ∃ x, y = .ok x ∧ Exec O p s events x s'
  | .done x, s, events, h => by
    obtain ⟨rfl, rfl, rfl⟩ := h.done_inv
    exact ⟨x, rfl, .done⟩
  | .call op k, s, events, h => by
    obtain ⟨r, s₁, rest, hr, hk, rfl⟩ := h.call_inv
    obtain ⟨x, hy, hk⟩ := capture_inv hk
    exact ⟨x, hy, .call hr hk⟩

end Exec

end Prog
