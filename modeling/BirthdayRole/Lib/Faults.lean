/-
# Programs whose calls fail, in a process that stops

A call that does not fail is carried out by `apply`; one that fails leaves the state as
it was. The calls of a program are numbered, and `Faults` says which of them fail and
before which the process stops: what was carried out until then stays, and nobody gets
a result.
-/
import BirthdayRole.Lib.Prog

namespace Prog

variable {ε Op : Type} {Res : Op → Type} {σ α β : Type}

structure Faults (ε : Type) where
  fails : ℕ → Option ε
  /-- before call `n`, or after the last of `n` calls -/
  stops : ℕ → Bool

def Faults.none : Faults ε := ⟨fun _ => .none, fun _ => false⟩

variable (apply : (op : Op) → σ → Res op × σ) (F : Faults ε)

/-- The result, if there is one, and the last state of a program from call `n` on. -/
def under : Prog ε Res α → ℕ → σ → Option (Except ε α) × σ
  | done x, n, s => (if F.stops n then none else some x, s)
  | call op k, n, s =>
    if F.stops n then (none, s)
    else
      match F.fails n with
      | some e => (k (.error e)).under (n + 1) s
      | none => (k (.ok (apply op s).1)).under (n + 1) (apply op s).2

variable {apply F} {op : Op} {f : Res op → Prog ε Res α} {n : ℕ} {s : σ}

theorem under_perform_stops (h : F.stops n = true) :
    (perform op >>= f).under apply F n s = (none, s) := by
  show under apply F (call op fun r => (done r).bind f) n s = _
  rw [under, if_pos h]

theorem done_bind_assoc (x : Except ε α) (f : α → Except ε β) {γ : Type} (g : β → Prog ε Res γ) :
    (done x >>= fun a => done (f a) >>= g) = done (x >>= f) >>= g := by
  cases x <;> rfl

/-- A program ends with the first call that fails. -/
theorem under_perform_fails {e : ε} (hs : F.stops n = false) (h : F.fails n = some e) :
    (perform op >>= f).under apply F n s =
      (if F.stops (n + 1) then none else some (.error e), s) := by
  show under apply F (call op fun r => (done r).bind f) n s = _
  rw [under, hs, if_neg Bool.false_ne_true, h]
  rfl

theorem under_perform_ok (hs : F.stops n = false) (h : F.fails n = none) :
    (perform op >>= f).under apply F n s =
      (f (apply op s).1).under apply F (n + 1) (apply op s).2 := by
  show under apply F (call op fun r => (done r).bind f) n s = _
  rw [under, hs, if_neg Bool.false_ne_true, h]
  rfl

/-- A call whose failure is looked at. -/
theorem under_attempt {f : Except ε (Res op) → Prog ε Res α} (hs : F.stops n = false) :
    (attempt op >>= f).under apply F n s =
      match F.fails n with
      | some e => (f (.error e)).under apply F (n + 1) s
      | none => (f (.ok (apply op s).1)).under apply F (n + 1) (apply op s).2 := by
  show under apply F (call op fun r => (done (.ok r)).bind f) n s = _
  rw [under, hs, if_neg Bool.false_ne_true]
  rfl

/-- A call that fails, or is not made, changes nothing if nothing comes after its failure. -/
theorem under_perform_lost (h : ¬(F.stops n = false ∧ F.fails n = none)) :
    ((perform op >>= f).under apply F n s).2 = s := by
  by_cases hs : F.stops n = true
  · rw [under_perform_stops hs]
  · have hs : F.stops n = false := by simpa using hs
    obtain ⟨e, he⟩ := Option.ne_none_iff_exists'.mp fun hf => h ⟨hs, hf⟩
    rw [under_perform_fails hs he]

/-! ### What programs can call -/

/-- Every call that a program can come to has a property, however the others are answered. -/
def Calls (P : Op → Prop) : Prog ε Res α → Prop
  | done _ => True
  | call op k => P op ∧ ∀ r, (k r).Calls P

section

variable {P : Op → Prop}

theorem Calls.perform (h : P op) : (perform op : Prog ε Res (Res op)).Calls P :=
  ⟨h, fun _ => trivial⟩

theorem Calls.done_bind {x : Except ε α} {f : α → Prog ε Res β}
    (h : ∀ a, x = .ok a → (f a).Calls P) : (done x >>= f).Calls P := by
  rcases x with e | a
  · exact trivial
  · exact h a rfl

theorem Calls.bind {f : α → Prog ε Res β} {p : Prog ε Res α} (hp : p.Calls P)
    (hf : ∀ a, (f a).Calls P) : (p >>= f).Calls P := by
  induction p with
  | done x =>
    rcases x with e | a
    · exact trivial
    · exact hf a
  | call op k ih => exact ⟨hp.1, fun r => ih r (hp.2 r)⟩

theorem Calls.capture : ∀ {p : Prog ε Res α}, p.Calls P → p.capture.Calls P
  | done _, _ => trivial
  | call _ _, h => ⟨h.1, fun r => capture (h.2 r)⟩

/-- The calls of an execution are calls that the program can come to. -/
theorem Calls.events {O : Outside ε Res σ} {p : Prog ε Res α} (h : p.Calls P) {s s' : σ}
    {events : List (Event ε Res)} {x : Except ε α} (hexec : Exec O p s events x s') :
    ∀ e ∈ events, P e.op := by
  induction hexec with
  | done => exact fun _ he => absurd he List.not_mem_nil
  | call _ _ ih => exact List.forall_mem_cons.mpr ⟨h.1, ih (h.2 _)⟩

/-- What the calls of a program keep, it keeps wherever they fail and wherever the process stops. -/
theorem Calls.under {I : σ → Prop} (hI : ∀ op s, P op → I s → I (apply op s).2) :
    ∀ {p : Prog ε Res α}, p.Calls P → ∀ n s, I s → I (p.under apply F n s).2
  | .done x, _, n, s, hs => hs
  | .call op k, h, n, s, hs => by
    rw [Prog.under]
    by_cases hstop : F.stops n = true
    · rwa [if_pos hstop]
    · rw [if_neg hstop]
      cases hf : F.fails n with
      | some e => exact Calls.under hI (h.2 _) _ _ hs
      | none => exact Calls.under hI (h.2 _) _ _ (hI op s h.1 hs)

end

end Prog
