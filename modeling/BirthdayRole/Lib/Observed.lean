/-
# Results that an observer cannot tell apart

An observer sees the value of a computation that succeeded, and of an error what `view`
leaves of it (`Result.Alike`). Computations that are put together from parts that nobody can
tell apart cannot be told apart themselves, unless they look into an error before they pass
it on. Nor can programs whose calls fail with errors that look the same (`Prog.Alike.under`).
-/
import BirthdayRole.Lib.Faults
import BirthdayRole.Lib.Result

namespace Result

variable {ε ω α β : Type} {view : ε → ω}

def Alike (view : ε → ω) (x y : Except ε α) : Prop := x.mapError view = y.mapError view

namespace Alike

variable {x y : Except ε α} {f g : α → Except ε β}

@[simp] theorem refl (x : Except ε α) : Alike view x x := rfl

/-- Both succeeded, with the same value, or both failed, with errors that look the same. -/
theorem cases (h : Alike view x y) : (∃ a, x = .ok a ∧ y = .ok a) ∨
    ∃ e e', x = .error e ∧ y = .error e' ∧ view e = view e' := by
  rcases x with e | a <;> rcases y with e' | a'
  · exact Or.inr ⟨e, e', rfl, rfl, Except.error.inj h⟩
  · cases h
  · cases h
  · exact Or.inl ⟨a, rfl, congrArg Except.ok (Except.ok.inj h).symm⟩

theorem error {e e' : ε} (h : view e = view e') :
    Alike view (.error e : Except ε α) (.error e') := congrArg Except.error h

theorem ok_iff {a b : α} : Alike view (.ok a) (.ok b) ↔ a = b := by
  constructor
  · exact fun h => Except.ok.inj h
  · rintro rfl
    exact refl _

theorem bind (h : Alike view x y) (hf : ∀ a, Alike view (f a) (g a)) :
    Alike view (x >>= f) (y >>= g) := by
  rcases h.cases with ⟨a, rfl, rfl⟩ | ⟨e, e', rfl, rfl, he⟩
  · exact hf a
  · exact error he

theorem map (h : Alike view x y) (f : α → β) : Alike view (x.map f) (y.map f) := by
  rcases h.cases with ⟨a, rfl, rfl⟩ | ⟨e, e', rfl, rfl, he⟩
  · exact refl _
  · exact error he

end Alike

end Result

namespace Prog

variable {ε ω Op : Type} {Res : Op → Type} {σ α β : Type} {view : ε → ω}

/-- Programs that make the same calls, whatever is returned, as long as the errors look the
same. -/
inductive Alike (view : ε → ω) : Prog ε Res α → Prog ε Res α → Prop
  | done {x y : Except ε α} : Result.Alike view x y → Alike view (done x) (done y)
  | call {op : Op} {k k' : Except ε (Res op) → Prog ε Res α} :
      (∀ r r', Result.Alike view r r' → Alike view (k r) (k' r')) → Alike view (call op k) (call op k')

namespace Alike

theorem refl_done (x : Except ε α) : Alike view (Prog.done x : Prog ε Res α) (Prog.done x) :=
  .done (.refl x)

theorem bind {f g : α → Prog ε Res β} (hf : ∀ a, Alike view (f a) (g a)) {p q : Prog ε Res α}
    (h : Alike view p q) : Alike view (p >>= f) (q >>= g) := by
  induction h with
  | done h =>
    rcases h.cases with ⟨a, rfl, rfl⟩ | ⟨e, e', rfl, rfl, he⟩
    · exact hf a
    · exact .done (.error he)
  | call _ ih => exact .call ih

/-- A call is passed on as it is. -/
theorem perform (op : Op) :
    Alike view (Prog.perform op : Prog ε Res (Res op)) (Prog.perform op) :=
  .call fun _ _ h => .done h

theorem done_bind {x y : Except ε α} {f g : α → Prog ε Res β} (h : Result.Alike view x y)
    (hf : ∀ a, Alike view (f a) (g a)) : Alike view (Prog.done x >>= f) (Prog.done y >>= g) :=
  bind hf (.done h)

theorem perform_bind {op : Op} {f g : Res op → Prog ε Res β} (hf : ∀ a, Alike view (f a) (g a)) :
    Alike view (Prog.perform op >>= f) (Prog.perform op >>= g) := bind hf (perform op)

/-- A call whose error is looked at. -/
theorem attempt_bind {op : Op} {f g : Except ε (Res op) → Prog ε Res β}
    (hf : ∀ r r', Result.Alike view r r' → Alike view (f r) (g r')) :
    Alike view (Prog.attempt op >>= f) (Prog.attempt op >>= g) := .call hf

end Alike

/-- Calls that fail at the same places, with errors that look the same, in processes that stop
at the same places. -/
structure Faults.Alike (view : ε → ω) (F F' : Faults ε) : Prop where
  fails : ∀ n, (F.fails n).map view = (F'.fails n).map view
  stops : F.stops = F'.stops

theorem Faults.Alike.refl (F : Faults ε) : F.Alike view F := ⟨fun _ => rfl, rfl⟩

variable {apply : (op : Op) → σ → Res op × σ} {F F' : Faults ε}

/-- Programs that nobody can tell apart leave the same state, and results that nobody can. -/
theorem Alike.under (hF : F.Alike view F') {p q : Prog ε Res α} (h : Alike view p q) (n : ℕ) (s : σ) :
    (p.under apply F n s).2 = (q.under apply F' n s).2 ∧
      (p.under apply F n s).1.map (Except.mapError view) =
        (q.under apply F' n s).1.map (Except.mapError view) := by
  induction h generalizing n s with
  | @done x y h =>
    refine ⟨rfl, ?_⟩
    unfold Prog.under
    rw [hF.stops]
    split
    · rfl
    · exact congrArg some h
  | @call op k k' hk ih =>
    have hfails := hF.fails n
    unfold Prog.under
    rw [hF.stops]
    split
    · exact ⟨rfl, rfl⟩
    · cases he : F.fails n with
      | none =>
        rw [he] at hfails
        rw [Option.map_eq_none_iff.mp hfails.symm]
        exact ih _ _ (.refl _) _ _
      | some e =>
        rw [he] at hfails
        obtain ⟨e', he', hview⟩ := Option.map_eq_some_iff.mp hfails.symm
        rw [he']
        exact ih _ _ (.error hview.symm) _ _

end Prog
