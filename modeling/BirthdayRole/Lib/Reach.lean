/-
# Runs of a labelled transition system

`step s a` is the state after action `a`, if `a` can happen in `s`. A state is
reached through actions that each meet a condition on the state they happen in
(`Reached`); with no condition to meet, it is reached by a run (`fun _ _ => True`).
An invariant is proved once for the start and once for a step (`Reached.invariant`).

Where every action can happen, a property of the states that a run goes through
(`Through`) and a condition on its actions (`Along`) are the same thing if they are
for one step (`through_iff_along`).
-/
import Mathlib.Logic.Relation

namespace Lts

variable {σ α : Type} (step : σ → α → Option σ) (allowed : σ → α → Prop)

inductive Reached (start : σ) : σ → Prop
  | refl : Reached start start
  | step {s s' : σ} {a : α} : Reached start s → allowed s a → step s a = some s' → Reached start s'

/-- The states after the actions of a list, one after the other. -/
def run : σ → List α → Option σ
  | s, [] => some s
  | s, a :: as => (step s a).bind fun s' => run s' as

variable {step allowed} {start : σ}

theorem Reached.invariant {Inv : σ → Prop} (h0 : Inv start)
    (hstep : ∀ s a s', Inv s → allowed s a → step s a = some s' → Inv s') {s : σ}
    (h : Reached step allowed start s) : Inv s := by
  induction h with
  | refl => exact h0
  | step _ ha hs ih => exact hstep _ _ _ ih ha hs

/-- A list of actions that are allowed in any state reaches its last state. -/
theorem Reached.of_run {s : σ} (h : Reached step allowed start s) : ∀ {as : List α} {s' : σ},
    (∀ a ∈ as, ∀ t, allowed t a) → run step s as = some s' → Reached step allowed start s'
  | [], s', _, hr => by
    cases hr
    exact h
  | a :: as, s', ha, hr => by
    obtain ⟨t, ht, hr⟩ := Option.bind_eq_some_iff.mp hr
    have ha := List.forall_mem_cons.mp ha
    exact Reached.of_run (h.step (ha.1 s) ht) ha.2 hr

section Total

variable (next : σ → α → σ)

/-- Each action of a run meets a condition on the state it happens in. -/
def Along (P : σ → α → Prop) : σ → List α → Prop
  | _, [] => True
  | s, a :: as => P s a ∧ Along P (next s a) as

/-- Each state that a run goes through has a property. -/
def Through (Q : σ → Prop) : σ → List α → Prop
  | s, [] => Q s
  | s, a :: as => Q s ∧ Through Q (next s a) as

variable {next} {P H : σ → α → Prop} {Q : σ → Prop}

theorem along_and : ∀ {as : List α} {s : σ}, Along next P s as → Along next H s as →
    Along next (fun s a => P s a ∧ H s a) s as
  | [], _, _, _ => trivial
  | _ :: _, _, hP, hH => ⟨⟨hP.1, hH.1⟩, along_and hP.2 hH.2⟩

theorem through_iff_along (hstep : ∀ s a, Q s → H s a → (Q (next s a) ↔ P s a)) :
    ∀ {as : List α} {s : σ}, Q s → Along next H s as → (Through next Q s as ↔ Along next P s as)
  | [], s, hQ, _ => ⟨fun _ => trivial, fun _ => hQ⟩
  | a :: as, s, hQ, hH => by
    have hone := hstep s a hQ hH.1
    constructor
    · rintro ⟨-, h⟩
      have hnext : Q (next s a) := by
        cases as with
        | nil => exact h
        | cons b as => exact h.1
      exact ⟨hone.mp hnext, (through_iff_along hstep hnext hH.2).mp h⟩
    · rintro ⟨hP, h⟩
      exact ⟨hQ, (through_iff_along hstep (hone.mpr hP) hH.2).mpr h⟩

end Total

end Lts
