/-
# A copy that follows a store

Every change is made to a store first and to a copy of it later, by the same owner;
in between it is outstanding. A change is a patch: the values of some places. The copy
with the outstanding patches on it, in the order the store took them, is the store
(`Inv`), as long as no patch is copied ahead of one that it disagrees with
(`Step.copy`). So the copy is the store whenever nothing is outstanding.
-/
import Mathlib.Logic.Relation
import Mathlib.Data.List.Basic

namespace Mirror

variable {ι π β : Type}

abbrev Patch (π β : Type) := π → Option β

namespace Patch

def apply (p : Patch π β) (s : π → β) : π → β := fun a => (p a).getD (s a)

/-- Two patches that say the same wherever both say something. -/
def Agree (p q : Patch π β) : Prop := ∀ a u v, p a = some u → q a = some v → u = v

theorem apply_comm {p q : Patch π β} (h : Agree p q) (s : π → β) :
    p.apply (q.apply s) = q.apply (p.apply s) := by
  funext a
  unfold apply
  cases hp : p a with
  | none => cases q a <;> rfl
  | some u =>
    cases hq : q a with
    | none => rfl
    | some v => exact h a u v hp hq

end Patch

structure State (ι π β : Type) where
  source : π → β
  copy : π → β
  outstanding : List (ι × Patch π β)

/-- Patches on a copy, the first one first. -/
def behind (outstanding : List (ι × Patch π β)) (copy : π → β) : π → β :=
  outstanding.foldl (fun c e => e.2.apply c) copy

theorem behind_append (before after : List (ι × Patch π β)) (copy : π → β) :
    behind (before ++ after) copy = behind after (behind before copy) :=
  List.foldl_append

/-- A patch may be put below others that agree with it. -/
theorem behind_apply {p : Patch π β} : ∀ {before : List (ι × Patch π β)},
    (∀ e ∈ before, e.2.Agree p) → ∀ copy, behind before (p.apply copy) = p.apply (behind before copy)
  | [], _, _ => rfl
  | e :: before, h, copy => by
    have h := List.forall_mem_cons.mp h
    have ih := behind_apply h.2 (e.2.apply copy)
    show behind before (e.2.apply (p.apply copy)) = p.apply (behind before (e.2.apply copy))
    rw [Patch.apply_comm h.1, ih]

inductive Step : State ι π β → State ι π β → Prop where
  | accept {s : State ι π β} (i : ι) (p : Patch π β) :
      Step s ⟨p.apply s.source, s.copy, s.outstanding ++ [(i, p)]⟩
  | copy {s : State ι π β} {i : ι} {p : Patch π β} {before after : List (ι × Patch π β)} :
      s.outstanding = before ++ (i, p) :: after → (∀ e ∈ before, e.2.Agree p) →
      Step s ⟨s.source, p.apply s.copy, before ++ after⟩

def Inv (s : State ι π β) : Prop := s.source = behind s.outstanding s.copy

theorem Step.inv {s s' : State ι π β} (h : Step s s') (hs : Inv s) : Inv s' := by
  cases h with
  | accept i p =>
    show p.apply s.source = behind (s.outstanding ++ [(i, p)]) s.copy
    rw [behind_append, ← hs]
    rfl
  | @copy i p before after hout hagree =>
    have hs : s.source = behind s.outstanding s.copy := hs
    rw [hout, behind_append] at hs
    show s.source = behind (before ++ after) (p.apply s.copy)
    rw [behind_append, behind_apply hagree, hs]
    rfl

theorem inv_of_reached {s s' : State ι π β} (h : Relation.ReflTransGen Step s s') (hs : Inv s) :
    Inv s' := by
  induction h with
  | refl => exact hs
  | tail _ hstep ih => exact hstep.inv ih

/-- With nothing outstanding, the copy is the store. -/
theorem Inv.eq_of_settled {s : State ι π β} (h : Inv s) (hout : s.outstanding = []) :
    s.source = s.copy := by
  have h : s.source = behind s.outstanding s.copy := h
  rw [h, hout]
  rfl

end Mirror
