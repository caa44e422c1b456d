/-
# Reading a successful `Except` computation backwards

A computation that returned went through each of its steps. One inversion lemma
for each way a step is written: a guard, a bind, a map, a `mapM` over a list.
-/
import Mathlib.Data.List.Basic

namespace Result

variable {ε α β : Type} {e : ε} {b : β} {p : Prop} [Decidable p]

/-- A guard that refuses was not met. -/
theorem guard_ok {x : Except ε β} (h : (if p then .error e else x) = .ok b) : ¬p ∧ x = .ok b := by
  split at h
  · cases h
  · exact ⟨‹_›, h⟩

/-- A guard that lets through was met. -/
theorem require_ok {x : Except ε β} (h : (if p then x else .error e) = .ok b) : p ∧ x = .ok b := by
  split at h
  · exact ⟨‹_›, h⟩
  · cases h

/-- `Option::ok_or`. -/
def okOr (x : Option α) (e : ε) : Except ε α :=
  match x with
  | some a => .ok a
  | none => .error e

theorem okOr_ok {x : Option α} {a : α} (h : okOr x e = .ok a) : x = some a := by
  cases x with
  | none => cases h
  | some b =>
    cases h
    rfl

theorem bind_ok {x : Except ε α} {f : α → Except ε β} (h : x >>= f = .ok b) :
    ∃ a, x = .ok a ∧ f a = .ok b := by
  cases x with
  | error e => cases h
  | ok a => exact ⟨a, rfl, h⟩

theorem map_ok {x : Except ε α} {f : α → β} (h : x.map f = .ok b) : ∃ a, x = .ok a ∧ f a = b := by
  cases x with
  | error e => cases h
  | ok a => exact ⟨a, rfl, by injection h⟩

/-- Every result of a `mapM` is that of some item. -/
theorem mapM_ok {f : α → Except ε β} : ∀ {xs : List α} {ys : List β},
    xs.mapM f = .ok ys → ys.length = xs.length ∧ ∀ y ∈ ys, ∃ x ∈ xs, f x = .ok y
  | [], ys, h => by
    cases h
    exact ⟨rfl, fun y hy => absurd hy List.not_mem_nil⟩
  | x :: xs, ys, h => by
    rw [List.mapM_cons] at h
    obtain ⟨y, hy, h⟩ := bind_ok h
    obtain ⟨zs, hzs, h⟩ := bind_ok h
    cases h
    obtain ⟨hlen, hmem⟩ := mapM_ok hzs
    refine ⟨by simp [hlen], fun z hz => ?_⟩
    rcases List.mem_cons.mp hz with rfl | hz
    · exact ⟨x, List.mem_cons_self, hy⟩
    · obtain ⟨w, hw, hfw⟩ := hmem z hz
      exact ⟨w, List.mem_cons_of_mem _ hw, hfw⟩

/-- Every item of a `mapM` has its result. -/
theorem mapM_ok_of_mem {f : α → Except ε β} : ∀ {xs : List α} {ys : List β},
    xs.mapM f = .ok ys → ∀ x ∈ xs, ∃ y ∈ ys, f x = .ok y
  | [], _, _, x, hx => absurd hx List.not_mem_nil
  | x :: xs, ys, h, z, hz => by
    rw [List.mapM_cons] at h
    obtain ⟨y, hy, h⟩ := bind_ok h
    obtain ⟨zs, hzs, h⟩ := bind_ok h
    cases h
    rcases List.mem_cons.mp hz with rfl | hz
    · exact ⟨y, List.mem_cons_self, hy⟩
    · obtain ⟨w, hw, hfw⟩ := mapM_ok_of_mem hzs z hz
      exact ⟨w, List.mem_cons_of_mem _ hw, hfw⟩

end Result
