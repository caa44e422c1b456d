/-
# Tables with a primary key

The rows of a table in the order they lie in, no key twice; that is part of the
table. A statement is one of four operations, and what a row is after it is said
by what `get?` returns: `get?_put`, `get?_modify`, `get?_deleteWhere`.
-/
import Mathlib.Data.List.Nodup

variable {κ ρ : Type} {key : ρ → κ}

structure Table (key : ρ → κ) where
  rows : List ρ
  nodup : (rows.map key).Nodup

namespace Table

def empty : Table key := ⟨[], List.nodup_nil⟩

instance : EmptyCollection (Table key) := ⟨empty⟩

/-- An `UPDATE`: rows change, their keys do not. -/
def modify (t : Table key) (f : ρ → ρ) (hf : ∀ r, key (f r) = key r) : Table key where
  rows := t.rows.map f
  nodup := by
    rw [List.map_map, show key ∘ f = key from funext hf]
    exact t.nodup

/-- A `DELETE`. -/
def deleteWhere (t : Table key) (p : ρ → Bool) : Table key where
  rows := t.rows.filter fun r => !p r
  nodup := t.nodup.sublist (List.filter_sublist.map key)

section

variable {P : ρ → Prop} {t : Table key}

/-- What holds of every row. -/
theorem forall_deleteWhere (h : ∀ r ∈ t.rows, P r) (p : ρ → Bool) :
    ∀ r ∈ (t.deleteWhere p).rows, P r :=
  fun r hr => h r (List.mem_filter.mp hr).1

theorem forall_modify (h : ∀ r ∈ t.rows, P r) {f : ρ → ρ} (hf : ∀ r, key (f r) = key r)
    (hP : ∀ r ∈ t.rows, P r → P (f r)) : ∀ r ∈ (t.modify f hf).rows, P r := by
  intro r hr
  obtain ⟨r', hr', rfl⟩ := List.mem_map.mp hr
  exact hP r' hr' (h r' hr')

end

variable [DecidableEq κ]

def get? (t : Table key) (k : κ) : Option ρ := t.rows.find? fun r => key r = k

/-- An `INSERT … ON CONFLICT DO UPDATE`: the row takes the place of the one with
its key. -/
def put (t : Table key) (r : ρ) : Table key :=
  if h : ∃ r' ∈ t.rows, key r' = key r then
    t.modify (fun r' => if key r' = key r then r else r') fun r' => by split <;> simp_all
  else
    { rows := t.rows ++ [r]
      nodup := by
        rw [List.map_append, List.map_singleton, List.nodup_append]
        refine ⟨t.nodup, List.nodup_singleton _, fun a ha b hb => ?_⟩
        obtain ⟨r', hr', rfl⟩ := List.mem_map.mp ha
        rw [List.mem_singleton.mp hb]
        exact fun he => h ⟨r', hr', he⟩ }

def remove (t : Table key) (k : κ) : Table key := t.deleteWhere fun r => key r = k

theorem get?_eq_some {t : Table key} {k : κ} {r : ρ} :
    t.get? k = some r ↔ r ∈ t.rows ∧ key r = k := by
  constructor
  · intro h
    exact ⟨List.mem_of_find?_eq_some h, by simpa using List.find?_some h⟩
  · rintro ⟨hr, rfl⟩
    obtain ⟨rows, nodup⟩ := t
    induction rows with
    | nil => exact absurd hr List.not_mem_nil
    | cons a rows ih =>
      have hn := List.nodup_cons.mp nodup
      rcases List.mem_cons.mp hr with rfl | hr
      · simp [get?]
      · have hne : key a ≠ key r := fun he => hn.1 (he ▸ List.mem_map_of_mem hr)
        simpa [get?, hne] using ih hn.2 hr

theorem get?_eq_none {t : Table key} {k : κ} : t.get? k = none ↔ ∀ r ∈ t.rows, key r ≠ k := by
  simp [get?]

theorem key_of_get? {t : Table key} {k : κ} {r : ρ} (h : t.get? k = some r) : key r = k :=
  (get?_eq_some.mp h).2

/-- The rows of a key. -/
theorem filter_key (t : Table key) (k : κ) :
    (t.rows.filter fun r => key r = k) = (t.get? k).toList := by
  cases h : t.get? k with
  | none =>
    refine List.filter_eq_nil_iff.mpr fun r hr => ?_
    simpa using get?_eq_none.mp h r hr
  | some r =>
    obtain ⟨hr, hkey⟩ := get?_eq_some.mp h
    have hnodup : (t.rows.filter fun r => key r = k).Nodup := (List.Nodup.of_map key t.nodup).filter _
    refine List.perm_singleton.mp ((List.perm_ext_iff_of_nodup hnodup (List.nodup_singleton r)).mpr
      fun r' => ?_)
    rw [List.mem_filter, decide_eq_true_eq, List.mem_singleton]
    constructor
    · rintro ⟨hr', hkey'⟩
      have hsame := get?_eq_some.mpr ⟨hr', hkey'⟩
      rw [h] at hsame
      exact (Option.some.inj hsame).symm
    · rintro rfl
      exact ⟨hr, hkey⟩

@[simp] theorem get?_modify (t : Table key) (f : ρ → ρ) (hf : ∀ r, key (f r) = key r) (k : κ) :
    (t.modify f hf).get? k = (t.get? k).map f := by
  unfold get? modify
  simp only [List.find?_map, Function.comp_def, hf]

@[simp] theorem get?_deleteWhere (t : Table key) (p : ρ → Bool) (k : κ) :
    (t.deleteWhere p).get? k = (t.get? k).filter fun r => !p r := by
  cases h : t.get? k with
  | none =>
    rw [Option.filter_none, get?_eq_none]
    exact fun r hr => get?_eq_none.mp h r (List.mem_filter.mp hr).1
  | some r =>
    obtain ⟨hr, rfl⟩ := get?_eq_some.mp h
    cases hp : p r with
    | false =>
      rw [Option.filter_some, hp]
      exact get?_eq_some.mpr ⟨List.mem_filter.mpr ⟨hr, by rw [hp]; rfl⟩, rfl⟩
    | true =>
      rw [Option.filter_some, hp]
      refine get?_eq_none.mpr fun r' hr' he => ?_
      obtain ⟨hr', hp'⟩ := List.mem_filter.mp hr'
      have hsame : t.get? (key r) = some r' := get?_eq_some.mpr ⟨hr', he⟩
      rw [h] at hsame
      cases hsame
      rw [hp] at hp'
      cases hp'

theorem get?_put (t : Table key) (r : ρ) (k : κ) :
    (t.put r).get? k = if k = key r then some r else t.get? k := by
  unfold put
  split
  · rename_i h
    rw [get?_modify]
    by_cases hk : k = key r
    · subst hk
      obtain ⟨r', hr', he⟩ := h
      rw [if_pos rfl, get?_eq_some.mpr ⟨hr', he⟩, Option.map_some, if_pos he]
    · rw [if_neg hk]
      cases hg : t.get? k with
      | none => rfl
      | some r' =>
        rw [Option.map_some, if_neg]
        rw [key_of_get? hg]
        exact hk
  · rename_i h
    push Not at h
    unfold get?
    rw [List.find?_append]
    by_cases hk : k = key r
    · subst hk
      have hnone : t.rows.find? (fun r' => key r' = key r) = none := by simpa using h
      rw [hnone, if_pos rfl]
      simp
    · have hne : ¬key r = k := fun he => hk he.symm
      simp [hk, hne]

@[simp] theorem get?_put_self (t : Table key) (r : ρ) : (t.put r).get? (key r) = some r := by
  rw [get?_put, if_pos rfl]

theorem get?_put_ne (t : Table key) {r : ρ} {k : κ} (h : k ≠ key r) :
    (t.put r).get? k = t.get? k := by
  rw [get?_put, if_neg h]

theorem forall_put {P : ρ → Prop} {t : Table key} (h : ∀ x ∈ t.rows, P x) {r : ρ} (hr : P r) :
    ∀ x ∈ (t.put r).rows, P x := by
  intro x hx
  have hget := get?_eq_some.mpr ⟨hx, rfl⟩
  rw [get?_put] at hget
  split at hget
  · rw [← Option.some.inj hget]
    exact hr
  · exact h x (get?_eq_some.mp hget).1

/-- A key that is there is there after a `put`. -/
theorem isSome_put {t : Table key} {k : κ} (h : (t.get? k).isSome = true) (r : ρ) :
    ((t.put r).get? k).isSome = true := by
  rw [get?_put]
  split
  · rfl
  · exact h

theorem get?_remove (t : Table key) (k k' : κ) :
    (t.remove k).get? k' = if k' = k then none else t.get? k' := by
  unfold remove
  rw [get?_deleteWhere]
  cases h : t.get? k' with
  | none => split <;> rfl
  | some r =>
    rw [Option.filter_some, key_of_get? h]
    by_cases hk : k' = k <;> simp [hk]

end Table
