/-
# Waits between attempts

Something is attempted again and again, and after attempt `k` it rests for `wait k`, if the
attempt reports back; if it does not, it is given up after `lease`, which is longer than any
wait. Nothing stops an attempt that was given up from reporting after all, late and while a
later attempt is under way, and then it is its own, shorter wait that counts.

All the same the waits add up. Giving up an attempt `k` takes `lease - wait k` longer than its
wait would, and that is what its late report can cost at most. `Past` is what is known of the
time while attempt `n` is under way and the attempts in `out` have not reported, `Due` what is
known of the time when attempt `n + 1` may begin. A report leads from the one to the other
(`Past.report`), giving up does (`Past.expire`), and the next attempt leads back (`Due.claim`).
-/
import Mathlib.Algebra.BigOperators.Group.List.Basic
import Mathlib.Algebra.Order.BigOperators.Group.List
import Mathlib.Algebra.Order.Ring.Nat
import Mathlib.Data.List.Nodup

namespace Backoff

variable (wait : ℕ → ℕ) (lease : ℕ)

/-- The first `n` waits. -/
def total : ℕ → ℕ
  | 0 => 0
  | n + 1 => total n + wait (n + 1)

/-- By how much longer than their waits some attempts take until they are given up. -/
def credit (out : List ℕ) : ℕ := (out.map fun k => lease - wait k).sum

/-- Attempt `n` is under way, or over, at `t`. -/
def Past (born n : ℕ) (out : List ℕ) (t : ℕ) : Prop :=
  born + total wait (n - 1) + credit wait lease (out.filter (· < n)) ≤ t

/-- Attempt `n` is over, and the next may begin at `t`. -/
def Due (born n : ℕ) (out : List ℕ) (t : ℕ) : Prop :=
  born + total wait n + credit wait lease out ≤ t

variable {wait lease} {born n j t t' : ℕ} {out out' : List ℕ}

theorem total_mono {m : ℕ} (h : m ≤ n) : total wait m ≤ total wait n := by
  induction n, h using Nat.le_induction with
  | base => exact le_rfl
  | succ n _ ih => exact ih.trans (Nat.le_add_right _ _)

variable (wait lease)

theorem total_pred (h : 1 ≤ n) : total wait n = total wait (n - 1) + wait n := by
  obtain ⟨m, rfl⟩ : ∃ m, n = m + 1 := ⟨n - 1, by omega⟩
  rfl

/-! ### Credit -/

theorem credit_sublist (h : out'.Sublist out) : credit wait lease out' ≤ credit wait lease out :=
  (h.map _).sum_le_sum fun _ _ => Nat.zero_le _

/-- Without an attempt its share of the credit is gone. -/
theorem credit_without (hj : j ∈ out) :
    credit wait lease (out.filter (· ≠ j)) + (lease - wait j) ≤ credit wait lease out := by
  induction out with
  | nil => exact absurd hj List.not_mem_nil
  | cons a out ih =>
    have hcons : credit wait lease (a :: out) = (lease - wait a) + credit wait lease out := by
      simp [credit]
    by_cases ha : a = j
    · have hrest : credit wait lease (out.filter (· ≠ j)) ≤ credit wait lease out :=
        credit_sublist wait lease List.filter_sublist
      rw [hcons, List.filter_cons_of_neg (by simp [ha]), ha]
      omega
    · have hmem : j ∈ out := by
        rcases List.mem_cons.mp hj with h | h
        · exact absurd h.symm ha
        · exact h
      have hkeep : credit wait lease ((a :: out).filter (· ≠ j)) =
          (lease - wait a) + credit wait lease (out.filter (· ≠ j)) := by
        rw [List.filter_cons_of_pos (by simp [ha])]
        simp [credit]
      have := ih hmem
      omega

/-- Up to attempt `n`, the credit is that of the attempts before and one share. -/
theorem credit_upto (hout : out.Nodup) (hle : ∀ k ∈ out, k ≤ n) :
    credit wait lease out ≤ credit wait lease (out.filter (· < n)) + (lease - wait n) := by
  by_cases hn : n ∈ out
  · have hperm : out.Perm (n :: out.filter (· < n)) := by
      refine (List.perm_ext_iff_of_nodup hout ?_).mpr fun k => ?_
      · exact List.nodup_cons.mpr ⟨by simp, hout.filter _⟩
      · simp only [List.mem_cons, List.mem_filter, decide_eq_true_eq]
        constructor
        · intro hk
          have := hle k hk
          by_cases hkn : k = n
          · exact Or.inl hkn
          · exact Or.inr ⟨hk, by omega⟩
        · rintro (rfl | ⟨hk, -⟩)
          · exact hn
          · exact hk
    have hsum := (hperm.map fun k => lease - wait k).sum_eq
    have : credit wait lease out = (lease - wait n) + credit wait lease (out.filter (· < n)) := by
      simpa [credit] using hsum
    omega
  · have hall : out.filter (· < n) = out := by
      refine List.filter_eq_self.mpr fun k hk => decide_eq_true ?_
      have hne : k ≠ n := fun h => hn (h ▸ hk)
      have := hle k hk
      omega
    rw [hall]
    omega

/-! ### From attempt to attempt -/

variable {wait lease}

theorem Past.mono (h : Past wait lease born n out t) (ht : t ≤ t') (hout : out'.Sublist out) :
    Past wait lease born n out' t' := by
  have := credit_sublist wait lease (hout.filter (· < n))
  unfold Past at h ⊢
  omega

theorem Due.mono (h : Due wait lease born n out t) (ht : t ≤ t') (hout : out'.Sublist out) :
    Due wait lease born n out' t' := by
  have := credit_sublist wait lease hout
  unfold Due at h ⊢
  omega

theorem Past.total_le (h : Past wait lease born n out t) : born + total wait (n - 1) ≤ t :=
  (Nat.le_add_right _ _).trans h

theorem Due.total_le (h : Due wait lease born n out t) : born + total wait n ≤ t :=
  (Nat.le_add_right _ _).trans h

/-- The next attempt begins. -/
theorem Due.claim (h : Due wait lease born n out t) (hle : ∀ k ∈ out, k ≤ n) :
    Past wait lease born (n + 1) (out ++ [n + 1]) t := by
  have hbefore : (out ++ [n + 1]).filter (· < n + 1) = out := by
    rw [List.filter_append, List.filter_eq_self.mpr, List.filter_cons_of_neg (by simp),
      List.filter_nil, List.append_nil]
    intro k hk
    have := hle k hk
    exact decide_eq_true (by omega)
  unfold Past
  rw [hbefore, Nat.add_sub_cancel]
  exact h

/-- An attempt reports, whichever it is. -/
theorem Past.report (h : Past wait lease born n out t) (hout : out.Nodup)
    (hle : ∀ k ∈ out, 1 ≤ k ∧ k ≤ n) (hwait : ∀ k, wait k ≤ lease) (hj : j ∈ out) :
    Due wait lease born n (out.filter (· ≠ j)) (t + wait j) := by
  obtain ⟨h1, hjn⟩ := hle j hj
  have htotal := total_pred wait (h1.trans hjn)
  unfold Past at h
  unfold Due
  by_cases hlast : j = n
  · have hrest : out.filter (· ≠ j) = out.filter (· < n) := by
      refine List.filter_congr fun k hk => ?_
      have := (hle k hk).2
      exact decide_eq_decide.mpr (by omega)
    rw [hrest, hlast, htotal]
    omega
  · have hmem : j ∈ out.filter (· < n) := List.mem_filter.mpr ⟨hj, decide_eq_true (by omega)⟩
    have hshare := credit_without wait lease hmem
    have hupto := credit_upto wait lease (n := n) (hout.filter (· ≠ j))
      fun k hk => (hle k (List.mem_filter.mp hk).1).2
    rw [List.filter_comm] at hupto
    have := hwait j
    have := hwait n
    omega

/-- The attempt under way is given up. -/
theorem Past.expire (h : Past wait lease born n out t) (hout : out.Nodup)
    (hle : ∀ k ∈ out, k ≤ n) (hn : 1 ≤ n) (hwait : ∀ k, wait k ≤ lease) :
    Due wait lease born n out (t + lease) := by
  have htotal := total_pred wait hn
  have hupto := credit_upto wait lease hout hle
  have := hwait n
  unfold Past at h
  unfold Due
  omega

end Backoff
