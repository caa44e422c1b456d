/-
# Runs that go on for ever

Of a run without an end, what happens at step `n` is a predicate on `n`: it happens again and
again (`∃ᶠ n in atTop`), or always from some step on (`∀ᶠ n in atTop`). Fairness is the
assumption that something happens again and again, and that a choice which is offered again and
again is taken (`Chosen`). A number that each move takes down cannot go on for ever, so that the
moves come to where they need not take it down (`frequently_of_descent`).
-/
import Mathlib.Order.Filter.AtTopBot.Basic

namespace Fair

open Filter

/-- If it is offered again and again, it is taken again and again. -/
def Chosen (offered taken : ℕ → Prop) : Prop :=
  (∃ᶠ n in atTop, offered n) → ∃ᶠ n in atTop, offered n ∧ taken n

variable {moves ready p : ℕ → Prop} (rank : ℕ → ℕ) {start : ℕ}

/-- What stays once it holds holds from there on. -/
theorem forall_of_stable (h : p start) (hstay : ∀ n, start ≤ n → p n → p (n + 1)) {n : ℕ}
    (hn : start ≤ n) : p n := by
  induction n, hn using Nat.le_induction with
  | base => exact h
  | succ n hn ih => exact hstay n hn ih

/-- There are no more moves that are not ready than the rank has steps to go down. -/
theorem exists_ready (hmoves : ∃ᶠ n in atTop, moves n)
    (hstay : ∀ n, start ≤ n → ¬moves n → rank (n + 1) ≤ rank n)
    (hdown : ∀ n, start ≤ n → moves n → ¬ready n → rank (n + 1) < rank n) :
    ∀ k n, start ≤ n → rank n < k → ∃ m, n ≤ m ∧ moves m ∧ ready m := by
  intro k
  induction k with
  | zero => exact fun n _ hrank => absurd hrank (Nat.not_lt_zero _)
  | succ k ih =>
    intro n hn hrank
    by_contra hnone
    have hready : ∀ m, n ≤ m → moves m → ¬ready m := fun m hm hmove h => hnone ⟨m, hm, hmove, h⟩
    have hle : ∀ m, n ≤ m → rank m ≤ k := by
      intro m hm
      refine forall_of_stable (p := fun m => rank m ≤ k) (by omega) (fun m hm hle => ?_) hm
      by_cases hmove : moves m
      · have := hdown m (by omega) hmove (hready m hm hmove)
        omega
      · have := hstay m (by omega) hmove
        omega
    -- the next move takes it below `k`
    obtain ⟨m, hm, hmove⟩ := frequently_atTop.mp hmoves n
    have hlt := hdown m (by omega) hmove (hready m hm hmove)
    have := hle m hm
    obtain ⟨m', hm', h⟩ := ih (m + 1) (by omega) (by omega)
    exact hnone ⟨m', by omega, h⟩

/-- Moves that take a rank down, unless they are ready, are ready again and again. -/
theorem frequently_of_descent (hmoves : ∃ᶠ n in atTop, moves n)
    (hstay : ∀ n, start ≤ n → ¬moves n → rank (n + 1) ≤ rank n)
    (hdown : ∀ n, start ≤ n → moves n → ¬ready n → rank (n + 1) < rank n) :
    ∃ᶠ n in atTop, moves n ∧ ready n := by
  rw [frequently_atTop]
  intro n
  obtain ⟨m, hm, h⟩ := exists_ready rank hmoves hstay hdown (rank (max start n) + 1) (max start n)
    (le_max_left _ _) (Nat.lt_succ_self _)
  exact ⟨m, le_trans (le_max_right _ _) hm, h⟩

/-! ### A task that waits for a message -/

section Task

variable {σ : Type} (loc : ℕ → σ) (heard offered stopped : σ → Prop) (left : σ → ℕ)
  {taken : ℕ → Prop}

/-- A task that has the message, and is offered it again and again unless it stops, stops. -/
theorem exists_stopped (hmoves : ∃ᶠ n in atTop, moves n)
    (hsame : ∀ n, start ≤ n → ¬moves n → loc (n + 1) = loc n)
    (hstep : ∀ n, start ≤ n → moves n → heard (loc n) → ¬stopped (loc (n + 1)) →
      heard (loc (n + 1)) ∧ (¬offered (loc n) → left (loc (n + 1)) < left (loc n)))
    (hchosen : Chosen (fun n => moves n ∧ offered (loc n)) taken)
    (htaken : ∀ n, moves n → offered (loc n) → taken n → stopped (loc (n + 1)))
    (h : heard (loc start)) : ∃ n, start ≤ n ∧ stopped (loc n) := by
  by_contra hnone
  have hrun : ∀ n, start ≤ n → ¬stopped (loc n) := fun n hn hstop => hnone ⟨n, hn, hstop⟩
  have hheard : ∀ n, start ≤ n → heard (loc n) := by
    intro n hn
    refine forall_of_stable (p := fun n => heard (loc n)) h (fun n hn hq => ?_) hn
    by_cases hmove : moves n
    · exact (hstep n hn hmove hq (hrun (n + 1) (by omega))).1
    · rw [hsame n hn hmove]
      exact hq
  have hoffered : ∃ᶠ n in atTop, moves n ∧ offered (loc n) := by
    refine frequently_of_descent (fun n => left (loc n)) hmoves (fun n (hn : start ≤ n) hmove => ?_)
      fun n hn hmove hready => ?_
    · rw [hsame n hn hmove]
    · exact (hstep n hn hmove (hheard n hn) (hrun (n + 1) (by omega))).2 hready
  obtain ⟨n, hn, ⟨hmove, hready⟩, htake⟩ := frequently_atTop.mp (hchosen hoffered) start
  exact hrun (n + 1) (by omega) (htaken n hmove hready htake)

end Task

end Fair
