/-
# Filling a template by replacement

`replace p v` puts `v` for every `p` in a text, from the left and without going back over
what it has put; `fill` does so for several placeholders, one after the other. A character
that no placeholder has cuts a text in two that are filled on their own (`fill_append_cons`).
A placeholder that stands alone becomes its value, as the later replacements leave it
(`fill_placeholder`), and they leave it as it is if it has none of their placeholders
(`fill_eq_self`).
-/
import Mathlib.Data.List.Infix

namespace Replace

section Infix

variable {α : Type} {p a b : List α} {x : α}

theorem prefix_append_cons (hx : x ∉ p) : p <+: a ++ x :: b ↔ p <+: a := by
  constructor
  · intro h
    rcases List.prefix_or_prefix_of_prefix h (List.prefix_append a (x :: b)) with h' | ⟨t, rfl⟩
    · exact h'
    · cases t with
      | nil => exact ⟨[], by simp⟩
      | cons y t =>
        have hy := (List.prefix_append_right_inj a).mp h
        rw [List.cons_prefix_cons] at hy
        exact absurd (by simp [hy.1]) hx
  · exact fun h => h.trans (List.prefix_append _ _)

/-- A text without the character that cuts another in two lies in one of the parts. -/
theorem infix_append_cons (hx : x ∉ p) :
    ∀ {a : List α}, p <:+: a ++ x :: b ↔ p <:+: a ∨ p <:+: b
  | [] => by
    have hpre : p <+: x :: b ↔ p <+: [] := prefix_append_cons (a := []) hx
    rw [List.nil_append, List.infix_cons_iff, hpre, List.prefix_nil, List.infix_nil]
  | c :: a => by
    have hpre : p <+: c :: (a ++ x :: b) ↔ p <+: c :: a := prefix_append_cons (a := c :: a) hx
    rw [List.cons_append, List.infix_cons_iff, hpre, infix_append_cons hx, List.infix_cons_iff,
      or_assoc]

end Infix

variable {α : Type} [DecidableEq α]

/-- The replacement in a text of which the first `skip` characters are replaced already. -/
def replaceFrom (p v : List α) : ℕ → List α → List α
  | _, [] => []
  | skip + 1, _ :: cs => replaceFrom p v skip cs
  | 0, c :: cs =>
    if p <+: c :: cs then v ++ replaceFrom p v (p.length - 1) cs
    else c :: replaceFrom p v 0 cs

/-- `v` for every `p`, which is not empty. -/
def replace (p v : List α) : List α → List α := replaceFrom p v 0

/-- A placeholder and its value for each replacement. -/
def fill (steps : List (List α × List α)) (s : List α) : List α :=
  steps.foldl (fun s step => replace step.1 step.2 s) s

/-- One of the replacements finds its placeholder. -/
def touched : List (List α × List α) → List α → Bool
  | [], _ => false
  | (p, v) :: steps, s => decide (p <:+: s) || touched steps (replace p v s)

variable {p v s a b : List α} {x : α} {steps : List (List α × List α)}

theorem replaceFrom_eq_drop : ∀ (n : ℕ) (s : List α), replaceFrom p v n s = replace p v (s.drop n)
  | 0, _ => rfl
  | n + 1, [] => by simp [replace, replaceFrom]
  | n + 1, _ :: cs => replaceFrom_eq_drop n cs

theorem replaceFrom_append_cons (hp : p ≠ []) (hx : x ∉ p) :
    ∀ {a : List α} {n : ℕ}, n ≤ a.length →
      replaceFrom p v n (a ++ x :: b) = replaceFrom p v n a ++ x :: replace p v b
  | [], n, hn => by
    obtain rfl := Nat.le_zero.mp hn
    have hno : ¬p <+: x :: b := by
      rw [← List.nil_append (x :: b), prefix_append_cons hx, List.prefix_nil]
      exact hp
    show (if p <+: x :: b then _ else x :: replace p v b) = x :: replace p v b
    rw [if_neg hno]
  | _ :: a, n + 1, hn => replaceFrom_append_cons (a := a) (n := n) hp hx (Nat.le_of_succ_le_succ hn)
  | c :: a, 0, _ => by
    show (if p <+: c :: a ++ x :: b then v ++ replaceFrom p v (p.length - 1) (a ++ x :: b)
        else c :: replaceFrom p v 0 (a ++ x :: b)) =
      (if p <+: c :: a then v ++ replaceFrom p v (p.length - 1) a
        else c :: replaceFrom p v 0 a) ++ x :: replace p v b
    by_cases hpre : p <+: c :: a
    · have hle : p.length - 1 ≤ a.length := by
        have := hpre.length_le
        rw [List.length_cons] at this
        omega
      rw [if_pos ((prefix_append_cons hx).mpr hpre), if_pos hpre, replaceFrom_append_cons hp hx hle,
        List.append_assoc]
    · rw [if_neg fun h => hpre ((prefix_append_cons hx).mp h), if_neg hpre,
        replaceFrom_append_cons hp hx (Nat.zero_le _), List.cons_append]

theorem replace_eq_self (v : List α) : ∀ {s : List α}, ¬p <:+: s → replace p v s = s
  | [], _ => rfl
  | c :: cs, h => by
    rw [List.infix_cons_iff, not_or] at h
    show (if p <+: c :: cs then _ else c :: replace p v cs) = c :: cs
    rw [if_neg h.1, replace_eq_self v h.2]

theorem replace_placeholder (hp : p ≠ []) : replace p v p = v := by
  cases p with
  | nil => exact absurd rfl hp
  | cons c cs =>
    show (if c :: cs <+: c :: cs then v ++ replaceFrom (c :: cs) v cs.length cs else _) = v
    rw [if_pos (List.prefix_refl _), replaceFrom_eq_drop, List.drop_length]
    exact List.append_nil v

example : replace "aa".toList "b".toList "aaaaa".toList = "bba".toList := by decide +kernel

theorem fill_append_cons : ∀ {steps : List (List α × List α)} {a b : List α},
    (∀ step ∈ steps, step.1 ≠ [] ∧ x ∉ step.1) →
      fill steps (a ++ x :: b) = fill steps a ++ x :: fill steps b
  | [], _, _, _ => rfl
  | (p, v) :: steps, a, b, h => by
    obtain ⟨hstep, hsteps⟩ := List.forall_mem_cons.mp h
    have hcut : replace p v (a ++ x :: b) = replace p v a ++ x :: replace p v b :=
      replaceFrom_append_cons hstep.1 hstep.2 (Nat.zero_le _)
    show fill steps (replace p v (a ++ x :: b)) = _
    rw [hcut]
    exact fill_append_cons hsteps

theorem fill_eq_self : ∀ {steps : List (List α × List α)},
    (∀ step ∈ steps, ¬step.1 <:+: s) → fill steps s = s
  | [], _ => rfl
  | (p, v) :: steps, h => by
    obtain ⟨hstep, hsteps⟩ := List.forall_mem_cons.mp h
    show fill steps (replace p v s) = s
    rw [replace_eq_self v hstep]
    exact fill_eq_self hsteps

/-- A placeholder becomes its value, as the replacements after its own leave it. -/
theorem fill_placeholder {earlier later : List (List α × List α)} (hp : p ≠ [])
    (h : ∀ step ∈ earlier, ¬step.1 <:+: p) :
    fill (earlier ++ (p, v) :: later) p = fill later v := by
  show List.foldl _ _ _ = _
  rw [List.foldl_append]
  show fill later (replace p v (fill earlier p)) = fill later v
  rw [fill_eq_self h, replace_placeholder hp]

/-- As long as nothing is found nothing changes, so all look through the text as it was. -/
theorem touched_eq_false_iff : ∀ {steps : List (List α × List α)},
    touched steps s = false ↔ ∀ step ∈ steps, ¬step.1 <:+: s
  | [] => by simp [touched]
  | (p, v) :: steps => by
    rw [touched, Bool.or_eq_false_iff, decide_eq_false_iff_not, List.forall_mem_cons]
    refine and_congr_right fun hno => ?_
    rw [replace_eq_self v hno]
    exact touched_eq_false_iff

end Replace
