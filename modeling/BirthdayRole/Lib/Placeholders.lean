/-
# The parameters in the text of a statement

PostgreSQL finds the parameters of a statement in its text: a `$` with a number after
it (`placeholders`). In the text of an expression these are the parameters of the
expression, from left to right (`Expr.reads_render`), as long as no atom brings a `$` of
its own and none starts with a digit, which would lengthen a number before it.
-/
import Mathlib.Data.List.TakeWhile
import BirthdayRole.Lib.Sql

namespace Sql

/-- The numbers after a `$`, from left to right. -/
def placeholders : List Char → List ℕ
  | [] => []
  | c :: cs =>
    let digits := cs.takeWhile Char.isDigit
    if c = '$' ∧ digits ≠ [] then Nat.ofDigitChars 10 digits 0 :: placeholders cs
    else placeholders cs

/-- A text that does not lengthen a number it is put after. -/
def NoDigitFirst (cs : List Char) : Prop := ∀ c ∈ cs.head?, c.isDigit = false

instance (cs : List Char) : Decidable (NoDigitFirst cs) :=
  decidable_of_iff ((cs.head?.all fun c => !c.isDigit) = true) (by cases cs <;> simp [NoDigitFirst])

theorem takeWhile_append {a b : List Char} (hb : NoDigitFirst b) :
    (a ++ b).takeWhile Char.isDigit = a.takeWhile Char.isDigit := by
  rw [List.takeWhile_append]
  by_cases hall : (a.takeWhile Char.isDigit).length = a.length
  · have hself : a.takeWhile Char.isDigit = a := (List.takeWhile_prefix _).eq_of_length hall
    have hnone : b.takeWhile Char.isDigit = [] := by
      cases b with
      | nil => rfl
      | cons c cs =>
        rw [List.takeWhile_cons, hb c rfl]
        rfl
    rw [if_pos hall, hnone, List.append_nil, hself]
  · rw [if_neg hall]

theorem placeholders_append {a b : List Char} (hb : NoDigitFirst b) :
    placeholders (a ++ b) = placeholders a ++ placeholders b := by
  induction a with
  | nil => rfl
  | cons c cs ih =>
    simp only [List.cons_append, placeholders, takeWhile_append hb, ih]
    split_ifs
    · rfl
    · rfl

theorem placeholders_free {cs : List Char} (h : '$' ∉ cs) : placeholders cs = [] := by
  induction cs with
  | nil => rfl
  | cons c cs ih =>
    rw [List.mem_cons, not_or] at h
    simp only [placeholders, Ne.symm h.1, false_and, if_false, ih h.2]

theorem placeholders_param (n : ℕ) : placeholders ('$' :: Nat.toDigits 10 n) = [n] := by
  have hdigit : ∀ c ∈ Nat.toDigits 10 n, c.isDigit = true := fun c hc =>
    Nat.isDigit_of_mem_toDigits (by decide) (by decide) hc
  have hall := List.takeWhile_eq_self_iff.mpr hdigit
  have hfree : '$' ∉ Nat.toDigits 10 n := fun hmem => absurd (hdigit _ hmem) (by decide)
  simp only [placeholders, hall, placeholders_free hfree, Nat.ofDigitChars_ten_toDigits]
  exact if_pos ⟨trivial, Nat.toDigits_ne_nil⟩

/-- A text with these parameters, that can be put after any other. -/
structure Reads (s : String) (ns : List ℕ) : Prop where
  noDigitFirst : NoDigitFirst s.toList
  placeholders_eq : placeholders s.toList = ns

namespace Reads

/-- A text without parameters. -/
theorem free {s : String} (h : '$' ∉ s.toList ∧ NoDigitFirst s.toList) : Reads s [] :=
  ⟨h.2, placeholders_free h.1⟩

theorem append {s t : String} {ms ns : List ℕ} (hs : Reads s ms) (ht : Reads t ns) :
    Reads (s ++ t) (ms ++ ns) := by
  constructor
  · rw [String.toList_append]
    cases h : s.toList with
    | nil => exact ht.noDigitFirst
    | cons c cs =>
      have hfirst := hs.noDigitFirst
      rwa [h] at hfirst
  · rw [String.toList_append, placeholders_append ht.noDigitFirst, hs.placeholders_eq,
      ht.placeholders_eq]

theorem before {s t : String} {ns : List ℕ} (ht : Reads t []) (hs : Reads s ns) :
    Reads (t ++ s) ns := ht.append hs

theorem after {s t : String} {ns : List ℕ} (hs : Reads s ns) (ht : Reads t []) :
    Reads (s ++ t) ns := by
  have h := hs.append ht
  rwa [List.append_nil] at h

theorem param (n : ℕ) : Reads ("$" ++ toString n) [n] := by
  have hlist : ("$" ++ toString n).toList = '$' :: Nat.toDigits 10 n := by
    rw [String.toList_append]
    exact congrArg ('$' :: ·) Nat.toList_repr
  constructor
  · rw [hlist]
    exact fun c hc => by cases hc; rfl
  · rw [hlist, placeholders_param]

end Reads

/-! ### Expressions -/

/-- The parameters of an expression, in the order of its text. -/
def Expr.params {α : Type} : Expr α → List ℕ
  | lit _ | atom _ => []
  | param i _ => [i]
  | paren e | isNotNull e => e.params
  | cmp _ a b | isDistinctFrom a b | eqAny a b | neAll a b | like a b | regex a b | and a b | or a b =>
    a.params ++ b.params

section

variable {α : Type}

theorem Expr.params_joinAnd (e : Expr α) (es : List (Expr α)) :
    (Expr.joinAnd e es).params = (e :: es).flatMap Expr.params := by
  induction es generalizing e with
  | nil => simp [joinAnd]
  | cons f r ih => simp only [joinAnd, params, ih, List.flatMap_cons]

theorem Expr.params_joinOr (e : Expr α) (es : List (Expr α)) :
    (Expr.joinOr e es).params = (e :: es).flatMap Expr.params := by
  induction es generalizing e with
  | nil => simp [joinOr]
  | cons f r ih => simp only [joinOr, params, ih, List.flatMap_cons]

theorem CmpOp.reads_render (op : CmpOp) : Reads op.render [] := by
  cases op <;> exact Reads.free (by decide)

theorem Cast.reads_render (cast : Cast) : Reads cast.render [] := by
  cases cast <;> exact Reads.free (by decide)

/-- The parameters of the text are those of the expression. -/
theorem Expr.reads_render {name : α → String} (hname : ∀ a, Reads (name a) []) (e : Expr α) :
    Reads (e.render name) e.params := by
  have hopen : Reads "(" [] := Reads.free (by decide)
  have hclose : Reads ")" [] := Reads.free (by decide)
  have hspace : Reads " " [] := Reads.free (by decide)
  induction e with
  | lit b =>
    cases b
    · exact Reads.free (s := "FALSE") (by decide)
    · exact Reads.free (s := "TRUE") (by decide)
  | atom a => exact hname a
  | param i cast => exact (Reads.param i).after cast.reads_render
  | paren e ih => exact (hopen.before ih).after hclose
  | cmp op a b iha ihb =>
    exact (((iha.after hspace).after op.reads_render).after hspace).append ihb
  | isNotNull a ih => exact ih.after (Reads.free (by decide))
  | isDistinctFrom a b iha ihb => exact (iha.after (Reads.free (by decide))).append ihb
  | eqAny a b iha ihb =>
    exact ((iha.after (Reads.free (by decide))).append ihb).after hclose
  | neAll a b iha ihb =>
    exact ((iha.after (Reads.free (by decide))).append ihb).after hclose
  | like a b iha ihb => exact (iha.after (Reads.free (by decide))).append ihb
  | regex a b iha ihb => exact (iha.after (Reads.free (by decide))).append ihb
  | and a b iha ihb => exact (iha.after (Reads.free (by decide))).append ihb
  | or a b iha ihb => exact (iha.after (Reads.free (by decide))).append ihb

end

end Sql
