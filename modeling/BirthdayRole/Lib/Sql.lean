/-
# SQL conditions, their text and what they may evaluate to

A condition over some atoms (columns and expressions of a row) and numbered
parameters. `Expr.render` is its text. `Expr.outcomes` lists everything its
evaluation on one row can end with: SQL does not fix the order in which the
operands of `AND` and `OR` are evaluated, nor whether the second one is
evaluated at all once the first decides, and an operand may raise. A value is
SQL's, with null; comparisons with null are null, and the connectives are
three-valued.

Two things are proved of outcomes, each compositional over the connectives.
`Decides e P`: whatever order is taken, an evaluation that returns a value
returns true exactly when `P`. `Total e`: every evaluation returns a truth
value. An operand that can raise makes the whole raise in some order
(`CanRaise.and_left` and its companions).

Key definitions: `Expr`, `Expr.outcomes`, `Yields`, `Decides`, `CanRaise`,
`Total`.
-/
import Mathlib.Algebra.Ring.Int.Defs
import Mathlib.Data.List.Basic
import Mathlib.Data.Int.Notation
import BirthdayRole.Lib.Like

namespace Sql

/-- What an evaluation raises. -/
inductive Error where
  | integerOutOfRange
  | dateOutOfRange
  | invalidEscape
  | invalidRegex
  | invalidByteSequence
  | negativeLimit
  | undefinedParameter
  | datatypeMismatch
  deriving DecidableEq

inductive Val where
  | null
  | bool (b : Bool)
  | int (n : ℤ)
  | text (s : String)
  | ints (ns : List ℤ)
  | texts (ss : List String)
  deriving DecidableEq

namespace Val

def ofInt? : Option ℤ → Val
  | .none => null
  | .some n => int n

def ofText? : Option String → Val
  | .none => null
  | .some s => text s

/-- A text with the character that PostgreSQL texts cannot have. -/
def hasNul : Val → Bool
  | text s => s.toList.contains '\x00'
  | texts ss => ss.any fun s => s.toList.contains '\x00'
  | _ => false

end Val

abbrev Outcome := Except Error Val

inductive CmpOp where
  | eq | ne | gt | ge | lt | le
  deriving DecidableEq

def CmpOp.render : CmpOp → String
  | eq => "="
  | ne => "<>"
  | gt => ">"
  | ge => ">="
  | lt => "<"
  | le => "<="

def CmpOp.ints : CmpOp → ℤ → ℤ → Bool
  | eq, a, b => a == b
  | ne, a, b => a != b
  | gt, a, b => decide (a > b)
  | ge, a, b => decide (a ≥ b)
  | lt, a, b => decide (a < b)
  | le, a, b => decide (a ≤ b)

/-- What a parameter is cast to where it stands. -/
inductive Cast where
  | none | ints4 | texts
  deriving DecidableEq

def Cast.render : Cast → String
  | none => ""
  | ints4 => "::int[]"
  | texts => "::text[]"

inductive Expr (α : Type) where
  | lit (b : Bool)
  | atom (a : α)
  | param (i : ℕ) (cast : Cast)
  | paren (e : Expr α)
  | cmp (op : CmpOp) (a b : Expr α)
  | isNotNull (a : Expr α)
  | isDistinctFrom (a b : Expr α)
  | eqAny (a b : Expr α)
  | neAll (a b : Expr α)
  | like (a b : Expr α)
  | regex (a b : Expr α)
  | and (a b : Expr α)
  | or (a b : Expr α)

/-- The text of a condition, from the text of its atoms. -/
def Expr.render {α : Type} (name : α → String) : Expr α → String
  | lit b => if b then "TRUE" else "FALSE"
  | atom a => name a
  | param i cast => "$" ++ toString i ++ cast.render
  | paren e => "(" ++ e.render name ++ ")"
  | cmp op a b => a.render name ++ " " ++ op.render ++ " " ++ b.render name
  | isNotNull a => a.render name ++ " IS NOT NULL"
  | isDistinctFrom a b => a.render name ++ " IS DISTINCT FROM " ++ b.render name
  | eqAny a b => a.render name ++ " = ANY(" ++ b.render name ++ ")"
  | neAll a b => a.render name ++ " <> ALL(" ++ b.render name ++ ")"
  | like a b => a.render name ++ " LIKE " ++ b.render name
  | regex a b => a.render name ++ " ~ " ++ b.render name
  | and a b => a.render name ++ " AND " ++ b.render name
  | or a b => a.render name ++ " OR " ++ b.render name

/-- A condition for each of a list, joined. -/
def Expr.joinAnd {α : Type} (e : Expr α) : List (Expr α) → Expr α
  | [] => e
  | f :: r => .and e (joinAnd f r)

def Expr.joinOr {α : Type} (e : Expr α) : List (Expr α) → Expr α
  | [] => e
  | f :: r => .or e (joinOr f r)

/-! ### Values -/

/-- What a statement is run with: the value of each atom on the row, the
parameters, and the regular expression engine. -/
structure Env (α : Type) where
  atom : α → Outcome
  param : ℕ → Option Val
  regex : String → String → Except Error Bool

/-- The cast of a parameter; `int[]` holds 32-bit integers. -/
def Cast.apply : Cast → Val → Outcome
  | none, v => .ok v
  | ints4, .ints ns =>
    if ∀ n ∈ ns, -2 ^ 31 ≤ n ∧ n < 2 ^ 31 then .ok (.ints ns) else .error .integerOutOfRange
  | texts, .texts ss => .ok (.texts ss)
  | _, _ => .error .datatypeMismatch

def cmpVal (op : CmpOp) : Val → Val → Outcome
  | .null, _ => .ok .null
  | _, .null => .ok .null
  | .int a, .int b => .ok (.bool (op.ints a b))
  | .bool a, .bool b => if op = .eq then .ok (.bool (a == b)) else .error .datatypeMismatch
  | .text a, .text b => if op = .eq then .ok (.bool (a == b)) else .error .datatypeMismatch
  | _, _ => .error .datatypeMismatch

def eqAnyVal : Val → Val → Outcome
  | .null, .ints ns => .ok (if ns = [] then .bool false else .null)
  | .null, .texts ss => .ok (if ss = [] then .bool false else .null)
  | .int a, .ints ns => .ok (.bool (ns.contains a))
  | .text a, .texts ss => .ok (.bool (ss.contains a))
  | _, _ => .error .datatypeMismatch

def neAllVal : Val → Val → Outcome
  | .null, .ints ns => .ok (if ns = [] then .bool true else .null)
  | .null, .texts ss => .ok (if ss = [] then .bool true else .null)
  | .int a, .ints ns => .ok (.bool (!ns.contains a))
  | .text a, .texts ss => .ok (.bool (!ss.contains a))
  | _, _ => .error .datatypeMismatch

def likeVal : Val → Val → Outcome
  | .null, _ => .ok .null
  | _, .null => .ok .null
  | .text a, .text p =>
    match Like.isMatch p.toList a.toList with
    | some b => .ok (.bool b)
    | none => .error .invalidEscape
  | _, _ => .error .datatypeMismatch

def regexVal (engine : String → String → Except Error Bool) : Val → Val → Outcome
  | .null, _ => .ok .null
  | _, .null => .ok .null
  | .text a, .text p => (engine p a).map .bool
  | _, _ => .error .datatypeMismatch

def and3 : Val → Val → Outcome
  | .bool a, .bool b => .ok (.bool (a && b))
  | .bool false, .null | .null, .bool false => .ok (.bool false)
  | .bool true, .null | .null, .bool true | .null, .null => .ok .null
  | _, _ => .error .datatypeMismatch

def or3 : Val → Val → Outcome
  | .bool a, .bool b => .ok (.bool (a || b))
  | .bool true, .null | .null, .bool true => .ok (.bool true)
  | .bool false, .null | .null, .bool false | .null, .null => .ok .null
  | _, _ => .error .datatypeMismatch

/-! ### Outcomes -/

/-- The operand that is evaluated first decides, or the other one is evaluated too. -/
def andThen (x y : Outcome) : Outcome :=
  match x with
  | .error e => .error e
  | .ok (.bool false) => .ok (.bool false)
  | .ok v => y.bind (and3 v)

def orThen (x y : Outcome) : Outcome :=
  match x with
  | .error e => .error e
  | .ok (.bool true) => .ok (.bool true)
  | .ok v => y.bind (or3 v)

/-- Every pair of outcomes of two operands. -/
def pairs (xs ys : List Outcome) (f : Outcome → Outcome → List Outcome) : List Outcome :=
  xs.flatMap fun x => ys.flatMap fun y => f x y

/-- An operator that needs the values of both operands. -/
def strict (f : Val → Val → Outcome) (x y : Outcome) : Outcome := x.bind fun v => y.bind (f v)

variable {α : Type} (env : Env α)

def Expr.outcomes : Expr α → List Outcome
  | lit b => [.ok (.bool b)]
  | atom a => [env.atom a]
  | param i cast =>
    [match env.param i with
      | some v => cast.apply v
      | none => .error .undefinedParameter]
  | paren e => outcomes e
  | cmp op a b => pairs (outcomes a) (outcomes b) fun x y => [strict (cmpVal op) x y]
  | isNotNull a => (outcomes a).map fun x => x.map fun v => .bool (v != .null)
  | isDistinctFrom a b =>
    pairs (outcomes a) (outcomes b) fun x y => [strict (fun v w => .ok (.bool (v != w))) x y]
  | eqAny a b => pairs (outcomes a) (outcomes b) fun x y => [strict eqAnyVal x y]
  | neAll a b => pairs (outcomes a) (outcomes b) fun x y => [strict neAllVal x y]
  | like a b => pairs (outcomes a) (outcomes b) fun x y => [strict likeVal x y]
  | regex a b => pairs (outcomes a) (outcomes b) fun x y => [strict (regexVal env.regex) x y]
  | and a b => pairs (outcomes a) (outcomes b) fun x y => [andThen x y, andThen y x]
  | or a b => pairs (outcomes a) (outcomes b) fun x y => [orThen x y, orThen y x]

variable {env}

theorem mem_pairs {xs ys : List Outcome} {f : Outcome → Outcome → List Outcome} {o : Outcome} :
    o ∈ pairs xs ys f ↔ ∃ x ∈ xs, ∃ y ∈ ys, o ∈ f x y := by
  simp only [pairs, List.mem_flatMap]

theorem pairs_ne_nil {xs ys : List Outcome} {f : Outcome → Outcome → List Outcome}
    (hx : xs ≠ []) (hy : ys ≠ []) (hf : ∀ x y, f x y ≠ []) : pairs xs ys f ≠ [] := by
  obtain ⟨x, hx⟩ := List.exists_mem_of_ne_nil _ hx
  obtain ⟨y, hy⟩ := List.exists_mem_of_ne_nil _ hy
  obtain ⟨o, ho⟩ := List.exists_mem_of_ne_nil _ (hf x y)
  exact List.ne_nil_of_mem (mem_pairs.mpr ⟨x, hx, y, hy, ho⟩)

/-- An evaluation ends in something. -/
theorem Expr.outcomes_ne_nil (env : Env α) (e : Expr α) : e.outcomes env ≠ [] := by
  induction e with
  | lit | atom | param => simp [outcomes]
  | paren e ih => exact ih
  | isNotNull a ih => simpa [outcomes] using ih
  | cmp _ a b iha ihb | isDistinctFrom a b iha ihb | eqAny a b iha ihb | neAll a b iha ihb
  | like a b iha ihb | regex a b iha ihb | and a b iha ihb | or a b iha ihb =>
    exact pairs_ne_nil iha ihb fun _ _ => by simp

/-! ### Values of operands -/

variable (env) in
/-- An evaluation of `e` that returns a value returns `v`. -/
def Yields (e : Expr α) (v : Val) : Prop := ∀ w, .ok w ∈ e.outcomes env → w = v

namespace Yields

theorem paren {e : Expr α} {v : Val} (h : Yields env e v) : Yields env (.paren e) v := h

theorem atom {a : α} {v : Val} (h : ∀ w, env.atom a = .ok w → w = v) : Yields env (.atom a) v :=
  fun w hw => h w (List.mem_singleton.mp hw).symm

theorem param {i : ℕ} {v : Val} (h : env.param i = some v) : Yields env (.param i .none) v := by
  intro w hw
  rw [Expr.outcomes, h, List.mem_singleton] at hw
  cases hw
  rfl

theorem ints {i : ℕ} {ns : List ℤ} (h : env.param i = some (.ints ns)) :
    Yields env (.param i .ints4) (.ints ns) := by
  intro w hw
  rw [Expr.outcomes, h, List.mem_singleton] at hw
  simp only [Cast.apply] at hw
  split at hw
  · cases hw; rfl
  · cases hw

theorem texts {i : ℕ} {ss : List String} (h : env.param i = some (.texts ss)) :
    Yields env (.param i .texts) (.texts ss) := by
  intro w hw
  rw [Expr.outcomes, h, List.mem_singleton] at hw
  cases hw
  rfl

theorem isNotNull {e : Expr α} {v : Val} (h : Yields env e v) :
    Yields env (.isNotNull e) (.bool (v != .null)) := by
  intro w hw
  obtain ⟨x, hx, hxw⟩ := List.mem_map.mp hw
  cases x with
  | error err => cases hxw
  | ok u =>
    rw [← h u hx]
    cases hxw
    rfl

/-- A strict operator on operands of known value; `he` is by definition. -/
theorem strict {e a b : Expr α} {f : Val → Val → Outcome} {v w r : Val}
    (he : e.outcomes env = pairs (a.outcomes env) (b.outcomes env) fun x y => [strict f x y])
    (ha : Yields env a v) (hb : Yields env b w) (hf : f v w = .ok r) : Yields env e r := by
  intro u hu
  rw [he] at hu
  obtain ⟨x, hx, y, hy, hu⟩ := mem_pairs.mp hu
  rw [List.mem_singleton] at hu
  cases x with
  | error err => cases hu
  | ok v' =>
    cases y with
    | error err => cases hu
    | ok w' =>
      have hu : .ok u = f v' w' := hu
      rw [ha v' hx, hb w' hy, hf] at hu
      cases hu
      rfl

end Yields

/-! ### Truth -/

/-- A truth value: true, false or null. -/
def Val.IsTruth (v : Val) : Prop := v = .null ∨ ∃ b, v = .bool b

variable (env) in
/-- An evaluation of `e` that returns a value returns a truth value, and true
exactly when `P`. -/
def Decides (e : Expr α) (P : Prop) : Prop :=
  ∀ v, .ok v ∈ e.outcomes env → v.IsTruth ∧ (v = .bool true ↔ P)

theorem andThen_decides {x y : Outcome} {v : Val} {P Q : Prop}
    (hx : ∀ w, x = .ok w → w.IsTruth ∧ (w = .bool true ↔ P))
    (hy : ∀ w, y = .ok w → w.IsTruth ∧ (w = .bool true ↔ Q))
    (h : andThen x y = .ok v) : v.IsTruth ∧ (v = .bool true ↔ P ∧ Q) := by
  cases x with
  | error e => cases h
  | ok a =>
    obtain ⟨ha, hP⟩ := hx a rfl
    by_cases haf : a = .bool false
    · subst haf
      cases h
      exact ⟨Or.inr ⟨false, rfl⟩, by rw [← hP]; simp⟩
    · have h' : y.bind (and3 a) = .ok v := by
        unfold andThen at h
        split at h
        · cases ‹_ = _›
        · rename_i heq; cases heq; exact absurd rfl haf
        · rename_i heq; cases heq; exact h
      cases y with
      | error e => cases h'
      | ok b =>
        obtain ⟨hb, hQ⟩ := hy b rfl
        rw [← hP, ← hQ]
        rcases ha with rfl | ⟨_ | _, rfl⟩ <;> rcases hb with rfl | ⟨_ | _, rfl⟩ <;>
          cases h' <;> simp [Val.IsTruth]

theorem orThen_decides {x y : Outcome} {v : Val} {P Q : Prop}
    (hx : ∀ w, x = .ok w → w.IsTruth ∧ (w = .bool true ↔ P))
    (hy : ∀ w, y = .ok w → w.IsTruth ∧ (w = .bool true ↔ Q))
    (h : orThen x y = .ok v) : v.IsTruth ∧ (v = .bool true ↔ P ∨ Q) := by
  cases x with
  | error e => cases h
  | ok a =>
    obtain ⟨ha, hP⟩ := hx a rfl
    by_cases hat : a = .bool true
    · subst hat
      cases h
      exact ⟨Or.inr ⟨true, rfl⟩, by rw [← hP]; simp⟩
    · have h' : y.bind (or3 a) = .ok v := by
        unfold orThen at h
        split at h
        · cases ‹_ = _›
        · rename_i heq; cases heq; exact absurd rfl hat
        · rename_i heq; cases heq; exact h
      cases y with
      | error e => cases h'
      | ok b =>
        obtain ⟨hb, hQ⟩ := hy b rfl
        rw [← hP, ← hQ]
        rcases ha with rfl | ⟨_ | _, rfl⟩ <;> rcases hb with rfl | ⟨_ | _, rfl⟩ <;>
          cases h' <;> simp [Val.IsTruth]

namespace Decides

theorem congr {e : Expr α} {P Q : Prop} (h : Decides env e P) (hPQ : P ↔ Q) : Decides env e Q :=
  fun v hv => ⟨(h v hv).1, (h v hv).2.trans hPQ⟩

theorem lit (b : Bool) : Decides env (.lit b) (b = true) := by
  intro v hv
  simp only [Expr.outcomes, List.mem_singleton, Except.ok.injEq] at hv
  subst hv
  exact ⟨Or.inr ⟨b, rfl⟩, by simp⟩

theorem paren {e : Expr α} {P : Prop} (h : Decides env e P) : Decides env (.paren e) P := h

/-- A condition of known value. -/
theorem of_yields {e : Expr α} {v : Val} (h : Yields env e v) (hv : v.IsTruth) :
    Decides env e (v = .bool true) := by
  intro w hw
  rw [h w hw]
  exact ⟨hv, Iff.rfl⟩

/-- A condition on something that may be missing, and unknown without it. -/
theorem of_option {β : Type} {e : Expr α} {x : Option β} {b : β → Bool}
    (hnone : x = none → Yields env e .null) (hsome : ∀ y, x = some y → Yields env e (.bool (b y))) :
    Decides env e (∃ y, x = some y ∧ b y = true) := by
  cases x with
  | none => exact (of_yields (hnone rfl) (Or.inl rfl)).congr (by simp)
  | some y => exact (of_yields (hsome y rfl) (Or.inr ⟨_, rfl⟩)).congr (by simp)

theorem and {a b : Expr α} {P Q : Prop} (ha : Decides env a P) (hb : Decides env b Q) :
    Decides env (.and a b) (P ∧ Q) := by
  intro v hv
  obtain ⟨x, hx, y, hy, ho⟩ := mem_pairs.mp hv
  have hx' : ∀ w, x = .ok w → w.IsTruth ∧ (w = .bool true ↔ P) := fun w h => ha w (h ▸ hx)
  have hy' : ∀ w, y = .ok w → w.IsTruth ∧ (w = .bool true ↔ Q) := fun w h => hb w (h ▸ hy)
  rcases List.mem_pair.mp ho with ho | ho
  · exact andThen_decides hx' hy' ho.symm
  · exact (andThen_decides hy' hx' ho.symm).imp_right fun h => h.trans and_comm

theorem or {a b : Expr α} {P Q : Prop} (ha : Decides env a P) (hb : Decides env b Q) :
    Decides env (.or a b) (P ∨ Q) := by
  intro v hv
  obtain ⟨x, hx, y, hy, ho⟩ := mem_pairs.mp hv
  have hx' : ∀ w, x = .ok w → w.IsTruth ∧ (w = .bool true ↔ P) := fun w h => ha w (h ▸ hx)
  have hy' : ∀ w, y = .ok w → w.IsTruth ∧ (w = .bool true ↔ Q) := fun w h => hb w (h ▸ hy)
  rcases List.mem_pair.mp ho with ho | ho
  · exact orThen_decides hx' hy' ho.symm
  · exact (orThen_decides hy' hx' ho.symm).imp_right fun h => h.trans or_comm

/-- A joined list decides that all of its conditions hold. -/
theorem joinAnd {β : Type} {P : β → Prop} : ∀ {e : Expr α} {es : List (Expr α)} {x : β}
    {xs : List β}, List.Forall₂ (fun e x => Decides env e (P x)) (e :: es) (x :: xs) →
    Decides env (.joinAnd e es) (∀ y ∈ x :: xs, P y)
  | _, [], _, _, .cons h .nil => h.congr (by simp)
  | _, _ :: _, _, _, .cons h (.cons h' hs) =>
    (h.and (joinAnd (.cons h' hs))).congr (by simp)

theorem joinOr {β : Type} {P : β → Prop} : ∀ {e : Expr α} {es : List (Expr α)} {x : β}
    {xs : List β}, List.Forall₂ (fun e x => Decides env e (P x)) (e :: es) (x :: xs) →
    Decides env (.joinOr e es) (∃ y ∈ x :: xs, P y)
  | _, [], _, _, .cons h .nil => h.congr (by simp)
  | _, _ :: _, _, _, .cons h (.cons h' hs) =>
    (h.or (joinOr (.cons h' hs))).congr (by simp)

end Decides

/-! ### Raising -/

variable (env) in
/-- Some evaluation of `e` raises. -/
def CanRaise (e : Expr α) : Prop := ∃ err, .error err ∈ e.outcomes env

namespace CanRaise

/-- A strict operator raises with its second operand. -/
theorem strict_right {e a b : Expr α} {f : Val → Val → Outcome}
    (he : e.outcomes env = pairs (a.outcomes env) (b.outcomes env) fun x y => [strict f x y])
    (h : CanRaise env b) : CanRaise env e := by
  obtain ⟨err, h⟩ := h
  obtain ⟨x, hx⟩ := List.exists_mem_of_ne_nil _ (Expr.outcomes_ne_nil env a)
  unfold CanRaise
  rw [he]
  cases x with
  | error err' => exact ⟨err', mem_pairs.mpr ⟨_, hx, _, h, List.mem_singleton_self _⟩⟩
  | ok v => exact ⟨err, mem_pairs.mpr ⟨_, hx, _, h, List.mem_singleton_self _⟩⟩

theorem and_left {a : Expr α} (b : Expr α) (h : CanRaise env a) : CanRaise env (.and a b) := by
  obtain ⟨err, h⟩ := h
  obtain ⟨y, hy⟩ := List.exists_mem_of_ne_nil _ (Expr.outcomes_ne_nil env b)
  exact ⟨err, mem_pairs.mpr ⟨_, h, y, hy, by simp [andThen]⟩⟩

theorem and_right (a : Expr α) {b : Expr α} (h : CanRaise env b) : CanRaise env (.and a b) := by
  obtain ⟨err, h⟩ := h
  obtain ⟨x, hx⟩ := List.exists_mem_of_ne_nil _ (Expr.outcomes_ne_nil env a)
  exact ⟨err, mem_pairs.mpr ⟨x, hx, _, h, by simp [andThen]⟩⟩

theorem or_left {a : Expr α} (b : Expr α) (h : CanRaise env a) : CanRaise env (.or a b) := by
  obtain ⟨err, h⟩ := h
  obtain ⟨y, hy⟩ := List.exists_mem_of_ne_nil _ (Expr.outcomes_ne_nil env b)
  exact ⟨err, mem_pairs.mpr ⟨_, h, y, hy, by simp [orThen]⟩⟩

theorem or_right (a : Expr α) {b : Expr α} (h : CanRaise env b) : CanRaise env (.or a b) := by
  obtain ⟨err, h⟩ := h
  obtain ⟨x, hx⟩ := List.exists_mem_of_ne_nil _ (Expr.outcomes_ne_nil env a)
  exact ⟨err, mem_pairs.mpr ⟨x, hx, _, h, by simp [orThen]⟩⟩

theorem joinAnd : ∀ {e f : Expr α} {es : List (Expr α)}, f ∈ e :: es → CanRaise env f →
    CanRaise env (.joinAnd e es)
  | e, f, [], hf, h => by rwa [List.mem_singleton.mp hf] at h
  | e, f, g :: es, hf, h => by
    rcases List.mem_cons.mp hf with rfl | hf
    · exact h.and_left _
    · exact (joinAnd hf h).and_right e

theorem joinOr : ∀ {e f : Expr α} {es : List (Expr α)}, f ∈ e :: es → CanRaise env f →
    CanRaise env (.joinOr e es)
  | e, f, [], hf, h => by rwa [List.mem_singleton.mp hf] at h
  | e, f, g :: es, hf, h => by
    rcases List.mem_cons.mp hf with rfl | hf
    · exact h.or_left _
    · exact (joinOr hf h).or_right e

end CanRaise

variable (env) in
/-- Every evaluation of `e` returns `v`. -/
def Returns (e : Expr α) (v : Val) : Prop := ∀ o ∈ e.outcomes env, o = .ok v

namespace Returns

theorem paren {e : Expr α} {v : Val} (h : Returns env e v) : Returns env (.paren e) v := h

theorem atom {a : α} {v : Val} (h : env.atom a = .ok v) : Returns env (.atom a) v := by
  intro o ho
  rw [List.mem_singleton.mp ho, h]

/-- A parameter whose cast succeeds. -/
theorem param {i : ℕ} {cast : Cast} {v w : Val} (h : env.param i = some v)
    (hc : cast.apply v = .ok w) : Returns env (.param i cast) w := by
  intro o ho
  rw [Expr.outcomes, h, List.mem_singleton] at ho
  rw [ho]
  exact hc

theorem isNotNull {e : Expr α} {v : Val} (h : Returns env e v) :
    Returns env (.isNotNull e) (.bool (v != .null)) := by
  intro o ho
  obtain ⟨x, hx, rfl⟩ := List.mem_map.mp ho
  rw [h x hx]
  rfl

end Returns

variable (env) in
/-- Every evaluation of `e` returns a truth value. -/
def Total (e : Expr α) : Prop := ∀ o ∈ e.outcomes env, ∃ v : Val, o = .ok v ∧ v.IsTruth

namespace Total

theorem not_canRaise {e : Expr α} (h : Total env e) : ¬CanRaise env e := by
  rintro ⟨err, he⟩
  obtain ⟨v, hv, -⟩ := h _ he
  cases hv

theorem lit (b : Bool) : Total env (.lit b) := by
  intro o ho
  exact ⟨.bool b, List.mem_singleton.mp ho, Or.inr ⟨b, rfl⟩⟩

theorem paren {e : Expr α} (h : Total env e) : Total env (.paren e) := h

theorem of_returns {e : Expr α} {v : Val} (h : Returns env e v) (hv : v.IsTruth) : Total env e :=
  fun o ho => ⟨v, h o ho, hv⟩

/-- A strict operator on operands of known value; `he` is by definition. -/
theorem strict {e a b : Expr α} {f : Val → Val → Outcome} {v w : Val}
    (he : e.outcomes env = pairs (a.outcomes env) (b.outcomes env) fun x y => [strict f x y])
    (ha : Returns env a v) (hb : Returns env b w) (hf : ∃ r : Val, f v w = .ok r ∧ r.IsTruth) :
    Total env e := by
  intro o ho
  rw [he] at ho
  obtain ⟨x, hx, y, hy, ho⟩ := mem_pairs.mp ho
  rw [List.mem_singleton, ha x hx, hb y hy] at ho
  obtain ⟨r, hr, ht⟩ := hf
  exact ⟨r, by rw [ho]; exact hr, ht⟩

theorem and {a b : Expr α} (ha : Total env a) (hb : Total env b) : Total env (.and a b) := by
  intro o ho
  obtain ⟨x, hx, y, hy, ho⟩ := mem_pairs.mp ho
  obtain ⟨v, rfl, hv⟩ := ha x hx
  obtain ⟨w, rfl, hw⟩ := hb y hy
  rcases hv with rfl | ⟨_ | _, rfl⟩ <;> rcases hw with rfl | ⟨_ | _, rfl⟩ <;>
    rcases List.mem_pair.mp ho with rfl | rfl <;>
    first
      | exact ⟨.null, rfl, Or.inl rfl⟩
      | exact ⟨.bool _, rfl, Or.inr ⟨_, rfl⟩⟩

theorem or {a b : Expr α} (ha : Total env a) (hb : Total env b) : Total env (.or a b) := by
  intro o ho
  obtain ⟨x, hx, y, hy, ho⟩ := mem_pairs.mp ho
  obtain ⟨v, rfl, hv⟩ := ha x hx
  obtain ⟨w, rfl, hw⟩ := hb y hy
  rcases hv with rfl | ⟨_ | _, rfl⟩ <;> rcases hw with rfl | ⟨_ | _, rfl⟩ <;>
    rcases List.mem_pair.mp ho with rfl | rfl <;>
    first
      | exact ⟨.null, rfl, Or.inl rfl⟩
      | exact ⟨.bool _, rfl, Or.inr ⟨_, rfl⟩⟩

theorem joinAnd : ∀ {e : Expr α} {es : List (Expr α)}, (∀ f ∈ e :: es, Total env f) →
    Total env (.joinAnd e es)
  | e, [], h => h e List.mem_cons_self
  | e, _ :: _, h =>
    (h e List.mem_cons_self).and (joinAnd fun f hf => h f (List.mem_cons_of_mem e hf))

theorem joinOr : ∀ {e : Expr α} {es : List (Expr α)}, (∀ f ∈ e :: es, Total env f) →
    Total env (.joinOr e es)
  | e, [], h => h e List.mem_cons_self
  | e, _ :: _, h =>
    (h e List.mem_cons_self).or (joinOr fun f hf => h f (List.mem_cons_of_mem e hf))

end Total

end Sql
