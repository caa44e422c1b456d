/-
# SQL `LIKE`

A pattern is read into tokens (`parse`): `%` stands for any characters, `_`
for one, and a backslash makes the next character stand for itself. A pattern
that ends in a lone backslash is none. Escaping a text character by character
and putting it between two `%` asks whether it is a part of the other text
(`isMatch_escaped`).
-/
import Mathlib.Data.List.Infix

namespace Like

inductive Tok where
  | any | one | lit (c : Char)
  deriving DecidableEq

def parse : List Char → Option (List Tok)
  | [] => some []
  | c :: cs =>
    if c = '\\' then
      match cs with
      | [] => none
      | d :: ds => (parse ds).map (.lit d :: ·)
    else (parse cs).map ((if c = '%' then .any else if c = '_' then .one else .lit c) :: ·)

def matchToks : List Tok → List Char → Bool
  | [], s => s.isEmpty
  | .any :: ts, s => s.tails.any (matchToks ts)
  | .one :: _, [] => false
  | .one :: ts, _ :: s => matchToks ts s
  | .lit _ :: _, [] => false
  | .lit c :: ts, d :: s => c == d && matchToks ts s

/-- `text LIKE pattern`; nothing for a pattern that is none. -/
def isMatch (pattern text : List Char) : Option Bool := (parse pattern).map (matchToks · text)

/-- A text as a pattern that only it matches. -/
def escaped (v : List Char) : List Char :=
  v.flatMap fun c => if c = '\\' ∨ c = '%' ∨ c = '_' then ['\\', c] else [c]

theorem parse_escape (d : Char) (ds : List Char) :
    parse ('\\' :: d :: ds) = (parse ds).map (.lit d :: ·) := by simp [parse]

theorem parse_cons {c : Char} (hc : c ≠ '\\') (cs : List Char) : parse (c :: cs) =
    (parse cs).map ((if c = '%' then .any else if c = '_' then .one else .lit c) :: ·) := by
  cases cs <;> simp [parse, hc]

theorem parse_escaped (rest : List Char) : ∀ v : List Char,
    parse (escaped v ++ rest) = (parse rest).map (v.map .lit ++ ·)
  | [] => by simp [escaped]
  | c :: v => by
    have ih := parse_escaped rest v
    unfold escaped at ih ⊢
    rw [List.flatMap_cons, List.append_assoc]
    by_cases hc : c = '\\' ∨ c = '%' ∨ c = '_'
    · rw [if_pos hc, List.cons_append, List.cons_append, List.nil_append, parse_escape, ih]
      simp [Function.comp_def]
    · rw [if_neg hc, List.cons_append, List.nil_append]
      push Not at hc
      rw [parse_cons hc.1, if_neg hc.2.1, if_neg hc.2.2, ih]
      simp [Function.comp_def]

theorem matchToks_any_nil (s : List Char) : matchToks [.any] s = true := by
  simp only [matchToks, List.any_eq_true, List.mem_tails]
  exact ⟨[], List.nil_suffix, rfl⟩

/-- Literals and then anything: the text starts with the literals. -/
theorem matchToks_prefix : ∀ v s : List Char,
    matchToks (v.map .lit ++ [.any]) s = true ↔ v <+: s
  | [], s => by simp [matchToks_any_nil]
  | c :: v, [] => by simp [matchToks]
  | c :: v, d :: s => by
    simp only [List.map_cons, List.cons_append, matchToks, Bool.and_eq_true, beq_iff_eq,
      matchToks_prefix v s, List.cons_prefix_cons]

/-- Literals between two `%`: the literals are a part of the text. -/
theorem matchToks_infix (v s : List Char) :
    matchToks (.any :: (v.map .lit ++ [.any])) s = true ↔ v <:+: s := by
  simp only [matchToks, List.any_eq_true, List.mem_tails, matchToks_prefix]
  rw [List.infix_iff_prefix_suffix]
  exact ⟨fun ⟨t, hs, hp⟩ => ⟨t, hp, hs⟩, fun ⟨t, hp, hs⟩ => ⟨t, hs, hp⟩⟩

theorem isMatch_escaped (v s : List Char) :
    isMatch ('%' :: (escaped v ++ ['%'])) s = some (decide (v <:+: s)) := by
  have h : parse ('%' :: (escaped v ++ ['%'])) = some (.any :: (v.map .lit ++ [.any])) := by
    rw [parse_cons (by decide), parse_escaped]
    simp [parse]
  rw [isMatch, h, Option.map_some, Option.some.injEq, Bool.eq_iff_iff, matchToks_infix,
    decide_eq_true_eq]

end Like
