/-
# Literals of a page that is filled by replacement

A template is a text in which some placeholders stand alone between two quotes of its script.
Its placeholders are replaced one after the other, in the whole text. A value is inert
there if the literal is read as the value, ends at the template's own quote, and holds no end
of the script (`Inert`). For values that no later replacement touches this is so if and only
if each character is plain and the value itself holds no end of the script (`inert_iff`).
-/
import BirthdayRole.Lib.JsString

namespace Template

open JsString

inductive Piece where
  | text (s : String)
  | literal (quote : Char) (placeholder : String)

def Piece.render : Piece → List Char
  | .text s => s.toList
  | .literal quote placeholder => quote :: (placeholder.toList ++ [quote])

def render (t : List Piece) : List Char := t.flatMap Piece.render

/-- The placeholders and their values, as characters. -/
def chars (steps : List (String × String)) : List (List Char × List Char) :=
  steps.map fun step => (step.1.toList, step.2.toList)

/-- `str::replace` of each placeholder by its value. -/
def fill (steps : List (String × String)) (s : List Char) : List Char := Replace.fill (chars steps) s

/-- The page that is served. -/
def page (steps : List (String × String)) (t : List Piece) : List Char := fill steps (render t)

/-- Wherever the placeholder is a literal, a body that is served has there a literal that
denotes the value and ends at the template's closing quote, and nothing of it ends the script. -/
def Inert (body : List Char) (steps : List (String × String)) (t : List Piece)
    (placeholder value : String) : Prop :=
  ∀ before quote after, t = before ++ .literal quote placeholder :: after →
    ∃ served, body =
        fill steps (render before) ++ quote :: (served ++ quote :: fill steps (render after)) ∧
      literal quote (served ++ quote :: fill steps (render after)) =
        some (units value.toList, fill steps (render after)) ∧
      ¬EndsScript served

/-- A later replacement finds its placeholder in the value. -/
def Touched (later : List (String × String)) (value : String) : Prop :=
  Replace.touched (chars later) value.toList = true

/-- No placeholder is replaced inside the value of another. -/
def Separate : List (String × String) → Prop
  | [] => True
  | (_, value) :: later => ¬Touched later value ∧ Separate later

/-- A value that a literal can hold as it is while other placeholders are still to come. -/
def Embeddable (quote : Char) (later : List String) (value : String) : Prop :=
  (∀ c ∈ value.toList, Plain quote c) ∧ ¬EndsScript value.toList ∧
    ∀ placeholder ∈ later, ¬placeholder.toList <:+: value.toList

instance (quote : Char) (later : List String) (value : String) :
    Decidable (Embeddable quote later value) :=
  have : Decidable (∀ c ∈ value.toList, Plain quote c) := List.decidableBAll _ _
  inferInstanceAs (Decidable (_ ∧ _))

/-- Each placeholder is a literal of the template, with its own kind of quote; no placeholder
has a quote in it, and none lies in one that is replaced after it. -/
structure Fits (t : List Piece) (quote : String → Char) (placeholders : List String) : Prop where
  literal_iff : ∀ p ∈ placeholders, ∀ q, .literal q p ∈ t ↔ q = quote p
  nonempty : ∀ p ∈ placeholders, p.toList ≠ []
  noQuote : ∀ p ∈ placeholders, ∀ p' ∈ placeholders, quote p' ∉ p.toList
  apart : placeholders.Pairwise fun p p' => ¬p.toList <:+: p'.toList

variable {t : List Piece} {quote : String → Char} {steps earlier later : List (String × String)}
  {placeholder value : String}

theorem not_touched_iff :
    ¬Touched later value ↔ ∀ p ∈ later.map Prod.fst, ¬p.toList <:+: value.toList := by
  rw [Touched, Bool.not_eq_true, Replace.touched_eq_false_iff, chars, List.forall_mem_map,
    List.forall_mem_map]

theorem render_split (before after : List Piece) (q : Char) :
    render (before ++ .literal q placeholder :: after) =
      render before ++ q :: (placeholder.toList ++ q :: render after) := by
  unfold render
  rw [List.flatMap_append, List.flatMap_cons, Piece.render, List.cons_append, List.append_assoc]
  rfl

/-- The page around a literal. -/
theorem fill_split {before after : List Piece} {q : Char}
    (hfits : Fits (before ++ .literal q placeholder :: after) quote
      ((earlier ++ (placeholder, value) :: later).map Prod.fst)) :
    page (earlier ++ (placeholder, value) :: later) (before ++ .literal q placeholder :: after) =
      fill (earlier ++ (placeholder, value) :: later) (render before) ++
        q :: (fill later value.toList ++
          q :: fill (earlier ++ (placeholder, value) :: later) (render after)) := by
  have hmem : placeholder ∈ (earlier ++ (placeholder, value) :: later).map Prod.fst := by simp
  have hq : q = quote placeholder :=
    (hfits.literal_iff placeholder hmem q).mp (List.mem_append_right _ (List.mem_cons_self ..))
  have hcut : ∀ step ∈ chars (earlier ++ (placeholder, value) :: later),
      step.1 ≠ [] ∧ q ∉ step.1 := by
    intro step hstep
    obtain ⟨s, hs, rfl⟩ := List.mem_map.mp hstep
    have hp := List.mem_map_of_mem (f := Prod.fst) hs
    exact ⟨hfits.nonempty _ hp, hq ▸ hfits.noQuote _ hp _ hmem⟩
  have hfilled : fill (earlier ++ (placeholder, value) :: later) placeholder.toList =
      fill later value.toList := by
    have happart := hfits.apart
    rw [List.map_append, List.map_cons, List.pairwise_append] at happart
    unfold fill
    rw [chars, List.map_append, List.map_cons]
    refine Replace.fill_placeholder (hfits.nonempty _ hmem) fun step hstep => ?_
    obtain ⟨s, hs, rfl⟩ := List.mem_map.mp hstep
    exact happart.2.2 _ (List.mem_map_of_mem hs) _ (List.mem_cons_self ..)
  rw [page, render_split]
  unfold fill at hfilled ⊢
  rw [Replace.fill_append_cons hcut, Replace.fill_append_cons hcut, hfilled]

theorem fill_eq_self (h : ¬Touched later value) : fill later value.toList = value.toList := by
  rw [Touched, Bool.not_eq_true, Replace.touched_eq_false_iff] at h
  exact Replace.fill_eq_self h

variable (earlier later placeholder value) in
/-- **A literal is inert and its value stays untouched** if and only if the value is one that
the literal can hold as it is. -/
theorem inert_iff (hfits : Fits t quote ((earlier ++ (placeholder, value) :: later).map Prod.fst)) :
    (Inert (page (earlier ++ (placeholder, value) :: later) t)
        (earlier ++ (placeholder, value) :: later) t placeholder value ∧ ¬Touched later value) ↔
      Embeddable (quote placeholder) (later.map Prod.fst) value := by
  have hmem : placeholder ∈ (earlier ++ (placeholder, value) :: later).map Prod.fst := by simp
  have hliteral := hfits.literal_iff placeholder hmem
  constructor
  · rintro ⟨hinert, htouched⟩
    obtain ⟨before, after, rfl⟩ := List.append_of_mem ((hliteral _).mpr rfl)
    obtain ⟨served, hpage, hread, hend⟩ := hinert before _ after rfl
    rw [fill_split hfits, fill_eq_self htouched] at hpage
    have hserved : value.toList = served :=
      List.append_cancel_right (List.cons_inj_right _ |>.mp (List.append_cancel_left hpage))
    subst hserved
    exact ⟨literal_eq_iff.mp hread, hend, not_touched_iff.mp htouched⟩
  · rintro ⟨hplain, hend, huntouched⟩
    have htouched := not_touched_iff.mpr huntouched
    refine ⟨?_, htouched⟩
    rintro before q after rfl
    obtain rfl : q = quote placeholder := (hliteral q).mp (by simp)
    refine ⟨value.toList, ?_, literal_eq_iff.mpr hplain, hend⟩
    rw [fill_split hfits, fill_eq_self htouched]

end Template
