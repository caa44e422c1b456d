/-
# String literals of a script in a page

The grammar of JavaScript's string literals, outside of strict mode: a backslash begins an
escape sequence or a continued line, a line feed or a carriage return ends the literal in an
error, and any other character but the quote stands for its UTF-16 code units. A text is
read back as itself, up to the quote that was put behind it, if and only if every character
of it is plain (`literal_eq_iff`): an escape sequence takes up more than it denotes.

Whatever the script says, its element ends with the first `</script` that is followed by
white space, a slash or a `>`, in capitals or not.
-/
import BirthdayRole.Lib.Replace
import BirthdayRole.Lib.Text

namespace JsString

/-- The UTF-16 code units of a code point. -/
def utf16 (n : ℕ) : List ℕ :=
  if n < 0x10000 then [n] else [0xD800 + (n - 0x10000) / 0x400, 0xDC00 + (n - 0x10000) % 0x400]

def units (cs : List Char) : List ℕ := cs.flatMap fun c => utf16 c.toNat

/-! ### Reading a literal -/

def hexDigit (c : Char) : Option ℕ :=
  if '0' ≤ c ∧ c ≤ '9' then some (c.toNat - 48)
  else if 'a' ≤ c ∧ c ≤ 'f' then some (c.toNat - 87)
  else if 'A' ≤ c ∧ c ≤ 'F' then some (c.toNat - 55)
  else none

def hexNumber (cs : List Char) : Option ℕ :=
  cs.foldlM (fun n c => (hexDigit c).map (16 * n + ·)) 0

def isOctal (c : Char) : Bool := '0' ≤ c ∧ c ≤ '7'

/-- Up to three octal digits of a number below 256. -/
def octalDigits (c : Char) (cs : List Char) : List Char :=
  (c :: cs.take (if c ≤ '3' then 2 else 1)).takeWhile isOctal

def octalNumber (cs : List Char) : ℕ := cs.foldl (fun n c => 8 * n + (c.toNat - 48)) 0

/-- A single character after a backslash. -/
def singleEscape (c : Char) : ℕ :=
  if c = 'b' then 8
  else if c = 't' then 9
  else if c = 'n' then 10
  else if c = 'v' then 11
  else if c = 'f' then 12
  else if c = 'r' then 13
  else c.toNat

def isLineTerminator (c : Char) : Bool :=
  c = '\n' || c = '\r' || c.toNat = 0x2028 || c.toNat = 0x2029

/-- What the text after a backslash stands for, and how much of it belongs to the escape. -/
def escape : List Char → Option (List ℕ × ℕ)
  | [] => none
  | c :: cs =>
    if c = 'x' then
      if cs.length < 2 then none else (hexNumber (cs.take 2)).map fun n => ([n], 3)
    else if c = 'u' ∧ cs.head? = some '{' then
      let digits := cs.tail.takeWhile (· ≠ '}')
      if digits = [] ∨ cs.tail.length = digits.length then none
      else (hexNumber digits).bind fun n =>
        if n ≤ 0x10FFFF then some (utf16 n, digits.length + 3) else none
    else if c = 'u' then
      if cs.length < 4 then none else (hexNumber (cs.take 4)).map fun n => ([n], 5)
    else if isOctal c then some ([octalNumber (octalDigits c cs)], (octalDigits c cs).length)
    else if c = '\r' ∧ cs.head? = some '\n' then some ([], 2)
    else if isLineTerminator c then some ([], 1)
    else some (utf16 (singleEscape c), 1)

/-- The code units up to the closing quote and the text after it; the first `skip` characters
belong to an escape. -/
def literalFrom (quote : Char) : ℕ → List Char → Option (List ℕ × List Char)
  | _, [] => none
  | skip + 1, _ :: cs => literalFrom quote skip cs
  | 0, c :: cs =>
    if c = quote then some ([], cs)
    else if c = '\\' then
      (escape cs).bind fun e => (literalFrom quote e.2 cs).map fun r => (e.1 ++ r.1, r.2)
    else if c = '\n' ∨ c = '\r' then none
    else (literalFrom quote 0 cs).map fun r => (utf16 c.toNat ++ r.1, r.2)

/-- A literal from its opening quote on. -/
def literal (quote : Char) : List Char → Option (List ℕ × List Char) := literalFrom quote 0

/-- A character that stands for itself. -/
def Plain (quote c : Char) : Prop := c ≠ quote ∧ c ≠ '\\' ∧ c ≠ '\n' ∧ c ≠ '\r'

instance (quote c : Char) : Decidable (Plain quote c) :=
  inferInstanceAs (Decidable (c ≠ quote ∧ c ≠ '\\' ∧ c ≠ '\n' ∧ c ≠ '\r'))

/-! ### What an escape takes up -/

theorem utf16_length_pos (n : ℕ) : 0 < (utf16 n).length := by
  unfold utf16
  split <;> exact Nat.succ_pos _

theorem utf16_length_le (n : ℕ) : (utf16 n).length ≤ 2 := by
  unfold utf16
  split
  · exact Nat.le_succ 1
  · exact Nat.le_refl 2

theorem units_cons (c : Char) (cs : List Char) : units (c :: cs) = utf16 c.toNat ++ units cs := rfl

theorem length_le_units : ∀ cs : List Char, cs.length ≤ (units cs).length
  | [] => Nat.le_refl _
  | c :: cs => by
    have hc := utf16_length_pos c.toNat
    have hcs := length_le_units cs
    rw [units_cons, List.length_append, List.length_cons]
    omega

theorem utf16_singleEscape (c : Char) : (utf16 (singleEscape c)).length ≤ (utf16 c.toNat).length := by
  unfold singleEscape
  split_ifs
  iterate 6 exact utf16_length_pos _
  exact Nat.le_refl _

/-- No escape denotes more than it takes up after its backslash. -/
theorem escape_length {cs : List Char} {us : List ℕ} {n : ℕ} (h : escape cs = some (us, n)) :
    us.length ≤ (units (cs.take n)).length := by
  cases cs with
  | nil => cases h
  | cons c cs =>
    have hone : ∀ (u : ℕ) (m : ℕ), 0 < m → [u].length ≤ (units ((c :: cs).take m)).length := by
      intro u m hm
      refine le_trans ?_ (length_le_units _)
      rw [List.length_take]
      show 1 ≤ min m (cs.length + 1)
      omega
    simp only [escape] at h
    split_ifs at h with _ _ hu hdigits _ _ hoctal
    · obtain ⟨u, -, he⟩ := Option.map_eq_some_iff.mp h
      cases he
      exact hone u 3 (by decide)
    · obtain ⟨u, -, he⟩ := Option.bind_eq_some_iff.mp h
      split_ifs at he
      cases he
      refine le_trans (utf16_length_le u) (le_trans ?_ (length_le_units _))
      cases cs with
      | nil => cases hu.2
      | cons d cs =>
        rw [List.length_take, List.length_cons, List.length_cons]
        omega
    · obtain ⟨u, -, he⟩ := Option.map_eq_some_iff.mp h
      cases he
      exact hone u 5 (by decide)
    · cases h
      refine hone _ _ ?_
      rw [octalDigits, List.takeWhile_cons, if_pos hoctal]
      exact Nat.succ_pos _
    · cases h
      exact Nat.zero_le _
    · cases h
      exact Nat.zero_le _
    · cases h
      rw [List.take_succ_cons, List.take_zero, units_cons, List.length_append]
      exact le_trans (utf16_singleEscape c) (Nat.le_add_right _ _)

/-! ### Reading back -/

variable {quote : Char}

theorem literal_append (rest : List Char) : ∀ {v : List Char}, (∀ c ∈ v, Plain quote c) →
    literal quote (v ++ quote :: rest) = some (units v, rest)
  | [], _ => if_pos rfl
  | c :: v, h => by
    obtain ⟨⟨hq, hesc, hlf, hcr⟩, hv⟩ := List.forall_mem_cons.mp h
    have ih := literal_append rest hv
    show (if c = quote then _ else if c = '\\' then _ else if c = '\n' ∨ c = '\r' then none else
      (literal quote (v ++ quote :: rest)).map fun r => (utf16 c.toNat ++ r.1, r.2)) = _
    rw [if_neg hq, if_neg hesc, if_neg (not_or.mpr ⟨hlf, hcr⟩), ih]
    rfl

/-- A literal ends at a quote, and what comes before denotes less than it takes up unless
every character of it is plain. -/
theorem literalFrom_inv : ∀ {cs : List Char} {n : ℕ} {us : List ℕ} {rest : List Char},
    literalFrom quote n cs = some (us, rest) →
      ∃ w, cs.drop n = w ++ quote :: rest ∧ us.length ≤ (units w).length ∧
        (us.length = (units w).length → ∀ c ∈ w, Plain quote c)
  | [], n, _, _, h => by cases n <;> cases h
  | _ :: cs, n + 1, us, rest, h => @literalFrom_inv cs n us rest h
  | c :: cs, 0, us, rest, h => by
    unfold literalFrom at h
    split_ifs at h with hq hesc hline
    · cases h
      exact ⟨[], by rw [hq]; rfl, Nat.le_refl _, fun _ _ hc => absurd hc List.not_mem_nil⟩
    · obtain ⟨⟨es, n⟩, he, h⟩ := Option.bind_eq_some_iff.mp h
      obtain ⟨⟨vs, rest'⟩, hlit, hr⟩ := Option.map_eq_some_iff.mp h
      cases hr
      obtain ⟨w, hw, hle, -⟩ := literalFrom_inv hlit
      have hes := escape_length he
      refine ⟨c :: (cs.take n ++ w), ?_, ?_⟩
      · show c :: cs = _
        rw [List.cons_append, List.append_assoc, ← hw, List.take_append_drop]
      · -- the backslash itself denotes nothing
        have hlt : (es ++ vs).length < (units (c :: (cs.take n ++ w))).length := by
          have hc := utf16_length_pos c.toNat
          rw [units_cons, units, List.flatMap_append, List.length_append, List.length_append,
            List.length_append]
          change es.length ≤ (List.flatMap _ _).length at hes
          change vs.length ≤ (List.flatMap _ _).length at hle
          omega
        exact ⟨hlt.le, fun heq => absurd heq hlt.ne⟩
    · obtain ⟨⟨vs, rest'⟩, hlit, hr⟩ := Option.map_eq_some_iff.mp h
      cases hr
      obtain ⟨w, hw, hle, hplain⟩ := literalFrom_inv hlit
      refine ⟨c :: w, ?_, ?_, fun heq => ?_⟩
      · show c :: cs = _
        rw [List.cons_append, ← hw]
        rfl
      · rw [units_cons, List.length_append, List.length_append]
        exact Nat.add_le_add_left hle _
      · rw [units_cons, List.length_append, List.length_append] at heq
        have hc : Plain quote c := ⟨hq, hesc, not_or.mp hline⟩
        exact List.forall_mem_cons.mpr ⟨hc, hplain (Nat.add_left_cancel heq)⟩

/-- **A text between quotes is read as itself**, up to the closing quote, if and only if it is
plain. -/
theorem literal_eq_iff {v rest : List Char} :
    literal quote (v ++ quote :: rest) = some (units v, rest) ↔ ∀ c ∈ v, Plain quote c := by
  constructor
  · intro h
    obtain ⟨w, hw, -, hplain⟩ := literalFrom_inv h
    rw [List.drop_zero] at hw
    rw [List.append_cancel_right hw] at hplain ⊢
    exact hplain rfl
  · exact literal_append rest

example : literal '"' "\\x41\\u{1F600}\\n\"rest".toList =
    some ([65, 0xD83D, 0xDE00, 10], "rest".toList) := by decide +kernel

/-! ### The end of the element -/

/-- An end tag of a script, with the character after its name. -/
def EndTag (w : List Char) : Prop :=
  ∃ d ∈ ['\t', '\n', '\x0c', '\r', ' ', '/', '>'],
    w.map Char.toLower = ['<', '/', 's', 'c', 'r', 'i', 'p', 't', d]

instance : DecidablePred EndTag := fun _ => List.decidableBEx _ _

/-- The text has a sequence that ends the script. -/
def EndsScript (cs : List Char) : Prop := ∃ t ∈ cs.tails, EndTag (t.take 9)

instance : DecidablePred EndsScript := fun _ => List.decidableBEx _ _

theorem EndTag.length {w : List Char} (h : EndTag w) : w.length = 9 := by
  obtain ⟨d, -, hw⟩ := h
  rw [← List.length_map Char.toLower, hw]
  rfl

theorem endsScript_iff {cs : List Char} : EndsScript cs ↔ ∃ w, EndTag w ∧ w <:+: cs := by
  constructor
  · rintro ⟨t, ht, htag⟩
    exact ⟨_, htag, (List.take_prefix 9 t).isInfix.trans ((List.mem_tails _ _).mp ht).isInfix⟩
  · rintro ⟨w, htag, hw⟩
    obtain ⟨t, hwt, ht⟩ := List.infix_iff_prefix_suffix.mp hw
    refine ⟨t, (List.mem_tails _ _).mpr ht, ?_⟩
    rwa [← htag.length, ← List.prefix_iff_eq_take.mp hwt]

/-- A character that no end tag has cuts the search in two. -/
theorem endsScript_append_cons {a b : List Char} {x : Char} (hx : ∀ w, EndTag w → x ∉ w) :
    EndsScript (a ++ x :: b) ↔ EndsScript a ∨ EndsScript b := by
  simp only [endsScript_iff, ← exists_or, ← and_or_left]
  exact exists_congr fun w => and_congr_right fun htag => Replace.infix_append_cons (hx w htag)

theorem EndTag.colon_not_mem (w : List Char) (h : EndTag w) : ':' ∉ w := by
  obtain ⟨d, hd, hw⟩ := h
  intro hmem
  have hlower : ':'.toLower ∈ w.map Char.toLower := List.mem_map_of_mem hmem
  rw [hw] at hlower
  simp only [List.mem_cons, List.not_mem_nil, or_false] at hd
  rcases hd with rfl | rfl | rfl | rfl | rfl | rfl | rfl <;> exact absurd hlower (by decide)

theorem EndTag.slash_mem {w : List Char} (h : EndTag w) : '/' ∈ w := by
  obtain ⟨d, -, hw⟩ := h
  have hmem : '/' ∈ w.map Char.toLower := by
    rw [hw]
    exact List.mem_cons_of_mem _ (List.mem_cons_self ..)
  obtain ⟨c, hc, hlower⟩ := List.mem_map.mp hmem
  have hnat : c.toLower.toNat = 47 := congrArg Char.toNat hlower
  rw [Text.toNat_toLower] at hnat
  have hslash : c.toNat = 47 := by
    split_ifs at hnat
    · omega
    · exact hnat
  rwa [← show c = '/' from Char.toNat_inj.mp hslash]

end JsString
