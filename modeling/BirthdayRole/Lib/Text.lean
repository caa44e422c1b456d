/-
# Strings as Rust's standard library reads them

The string operations a Rust program is written with, on `String` and, where
an argument goes through the characters, on `List Char`. Whitespace is
Unicode's `White_Space`, lower-casing is the ASCII one (the Unicode tables are
not here), and a number is read as `str::parse::<i64>` reads it: one optional
sign, at least one digit, nothing else, and in range.
-/
import Mathlib.Algebra.Ring.Int.Defs
import Mathlib.Data.List.DropRight
import Mathlib.Data.List.Infix
import Mathlib.Data.List.TakeWhile
import Mathlib.Data.Int.Notation

namespace Text

/-- An `i64`. -/
abbrev I64 := {n : ℤ // -2 ^ 63 ≤ n ∧ n < 2 ^ 63}

/-- The `i64` of a number, if it has one. -/
def I64.ofInt? (n : ℤ) : Option I64 := if h : -2 ^ 63 ≤ n ∧ n < 2 ^ 63 then some ⟨n, h⟩ else none

instance : Zero I64 := ⟨⟨0, by decide⟩⟩

theorem I64.ofInt?_val (n : I64) : I64.ofInt? n = some n := dif_pos n.2

/-- The `White_Space` property. -/
def isWhitespace (c : Char) : Bool :=
  let n := c.toNat
  (9 ≤ n && n ≤ 13) || n = 32 || n = 0x85 || n = 0xA0 || n = 0x1680 ||
    (0x2000 ≤ n && n ≤ 0x200A) || n = 0x2028 || n = 0x2029 || n = 0x202F || n = 0x205F || n = 0x3000

/-- `str::trim`. -/
def trim (s : String) : String :=
  .ofList ((s.toList.dropWhile isWhitespace).reverse.dropWhile isWhitespace).reverse

/-- `str::trim_end_matches` of one character. -/
def trimEndMatches (c : Char) (s : String) : String :=
  .ofList (s.toList.reverse.dropWhile (· = c)).reverse

/-- `str::to_ascii_lowercase`. -/
def toAsciiLowercase (s : String) : String := .ofList (s.toList.map Char.toLower)

/-- `str::split` at one character. -/
def split (c : Char) (s : String) : List String := (s.toList.splitOn c).map String.ofList

/-- `str::strip_prefix`. -/
def stripPrefix (p s : String) : Option String :=
  if p.toList <+: s.toList then some (.ofList (s.toList.drop p.toList.length)) else none

/-- `str::contains` of a string. -/
def contains (a v : String) : Bool := decide (v.toList <:+: a.toList)

/-- `str::replace` of one character. -/
def replaceChar (c : Char) (r : List Char) (cs : List Char) : List Char :=
  cs.flatMap fun x => if x = c then r else [x]

/-- `[&str]::join`. -/
def join (sep : String) : List String → String
  | [] => ""
  | [s] => s
  | s :: t :: r => s ++ sep ++ join sep (t :: r)

/-- The number some digits denote, if they are digits. -/
def digits (cs : List Char) : Option ℕ :=
  cs.foldl (fun acc c => acc.bind fun n => if c.isDigit then some (10 * n + (c.toNat - 48)) else none)
    (some 0)

/-- The sign of a number and what follows it. -/
def sign : List Char → ℤ × List Char
  | '-' :: cs => (-1, cs)
  | '+' :: cs => (1, cs)
  | cs => (1, cs)

/-- `str::parse::<i64>`. -/
def parseI64 (s : String) : Option I64 :=
  let (k, cs) := sign s.toList
  if cs = [] then none else (digits cs).bind fun n => I64.ofInt? (k * n)

/-! ### Trimming and lower-casing -/

theorem trim_eq (s : String) :
    trim s = .ofList ((s.toList.dropWhile isWhitespace).rdropWhile isWhitespace) := rfl

/-- What has been trimmed at the front and then at the back has no white space at the front. -/
theorem dropWhile_rdropWhile {α : Type} (p : α → Bool) (xs : List α) :
    ((xs.dropWhile p).rdropWhile p).dropWhile p = (xs.dropWhile p).rdropWhile p := by
  rw [List.dropWhile_eq_self_iff]
  intro hpos
  have hpre : (xs.dropWhile p).rdropWhile p <+: xs.dropWhile p := List.rdropWhile_prefix p _
  rw [hpre.getElem hpos]
  exact (List.dropWhile_eq_self_iff.mp (List.dropWhile_idempotent p xs)) (hpos.trans_le hpre.length_le)

theorem trim_trim (s : String) : trim (trim s) = trim s := by
  rw [trim_eq (trim s), trim_eq s, String.toList_ofList, dropWhile_rdropWhile,
    List.rdropWhile_idempotent]

/-- Lower-casing moves the capital letters by 32, and nothing else. -/
theorem toNat_toLower (c : Char) :
    c.toLower.toNat = if 65 ≤ c.toNat ∧ c.toNat ≤ 90 then c.toNat + 32 else c.toNat := by
  unfold Char.toLower
  by_cases hup : c.val ≥ 'A'.val ∧ c.val ≤ 'Z'.val
  · have hn : 65 ≤ c.toNat ∧ c.toNat ≤ 90 := hup
    rw [dif_pos hup, if_pos hn]
    show (c.val + ('a'.val - 'A'.val)).toNat = _
    rw [UInt32.toNat_add]
    show (c.toNat + 32) % 2 ^ 32 = _
    omega
  · have hn : ¬(65 ≤ c.toNat ∧ c.toNat ≤ 90) := hup
    rw [dif_neg hup, if_neg hn]

theorem toLower_toLower (c : Char) : c.toLower.toLower = c.toLower := by
  rw [← Char.toNat_inj, toNat_toLower, toNat_toLower]
  split_ifs <;> omega

theorem isWhitespace_toLower (c : Char) : isWhitespace c.toLower = isWhitespace c := by
  unfold isWhitespace
  rw [toNat_toLower]
  split_ifs with hup
  · rw [Bool.eq_iff_iff]
    simp only [Bool.or_eq_true, Bool.and_eq_true, decide_eq_true_eq]
    omega
  · rfl

theorem toAsciiLowercase_idem (s : String) :
    toAsciiLowercase (toAsciiLowercase s) = toAsciiLowercase s := by
  unfold toAsciiLowercase
  rw [String.toList_ofList, List.map_map]
  exact congrArg String.ofList (List.map_congr_left fun c _ => toLower_toLower c)

theorem trim_toAsciiLowercase (s : String) :
    trim (toAsciiLowercase s) = toAsciiLowercase (trim s) := by
  have hws : isWhitespace ∘ Char.toLower = isWhitespace := funext isWhitespace_toLower
  unfold trim toAsciiLowercase
  simp only [String.toList_ofList, List.dropWhile_map, ← List.map_reverse, hws]

theorem toAsciiLowercase_ne_empty {s : String} (h : s ≠ "") : toAsciiLowercase s ≠ "" := by
  intro he
  refine h (String.toList_eq_nil_iff.mp ?_)
  have hnil := congrArg String.toList he
  rwa [toAsciiLowercase, String.toList_ofList, String.toList_empty, List.map_eq_nil_iff] at hnil

end Text
