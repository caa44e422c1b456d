/-
# What an editor submits and what is stored

The verdict of a condition on the values as they were submitted (`Says`): a number is
compared at its exact value, a text as trimmed and lower-cased, a list as the set of what
is in it, and a season called "fall" is autumn. `validate_condition` stores another form
of these values, and the evaluator looks at that one.

The two verdicts are the same, and no number is stored as another, exactly where the
submitted values are kept as they are (`validateCondition_preserves_iff`). A number that
stands alone is not refused if it is a fraction or does not fit an `i64`: it is cut, or
becomes the largest or smallest one. And a search for "fall" in the season looks for that
text, which no season contains.
-/
import Mathlib.Data.Rat.Cast.Order
import BirthdayRole.RuleMeaning

namespace BirthdayRole

open Json Text

/-! ### Values as submitted -/

/-- The whole number a text stands for, of any size. -/
def integerOf (s : String) : Option ℤ :=
  let (k, cs) := sign s.toList
  if cs = [] then none else (digits cs).map fun n : ℕ => k * n

def exactOf : Number → ℚ
  | .int n _ => n
  | .float q _ => q

def numberOf : Value → Option ℚ
  | .number num => some (exactOf num)
  | .string s => (integerOf (trim s)).map Int.cast
  | _ => none

/-- The numbers of a list, as an array or separated by commas. -/
def numbersOf : Value → List ℚ
  | .array a => a.filterMap numberOf
  | .string s => (split ',' s).filterMap fun item => (integerOf (trim item)).map Int.cast
  | v => (numberOf v).toList

def textOf : Value → String
  | .string s => s
  | .number num => num.render
  | .bool b => if b then "true" else "false"
  | _ => ""

def boolOf : Value → Option Bool
  | .bool b => some b
  | .string s =>
    let w := toAsciiLowercase (trim s)
    if w = "true" ∨ w = "1" ∨ w = "yes" then some true
    else if w = "false" ∨ w = "0" ∨ w = "no" then some false
    else none
  | _ => none

section

variable (C : Crates)

/-- A text as it is compared. -/
def comparedAs (t : ConditionTarget) (s : String) : String :=
  let lowered := C.toLowercase (trim s)
  if t = .birthSeason ∧ lowered = "fall" then "autumn" else lowered

/-- The texts of a list, as an array or separated by commas; what is blank is none. -/
def textsOf (t : ConditionTarget) (v : Value) : List String :=
  let items := match v with
    | .array a => a.filterMap Value.asStr
    | .string s => split ',' s
    | _ => []
  (items.filter fun s => trim s ≠ "").map (comparedAs C t)

end

/-- A comparison of numbers. -/
def compares : ConditionOperator → ℚ → ℚ → Prop
  | .eq, a, q => a = q
  | .neq, a, q => a ≠ q
  | .gt, a, q => a > q
  | .gte, a, q => a ≥ q
  | .lt, a, q => a < q
  | .lte, a, q => a ≤ q
  | _, _, _ => False

namespace ConditionInput

variable (C : Crates) (input : ConditionInput) (t : ConditionTarget) (op : ConditionOperator)

/-- What the submitted condition says of a number that is known. -/
def SaysOfInt (a : ℤ) : Prop :=
  match op with
  | .between => ∃ lo hi, numberOf input.value = some lo ∧
      input.valueEnd.bind numberOf = some hi ∧ lo ≤ a ∧ a ≤ hi
  | .in_ => (a : ℚ) ∈ numbersOf input.value
  | .notIn => (a : ℚ) ∉ numbersOf input.value
  | op => ∃ q, numberOf input.value = some q ∧ compares op a q

/-- What it says of a text that is known. -/
def SaysOfText (a : String) : Prop :=
  match op with
  | .eq => a = comparedAs C t (textOf input.value)
  | .neq => a ≠ comparedAs C t (textOf input.value)
  | .contains => (comparedAs C t (textOf input.value)).toList <:+: a.toList
  | .regex => ∃ isMatch, C.regex (textOf input.value) = some isMatch ∧ isMatch a = true
  | .in_ => a ∈ textsOf C t input.value
  | .notIn => a ∉ textsOf C t input.value
  | _ => False

/-- What the submitted condition says of a fact; of what is unknown only `neq` holds. -/
def Says : Fact → Prop
  | .bool a => boolOf input.value = some a
  | .int a => ∃ n, a = some n ∧ input.SaysOfInt op n
  | .text none => op = .neq
  | .text (some a) => input.SaysOfText C t op a

/-- The numbers that are submitted to be compared. -/
def numbers : List ℚ :=
  if t.kind = .int then
    match op with
    | .in_ | .notIn => numbersOf input.value
    | .between => (numberOf input.value).toList ++ (input.valueEnd.bind numberOf).toList
    | _ => (numberOf input.value).toList
  else []

/-- The stored condition says what was submitted, and no number was stored as another. -/
structure Preserved (c : Condition) : Prop where
  target : ConditionTarget.fromKey (trim input.target) = some c.target
  operator : ConditionOperator.fromKey (trim input.operator) = some c.operator
  verdict : ∀ x : Fact, x.HasKind c.target.kind →
    (matchFact C c x = true ↔ input.Says C c.target c.operator x)
  stored : ∀ q ∈ input.numbers c.target c.operator, ∃ n : I64, ((n : ℤ) : ℚ) = q

/-- A JSON number that stands alone is whole and an `i64`, and no season is searched for
"fall". -/
structure Exact : Prop where
  whole : t.kind = .int → op ≠ .in_ → op ≠ .notIn → ∀ num,
    input.value = .number num ∨ op = .between ∧ input.valueEnd = some (.number num) →
    ∃ n : I64, ((n : ℤ) : ℚ) = exactOf num
  noFall : ¬(t = .birthSeason ∧ op = .contains ∧ C.toLowercase (trim (textOf input.value)) = "fall")

end ConditionInput

variable {C : Crates} {where_ : String} {t : ConditionTarget} {op : ConditionOperator}
  {raw value : Value}

/-! ### Numbers -/

theorem parseI64_eq (s : String) : parseI64 s = (integerOf s).bind I64.ofInt? := by
  unfold parseI64 integerOf
  dsimp only
  split
  · rfl
  · rw [Option.bind_map]
    rfl

theorem ofInt?_eq_some {k : ℤ} {n : I64} (h : I64.ofInt? k = some n) : k = n := by
  unfold I64.ofInt? at h
  split at h
  · exact congrArg Subtype.val (Option.some.inj h)
  · cases h

theorem integerOf_of_parseI64 {s : String} {n : I64} (h : parseI64 s = some n) :
    integerOf s = some n.1 := by
  rw [parseI64_eq] at h
  obtain ⟨k, hk, h⟩ := Option.bind_eq_some_iff.mp h
  rw [hk, ofInt?_eq_some h]

theorem asI64_eq_some {num : Number} {n : I64} (h : num.asI64 = some n) : exactOf num = (n : ℤ) := by
  cases num with
  | int k hk =>
    rw [exactOf, ofInt?_eq_some h]
  | float q text => cases h

theorem saturate_val (n : I64) : Number.saturate n = n := by
  obtain ⟨k, hlo, hhi⟩ := n
  refine Subtype.ext ?_
  show max (-2 ^ 63) (min (2 ^ 63 - 1) k) = k
  omega

/-- A number that is whole and an `i64` is stored as itself. -/
theorem wholeNumber_exact {n : I64} (hex : ∀ num, raw = .number num →
    ∃ n : I64, ((n : ℤ) : ℚ) = exactOf num) (h : wholeNumber raw = some n) :
    numberOf raw = some ((n : ℤ) : ℚ) := by
  cases raw with
  | number num =>
    obtain ⟨m, hm⟩ := hex num rfl
    have hnum : num.asI64.or (some num.asF64AsI64) = some n := h
    cases hi : num.asI64 with
    | some k =>
      rw [hi, Option.some_or, Option.some.injEq] at hnum
      rw [numberOf, asI64_eq_some hi, hnum]
    | none =>
      rw [hi, Option.none_or, Option.some.injEq] at hnum
      cases num with
      | int k hk =>
        have hkm : (m : ℤ) = k := Int.cast_injective hm
        rw [Number.asI64, ← hkm, I64.ofInt?_val] at hi
        cases hi
      | float q text =>
        have hq : q = ((m : ℤ) : ℚ) := hm.symm
        rw [Number.asF64AsI64, hq, Rat.num_intCast, Rat.den_intCast, Nat.cast_one, Int.tdiv_one,
          saturate_val] at hnum
        rw [numberOf, exactOf, hq, hnum]
  | string s =>
    rw [numberOf, integerOf_of_parseI64 h]
    rfl
  | null | bool | array | object => cases h

theorem intValue_exact (hex : ∀ num, raw = .number num → ∃ n : I64, ((n : ℤ) : ℚ) = exactOf num)
    (h : intValue where_ raw = .ok value) :
    ∃ n : I64, value = .ofI64 n ∧ numberOf raw = some ((n : ℤ) : ℚ) := by
  obtain ⟨-, h⟩ := Result.guard_ok h
  split at h
  · rename_i n hn
    cases h
    exact ⟨n, rfl, wholeNumber_exact hex hn⟩
  · cases h

theorem intItem_exact {n : I64} (h : intItem where_ raw = .ok n) :
    numberOf raw = some ((n : ℤ) : ℚ) := by
  unfold intItem at h
  dsimp only at h
  split at h
  · rename_i k hk
    cases h
    cases raw with
    | number num => rw [numberOf, asI64_eq_some hk]
    | string s =>
      rw [numberOf, integerOf_of_parseI64 hk]
      rfl
    | null | bool | array | object => cases hk
  · cases h

/-- The items between the commas, trimmed, the blank ones left out. -/
theorem mem_commaItems {s item : String} :
    item ∈ ((split ',' s).map trim).filter (· ≠ "") ↔
      ∃ part ∈ split ',' s, trim part = item ∧ item ≠ "" := by
  rw [List.mem_filter, List.mem_map, decide_eq_true_eq]
  constructor
  · rintro ⟨⟨part, hpart, htrim⟩, hne⟩
    exact ⟨part, hpart, htrim, hne⟩
  · rintro ⟨part, hpart, htrim, hne⟩
    exact ⟨⟨part, hpart, htrim⟩, hne⟩

theorem mem_numbersOf_items (raw : Value) (q : ℚ) :
    q ∈ numbersOf raw ↔ ∃ it ∈ intItems raw, numberOf it = some q := by
  cases raw with
  | array a => exact List.mem_filterMap
  | string s =>
    show q ∈ (split ',' s).filterMap (fun item => (integerOf (trim item)).map Int.cast) ↔
      ∃ it ∈ (((split ',' s).map trim).filter (· ≠ "")).map Value.string, numberOf it = some q
    rw [List.mem_filterMap]
    constructor
    · rintro ⟨part, hpart, hq⟩
      have hne : trim part ≠ "" := by
        intro he
        rw [he] at hq
        cases hq
      refine ⟨.string (trim part),
        List.mem_map_of_mem (mem_commaItems.mpr ⟨part, hpart, rfl, hne⟩), ?_⟩
      rw [numberOf, trim_trim]
      exact hq
    · rintro ⟨it, hit, hq⟩
      obtain ⟨item, hitem, rfl⟩ := List.mem_map.mp hit
      obtain ⟨part, hpart, rfl, -⟩ := mem_commaItems.mp hitem
      rw [numberOf, trim_trim] at hq
      exact ⟨part, hpart, hq⟩
  | null | number | bool | object => simp [numbersOf, intItems, numberOf, eq_comm]

/-- The numbers of a list that is accepted are those that are stored. -/
theorem mem_numbersOf {ns : List I64} (h : (intItems raw).mapM (intItem where_) = .ok ns) (q : ℚ) :
    q ∈ numbersOf raw ↔ ∃ n ∈ ns, ((n : ℤ) : ℚ) = q := by
  rw [mem_numbersOf_items]
  constructor
  · rintro ⟨it, hit, hq⟩
    obtain ⟨n, hn, hok⟩ := Result.mapM_ok_of_mem h it hit
    rw [intItem_exact hok, Option.some.injEq] at hq
    exact ⟨n, hn, hq⟩
  · rintro ⟨n, hn, rfl⟩
    obtain ⟨it, hit, hok⟩ := (Result.mapM_ok h).2 n hn
    exact ⟨it, hit, intItem_exact hok⟩

/-! ### Texts -/

theorem enumValue_exact {s v : String} (h : enumValue C where_ t s = .ok v) : v = comparedAs C t s := by
  obtain ⟨-, hv⟩ := Result.require_ok h
  exact (Except.ok.inj hv).symm

theorem comparedAs_trim (s : String) : comparedAs C t (trim s) = comparedAs C t s := by
  unfold comparedAs
  rw [trim_trim]

theorem mem_textsOf_items (raw : Value) (v : String) :
    v ∈ textsOf C t raw ↔ ∃ it ∈ strItems raw, ∃ s, it.asStr = some s ∧ comparedAs C t s = v := by
  unfold textsOf
  rw [List.mem_map]
  cases raw with
  | array a =>
    constructor
    · rintro ⟨s, hs, rfl⟩
      obtain ⟨hs, hne⟩ := List.mem_filter.mp hs
      obtain ⟨it, hit, his⟩ := List.mem_filterMap.mp hs
      have hne : trim s ≠ "" := by simpa using hne
      cases it with
      | string s' =>
        cases his
        refine ⟨.string s, ?_, s, rfl, rfl⟩
        simp [strItems, hit, Value.asStr, hne]
      | null | bool | number | array | object => cases his
    · rintro ⟨it, hit, s, his, rfl⟩
      obtain ⟨hit, hblank⟩ := List.mem_filter.mp hit
      obtain ⟨hit, -⟩ := List.mem_filter.mp hit
      rw [his] at hblank
      refine ⟨s, List.mem_filter.mpr ⟨List.mem_filterMap.mpr ⟨it, hit, his⟩, ?_⟩, rfl⟩
      simpa using hblank
  | string s =>
    constructor
    · rintro ⟨part, hpart, rfl⟩
      obtain ⟨hpart, hne⟩ := List.mem_filter.mp hpart
      have hne : trim part ≠ "" := by simpa using hne
      exact ⟨.string (trim part), List.mem_map_of_mem (mem_commaItems.mpr ⟨part, hpart, rfl, hne⟩),
        trim part, rfl, comparedAs_trim part⟩
    · rintro ⟨it, hit, s', his, rfl⟩
      obtain ⟨item, hitem, rfl⟩ := List.mem_map.mp hit
      obtain ⟨part, hpart, rfl, hne⟩ := mem_commaItems.mp hitem
      cases his
      exact ⟨part, List.mem_filter.mpr ⟨hpart, by simpa using hne⟩, (comparedAs_trim part).symm⟩
  | null | number | bool | object => simp [strItems, Value.asStr]

/-- The texts of a list that is accepted are those that are stored. -/
theorem strListValue_exact (h : strListValue C where_ t raw = .ok value) :
    ∃ vs : List String, value = .array (vs.map .string) ∧ ∀ v, v ∈ vs ↔ v ∈ textsOf C t raw := by
  obtain ⟨-, h⟩ := Result.guard_ok h
  obtain ⟨out, hm, h⟩ := Result.bind_ok h
  cases h
  have hitem : ∀ it v, strItem C where_ t it = .ok v → ∃ s, it.asStr = some s ∧ comparedAs C t s = v := by
    intro it v hit
    unfold strItem at hit
    split at hit
    · cases hit
    · rename_i s hs
      exact ⟨s, hs, (enumValue_exact hit).symm⟩
  refine ⟨dedupe out, rfl, fun v => ?_⟩
  rw [mem_dedupe, mem_textsOf_items]
  constructor
  · intro hv
    obtain ⟨it, hit, hok⟩ := (Result.mapM_ok hm).2 v hv
    exact ⟨it, hit, hitem it v hok⟩
  · rintro ⟨it, hit, s, hs, rfl⟩
    obtain ⟨v, hv, hok⟩ := Result.mapM_ok_of_mem hm it hit
    obtain ⟨s', hs', rfl⟩ := hitem it v hok
    rw [hs, Option.some.injEq] at hs'
    rwa [hs']

/-- A text that stands alone is stored as it is compared, a pattern as it was typed. -/
theorem strValue_exact (h : strValue C where_ t op raw = .ok value)
    (hfall : ¬(t = .birthSeason ∧ op = .contains ∧ C.toLowercase (trim (textOf raw)) = "fall")) :
    value = .string (if op = .regex then textOf raw else comparedAs C t (textOf raw)) := by
  obtain ⟨-, h⟩ := Result.guard_ok h
  split at h
  · cases h
    rfl
  · cases h
    have hne : ¬(t = .birthSeason ∧ C.toLowercase (trim (textOf raw)) = "fall") :=
      fun hf => hfall ⟨hf.1, rfl, hf.2⟩
    rw [if_neg (by decide), comparedAs, if_neg hne]
    rfl
  · rename_i hreg hcon
    obtain ⟨v, hv, rfl⟩ := Result.map_ok h
    rw [if_neg hreg, enumValue_exact hv]
    rfl

theorem boolValue_exact (h : boolValue where_ raw = .ok value) :
    ∃ b, value = .bool b ∧ boolOf raw = some b := by
  unfold boolValue at h
  cases raw with
  | bool b =>
    cases h
    exact ⟨b, rfl, rfl⟩
  | string s =>
    dsimp only at h
    dsimp only [boolOf]
    generalize toAsciiLowercase (trim s) = w at h ⊢
    by_cases htrue : w = "true" ∨ w = "1" ∨ w = "yes"
    · rw [if_pos htrue] at h
      refine ⟨true, (Except.ok.inj h).symm, ?_⟩
      rw [if_pos htrue]
    · rw [if_neg htrue] at h
      obtain ⟨hfalse, hv⟩ := Result.require_ok h
      refine ⟨false, (Except.ok.inj hv).symm, ?_⟩
      rw [if_neg htrue, if_pos hfalse]
  | null | number | array | object => cases h

/-! ### The two verdicts -/

variable {input : ConditionInput} {valueEnd : Option Value}

theorem compares_iff (cop : CompareOp) (a n : ℤ) : compares cop.operator a n ↔ cop.Holds a n := by
  cases cop <;> simp [compares, CompareOp.operator, CompareOp.Holds]

theorem verdict_compare {cop : CompareOp} {n : I64} {a : ℤ}
    (hn : numberOf input.value = some ((n : ℤ) : ℚ)) :
    intMatch ⟨t, cop.operator, .ofI64 n, valueEnd⟩ (some a) = true ↔
      input.SaysOfInt cop.operator a := by
  have hspec : input.SaysOfInt cop.operator a ↔
      ∃ q, numberOf input.value = some q ∧ compares cop.operator a q := by
    cases cop <;> exact Iff.rfl
  have hmatch : intMatch ⟨t, cop.operator, .ofI64 n, valueEnd⟩ (some a) = true ↔ cop.Holds a n := by
    cases cop <;> simp [intMatch, CompareOp.operator, CompareOp.Holds]
  rw [hspec, hmatch, ← compares_iff, hn]
  simp

theorem verdict_between {lo hi : I64} {a : ℤ} (hlo : numberOf input.value = some ((lo : ℤ) : ℚ))
    (hhi : input.valueEnd.bind numberOf = some ((hi : ℤ) : ℚ)) :
    intMatch ⟨t, .between, .ofI64 lo, some (.ofI64 hi)⟩ (some a) = true ↔
      input.SaysOfInt .between a := by
  simp [intMatch, ConditionInput.SaysOfInt, hlo, hhi]

theorem verdict_list {ns : List I64} {a : ℤ}
    (hns : ∀ q, q ∈ numbersOf input.value ↔ ∃ n ∈ ns, ((n : ℤ) : ℚ) = q) :
    (intMatch ⟨t, .in_, .array (ns.map .ofI64), valueEnd⟩ (some a) = true ↔
      input.SaysOfInt .in_ a) ∧
    (intMatch ⟨t, .notIn, .array (ns.map .ofI64), valueEnd⟩ (some a) = true ↔
      input.SaysOfInt .notIn a) := by
  have hmem : (a : ℚ) ∈ numbersOf input.value ↔ a ∈ ns.map Subtype.val := by
    rw [hns, mem_map_val]
    simp only [Int.cast_inj]
  constructor
  · simp only [intMatch, ConditionInput.SaysOfInt, intList_ofI64, List.contains_iff_mem, hmem]
  · simp only [intMatch, ConditionInput.SaysOfInt, intList_ofI64, hmem, Bool.not_eq_true',
      ← Bool.not_eq_true, List.contains_iff_mem]

/-- A condition on a number: a case for each operator. -/
theorem verdict_int {a : ℤ} (hk : t.kind = .int) (hop : op.validFor t.kind = true)
    (hv : normalizeValue C where_ t op input.value = .ok value)
    (he : normalizeEnd C where_ t op input.valueEnd = .ok valueEnd) (hex : input.Exact C t op) :
    intMatch ⟨t, op, value, valueEnd⟩ (some a) = true ↔ input.SaysOfInt op a := by
  have hcompare : ∀ cop : CompareOp, op = cop.operator →
      (intMatch ⟨t, op, value, valueEnd⟩ (some a) = true ↔ input.SaysOfInt op a) := by
    rintro cop rfl
    have hv' : intValue where_ input.value = .ok value := by
      cases cop <;> simpa only [normalizeValue, CompareOp.operator, hk] using hv
    obtain ⟨n, rfl, hn⟩ := intValue_exact (fun num hnum =>
      hex.whole hk (by cases cop <;> decide) (by cases cop <;> decide) num (Or.inl hnum)) hv'
    exact verdict_compare hn
  cases op with
  | eq => exact hcompare .eq rfl
  | neq => exact hcompare .neq rfl
  | gt => exact hcompare .gt rfl
  | gte => exact hcompare .gte rfl
  | lt => exact hcompare .lt rfl
  | lte => exact hcompare .lte rfl
  | between =>
    have hwhole := hex.whole hk (by decide) (by decide)
    simp only [normalizeValue, hk] at hv
    obtain ⟨lo, rfl, hlo⟩ := intValue_exact (fun num hnum => hwhole num (Or.inl hnum)) hv
    cases hend : input.valueEnd with
    | none => rw [hend] at he; cases he
    | some e =>
      rw [hend] at he
      obtain ⟨v, hv', rfl⟩ := Result.map_ok he
      simp only [normalizeValue, hk] at hv'
      obtain ⟨hi, rfl, hhi⟩ := intValue_exact
        (fun num hnum => hwhole num (Or.inr ⟨rfl, by rw [hend, hnum]⟩)) hv'
      exact verdict_between hlo (by rw [hend]; exact hhi)
  | contains | regex => rw [hk] at hop; exact absurd hop (by decide)
  | in_ =>
    simp only [normalizeValue, hk] at hv
    obtain ⟨ns, hm, hv⟩ := Result.bind_ok hv
    obtain ⟨-, hv⟩ := Result.guard_ok hv
    cases hv
    exact (verdict_list (mem_numbersOf hm)).1
  | notIn =>
    simp only [normalizeValue, hk] at hv
    obtain ⟨ns, hm, hv⟩ := Result.bind_ok hv
    obtain ⟨-, hv⟩ := Result.guard_ok hv
    cases hv
    exact (verdict_list (mem_numbersOf hm)).2

/-- A condition on a text: a case for each operator. -/
theorem verdict_text {a : String} (hk : t.kind = .string) (hop : op.validFor t.kind = true)
    (hv : normalizeValue C where_ t op input.value = .ok value) (hex : input.Exact C t op) :
    stringMatch C ⟨t, op, value, valueEnd⟩ (some a) = true ↔ input.SaysOfText C t op a := by
  have hfall := hex.noFall
  cases op with
  | gt | gte | lt | lte | between => rw [hk] at hop; exact absurd hop (by decide)
  | eq =>
    simp only [normalizeValue, hk] at hv
    rw [strValue_exact hv hfall]
    simp [stringMatch, ConditionInput.SaysOfText, Value.asStr]
  | neq =>
    simp only [normalizeValue, hk] at hv
    rw [strValue_exact hv hfall]
    simp [stringMatch, ConditionInput.SaysOfText, Value.asStr]
  | contains =>
    simp only [normalizeValue, hk] at hv
    rw [strValue_exact hv hfall]
    simp [stringMatch, ConditionInput.SaysOfText, Value.asStr, Text.contains]
  | regex =>
    simp only [normalizeValue, hk] at hv
    rw [strValue_exact hv hfall]
    cases hr : C.regex (textOf input.value) <;>
      simp [stringMatch, ConditionInput.SaysOfText, Value.asStr, hr]
  | in_ =>
    simp only [normalizeValue, hk] at hv
    obtain ⟨vs, rfl, hvs⟩ := strListValue_exact hv
    simp [stringMatch, ConditionInput.SaysOfText, strListContains_string, hvs]
  | notIn =>
    simp only [normalizeValue, hk] at hv
    obtain ⟨vs, rfl, hvs⟩ := strListValue_exact hv
    simp [stringMatch, ConditionInput.SaysOfText, strListContains_string, hvs]

/-- No number that is submitted is stored as another. -/
theorem numbers_stored (hv : normalizeValue C where_ t op input.value = .ok value)
    (he : normalizeEnd C where_ t op input.valueEnd = .ok valueEnd) (hex : input.Exact C t op) :
    ∀ q ∈ input.numbers t op, ∃ n : I64, ((n : ℤ) : ℚ) = q := by
  intro q hq
  unfold ConditionInput.numbers at hq
  by_cases hk : t.kind = .int
  · rw [if_pos hk] at hq
    have hscalar : ∀ {raw v : Value}, (∀ num, raw = .number num → ∃ n : I64, ((n : ℤ) : ℚ) = exactOf num) →
        intValue where_ raw = .ok v → q ∈ (numberOf raw).toList → ∃ n : I64, ((n : ℤ) : ℚ) = q := by
      intro raw v hraw hraw' hmem
      obtain ⟨n, -, hn⟩ := intValue_exact hraw hraw'
      rw [hn] at hmem
      exact ⟨n, (List.mem_singleton.mp hmem).symm⟩
    have hlist : intListValue where_ t input.value = .ok value → q ∈ numbersOf input.value →
        ∃ n : I64, ((n : ℤ) : ℚ) = q := by
      intro hl hmem
      obtain ⟨ns, hm, -⟩ := Result.bind_ok hl
      obtain ⟨n, -, hn⟩ := (mem_numbersOf hm q).mp hmem
      exact ⟨n, hn⟩
    have hwhole := hex.whole hk
    cases op with
    | in_ | notIn =>
      simp only [normalizeValue, hk] at hv
      exact hlist hv hq
    | between =>
      simp only [normalizeValue, hk] at hv
      rcases List.mem_append.mp hq with hq | hq
      · exact hscalar (fun num hnum => hwhole (by decide) (by decide) num (Or.inl hnum)) hv hq
      · cases hend : input.valueEnd with
        | none => rw [hend] at he; cases he
        | some e =>
          rw [hend] at he hq
          obtain ⟨v, hv', -⟩ := Result.map_ok he
          simp only [normalizeValue, hk] at hv'
          exact hscalar (fun num hnum =>
            hwhole (by decide) (by decide) num (Or.inr ⟨rfl, by rw [hend, hnum]⟩)) hv' hq
    | eq | neq | gt | gte | lt | lte | contains | regex =>
      simp only [normalizeValue, hk] at hv
      exact hscalar (fun num hnum => hwhole (by decide) (by decide) num (Or.inl hnum)) hv hq
  · rw [if_neg hk] at hq
    exact absurd hq List.not_mem_nil

/-- An accepted condition is stored with its meaning if and only if its numbers are `i64`s
and no season is searched for "fall". -/
theorem validateCondition_preserves_iff {g n : ℕ} {c : Condition}
    (h : validateCondition C g n input = .ok c) :
    input.Preserved C c ↔ input.Exact C c.target c.operator := by
  obtain ⟨where_, ht, ho, hop, hv, he, -⟩ := validateCondition_inv h
  obtain ⟨t, op, value, valueEnd⟩ := c
  dsimp only at ht ho hop hv he
  constructor
  · rintro ⟨-, -, hverdict, hstored⟩
    refine ⟨fun hk hin hnot num hnum => hstored (exactOf num) ?_, ?_⟩
    · unfold ConditionInput.numbers
      rw [if_pos hk]
      rcases hnum with hnum | ⟨rfl, hnum⟩
      · cases op with
        | in_ => exact absurd rfl hin
        | notIn => exact absurd rfl hnot
        | between => simp [hnum, numberOf]
        | eq | neq | gt | gte | lt | lte | contains | regex => simp [hnum, numberOf]
      · simp [hnum, numberOf]
    · rintro ⟨rfl, rfl, hfall⟩
      -- the season is autumn: submitted it holds, stored it does not
      have hauto := (hverdict (.text (some "autumn")) rfl).mpr (by
        show (comparedAs C .birthSeason (textOf input.value)).toList <:+: _
        rw [comparedAs, if_pos ⟨rfl, hfall⟩])
      obtain ⟨-, hv⟩ := Result.guard_ok (show strValue C where_ .birthSeason .contains input.value =
        .ok value from hv)
      have hvalue : value = .string (C.toLowercase (trim (textOf input.value))) :=
        (Except.ok.inj hv).symm
      rw [hvalue, hfall] at hauto
      have hin : Text.contains "autumn" "fall" = true := hauto
      exact absurd hin (by decide)
  · intro hex
    refine ⟨ht, ho, fun x hx => ?_, numbers_stored hv he hex⟩
    cases x with
    | bool a =>
      have hk : t.kind = .bool := hx
      have hop' : op = .eq := by rw [hk] at hop; revert hop; cases op <;> decide
      subst hop'
      simp only [normalizeValue, hk] at hv
      obtain ⟨b, rfl, hb⟩ := boolValue_exact hv
      simp [matchFact, boolMatch, ConditionInput.Says, Value.asBool, hb]
    | int a =>
      cases a with
      | none => simp [matchFact, intMatch, ConditionInput.Says]
      | some a =>
        show intMatch ⟨t, op, value, valueEnd⟩ (some a) = true ↔ ∃ k, some a = some k ∧ _
        rw [verdict_int hx hop hv he hex]
        simp
    | text a =>
      cases a with
      | none =>
        show (op == .neq) = true ↔ op = .neq
        exact beq_iff_eq
      | some a => exact verdict_text hx hop hv hex

/-- The season "Fall" is kept, as autumn. -/
theorem validateCondition_preserves_fall : ∃ c, validateCondition .ascii 1 1
      ⟨"birth_season", "eq", .string " Fall", none⟩ = .ok c ∧
    ConditionInput.Preserved .ascii ⟨"birth_season", "eq", .string " Fall", none⟩ c := by
  refine ⟨_, rfl, (validateCondition_preserves_iff (g := 1) (n := 1) rfl).mpr ⟨?_, ?_⟩⟩
  · exact fun hk => absurd hk (by decide)
  · exact fun h => absurd h.2.1 (by decide)

/-- An age of eighteen and a half. -/
def atLeastHalf : ConditionInput :=
  ⟨"age_years", "gte", .number (.float ⟨37, 2, two_ne_zero, by decide⟩ "18.5"), none⟩

/-- "At least 18.5" is stored as "at least 18", and 2 to the 63rd as one less. -/
theorem wholeNumber_cuts :
    (∃ c, validateCondition .ascii 1 1 atLeastHalf = .ok c ∧
      matchFact .ascii c (.int (some 18)) = true ∧
      ¬atLeastHalf.Says .ascii .ageYears .gte (.int (some 18)) ∧ ¬atLeastHalf.Preserved .ascii c) ∧
    ∃ c, validateCondition .ascii 1 1
        ⟨"birth_year", "eq", .number (.int (2 ^ 63) (by decide)), none⟩ = .ok c ∧
      matchFact .ascii c (.int (some (2 ^ 63 - 1))) = true := by
  have hno : ¬atLeastHalf.Says .ascii .ageYears .gte (.int (some 18)) := by
    rintro ⟨n, hn, q, hq, hle⟩
    cases hn
    cases hq
    have hcut : (37 : ℤ) * 1 ≤ 18 * 2 := (Rat.le_iff _ _).mp hle
    exact absurd hcut (by decide)
  refine ⟨⟨_, rfl, by decide, hno, fun h => hno ((h.verdict (.int (some 18)) rfl).mp (by decide))⟩,
    ⟨_, rfl, by decide⟩⟩

end BirthdayRole
