/-
# Fields separated by one character

`str::splitn`, and what it gives back of fields that were joined: the fields, if
only the last one may hold the separator (`splitn_intercalate`). Two ways to join
as many fields agree on them when those of one way are free of the separator
(`eq_of_intercalate_eq`). Numbers and bytes written in digits are such fields.
-/
import Mathlib.Algebra.Ring.Nat
import Mathlib.Data.List.TakeWhile
import BirthdayRole.Lib.Text

namespace Fields

variable {α : Type} [DecidableEq α]

/-- `str::splitn`: at most `n` fields, the last one with what is left. -/
def splitn (c : α) : ℕ → List α → List (List α)
  | 0, _ => []
  | 1, cs => [cs]
  | n + 2, cs =>
    match cs.dropWhile (· ≠ c) with
    | [] => [cs]
    | _ :: rest => cs.takeWhile (· ≠ c) :: splitn c (n + 1) rest

variable {c : α}

theorem takeWhile_free (cs : List α) : c ∉ cs.takeWhile (· ≠ c) := by
  intro h
  have := List.mem_takeWhile_imp h
  simp at this

theorem dropWhile_free {cs : List α} (h : c ∉ cs) (rest : List α) :
    (cs ++ c :: rest).dropWhile (· ≠ c) = c :: rest := by
  rw [List.dropWhile_append_of_pos fun a ha => by simpa using ne_of_mem_of_not_mem ha h]
  simp

theorem takeWhile_until {cs : List α} (h : c ∉ cs) (rest : List α) :
    (cs ++ c :: rest).takeWhile (· ≠ c) = cs := by
  rw [List.takeWhile_append_of_pos fun a ha => by simpa using ne_of_mem_of_not_mem ha h]
  simp

theorem splitn_ne_nil (n : ℕ) (cs : List α) : splitn c (n + 1) cs ≠ [] := by
  cases n with
  | zero => simp [splitn]
  | succ n =>
    rw [splitn]
    split <;> simp

/-- Nothing is lost. -/
theorem intercalate_splitn : ∀ (n : ℕ) (cs : List α), [c].intercalate (splitn c (n + 1) cs) = cs
  | 0, cs => by simp [splitn]
  | n + 1, cs => by
    rw [splitn]
    split
    · simp
    · rename_i x rest hx
      have hc : x = c := by
        have hne : cs.dropWhile (· ≠ c) ≠ [] := by rw [hx]; exact List.cons_ne_nil _ _
        have hhead := List.head_dropWhile_not (fun a => decide (a ≠ c)) hne
        simp only [hx, List.head_cons] at hhead
        simpa using hhead
      have hcs : cs.takeWhile (· ≠ c) ++ cs.dropWhile (· ≠ c) = cs := List.takeWhile_append_dropWhile
      rw [hx, hc] at hcs
      rw [List.intercalate_cons_of_ne_nil (splitn_ne_nil n rest), intercalate_splitn n rest,
        List.append_assoc]
      exact hcs

/-- Every field but the last is free of the separator. -/
theorem splitn_free : ∀ (n : ℕ) (cs : List α), ∀ f ∈ (splitn c n cs).dropLast, c ∉ f
  | 0, _, f, hf => by simp [splitn] at hf
  | 1, _, f, hf => by simp [splitn] at hf
  | n + 2, cs, f, hf => by
    rw [splitn] at hf
    split at hf
    · simp at hf
    · rename_i x rest hx
      rw [List.dropLast_cons_of_ne_nil (splitn_ne_nil n rest)] at hf
      rcases List.mem_cons.mp hf with rfl | hf
      · exact takeWhile_free cs
      · exact splitn_free (n + 1) rest f hf

/-- Fields that were joined come back, if only the last may hold the separator. -/
theorem splitn_intercalate : ∀ {fs : List (List α)}, fs ≠ [] → (∀ f ∈ fs.dropLast, c ∉ f) →
    splitn c fs.length ([c].intercalate fs) = fs
  | [], h, _ => absurd rfl h
  | [f], _, _ => by simp [splitn]
  | f :: g :: fs, _, h => by
    have hf : c ∉ f := h f (by simp)
    have ih := splitn_intercalate (List.cons_ne_nil g fs)
      fun x hx => h x (by rw [List.dropLast_cons_of_ne_nil (List.cons_ne_nil _ _)]
                          exact List.mem_cons_of_mem _ hx)
    have hcs : [c].intercalate (f :: g :: fs) = f ++ c :: [c].intercalate (g :: fs) := by
      simp [List.intercalate_cons_cons]
    rw [hcs, List.length_cons, List.length_cons, splitn, dropWhile_free hf, takeWhile_until hf]
    exact congrArg (f :: ·) ih

theorem count_intercalate : ∀ {fs : List (List α)}, fs ≠ [] →
    ([c].intercalate fs).count c + 1 = fs.length + (fs.map (List.count c)).sum
  | [], h => absurd rfl h
  | [f], _ => by simp [Nat.add_comm]
  | f :: g :: fs, _ => by
    have ih := count_intercalate (List.cons_ne_nil g fs)
    rw [List.intercalate_cons_cons, List.count_append, List.count_append, List.count_singleton_self,
      List.length_cons, List.map_cons, List.sum_cons]
    omega

/-- As many fields, joined to the same: if the one lot is free of the separator,
they are the same. -/
theorem eq_of_intercalate_eq {fs gs : List (List α)} (hlen : fs.length = gs.length)
    (hfree : ∀ f ∈ fs, c ∉ f) (h : [c].intercalate fs = [c].intercalate gs) : fs = gs := by
  rcases eq_or_ne fs [] with rfl | hfs
  · exact (List.length_eq_zero_iff.mp hlen.symm).symm
  have hgs : gs ≠ [] := fun he => hfs (List.length_eq_zero_iff.mp (by rw [hlen, he]; rfl))
  have hsum : (fs.map (List.count c)).sum = 0 := by
    rw [List.sum_eq_zero_iff_forall_eq_nat]
    intro x hx
    obtain ⟨f, hf, rfl⟩ := List.mem_map.mp hx
    exact List.count_eq_zero.mpr (hfree f hf)
  have hzero : (gs.map (List.count c)).sum = 0 := by
    have h1 := count_intercalate (c := c) hfs
    have h2 := count_intercalate (c := c) hgs
    rw [h] at h1
    omega
  have hfree' : ∀ g ∈ gs, c ∉ g := fun g hg =>
    List.count_eq_zero.mp (List.sum_eq_zero_iff_forall_eq_nat.mp hzero _ (List.mem_map_of_mem hg))
  have h1 := splitn_intercalate hfs fun f hf => hfree f (List.dropLast_subset _ hf)
  have h2 := splitn_intercalate hgs fun g hg => hfree' g (List.dropLast_subset _ hg)
  rw [h, hlen, h2] at h1
  exact h1.symm

end Fields

namespace Text

/-- `str::splitn` of a string. -/
def splitn (n : ℕ) (c : Char) (s : String) : List String :=
  (Fields.splitn c n s.toList).map String.ofList

theorem toList_join (c : Char) : ∀ ss : List String,
    (join (String.singleton c) ss).toList = [c].intercalate (ss.map String.toList)
  | [] => rfl
  | [s] => by simp [join]
  | s :: t :: r => by
    have ih := toList_join c (t :: r)
    rw [join, String.toList_append, String.toList_append, ih]
    simp [List.intercalate_cons_cons]

/-- Fields that were joined come back, if only the last may hold the separator. -/
theorem splitn_join {c : Char} (ss : List String) (hne : ss ≠ [])
    (h : ∀ s ∈ ss.dropLast, c ∉ s.toList) :
    splitn ss.length c (join (String.singleton c) ss) = ss := by
  have hf : ∀ f ∈ (ss.map String.toList).dropLast, c ∉ f := by
    intro f hf
    rw [← List.map_dropLast] at hf
    obtain ⟨s, hs, rfl⟩ := List.mem_map.mp hf
    exact h s hs
  have := Fields.splitn_intercalate (by simpa using hne) hf
  rw [List.length_map] at this
  rw [splitn, toList_join, this, List.map_map]
  simp [Function.comp_def]

/-- Nothing is lost. -/
theorem join_splitn (n : ℕ) (c : Char) (s : String) :
    join (String.singleton c) (splitn (n + 1) c s) = s := by
  have h := Fields.intercalate_splitn (c := c) n s.toList
  rw [← String.toList_inj, toList_join, splitn, List.map_map]
  simpa [Function.comp_def] using h

/-- Every field but the last is free of the separator. -/
theorem splitn_free {n : ℕ} {c : Char} {s f : String} (hf : f ∈ (splitn n c s).dropLast) :
    c ∉ f.toList := by
  rw [splitn, ← List.map_dropLast] at hf
  obtain ⟨l, hl, rfl⟩ := List.mem_map.mp hf
  rw [String.toList_ofList]
  exact Fields.splitn_free n _ l hl

/-- As many fields, joined to the same: if the one lot is free of the separator,
they are the same. -/
theorem join_inj {c : Char} {ss ts : List String} (hlen : ss.length = ts.length)
    (hfree : ∀ s ∈ ss, c ∉ s.toList)
    (h : join (String.singleton c) ss = join (String.singleton c) ts) : ss = ts := by
  have hlist := congrArg String.toList h
  rw [toList_join, toList_join] at hlist
  have hmap := Fields.eq_of_intercalate_eq (by simpa using hlen) (by simpa using hfree) hlist
  exact List.map_injective_iff.mpr (fun _ _ => String.toList_inj.mp) hmap

/-- Joined to the same, fields that are free of the separator are no fewer than others. -/
theorem length_le_of_join_eq {c : Char} {ss ts : List String} (hss : ss ≠ []) (hts : ts ≠ [])
    (hfree : ∀ s ∈ ss, c ∉ s.toList)
    (h : join (String.singleton c) ss = join (String.singleton c) ts) : ts.length ≤ ss.length := by
  have hzero : ((ss.map String.toList).map (List.count c)).sum = 0 := by
    rw [List.map_map, List.sum_eq_zero_iff_forall_eq_nat]
    intro n hn
    obtain ⟨s, hs, rfl⟩ := List.mem_map.mp hn
    exact List.count_eq_zero.mpr (hfree s hs)
  have h1 := Fields.count_intercalate (c := c) (show ss.map String.toList ≠ [] by simpa using hss)
  have h2 := Fields.count_intercalate (c := c) (show ts.map String.toList ≠ [] by simpa using hts)
  rw [← toList_join, h, toList_join, hzero, List.length_map] at h1
  rw [List.length_map] at h2
  omega

theorem join_concat (sep : String) : ∀ {ss : List String} (_ : ss ≠ []) (t : String),
    join sep (ss ++ [t]) = join sep ss ++ sep ++ t
  | [], h, _ => absurd rfl h
  | [s], _, t => rfl
  | s :: u :: r, _, t => by
    have ih := join_concat sep (List.cons_ne_nil u r) t
    rw [List.cons_append, List.cons_append, join, ← List.cons_append, ih, join]
    simp only [String.append_assoc]

/-- The UTF-8 bytes of a string. -/
def bytes (s : String) : List UInt8 := s.toByteArray.data.toList

theorem bytes_inj {s t : String} : bytes s = bytes t ↔ s = t := by
  constructor
  · intro h
    exact String.toByteArray_inj.mp (ByteArray.ext (Array.toList_inj.mp h))
  · rintro rfl
    rfl

/-! ### Digits -/

/-- `hex::encode`. -/
def hexEncode (bs : List UInt8) : String :=
  .ofList (bs.flatMap fun b => [Nat.digitChar (b.toNat / 16), Nat.digitChar (b.toNat % 16)])

theorem isAlphanum_of_mem_hexEncode {bs : List UInt8} {c : Char} (h : c ∈ (hexEncode bs).toList) :
    c.isAlphanum = true := by
  have hdigit : ∀ n < 16, (Nat.digitChar n).isAlphanum = true := by decide
  rw [hexEncode, String.toList_ofList] at h
  obtain ⟨b, -, hb⟩ := List.mem_flatMap.mp h
  have hlt : b.toNat < 256 := b.toNat_lt
  rcases List.mem_cons.mp hb with rfl | hb
  · exact hdigit _ (by omega)
  · rw [List.mem_singleton.mp hb]
    exact hdigit _ (by omega)

theorem colon_not_mem_hexEncode (bs : List UInt8) : ':' ∉ (hexEncode bs).toList := fun h =>
  absurd (isAlphanum_of_mem_hexEncode h) (by decide)

theorem digits_eq_ofDigitChars {cs : List Char} (h : ∀ c ∈ cs, c.isDigit = true) :
    digits cs = some (Nat.ofDigitChars 10 cs 0) := by
  have hfold : ∀ (cs : List Char) (n : ℕ), (∀ c ∈ cs, c.isDigit = true) →
      cs.foldl (fun acc c => acc.bind fun n =>
        if c.isDigit then some (10 * n + (c.toNat - 48)) else none) (some n) =
        some (Nat.ofDigitChars 10 cs n) := by
    intro cs
    induction cs with
    | nil => exact fun n _ => rfl
    | cons c cs ih =>
      intro n hcs
      have hc := List.forall_mem_cons.mp hcs
      rw [List.foldl_cons, Option.bind_some, if_pos hc.1, Nat.ofDigitChars_cons]
      exact ih _ hc.2
  exact hfold cs 0 h

/-- A number that is written is read back. -/
theorem parseI64_toString {n : ℕ} (h : n < 2 ^ 63) :
    parseI64 (toString n) = some ⟨n, by omega, by omega⟩ := by
  have hlist : (toString n).toList = Nat.toDigits 10 n := Nat.toList_repr
  have hdigit : ∀ c ∈ Nat.toDigits 10 n, c.isDigit = true := fun c hc =>
    Nat.isDigit_of_mem_toDigits (by decide) (by decide) hc
  have hsign : sign (Nat.toDigits 10 n) = (1, Nat.toDigits 10 n) := by
    unfold sign
    split
    · rename_i cs hcs
      exact absurd (hdigit '-' (by rw [hcs]; exact List.mem_cons_self)) (by decide)
    · rename_i cs hcs
      exact absurd (hdigit '+' (by rw [hcs]; exact List.mem_cons_self)) (by decide)
    · rfl
  have hdigits : digits (Nat.toDigits 10 n) = some n := by
    rw [digits_eq_ofDigitChars hdigit, Nat.ofDigitChars_ten_toDigits]
  unfold parseI64
  rw [hlist, hsign]
  show (if Nat.toDigits 10 n = [] then none else
    (digits (Nat.toDigits 10 n)).bind fun n => I64.ofInt? (1 * (n : ℤ))) = _
  rw [if_neg Nat.toDigits_ne_nil, hdigits, Option.bind_some, one_mul]
  exact dif_pos _

/-- The same for a number with a sign. -/
theorem parseI64_toString_int (k : I64) : parseI64 (toString (k : ℤ)) = some k := by
  obtain ⟨k, hlo, hhi⟩ := k
  show parseI64 (toString k) = _
  cases k with
  | ofNat n =>
    have hn : (n : ℤ) < 2 ^ 63 := hhi
    exact parseI64_toString (by omega)
  | negSucc n =>
    have hdigits : digits (Nat.toDigits 10 (n + 1)) = some (n + 1) := by
      rw [digits_eq_ofDigitChars fun c hc => Nat.isDigit_of_mem_toDigits (by decide) (by decide) hc,
        Nat.ofDigitChars_ten_toDigits]
    have hlist : (toString (Int.negSucc n)).toList = '-' :: Nat.toDigits 10 (n + 1) := by
      show ("-" ++ Nat.repr (n + 1)).toList = _
      rw [String.toList_append, Nat.toList_repr]
      rfl
    have hneg : (-1 : ℤ) * ((n + 1 : ℕ) : ℤ) = Int.negSucc n := by omega
    unfold parseI64
    rw [hlist]
    show (if Nat.toDigits 10 (n + 1) = [] then none else
      (digits (Nat.toDigits 10 (n + 1))).bind fun n => I64.ofInt? (-1 * (n : ℤ))) = _
    rw [if_neg Nat.toDigits_ne_nil, hdigits, Option.bind_some, hneg]
    exact dif_pos _

theorem isDigit_of_mem_toString {n : ℕ} {c : Char} (h : c ∈ (toString n).toList) :
    c.isDigit = true := by
  rw [show (toString n).toList = Nat.toDigits 10 n from Nat.toList_repr] at h
  exact Nat.isDigit_of_mem_toDigits (by decide) (by decide) h

theorem colon_not_mem_toString (n : ℕ) : ':' ∉ (toString n).toList := fun h =>
  absurd (isDigit_of_mem_toString h) (by decide)

end Text
