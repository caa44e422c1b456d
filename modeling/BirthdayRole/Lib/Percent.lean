/-
# Percent-encoding

Of the bytes of a text, letters, digits and `-`, `.`, `_`, `~` stand for themselves and all
others are written `%XX`. The decoder takes what is no such escape as it is, and then reads
UTF-8. What was encoded comes back (`decode_encode`), and in what is encoded nothing stands
that would end a field, a query or a path (`encode_safe`).
-/
import BirthdayRole.Lib.Fields

namespace Percent

/-- Letters, digits, `-`, `.`, `_` and `~`. -/
def unreserved (b : UInt8) : Bool :=
  (48 ≤ b && b ≤ 57) || (65 ≤ b && b ≤ 90) || (97 ≤ b && b ≤ 122) || b = 45 || b = 46 || b = 95 ||
    b = 126

def hexDigit (n : UInt8) : UInt8 := if n < 10 then 48 + n else 55 + n

def hexVal (b : UInt8) : Option UInt8 :=
  if 48 ≤ b && b ≤ 57 then some (b - 48)
  else if 65 ≤ b && b ≤ 70 then some (b - 55)
  else if 97 ≤ b && b ≤ 102 then some (b - 87)
  else none

def escape (b : UInt8) : List UInt8 :=
  if unreserved b then [b] else [37, hexDigit (b / 16), hexDigit (b % 16)]

def encodeBytes (bs : List UInt8) : List UInt8 := bs.flatMap escape

def decodeBytes : List UInt8 → List UInt8
  | a :: b :: c :: rest =>
    if a = 37 then
      match hexVal b, hexVal c with
      | some x, some y => (16 * x + y) :: decodeBytes rest
      | _, _ => a :: decodeBytes (b :: c :: rest)
    else a :: decodeBytes (b :: c :: rest)
  | bs => bs

/-- The characters of escapes, which are ASCII. -/
def chars (bs : List UInt8) : List Char := bs.map fun b => Char.ofNat b.toNat

def encode (s : String) : String := .ofList (chars (encodeBytes (Text.bytes s)))

/-- `from_utf8` of the decoded bytes. -/
def decode (s : String) : Option String := String.fromUTF8? ⟨(decodeBytes (Text.bytes s)).toArray⟩

/-! ### One byte -/

/-- A byte that stands for itself, or one that is written in two digits. -/
def Escaped (b : UInt8) : Prop :=
  (unreserved b = true ∧ b ≠ 37 ∧ b < 128) ∨
    (unreserved b = false ∧ hexVal (hexDigit (b / 16)) = some (b / 16) ∧
      hexVal (hexDigit (b % 16)) = some (b % 16) ∧ 16 * (b / 16) + b % 16 = b ∧
      unreserved (hexDigit (b / 16)) = true ∧ unreserved (hexDigit (b % 16)) = true)

instance (b : UInt8) : Decidable (Escaped b) := by
  unfold Escaped
  infer_instance

theorem escaped (b : UInt8) : Escaped b := by
  have hall : ∀ n < 256, Escaped (UInt8.ofNat n) := by decide +kernel
  have hb := hall b.toNat b.toNat_lt
  rwa [UInt8.ofNat_toNat] at hb

theorem lt_of_unreserved {b : UInt8} (h : unreserved b = true) : b < 128 := by
  rcases escaped b with ⟨-, -, hlt⟩ | ⟨hnot, -⟩
  · exact hlt
  · rw [h] at hnot
    cases hnot

/-- What is written is ASCII, and but for the percent sign it stands for itself. -/
theorem mem_escape {b c : UInt8} (h : c ∈ escape b) : c = 37 ∨ unreserved c = true := by
  unfold escape at h
  rcases escaped b with ⟨hb, -⟩ | ⟨hb, -, -, -, hx, hy⟩
  · rw [if_pos hb, List.mem_singleton] at h
    exact Or.inr (h ▸ hb)
  · rw [if_neg (by simp [hb])] at h
    simp only [List.mem_cons, List.not_mem_nil, or_false] at h
    rcases h with rfl | rfl | rfl
    · exact Or.inl rfl
    · exact Or.inr hx
    · exact Or.inr hy

theorem decodeBytes_cons {b : UInt8} (h : b ≠ 37) (rest : List UInt8) :
    decodeBytes (b :: rest) = b :: decodeBytes rest := by
  match rest with
  | [] => rfl
  | [_] => rfl
  | _ :: _ :: _ => rw [decodeBytes, if_neg h]

theorem decodeBytes_escape (b : UInt8) (rest : List UInt8) :
    decodeBytes (escape b ++ rest) = b :: decodeBytes rest := by
  unfold escape
  rcases escaped b with ⟨hb, hne, -⟩ | ⟨hb, hx, hy, hsum, -⟩
  · rw [if_pos hb]
    exact decodeBytes_cons hne rest
  · rw [if_neg (by simp [hb])]
    show decodeBytes (37 :: hexDigit (b / 16) :: hexDigit (b % 16) :: rest) = _
    rw [decodeBytes, if_pos rfl, hx, hy]
    dsimp only
    rw [hsum]

/-! ### Texts -/

theorem decodeBytes_encodeBytes : ∀ bs : List UInt8, decodeBytes (encodeBytes bs) = bs
  | [] => rfl
  | b :: bs => by
    have ih := decodeBytes_encodeBytes bs
    unfold encodeBytes at ih ⊢
    rw [List.flatMap_cons, decodeBytes_escape, ih]

theorem utf8_ascii {b : UInt8} (h : b < 128) : String.utf8EncodeChar (Char.ofNat b.toNat) = [b] := by
  have hall : ∀ n < 128, String.utf8EncodeChar (Char.ofNat n) = [UInt8.ofNat n] := by decide
  have hb := hall b.toNat (by simpa [UInt8.lt_iff_toNat_lt] using h)
  rwa [UInt8.ofNat_toNat] at hb

/-- The bytes of ASCII characters. -/
theorem bytes_chars {bs : List UInt8} (h : ∀ b ∈ bs, b < 128) :
    Text.bytes (.ofList (chars bs)) = bs := by
  unfold Text.bytes chars
  rw [String.toByteArray_ofList, List.utf8Encode, List.data_toByteArray, List.flatMap_map]
  show bs.flatMap _ = bs
  induction bs with
  | nil => rfl
  | cons b bs ih =>
    have hrest : ∀ c ∈ bs, c < 128 := fun c hc => h c (List.mem_cons_of_mem _ hc)
    rw [List.flatMap_cons, utf8_ascii (h b List.mem_cons_self), ih hrest]
    rfl

theorem fromUTF8_bytes (s : String) : String.fromUTF8? ⟨(Text.bytes s).toArray⟩ = some s := by
  have hb : (⟨(Text.bytes s).toArray⟩ : ByteArray) = s.toByteArray := by simp [Text.bytes]
  rw [hb]
  unfold String.fromUTF8?
  rw [dif_pos s.isValidUTF8]
  rfl

/-- What was encoded comes back. -/
theorem decode_encode (s : String) : decode (encode s) = some s := by
  have hascii : ∀ b ∈ encodeBytes (Text.bytes s), b < 128 := by
    intro b hb
    obtain ⟨_, -, hmem⟩ := List.mem_flatMap.mp hb
    rcases mem_escape hmem with rfl | hu
    · decide
    · exact lt_of_unreserved hu
  unfold decode encode
  rw [bytes_chars hascii, decodeBytes_encodeBytes, fromUTF8_bytes]

/-- Nothing stands in what is encoded but the percent sign, letters, digits, `-`, `.`, `_`, `~`. -/
theorem encode_safe {s : String} {c : Char} (h : c ∈ (encode s).toList) :
    c = '%' ∨ c.isAlphanum = true ∨ c ∈ ['-', '.', '_', '~'] := by
  have hall : ∀ n < 256, unreserved (UInt8.ofNat n) = true →
      (Char.ofNat n).isAlphanum = true ∨ Char.ofNat n ∈ ['-', '.', '_', '~'] := by decide +kernel
  unfold encode chars at h
  rw [String.toList_ofList] at h
  obtain ⟨b, hb, rfl⟩ := List.mem_map.mp h
  obtain ⟨a, -, hb⟩ := List.mem_flatMap.mp hb
  rcases mem_escape hb with rfl | hu
  · exact Or.inl rfl
  · rw [← UInt8.ofNat_toNat (x := b)] at hu
    exact Or.inr (hall b.toNat b.toNat_lt hu)

end Percent
