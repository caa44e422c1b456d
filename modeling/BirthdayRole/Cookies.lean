/-
# The session cookie (`services/session.rs`)

A cookie holds the Discord id, the percent-encoded name, the expiry and a tag over the three,
with colons between them. `mint_session` writes one the way the Auth Gateway does. What is
read of it is what it was minted for, whatever stands in the name, unless it has expired or
the id holds a colon (`verifySession_mint`).
-/
import BirthdayRole.IframeTokens
import BirthdayRole.Lib.Percent
import BirthdayRole.Routes

namespace BirthdayRole

open Text

/-- `urlencoding::encode` is the percent-encoding of the bytes. -/
theorem Routes.urlEncode_eq (s : String) : urlEncode s = Percent.encode s := by
  have hall : ∀ n < 256,
      (if (Char.ofNat n).isAlphanum || decide (Char.ofNat n ∈ ['-', '_', '.', '~']) then [Char.ofNat n]
        else ['%', (Nat.digitChar (n / 16)).toUpper, (Nat.digitChar (n % 16)).toUpper]) =
        Percent.chars (Percent.escape (UInt8.ofNat n)) := by decide +kernel
  unfold urlEncode Percent.encode Percent.encodeBytes Percent.chars
  rw [List.map_flatMap]
  refine congrArg String.ofList (List.flatMap_congr fun b _ => ?_)
  have hb := hall b.toNat b.toNat_lt
  rw [UInt8.ofNat_toNat] at hb
  rw [← Percent.chars, ← hb]

theorem Routes.colon_not_mem_urlEncode (s : String) : ':' ∉ (urlEncode s).toList := by
  rw [urlEncode_eq]
  intro h
  rcases Percent.encode_safe h with h | h | h
  · exact absurd h (by decide)
  · exact absurd h (by decide)
  · exact absurd h (by decide)

/-- The tags, with percent-decoding as it is. -/
def TokenCrates.decoding (K : TokenCrates) : TokenCrates := { K with urlDecode := Percent.decode }

/-- `mint_session` -/
def mintSession (K : TokenCrates) (discordId displayName : String) (expiresUnix : I64)
    (secret : String) : String :=
  signed K secret [discordId, Routes.urlEncode displayName, toString (expiresUnix : ℤ)]

variable (K : TokenCrates) (secret : String)

/-- A colon in the id is one field more. -/
theorem verifySession_colon (now : Time) {discordId : String} (displayName : String)
    (expiresUnix : I64) (h : ':' ∈ discordId.toList) :
    verifySession K now (mintSession K discordId displayName expiresUnix secret) secret = none := by
  obtain ⟨before, after, hsplit⟩ := List.append_of_mem h
  have hid : discordId = .ofList before ++ ":" ++ .ofList after := by
    apply String.toList_injective
    simp [hsplit]
  let tag := hexEncode (K.hmac secret
    (join ":" [discordId, Routes.urlEncode displayName, toString (expiresUnix : ℤ)]))
  have hfields : mintSession K discordId displayName expiresUnix secret =
      join ":" [.ofList before, .ofList after, Routes.urlEncode displayName,
        toString (expiresUnix : ℤ), tag] := by
    have hone : ∀ rest : String, discordId ++ ":" ++ rest =
        String.ofList before ++ ":" ++ (String.ofList after ++ ":" ++ rest) := by
      intro rest
      rw [hid]
      simp only [String.append_assoc]
    exact hone _
  rw [hfields]
  exact verifySession_none _ (by simp)

theorem colon_not_mem_toString_int (k : ℤ) : ':' ∉ (toString k).toList := by
  cases k with
  | ofNat n => exact colon_not_mem_toString n
  | negSucc n =>
    have hlist : (toString (Int.negSucc n)).toList = '-' :: (toString (n + 1)).toList := by
      show ("-" ++ Nat.repr (n + 1)).toList = _
      rw [String.toList_append]
      rfl
    rw [hlist, List.mem_cons, not_or]
    exact ⟨by decide, colon_not_mem_toString (n + 1)⟩

/-- A session is read as what it was minted for, until it expires, if the id holds no colon. -/
theorem verifySession_mint (now : Time) (discordId displayName : String) (expiresUnix : I64) :
    verifySession K.decoding now (mintSession K.decoding discordId displayName expiresUnix secret)
        secret =
      if ':' ∉ discordId.toList ∧ (timestamp now : ℤ) ≤ expiresUnix then some (discordId, displayName)
      else none := by
  by_cases hid : ':' ∈ discordId.toList
  · rw [if_neg fun h => h.1 hid]
    exact verifySession_colon K.decoding secret now displayName expiresUnix hid
  have hfree : ∀ f ∈ [discordId, Routes.urlEncode displayName, toString (expiresUnix : ℤ)],
      ':' ∉ f.toList := by
    intro f hf
    simp only [List.mem_cons, List.not_mem_nil, or_false] at hf
    rcases hf with rfl | rfl | rfl
    · exact hid
    · exact Routes.colon_not_mem_urlEncode displayName
    · exact colon_not_mem_toString_int expiresUnix
  let fields := [discordId, Routes.urlEncode displayName, toString (expiresUnix : ℤ)]
  have hparts : splitn 4 ':' (mintSession K.decoding discordId displayName expiresUnix secret) =
      fields ++ [hexEncode (K.decoding.hmac secret (join ":" fields))] := by
    refine splitn_join (fields ++ [_]) (by simp) ?_
    rw [List.dropLast_concat]
    exact hfree
  have hname : K.decoding.urlDecode (Routes.urlEncode displayName) = some displayName := by
    rw [Routes.urlEncode_eq]
    exact Percent.decode_encode displayName
  unfold verifySession
  rw [hparts]
  show (do
    let expires ← parseI64 (toString (expiresUnix : ℤ))
    if _ then none else if constantTimeEq _ _ = true then _ else none) = _
  rw [parseI64_toString_int, Option.bind_eq_bind, Option.bind_some, if_pos (constantTimeEq_iff.mpr rfl)]
  by_cases hexp : (timestamp now : ℤ) ≤ expiresUnix
  · rw [if_neg (by omega), if_pos (show _ ∧ _ from ⟨hid, hexp⟩), hname]
    rfl
  · rw [if_pos (by omega), if_neg fun h => hexp h.2]

end BirthdayRole
