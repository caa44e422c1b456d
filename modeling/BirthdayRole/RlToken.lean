/-
# Tokens (`services/rl_token.rs`, `services/session.rs`)

Three signed texts. RoleLogic signs a JWT with the API token of a link; for it the
page gets an iframe session, signed with the session secret; and the Auth Gateway
signs the cookie session with that secret too. A tag is compared with the one that
is computed here, so what is known of an accepted text is what was tagged.

An iframe session is read as what it was minted as or not at all, whatever its
fields hold (`verifyIframeSession_mint_some`): the read-only flag stays.
-/
import BirthdayRole.Db
import BirthdayRole.Lib.Fields
import BirthdayRole.Lib.Json
import BirthdayRole.Lib.Sha256

namespace BirthdayRole

open Json Text Result

/-- What tokens take from the crates. -/
structure TokenCrates where
  /-- `Hmac<Sha256>`: the tag of a key and a message -/
  hmac : String → String → List UInt8
  /-- `URL_SAFE_NO_PAD.decode` -/
  base64 : String → Option (List UInt8)
  /-- `serde_json::from_slice`; an object keeps every field it is written with -/
  json : List UInt8 → Option Value
  /-- `urlencoding::decode` -/
  urlDecode : String → Option String

/-- The tags are the real ones; nothing is Base64, JSON or percent-encoded. -/
def TokenCrates.sha256 : TokenCrates where
  hmac key msg := Sha256.hmac (bytes key) (bytes msg)
  base64 _ := none
  json _ := none
  urlDecode _ := none

/-- `Utc::now().timestamp()`. -/
def timestamp (now : Time) : ℕ := now / 1000000

def constantTimeEq (a b : List UInt8) : Bool :=
  if a.length ≠ b.length then false
  else (a.zip b).foldl (fun diff (x, y) => diff ||| (x ^^^ y)) 0 = 0

/-! ### The JWT of RoleLogic -/

inductive RlTokenError where
  | malformed | badSignature | expired | wrongAudience | wrongIssuer
  deriving DecidableEq

structure JwtHeader where
  alg : String
  typ : Option String

structure Claims where
  iss : String
  aud : String
  sub : String
  guildId : String
  roleId : String
  exp : I64
  readOnly : Bool
  act : Option String

structure Verified where
  discordId : String
  guildId : String
  roleId : String
  readOnly : Bool
  actorId : Option String

/-- A field of an object that may be missing; a field that comes twice is an error. -/
def field? (o : List (String × Value)) (key : String) : Option (Option Value) :=
  match o.filter (·.1 = key) with
  | [] => some none
  | [(_, v)] => some (some v)
  | _ => none

def field (o : List (String × Value)) (key : String) : Option Value := (field? o key).join

/-- `#[serde(default)]` of an `Option<String>`. -/
def optStr : Option Value → Option (Option String)
  | none | some .null => some none
  | some v => v.asStr.map some

/-- `#[serde(default)]` of a `bool`. -/
def optBool : Option Value → Option Bool
  | none => some false
  | some v => v.asBool

def JwtHeader.fromValue : Value → Option JwtHeader
  | .object o => do
    let alg ← (← field o "alg").asStr
    let typ ← optStr (← field? o "typ")
    some ⟨alg, typ⟩
  | _ => none

def Claims.fromValue : Value → Option Claims
  | .object o => do
    let iss ← (← field o "iss").asStr
    let aud ← (← field o "aud").asStr
    let sub ← (← field o "sub").asStr
    let guildId ← (← field o "guild_id").asStr
    let roleId ← (← field o "role_id").asStr
    let exp ← (← field o "exp").asI64
    let readOnly ← optBool (← field? o "read_only")
    let act ← optStr (← field? o "act")
    some ⟨iss, aud, sub, guildId, roleId, exp, readOnly, act⟩
  | _ => none

def allowedSkewSecs : ℤ := 60

def audMatches (claimAud expected : String) : Bool :=
  trimEndMatches '/' claimAud = trimEndMatches '/' expected

/-- `verify`. The sum with the skew wraps around as in a release build. -/
def verify (K : TokenCrates) (now : Time) (token roleLinkToken expectedAud : String) :
    Except RlTokenError Verified :=
  match splitn 3 '.' token with
  | [headerB64, payloadB64, sigB64] => do
    let headerBytes ← okOr (K.base64 headerB64) .malformed
    let payloadBytes ← okOr (K.base64 payloadB64) .malformed
    let sigBytes ← okOr (K.base64 sigB64) .malformed
    let header ← okOr ((K.json headerBytes).bind JwtHeader.fromValue) .malformed
    if header.alg ≠ "HS256" then .error .badSignature
    else if header.typ.any fun typ => toAsciiLowercase typ ≠ "jwt" then .error .malformed
    else if K.hmac roleLinkToken (headerB64 ++ "." ++ payloadB64) ≠ sigBytes then
      .error .badSignature
    else
      let claims ← okOr ((K.json payloadBytes).bind Claims.fromValue) .malformed
      if claims.iss ≠ "rolelogic" then .error .wrongIssuer
      else if !audMatches claims.aud expectedAud then .error .wrongAudience
      else if ((claims.exp : ℤ) + allowedSkewSecs).bmod (2 ^ 64) < (timestamp now : ℤ) then
        .error .expired
      else .ok ⟨claims.sub, claims.guildId, claims.roleId, claims.readOnly, claims.act⟩
  | _ => .error .malformed

/-- The third part of a token is the tag of the other two under a key. -/
def SignedUnder (K : TokenCrates) (key token : String) : Prop :=
  ∃ headerB64 payloadB64 sigB64, splitn 3 '.' token = [headerB64, payloadB64, sigB64] ∧
    K.base64 sigB64 = some (K.hmac key (headerB64 ++ "." ++ payloadB64))

variable {K : TokenCrates} {now : Time}

theorem verify_signed {token key aud : String} {v : Verified} (h : verify K now token key aud = .ok v) :
    SignedUnder K key token := by
  unfold verify at h
  split at h
  · rename_i headerB64 payloadB64 sigB64 hparts
    obtain ⟨_, -, h⟩ := bind_ok h
    obtain ⟨_, -, h⟩ := bind_ok h
    obtain ⟨sig, hsig, h⟩ := bind_ok h
    obtain ⟨_, -, h⟩ := bind_ok h
    have h := (guard_ok (guard_ok h).2).2
    have htag := (guard_ok h).1
    push Not at htag
    exact ⟨headerB64, payloadB64, sigB64, hparts, by rw [okOr_ok hsig, htag]⟩
  · cases h

/-! ### The iframe session -/

def iframePrefix : String := "ifs:"
def iframeTtlSecs : ℕ := 60 * 60

structure IframeSession where
  discordId : String
  guildId : String
  roleId : String
  readOnly : Bool
  deriving DecidableEq

def roStr (readOnly : Bool) : String := if readOnly then "1" else "0"

def readRo : String → Option Bool
  | "0" => some false
  | "1" => some true
  | _ => none

theorem readRo_roStr (readOnly : Bool) : readRo (roStr readOnly) = some readOnly := by
  cases readOnly <;> rfl

/-- The payload with its tag. -/
def signed (K : TokenCrates) (secret : String) (fields : List String) : String :=
  join ":" (fields ++ [hexEncode (K.hmac secret (join ":" fields))])

def mintIframeSession (K : TokenCrates) (now : Time) (discordId guildId roleId : String)
    (readOnly : Bool) (secret : String) : String :=
  let exp := timestamp now + iframeTtlSecs
  iframePrefix ++ signed K secret [discordId, guildId, roleId, roStr readOnly, toString exp]

def verifyIframeSession (K : TokenCrates) (now : Time) (token secret : String) :
    Option IframeSession := do
  let rest ← stripPrefix iframePrefix token
  match splitn 6 ':' rest with
  | [discordId, guildId, roleId, ro, expStr, sig] =>
    let readOnly ← readRo ro
    let exp ← parseI64 expStr
    if (exp : ℤ) < (timestamp now : ℤ) then none
    else
      let expected := hexEncode (K.hmac secret (join ":" [discordId, guildId, roleId, ro, expStr]))
      if constantTimeEq (bytes sig) (bytes expected) then
        some ⟨discordId, guildId, roleId, readOnly⟩
      else none
  | _ => none

/-! ### The cookie session -/

def verifySession (K : TokenCrates) (now : Time) (cookieValue secret : String) :
    Option (String × String) :=
  match splitn 4 ':' cookieValue with
  | [discordId, encodedName, expiresStr, sig] => do
    let expires ← parseI64 expiresStr
    if (expires : ℤ) < (timestamp now : ℤ) then none
    else
      let expected := hexEncode (K.hmac secret (join ":" [discordId, encodedName, expiresStr]))
      if constantTimeEq (bytes sig) (bytes expected) then
        let displayName ← K.urlDecode encodedName
        some (discordId, displayName)
      else none
  | _ => none

/-! ### Reading what was minted -/

theorem constantTimeEq_iff {a b : List UInt8} : constantTimeEq a b = true ↔ a = b := by
  -- the difference never loses a bit
  have hfold : ∀ (a b : List UInt8) (d : UInt8), a.length = b.length →
      ((a.zip b).foldl (fun diff (x, y) => diff ||| (x ^^^ y)) d = 0 ↔ d = 0 ∧ a = b) := by
    intro a
    induction a with
    | nil =>
      intro b d hlen
      rw [List.length_eq_zero_iff.mp hlen.symm]
      simp
    | cons x a ih =>
      intro b d hlen
      cases b with
      | nil => cases hlen
      | cons y b =>
        rw [List.zip_cons_cons, List.foldl_cons, ih b _ (by simpa using hlen)]
        rw [UInt8.or_eq_zero_iff, UInt8.xor_eq_zero_iff, List.cons.injEq]
        tauto
  unfold constantTimeEq
  by_cases hlen : a.length = b.length
  · simp [hlen, hfold a b 0 hlen]
  · simp only [ne_eq, hlen, not_false_eq_true, if_true, Bool.false_eq_true, false_iff]
    rintro rfl
    exact hlen rfl

theorem stripPrefix_append (p s : String) : stripPrefix p (p ++ s) = some s := by
  unfold stripPrefix
  rw [String.toList_append, if_pos (List.prefix_append _ _), List.drop_left]
  exact congrArg some (String.ofList_toList)

/-- What an accepted session is: six fields, the last the tag of the others. -/
theorem verifyIframeSession_eq_some {token secret : String} {s : IframeSession} :
    verifyIframeSession K now token secret = some s ↔
      ∃ rest ro expStr, ∃ exp : I64, stripPrefix iframePrefix token = some rest ∧
        splitn 6 ':' rest = [s.discordId, s.guildId, s.roleId, ro, expStr, hexEncode (K.hmac secret
          (join ":" [s.discordId, s.guildId, s.roleId, ro, expStr]))] ∧
        readRo ro = some s.readOnly ∧ parseI64 expStr = some exp ∧ (timestamp now : ℤ) ≤ exp := by
  unfold verifyIframeSession
  constructor
  · intro h
    obtain ⟨rest, hrest, h⟩ := Option.bind_eq_some_iff.mp h
    split at h
    · rename_i d g r ro expStr sig hparts
      obtain ⟨readOnly, hro, h⟩ := Option.bind_eq_some_iff.mp h
      obtain ⟨exp, hexp, h⟩ := Option.bind_eq_some_iff.mp h
      split at h
      · cases h
      · rename_i hlt
        dsimp only at h
        split at h
        · rename_i hsig
          cases h
          rw [bytes_inj.mp (constantTimeEq_iff.mp hsig)] at hparts
          exact ⟨rest, ro, expStr, exp, hrest, hparts, hro, hexp, not_lt.mp hlt⟩
        · cases h
    · cases h
  · rintro ⟨rest, ro, expStr, exp, hrest, hparts, hro, hexp, hle⟩
    rw [hrest, Option.bind_eq_bind, Option.bind_some]
    simp only [hparts, hro, hexp, Option.bind_eq_bind, Option.bind_some]
    rw [if_neg (not_lt.mpr hle), if_pos (constantTimeEq_iff.mpr rfl)]

/-- As many fields with a tag, none of them with a colon, are the ones that were signed. -/
theorem fields_of_signed {secret msg : String} (fields parts : List String)
    (hparts : splitn (fields.length + 1) ':' (signed K secret fields) =
      parts ++ [hexEncode (K.hmac secret msg)])
    (hlen : parts.length = fields.length) : parts = fields := by
  have hfree : ∀ f ∈ parts ++ [hexEncode (K.hmac secret msg)], ':' ∉ f.toList := by
    intro f hf
    rcases List.mem_append.mp hf with hf | hf
    · refine splitn_free (n := fields.length + 1) (s := signed K secret fields) ?_
      rwa [hparts, List.dropLast_concat]
    · rw [List.mem_singleton.mp hf]
      exact colon_not_mem_hexEncode _
  have hjoin := join_splitn fields.length ':' (signed K secret fields)
  rw [hparts] at hjoin
  have heq := join_inj (c := ':') (by simp [hlen]) hfree hjoin
  exact (List.append_inj heq hlen).1

/-- A session that was minted is read as it was minted, or not at all. -/
theorem verifyIframeSession_mint_some {t : Time} {d g r secret : String} {ro : Bool}
    {s : IframeSession} (h : verifyIframeSession K now (mintIframeSession K t d g r ro secret) secret =
      some s) : s = ⟨d, g, r, ro⟩ := by
  obtain ⟨rest, ro', expStr, exp, hrest, hparts, hro, -, -⟩ := verifyIframeSession_eq_some.mp h
  rw [mintIframeSession, stripPrefix_append, Option.some.injEq] at hrest
  rw [← hrest] at hparts
  have heq := fields_of_signed [d, g, r, roStr ro, toString (timestamp t + iframeTtlSecs)]
    [s.discordId, s.guildId, s.roleId, ro', expStr] hparts rfl
  simp only [List.cons.injEq] at heq
  obtain ⟨rfl, rfl, rfl, rfl, -⟩ := heq
  rw [readRo_roStr, Option.some.injEq] at hro
  rw [hro]

/-- Within its hour, a session whose fields hold no colon is read. -/
theorem verifyIframeSession_mint {t : Time} {d g r secret : String} {ro : Bool}
    (hd : ':' ∉ d.toList) (hg : ':' ∉ g.toList) (hr : ':' ∉ r.toList)
    (hle : timestamp now ≤ timestamp t + iframeTtlSecs) (ht : timestamp t + iframeTtlSecs < 2 ^ 63) :
    verifyIframeSession K now (mintIframeSession K t d g r ro secret) secret = some ⟨d, g, r, ro⟩ := by
  have hro : ':' ∉ (roStr ro).toList := by cases ro <;> decide
  refine verifyIframeSession_eq_some.mpr ⟨_, roStr ro, _, _, stripPrefix_append _ _, ?_,
    readRo_roStr ro, parseI64_toString ht, ?_⟩
  · refine splitn_join [d, g, r, roStr ro, _, _] (List.cons_ne_nil _ _) fun s hs => ?_
    simp only [List.dropLast, List.mem_cons, List.not_mem_nil, or_false] at hs
    rcases hs with rfl | rfl | rfl | rfl | rfl
    exacts [hd, hg, hr, hro, colon_not_mem_toString _]
  · push_cast
    omega

end BirthdayRole
