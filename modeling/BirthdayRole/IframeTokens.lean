/-
# Which iframe sessions are accepted

Two kinds of text are signed with the session secret: iframe sessions, by
`mint_iframe_session`, and cookie sessions, by the Auth Gateway. Where a tag exists only
for what was signed (`Unforged`), a text is read as an iframe session if and only if it
is the very text that was minted for it, within its hour and with no colon in an id
(`iframeSession_accepted`). The prefix is not signed; what keeps the two kinds apart is
the number of their fields.
-/
import BirthdayRole.RlToken

namespace BirthdayRole

open Text

/-! ### What is signed -/

/-- An iframe session that was minted. -/
structure IframeMint where
  now : Time
  session : IframeSession
  inRange : timestamp now + iframeTtlSecs < 2 ^ 63

namespace IframeMint

def exp (m : IframeMint) : ℕ := timestamp m.now + iframeTtlSecs

def fields (m : IframeMint) : List String :=
  [m.session.discordId, m.session.guildId, m.session.roleId, roStr m.session.readOnly, toString m.exp]

def token (K : TokenCrates) (secret : String) (m : IframeMint) : String :=
  mintIframeSession K m.now m.session.discordId m.session.guildId m.session.roleId m.session.readOnly
    secret

/-- The ids hold no colon. -/
def Plain (m : IframeMint) : Prop :=
  ':' ∉ m.session.discordId.toList ∧ ':' ∉ m.session.guildId.toList ∧ ':' ∉ m.session.roleId.toList

end IframeMint

/-- A cookie session that the Auth Gateway minted. -/
structure CookieMint where
  discordId : String
  encodedName : String
  expires : String
  free : ∀ f ∈ [discordId, encodedName, expires], ':' ∉ f.toList

def CookieMint.fields (c : CookieMint) : List String := [c.discordId, c.encodedName, c.expires]

/-- `mint_session` -/
def CookieMint.cookie (K : TokenCrates) (secret : String) (c : CookieMint) : String :=
  signed K secret c.fields

/-- The messages that were signed. -/
def Tagged (mints : Set IframeMint) (cookies : Set CookieMint) (msg : String) : Prop :=
  (∃ m ∈ mints, msg = join ":" m.fields) ∨ ∃ c ∈ cookies, msg = join ":" c.fields

/-- A text that ends with the tag of a message only if the message was signed. -/
def Unforged (K : TokenCrates) (secret : String) (tagged : String → Prop) (text : String) : Prop :=
  ∀ before msg, text = before ++ ":" ++ hexEncode (K.hmac secret msg) → tagged msg

section

variable {K : TokenCrates} {now : Time} {secret : String}

theorem IframeMint.token_eq (m : IframeMint) :
    m.token K secret = iframePrefix ++ signed K secret m.fields := rfl

/-! ### Reading a signed text -/

theorem eq_append_of_stripPrefix {p s rest : String} (h : stripPrefix p s = some rest) :
    s = p ++ rest := by
  unfold stripPrefix at h
  by_cases hp : p.toList <+: s.toList
  · rw [if_pos hp] at h
    obtain ⟨tail, htail⟩ := hp
    cases h
    rw [← String.toList_inj, String.toList_append, String.toList_ofList, ← htail, List.drop_left]
  · rw [if_neg hp] at h
    cases h

/-- A number that is written is read as itself, if at all. -/
theorem parseI64_toString_eq {n : ℕ} {k : I64} (hn : n < 2 ^ 63) (h : parseI64 (toString n) = some k) :
    (k : ℤ) = n := by
  rw [parseI64_toString hn] at h
  cases h
  rfl

/-- What an accepted text is, and where its fields come from. -/
theorem verifyIframeSession_fields {token : String} {s : IframeSession}
    (h : verifyIframeSession K now token secret = some s) :
    ∃ ro expStr, ∃ exp : I64,
      token = iframePrefix ++ signed K secret [s.discordId, s.guildId, s.roleId, ro, expStr] ∧
      (∀ f ∈ [s.discordId, s.guildId, s.roleId, ro, expStr], ':' ∉ f.toList) ∧
      readRo ro = some s.readOnly ∧ parseI64 expStr = some exp ∧ (timestamp now : ℤ) ≤ exp := by
  obtain ⟨rest, ro, expStr, exp, hrest, hparts, hro, hexp, hle⟩ := verifyIframeSession_eq_some.mp h
  refine ⟨ro, expStr, exp, ?_, ?_, hro, hexp, hle⟩
  · rw [eq_append_of_stripPrefix hrest, signed]
    have hjoin := join_splitn 5 ':' rest
    rw [hparts] at hjoin
    rw [← hjoin]
    rfl
  · intro f hf
    refine splitn_free (n := 6) (s := rest) ?_
    rw [hparts]
    exact hf

/-- A text is accepted if and only if it was minted as what it is accepted as. -/
theorem verifyIframeSession_iff_minted {mints : Set IframeMint} {cookies : Set CookieMint}
    {text : String} (h : Unforged K secret (Tagged mints cookies) text) (s : IframeSession) :
    verifyIframeSession K now text secret = some s ↔
      ∃ m ∈ mints, text = m.token K secret ∧ m.session = s ∧ m.Plain ∧ timestamp now ≤ m.exp := by
  constructor
  · intro hv
    obtain ⟨ro, expStr, exp, rfl, hfree, hro, hexp, hle⟩ := verifyIframeSession_fields hv
    have htag := h (iframePrefix ++ join ":" [s.discordId, s.guildId, s.roleId, ro, expStr])
      (join ":" [s.discordId, s.guildId, s.roleId, ro, expStr]) (by
        rw [signed, join_concat _ (List.cons_ne_nil _ _)]
        simp only [String.append_assoc])
    rcases htag with ⟨m, hm, hmsg⟩ | ⟨c, -, hmsg⟩
    · have hfields : [s.discordId, s.guildId, s.roleId, ro, expStr] = m.fields :=
        join_inj (c := ':') rfl hfree hmsg
      have hsame := hfields
      simp only [IframeMint.fields, List.cons.injEq, and_true] at hfields
      obtain ⟨hd, hg, hr, hro', hexp'⟩ := hfields
      subst hro' hexp'
      rw [readRo_roStr, Option.some.injEq] at hro
      have hplain : m.Plain := by
        unfold IframeMint.Plain
        rw [← hd, ← hg, ← hr]
        exact ⟨hfree _ (by simp), hfree _ (by simp), hfree _ (by simp)⟩
      refine ⟨m, hm, ?_, ?_, hplain, ?_⟩
      · rw [IframeMint.token_eq, ← hsame]
      · obtain ⟨d, g, r, b⟩ := s
        obtain ⟨now, ⟨d', g', r', b'⟩, hin⟩ := m
        simp only at hd hg hr hro
        rw [hd, hg, hr, hro]
      · have := parseI64_toString_eq m.inRange hexp
        unfold IframeMint.exp
        omega
    · have hlen := length_le_of_join_eq (c := ':') (List.cons_ne_nil _ _) (List.cons_ne_nil _ _)
        c.free hmsg.symm
      exact absurd hlen (by simp)
  · rintro ⟨m, -, rfl, rfl, ⟨hd, hg, hr⟩, hle⟩
    exact verifyIframeSession_mint hd hg hr hle m.inRange

/-! ### The two kinds apart -/

/-- A signed text is one field longer than what was signed. -/
theorem signed_free {fields : List String} (h : ∀ f ∈ fields, ':' ∉ f.toList) {msg : String} :
    ∀ f ∈ fields ++ [hexEncode (K.hmac secret msg)], ':' ∉ f.toList := by
  intro f hf
  rcases List.mem_append.mp hf with hf | hf
  · exact h f hf
  · rw [List.mem_singleton.mp hf]
    exact colon_not_mem_hexEncode _

/-- With the prefix put before it, a cookie is no iframe session. -/
theorem verifyIframeSession_cookie (c : CookieMint) :
    verifyIframeSession K now (iframePrefix ++ c.cookie K secret) secret = none := by
  cases hv : verifyIframeSession K now (iframePrefix ++ c.cookie K secret) secret with
  | none => rfl
  | some s =>
    obtain ⟨ro, expStr, exp, heq, -⟩ := verifyIframeSession_fields hv
    have hjoin := congrArg String.toList heq
    rw [String.toList_append, String.toList_append, List.append_cancel_left_eq,
      String.toList_inj] at hjoin
    have hlen := length_le_of_join_eq (c := ':') (by simp) (by simp) (signed_free c.free) hjoin
    exact absurd hlen (by simp [CookieMint.fields])

theorem verifySession_fields {text : String} {who : String × String}
    (h : verifySession K now text secret = some who) : ∃ discordId encodedName expires,
      text = signed K secret [discordId, encodedName, expires] ∧
      ∀ f ∈ [discordId, encodedName, expires], ':' ∉ f.toList := by
  unfold verifySession at h
  split at h
  · rename_i discordId encodedName expiresStr sig hparts
    obtain ⟨expires, -, h⟩ := Option.bind_eq_some_iff.mp h
    split at h
    · cases h
    · dsimp only at h
      split at h
      · rename_i hsig
        rw [bytes_inj.mp (constantTimeEq_iff.mp hsig)] at hparts
        refine ⟨discordId, encodedName, expiresStr, ?_, fun f hf => ?_⟩
        · have hjoin := join_splitn 3 ':' text
          rw [hparts] at hjoin
          rw [← hjoin]
          rfl
        · refine splitn_free (n := 4) (s := text) ?_
          rw [hparts]
          exact hf
      · cases h
  · cases h

/-- A text of more than four fields is no cookie. -/
theorem verifySession_none (fields : List String) (h : 4 < fields.length) :
    verifySession K now (join ":" fields) secret = none := by
  cases hv : verifySession K now (join ":" fields) secret with
  | none => rfl
  | some who =>
    obtain ⟨discordId, encodedName, expires, heq, hfree⟩ := verifySession_fields hv
    have hne : fields ≠ [] := List.ne_nil_of_length_pos (by omega)
    have hlen := length_le_of_join_eq (c := ':') (by simp) hne (signed_free hfree) heq.symm
    have : fields.length ≤ 4 := hlen
    omega

/-- An iframe session is no cookie, with its prefix or without. -/
theorem verifySession_iframe (m : IframeMint) :
    verifySession K now (m.token K secret) secret = none ∧
      verifySession K now (signed K secret m.fields) secret = none :=
  ⟨verifySession_none ("ifs" :: (m.fields ++ [hexEncode (K.hmac secret (join ":" m.fields))]))
    (by simp [IframeMint.fields]), verifySession_none _ (by simp [IframeMint.fields])⟩

/-- Where no tag is forged, an iframe session is accepted as what it was minted as, and
nothing else is; and neither kind of text is accepted as the other. -/
theorem iframeSession_accepted (mints : Set IframeMint) (cookies : Set CookieMint) :
    (∀ now text, Unforged K secret (Tagged mints cookies) text → ∀ s,
      verifyIframeSession K now text secret = some s ↔
        ∃ m ∈ mints, text = m.token K secret ∧ m.session = s ∧ m.Plain ∧ timestamp now ≤ m.exp) ∧
    (∀ now (m : IframeMint) s,
      verifyIframeSession K now (m.token K secret) secret = some s → s = m.session) ∧
    (∀ now (c : CookieMint),
      verifyIframeSession K now (iframePrefix ++ c.cookie K secret) secret = none) ∧
    ∀ now (m : IframeMint), verifySession K now (m.token K secret) secret = none ∧
      ∀ stripped, stripPrefix iframePrefix (m.token K secret) = some stripped →
        verifySession K now stripped secret = none := by
  refine ⟨fun now text h s => verifyIframeSession_iff_minted h s,
    fun now m s h => verifyIframeSession_mint_some h, fun now c => verifyIframeSession_cookie c,
    fun now m => ⟨(verifySession_iframe m).1, fun stripped hstrip => ?_⟩⟩
  rw [m.token_eq, stripPrefix_append, Option.some.injEq] at hstrip
  rw [← hstrip]
  exact (verifySession_iframe m).2

end

/-! ### One session -/

/-- One session, minted at the epoch. -/
def exampleMint : IframeMint := ⟨0, ⟨"1", "g", "r", true⟩, by decide⟩

/-- The tags are the real ones, and only the one session has a tag. -/
def TokenCrates.exampleOnly : TokenCrates :=
  { TokenCrates.sha256 with
    hmac key msg :=
      if msg = join ":" exampleMint.fields then Sha256.hmac (bytes key) (bytes msg) else [] }

theorem exampleOnly_unforged : Unforged .exampleOnly "secret" (Tagged {exampleMint} ∅)
    (exampleMint.token .exampleOnly "secret") := by
  have hlast : (exampleMint.token .exampleOnly "secret").toList.getLast? ≠ some ':' := by
    decide +kernel
  intro before msg heq
  by_cases hmsg : msg = join ":" exampleMint.fields
  · exact Or.inl ⟨exampleMint, rfl, hmsg⟩
  · have htag : TokenCrates.exampleOnly.hmac "secret" msg = [] := if_neg hmsg
    rw [heq, htag, String.toList_append, String.toList_append] at hlast
    exact absurd (by simp [hexEncode]) hlast

theorem iframeSession_accepted_example :
    verifyIframeSession .exampleOnly 0 (exampleMint.token .exampleOnly "secret") "secret" =
      some exampleMint.session ∧
    ∀ s, verifyIframeSession .exampleOnly 0 (exampleMint.token .exampleOnly "secret") "secret" =
      some s → s.readOnly = true := by
  have h := (@iframeSession_accepted .exampleOnly "secret" {exampleMint} ∅).1 0
    (exampleMint.token .exampleOnly "secret") exampleOnly_unforged
  have hplain : exampleMint.Plain := ⟨by decide, by decide, by decide⟩
  refine ⟨(h _).mpr ⟨exampleMint, rfl, rfl, rfl, hplain, by decide⟩, fun s hs => ?_⟩
  obtain ⟨m, rfl, -, rfl, -⟩ := (h s).mp hs
  rfl

end BirthdayRole
