/-
# What the pages say in their scripts (`users_page`, `role_config_page`)

Both pages are templates whose placeholders are replaced by what the request names: the ids
of its path, percent-decoded, and an iframe session. Nothing is escaped. `users_page` looks
at no credential before it serves a script with the path in it; `role_config_page` checks
the guild, and a JWT the link, but a manager may name any role.

So an id is inert if and only if it is one that a literal can hold as it is: no quote, no
backslash, no line end, no end of the script, and on the role page none of the placeholders
that are still to come (`pages_inert_iff`).

Of the templates the lines with a placeholder are here; the theorems hold for any other text
around them. A text is read by the grammar of the script alone: that HTML puts U+FFFD for
a NUL is left out.
-/
import BirthdayRole.BirthdayWrites
import BirthdayRole.Lib.Template

namespace BirthdayRole

open Text Result Template BirthdayWrites

/-! ### The templates -/

/-- `users.html` around the lines that are filled. -/
structure UsersTemplate where
  head : String
  style : String
  script : String

def UsersTemplate.pieces (t : UsersTemplate) : List Piece :=
  [.text t.head, .text "<link rel=\"icon\" href=\"{{BASE_URL}}/favicon.ico\">", .text t.style,
    .text "<script>\nconst API=", .literal '"' "{{BASE_URL}}",
    .text ", GUILD=", .literal '"' "{{GUILD_ID}}", .text ";\n", .text t.script]

/-- `role_config.html` around the lines that are filled. -/
structure RoleConfigTemplate where
  head : String
  style : String
  script : String
  readOnlyMode : String

def RoleConfigTemplate.pieces (t : RoleConfigTemplate) : List Piece :=
  [.text t.head, .text "<link rel=\"icon\" href=\"__BASE_URL__/favicon.ico\">", .text t.style,
    .text "<script>\nconst BASE_URL=", .literal '"' "__BASE_URL__",
    .text ", GUILD_ID=", .literal '"' "__GUILD_ID__",
    .text ", ROLE_ID=", .literal '"' "__ROLE_ID__",
    .text ";\nconst IFRAME_TOKEN=", .literal '"' "__IFRAME_TOKEN__",
    .text ", IS_EMBEDDED=!!IFRAME_TOKEN;\n", .text t.script,
    .text "  var READ_ONLY = ", .literal '\'' "__READ_ONLY__", .text " === '1';\n",
    .text t.readOnlyMode]

/-! ### The pages -/

/-- The replacements of `users_page`, in their order. -/
def usersSteps (baseUrl guildId : String) : List (String × String) :=
  [("{{BASE_URL}}", baseUrl), ("{{GUILD_ID}}", guildId)]

/-- The body of `users_page`. -/
def usersHtml (t : UsersTemplate) (baseUrl guildId : String) : List Char :=
  page (usersSteps baseUrl guildId) t.pieces

/-- The replacements of `role_config_page`, in their order. -/
def roleConfigSteps (baseUrl guildId roleId : String) (iframeSession : Option String)
    (readOnly : Bool) : List (String × String) :=
  [("__BASE_URL__", baseUrl), ("__GUILD_ID__", guildId), ("__ROLE_ID__", roleId),
    ("__IFRAME_TOKEN__", iframeSession.getD ""), ("__READ_ONLY__", if readOnly then "1" else "0")]

/-- The body of `role_config_page`. -/
def roleConfigBody (t : RoleConfigTemplate) (baseUrl guildId roleId : String)
    (iframeSession : Option String) (readOnly : Bool) : List Char :=
  page (roleConfigSteps baseUrl guildId roleId iframeSession readOnly) t.pieces

/-! ### Where the placeholders stand -/

def usersQuote (_ : String) : Char := '"'

def usersPlaceholders : List String := ["{{BASE_URL}}", "{{GUILD_ID}}"]

def roleConfigQuote (placeholder : String) : Char :=
  if placeholder = "__READ_ONLY__" then '\'' else '"'

def roleConfigPlaceholders : List String :=
  ["__BASE_URL__", "__GUILD_ID__", "__ROLE_ID__", "__IFRAME_TOKEN__", "__READ_ONLY__"]

theorem usersTemplate_fits (t : UsersTemplate) : Fits t.pieces usersQuote usersPlaceholders where
  literal_iff p hp q := by
    simp only [usersPlaceholders, List.mem_cons, List.not_mem_nil, or_false] at hp
    rcases hp with rfl | rfl <;> simp [UsersTemplate.pieces, usersQuote]
  nonempty := by decide
  noQuote := by decide
  apart := by decide

theorem roleConfigTemplate_fits (t : RoleConfigTemplate) :
    Fits t.pieces roleConfigQuote roleConfigPlaceholders where
  literal_iff p hp q := by
    simp only [roleConfigPlaceholders, List.mem_cons, List.not_mem_nil, or_false] at hp
    rcases hp with rfl | rfl | rfl | rfl | rfl <;>
      simp [RoleConfigTemplate.pieces, roleConfigQuote]
  nonempty := by decide
  noQuote := by decide
  apart := by decide

/-- The id is inert in the literal `GUILD`. -/
def UsersInert (t : UsersTemplate) (baseUrl guildId : String) : Prop :=
  Inert (usersHtml t baseUrl guildId) (usersSteps baseUrl guildId) t.pieces "{{GUILD_ID}}" guildId

/-- Each value of the role page is inert where it stands, and none is replaced inside another. -/
def RoleConfigInert (t : RoleConfigTemplate) (baseUrl guildId roleId : String)
    (iframeSession : Option String) (readOnly : Bool) : Prop :=
  let steps := roleConfigSteps baseUrl guildId roleId iframeSession readOnly
  let body := roleConfigBody t baseUrl guildId roleId iframeSession readOnly
  (∀ step ∈ steps, Inert body steps t.pieces step.1 step.2) ∧ Separate steps

/-! ### Which values a literal can hold -/

theorem embeddable_iff {quote : Char} {later : List String} {v : String} :
    Embeddable quote later v ↔ (∀ c ∈ v.toList, JsString.Plain quote c) ∧
      ¬JsString.EndsScript v.toList ∧ ∀ p ∈ later, ¬p.toList <:+: v.toList := Iff.rfl

theorem embeddable_colon {later : List String} (hlater : ∀ p ∈ later, ':' ∉ p.toList) {a b : String} :
    Embeddable '"' later (a ++ ":" ++ b) ↔ Embeddable '"' later a ∧ Embeddable '"' later b := by
  have hcut : (a ++ ":" ++ b).toList = a.toList ++ ':' :: b.toList := by
    rw [String.toList_append, String.toList_append, List.append_assoc]
    rfl
  have hcolon : JsString.Plain '"' ':' := by decide
  simp only [embeddable_iff, hcut, JsString.endsScript_append_cons JsString.EndTag.colon_not_mem,
    not_or, List.forall_mem_append, List.forall_mem_cons, hcolon, true_and]
  have hparts : (∀ p ∈ later, ¬p.toList <:+: a.toList ++ ':' :: b.toList) ↔
      (∀ p ∈ later, ¬p.toList <:+: a.toList) ∧ ∀ p ∈ later, ¬p.toList <:+: b.toList := by
    rw [← forall₂_and]
    refine forall₂_congr fun p hp => ?_
    rw [Replace.infix_append_cons (hlater p hp), not_or]
  rw [hparts]
  tauto

theorem embeddable_join {later : List String} (hlater : ∀ p ∈ later, ':' ∉ p.toList) :
    ∀ (s : String) (ss : List String),
      Embeddable '"' later (join ":" (s :: ss)) ↔ ∀ s' ∈ s :: ss, Embeddable '"' later s'
  | s, [] => by simp [join]
  | s, t :: ss => by
    rw [List.forall_mem_cons, ← embeddable_join hlater t ss]
    exact embeddable_colon hlater

/-- Letters and digits hold no placeholder that has an underscore. -/
theorem embeddable_alphanum {later : List String} (hlater : ∀ p ∈ later, '_' ∈ p.toList) {v : String}
    (hv : ∀ c ∈ v.toList, c.isAlphanum = true) : Embeddable '"' later v := by
  have hno : ∀ c, c.isAlphanum = false → c ∉ v.toList := by
    intro c hc hmem
    rw [hv c hmem] at hc
    cases hc
  refine ⟨fun c hc => ⟨?_, ?_, ?_, ?_⟩, ?_, fun p hp hin => ?_⟩
  -- the quote, the backslash and the two line ends
  · rintro rfl
    exact hno _ (by decide) hc
  · rintro rfl
    exact hno _ (by decide) hc
  · rintro rfl
    exact hno _ (by decide) hc
  · rintro rfl
    exact hno _ (by decide) hc
  · rw [JsString.endsScript_iff]
    rintro ⟨w, htag, hin⟩
    exact hno '/' (by decide) (hin.subset htag.slash_mem)
  · exact hno '_' (by decide) (hin.subset (hlater p hp))

/-! ### The iframe session of the role page -/

variable {K : TokenCrates} {state : AppState} {around : Surroundings} {db : Database}
  {headers : Headers} {guildId roleId : String} {rlToken : Option String}

/-- The JWT of a request to the role page, as it is verified against its link. -/
def verifiedEntry (K : TokenCrates) (state : AppState) (around : Surroundings) (db : Database)
    (guildId roleId : String) (rlToken : Option String) : Option Verified :=
  (rlToken.filter (· ≠ "")).bind fun token =>
    (db.roleLinks.get? (guildId, roleId)).bind fun link =>
      (verify K around.now token link.apiToken state.baseUrl).toOption

/-- The session in the page is the one that is minted for the JWT. -/
theorem roleConfigPage_session {session : Option String} {readOnly : Bool}
    (h : Routes.roleConfigPage K state around db headers guildId roleId rlToken =
      .roleConfigPage session readOnly) :
    session = (verifiedEntry K state around db guildId roleId rlToken).map fun v =>
      mintIframeSession K around.now v.discordId guildId roleId v.readOnly state.sessionSecret := by
  unfold Routes.roleConfigPage at h
  unfold verifiedEntry
  split at h
  · rename_i token htoken
    rw [htoken]
    unfold Routes.entryPage at h
    split at h
    · rename_i session' readOnly' hentry
      cases h
      obtain ⟨link, v, hlink, hv, heq⟩ := Routes.verifyIframeEntry_ok hentry
      cases heq
      rw [Option.bind_some, hlink, Option.bind_some, hv]
      rfl
    · cases h
  · rename_i hnone
    rw [hnone]
    unfold Routes.managerPage at h
    split at h
    · cases h
      rfl
    · split at h <;> cases h

/-- The fields of a session, its prefix and its tag among them. -/
theorem mintIframeSession_eq_join (now : Time) (d g r : String) (ro : Bool) (secret : String) :
    ∃ tag, mintIframeSession K now d g r ro secret =
      join ":" ["ifs", d, g, r, roStr ro, toString (timestamp now + iframeTtlSecs), hexEncode tag] := by
  refine ⟨K.hmac secret (join ":" [d, g, r, roStr ro, toString (timestamp now + iframeTtlSecs)]), ?_⟩
  rw [join]
  rfl

/-- What is minted can be embedded if the ids can. -/
theorem embeddable_session {later : List String} (hcolon : ∀ p ∈ later, ':' ∉ p.toList)
    (hlater : ∀ p ∈ later, '_' ∈ p.toList) (now : Time) (d g r : String) (ro : Bool)
    (secret : String) :
    Embeddable '"' later (mintIframeSession K now d g r ro secret) ↔
      Embeddable '"' later d ∧ Embeddable '"' later g ∧ Embeddable '"' later r := by
  obtain ⟨tag, hmint⟩ := mintIframeSession_eq_join (K := K) now d g r ro secret
  have hifs : Embeddable '"' later "ifs" := embeddable_alphanum hlater (List.all_eq_true.mp (by decide))
  have hro : Embeddable '"' later (roStr ro) :=
    embeddable_alphanum hlater (List.all_eq_true.mp (by cases ro <;> decide))
  have hexp : Embeddable '"' later (toString (timestamp now + iframeTtlSecs)) := by
    refine embeddable_alphanum hlater fun c hc => ?_
    rw [Char.isAlphanum, isDigit_of_mem_toString hc, Bool.or_true]
  have htag : Embeddable '"' later (hexEncode tag) :=
    embeddable_alphanum hlater fun _ hc => isAlphanum_of_mem_hexEncode hc
  rw [hmint, embeddable_join hcolon]
  simp only [List.forall_mem_cons, List.not_mem_nil, false_imp_iff, implies_true, and_true, hifs,
    hro, hexp, htag, true_and]

/-! ### Both pages -/

/-- The ids that `users_page` can fill in. -/
theorem usersInert_iff (t : UsersTemplate) (baseUrl guildId : String) :
    UsersInert t baseUrl guildId ↔ Embeddable '"' [] guildId := by
  have hguild := inert_iff [("{{BASE_URL}}", baseUrl)] [] "{{GUILD_ID}}" guildId
    (usersTemplate_fits t)
  have hlast : ¬Touched [] guildId := Bool.false_ne_true
  exact (and_iff_left hlast).symm.trans hguild

/-- The values that `role_config_page` can fill in. -/
theorem roleConfigInert_iff (t : RoleConfigTemplate) (baseUrl guildId roleId : String)
    (session : Option String) (readOnly : Bool) :
    RoleConfigInert t baseUrl guildId roleId session readOnly ↔
      Embeddable '"' ["__GUILD_ID__", "__ROLE_ID__", "__IFRAME_TOKEN__", "__READ_ONLY__"] baseUrl ∧
        Embeddable '"' ["__ROLE_ID__", "__IFRAME_TOKEN__", "__READ_ONLY__"] guildId ∧
        Embeddable '"' ["__IFRAME_TOKEN__", "__READ_ONLY__"] roleId ∧
        Embeddable '"' ["__READ_ONLY__"] (session.getD "") := by
  have hfits := roleConfigTemplate_fits t
  let base := ("__BASE_URL__", baseUrl)
  let guild := ("__GUILD_ID__", guildId)
  let role := ("__ROLE_ID__", roleId)
  let token := ("__IFRAME_TOKEN__", session.getD "")
  let flag := ("__READ_ONLY__", if readOnly then "1" else "0")
  have hbase := inert_iff [] [guild, role, token, flag] base.1 base.2 hfits
  have hguild := inert_iff [base] [role, token, flag] guild.1 guild.2 hfits
  have hrole := inert_iff [base, guild] [token, flag] role.1 role.2 hfits
  have htoken := inert_iff [base, guild, role] [flag] token.1 token.2 hfits
  have hflag := inert_iff [base, guild, role, token] [] flag.1 flag.2 hfits
  have hone : Embeddable '\'' [] flag.2 := by cases readOnly <;> decide
  obtain ⟨hflag, hlast⟩ := hflag.mpr hone
  refine Iff.trans ?_ (and_congr hbase (and_congr hguild (and_congr hrole htoken)))
  constructor
  · rintro ⟨hinert, h₁, h₂, h₃, h₄, -⟩
    simp only [roleConfigSteps, List.forall_mem_cons] at hinert
    exact ⟨⟨hinert.1, h₁⟩, ⟨hinert.2.1, h₂⟩, ⟨hinert.2.2.1, h₃⟩, hinert.2.2.2.1, h₄⟩
  · rintro ⟨⟨hbase, h₁⟩, ⟨hguild, h₂⟩, ⟨hrole, h₃⟩, htoken, h₄⟩
    refine ⟨?_, h₁, h₂, h₃, h₄, hlast, trivial⟩
    simp only [roleConfigSteps, List.forall_mem_cons]
    exact ⟨hbase, hguild, hrole, htoken, hflag, fun _ h => absurd h List.not_mem_nil⟩

/-- **The ids of a page are inert** if and only if a literal can hold them as they are, with the
placeholders that are still to come; so it is with the base URL and with the user of the JWT,
who comes with the iframe session. -/
theorem pages_inert_iff (users : UsersTemplate) (roleConfig : RoleConfigTemplate) (K : TokenCrates)
    (state : AppState) (around : Surroundings) (db : Database) (headers : Headers)
    (guildId roleId : String) (rlToken : Option String) :
    (UsersInert users state.baseUrl guildId ↔ Embeddable '"' [] guildId) ∧
      (Separate (usersSteps state.baseUrl guildId) ↔
        ¬"{{GUILD_ID}}".toList <:+: state.baseUrl.toList) ∧
      ∀ session readOnly,
        Routes.roleConfigPage K state around db headers guildId roleId rlToken =
            .roleConfigPage session readOnly →
          (RoleConfigInert roleConfig state.baseUrl guildId roleId session readOnly ↔
            Embeddable '"' ["__GUILD_ID__", "__ROLE_ID__", "__IFRAME_TOKEN__", "__READ_ONLY__"]
                state.baseUrl ∧
              Embeddable '"' ["__ROLE_ID__", "__IFRAME_TOKEN__", "__READ_ONLY__"] guildId ∧
              Embeddable '"' ["__IFRAME_TOKEN__", "__READ_ONLY__"] roleId ∧
              ∀ v, verifiedEntry K state around db guildId roleId rlToken = some v →
                Embeddable '"' ["__READ_ONLY__"] v.discordId) := by
  have hlast : ¬Touched [] guildId := Bool.false_ne_true
  refine ⟨usersInert_iff users state.baseUrl guildId, ?_, fun session readOnly h => ?_⟩
  · rw [usersSteps, Separate, Separate, Separate, not_touched_iff]
    simp [hlast]
  · rw [roleConfigInert_iff, roleConfigPage_session h]
    refine and_congr_right fun _ => and_congr_right fun hguild => and_congr_right fun hrole => ?_
    -- the session holds both ids again, which are embeddable already
    cases verifiedEntry K state around db guildId roleId rlToken with
    | none =>
      have hempty : Embeddable '"' ["__READ_ONLY__"] "" := by decide
      refine iff_of_true hempty fun v hv => ?_
      cases hv
    | some v =>
      have hg : Embeddable '"' ["__READ_ONLY__"] guildId :=
        ⟨hguild.1, hguild.2.1, fun p hp => hguild.2.2 p (by simp [List.mem_singleton.mp hp])⟩
      have hr : Embeddable '"' ["__READ_ONLY__"] roleId :=
        ⟨hrole.1, hrole.2.1, fun p hp => hrole.2.2 p (by simp [List.mem_singleton.mp hp])⟩
      rw [Option.map_some, Option.getD_some, embeddable_session (by decide) (by decide)]
      simp [hg, hr]

/-- The texts around the lines that are filled are short. -/
def UsersTemplate.short : UsersTemplate := ⟨"<!doctype html>\n", "\n<body>\n", "load();\n</script>\n"⟩

def RoleConfigTemplate.short : RoleConfigTemplate :=
  ⟨"<!doctype html>\n", "\n<body>\n", "load();\n", "</script>\n"⟩

/-- The gateway has everybody for a manager. -/
def managed : Surroundings :=
  { Surroundings.silent 0 with
    gateway := { Gateway.silent with permission := fun _ => .ok ⟨true, true⟩ } }

/-- A manager gets the page of any role. -/
theorem roleConfigPage_manager (guildId roleId : String) :
    Routes.roleConfigPage exampleCrates exampleState managed .empty exampleHeaders guildId roleId none =
      .roleConfigPage none false := by
  have hsession : readSession exampleCrates exampleState managed.now exampleHeaders =
      .ok ("1", "a") := readSession_ok rfl (by decide +kernel)
  have hmanager : requireManager exampleCrates exampleState managed.now managed.gateway exampleHeaders
      guildId = .ok "1" := by
    unfold requireManager
    rw [hsession]
    rfl
  simp only [Routes.roleConfigPage, Routes.managerPage, Option.filter_none, hmanager]

/-- Snowflakes are inert; the name of a placeholder as a role is not. -/
theorem pages_inert_manager :
    UsersInert .short exampleState.baseUrl "123456789012345678" ∧
      RoleConfigInert .short exampleState.baseUrl "123456789012345678" "876543210987654321" none
        false ∧
      ¬RoleConfigInert .short exampleState.baseUrl "123456789012345678" "__READ_ONLY__" none false := by
  have h := fun roleId => pages_inert_iff .short .short exampleCrates exampleState managed .empty
    exampleHeaders "123456789012345678" roleId none
  refine ⟨(h "876543210987654321").1.mpr (by decide), ?_, fun hinert => ?_⟩
  · refine ((h _).2.2 none false (roleConfigPage_manager _ _)).mpr ⟨by decide, by decide, by decide, ?_⟩
    intro v hv
    cases hv
  · obtain ⟨-, -, hrole, -⟩ := ((h _).2.2 none false (roleConfigPage_manager _ _)).mp hinert
    exact absurd hrole (by decide)

/-- With a quote in the path the literal is over at once, whatever the texts around it are, and
the rest of the path is script. -/
theorem users_guildQuote :
    (¬∃ t, UsersInert t exampleState.baseUrl "\";alert(1)//") ∧
      "GUILD=\"\";alert(1)//\";\nload();\n</script>\n".toList <:+
        usersHtml .short exampleState.baseUrl "\";alert(1)//" ∧
      JsString.literal '"' "\";alert(1)//\";\nload();\n</script>\n".toList =
        some ([], ";alert(1)//\";\nload();\n</script>\n".toList) := by
  refine ⟨?_, by decide +kernel, by decide +kernel⟩
  rintro ⟨t, hinert⟩
  exact absurd ((usersInert_iff t _ _).mp hinert) (by decide)

end BirthdayRole
