/-
# What requests make of the data

Over any number of requests, a birthday, the visibility of a guild's list and a link are
registers of their own (`Registers`): a request reads and writes one of them at most, and what
it writes follows from the request and from what stood there. Nothing else that is stored, and
no other request, has a part in it.

A birthday is what the last accepted request of the member has left, with a session of the
member and from an origin that is allowed; a visibility what the last request of somebody has
who may set it; a link goes from token to token and from version to version. The tables that
the handlers share behave as these registers do (`registers_run`).
-/
import BirthdayRole.LinkAuthority

namespace BirthdayRole

open Text Result

/-- What is kept of a member, of a guild and of a link. -/
@[ext]
structure Registers where
  birthday : String → Option BirthdayRow
  viewPermission : String → String
  link : LinkKey → Option RoleLink

/-- What the tables hold. -/
def Database.registers (db : Database) : Registers where
  birthday := db.birthdays.get?
  viewPermission := db.viewPermission
  link := db.roleLinks.get?

namespace Registers

variable (C : Crates) (K : TokenCrates) (state : AppState) (around : Surroundings) (request : HttpRequest)

/-- The name in the session of a request, if it may write the birthday of a member: it comes from
an allowed origin, and the session is the member's. -/
def ownName (discordId : String) : Option String :=
  match verifyOrigin request.headers state.allowedOrigins,
    readSession K state around.now request.headers with
  | .ok (), .ok (who, name) => if who = discordId then some name else none
  | _, _ => none

/-- The birthday of a member after a request. -/
def birthdayAfter (discordId : String) (row : Option BirthdayRow) : Option BirthdayRow :=
  match request.route, ownName K state around request discordId with
  | .verifySave body, some name =>
    match verifySaveRow C around.thisYear around.now discordId name body with
    | .ok saved => some saved
    | .error _ => row
  | .verifyUnlink, some _ => none
  | _, _ => row

/-- Who may see the list of a guild after a request. -/
def viewPermissionAfter (guildId : String) (viewPermission : String) : String :=
  match request.route with
  | .setViewPermission g vp =>
    if g = guildId then
      match Routes.permissionCheck K state around request.headers g vp with
      | .ok () => vp
      | .error _ => viewPermission
    else viewPermission
  | _ => viewPermission

/-- A link after a request. -/
def linkAfter (key : LinkKey) (link : Option RoleLink) : Option RoleLink :=
  match request.route with
  | .register g r =>
    if (g, r) = key then
      match extractToken request.headers, link with
      | .ok token, some l => some { l with apiToken := token, updatedAt := around.now }
      | .ok token, none => some ⟨g, r, token, unconfiguredTree, 1, around.now⟩
      | .error _, _ => link
    else link
  | .deleteConfig g r =>
    if (g, r) = key then
      match extractToken request.headers with
      | .ok token => link.filter fun l => l.apiToken ≠ token
      | .error _ => link
    else link
  | .roleConfigSave g r version tree =>
    if (g, r) = key then
      match Routes.saveCheck C K state around request.headers g r tree with
      | .ok parsed => link.map fun l =>
        if l.ruleTreeVersion = version ∧ version + 1 < 2 ^ 31 ∧ !parsed.toValue.hasNul then
          { l with
            ruleTree := parsed.toValue
            ruleTreeVersion := version + 1
            updatedAt := around.now }
        else l
      | .error _ => link
    else link
  | _ => link

/-- Every register goes its own way. -/
def after (R : Registers) : Registers where
  birthday discordId := birthdayAfter C K state around request discordId (R.birthday discordId)
  viewPermission guildId :=
    viewPermissionAfter K state around request guildId (R.viewPermission guildId)
  link key := linkAfter C K state around request key (R.link key)

variable {K state around request}

theorem ownName_eq_some {discordId name : String} :
    ownName K state around request discordId = some name ↔
      verifyOrigin request.headers state.allowedOrigins = .ok () ∧
        readSession K state around.now request.headers = .ok (discordId, name) := by
  unfold ownName
  cases verifyOrigin request.headers state.allowedOrigins with
  | error e => simp
  | ok =>
    cases readSession K state around.now request.headers with
    | error e => simp
    | ok session =>
      obtain ⟨who, n⟩ := session
      by_cases h : who = discordId <;> simp [h]

end Registers

/-- The row of a save is the member's. -/
theorem discordId_of_verifySaveRow {C : Crates} {thisYear : ℤ} {now : Time}
    {discordId discordName : String} {body : SaveBody} {row : BirthdayRow}
    (h : verifySaveRow C thisYear now discordId discordName body = .ok row) :
    row.discordId = discordId := by
  obtain ⟨_, -, h⟩ := bind_ok h
  obtain ⟨-, h⟩ := require_ok h
  cases h
  rfl

namespace Database

variable {C : Crates} {K : TokenCrates} {state : AppState} {around : Surroundings} {headers : Headers}
  (db : Database)

theorem registers_register (guildId roleId : String) :
    (Routes.register around db headers guildId roleId).1.registers =
      db.registers.after C K state around ⟨.register guildId roleId, headers⟩ := by
  unfold Routes.register
  cases ht : extractToken headers with
  | error e =>
    rw [Routes.checked_error rfl]
    simp [Registers.after, Registers.birthdayAfter, Registers.viewPermissionAfter, Registers.linkAfter, ht]
  | ok token =>
    rw [Routes.checked_ok rfl]
    apply Registers.ext
    · rfl
    · -- the default of a guild that has no row is the one that is put
      funext g
      show (db.register around.now guildId roleId token).viewPermission g = db.viewPermission g
      unfold Database.register Database.viewPermission
      cases hs : db.settings.get? guildId with
      | some settings => rfl
      | none =>
        dsimp only
        rw [Table.get?_put]
        by_cases hg : g = guildId
        · subst hg
          rw [if_pos rfl, hs]
          rfl
        · rw [if_neg hg]
    · funext key
      show (db.roleLinks.upsertToken around.now guildId roleId token).get? key =
        Registers.linkAfter C K state around ⟨.register guildId roleId, headers⟩ key
          (db.roleLinks.get? key)
      rw [RoleLinks.get?_upsertToken]
      unfold Registers.linkAfter
      by_cases hk : key = (guildId, roleId)
      · subst hk
        simp only [ht, if_true]
        cases db.roleLinks.get? (guildId, roleId) <;> rfl
      · rw [if_neg hk]
        exact (if_neg (Ne.symm hk)).symm

theorem registers_deleteConfig (guildId roleId : String) :
    (Routes.deleteConfig db headers guildId roleId).1.registers =
      db.registers.after C K state around ⟨.deleteConfig guildId roleId, headers⟩ := by
  have hlinks : ∀ (db' : Database), db'.birthdays = db.birthdays → db'.settings = db.settings →
      (∀ key, db'.roleLinks.get? key = Registers.linkAfter C K state around
        ⟨.deleteConfig guildId roleId, headers⟩ key (db.roleLinks.get? key)) →
      db'.registers = db.registers.after C K state around ⟨.deleteConfig guildId roleId, headers⟩ := by
    intro db' hb hs hl
    apply Registers.ext
    · exact congrArg Table.get? hb
    · funext g
      show db'.viewPermission g = db.viewPermission g
      unfold Database.viewPermission
      rw [hs]
    · exact funext hl
  unfold Routes.deleteConfig
  cases ht : extractToken headers with
  | error e =>
    rw [Routes.checked_error rfl]
    refine hlinks db rfl rfl fun key => ?_
    simp [Registers.linkAfter, ht]
  | ok token =>
    have hafter : ∀ key, Registers.linkAfter C K state around ⟨.deleteConfig guildId roleId, headers⟩
        key (db.roleLinks.get? key) = if key = (guildId, roleId) then
          (db.roleLinks.get? key).filter fun l => l.apiToken ≠ token else db.roleLinks.get? key := by
      intro key
      unfold Registers.linkAfter
      simp only [ht, eq_comm]
    rw [Routes.checked_ok rfl, Database.deleteOwnedLink_eq]
    cases hl : db.roleLinks.get? (guildId, roleId) with
    | none =>
      refine hlinks db rfl rfl fun key => ?_
      rw [hafter]
      by_cases hk : key = (guildId, roleId)
      · rw [if_pos hk, hk, hl]
        rfl
      · rw [if_neg hk]
    | some l =>
      by_cases hown : l.apiToken = token
      · simp only [Option.any_some, hown, decide_true, if_true, one_ne_zero, if_false]
        refine hlinks _ rfl rfl fun key => ?_
        show (db.roleLinks.remove (guildId, roleId)).get? key = _
        rw [Table.get?_remove, hafter]
        by_cases hk : key = (guildId, roleId)
        · rw [if_pos hk, if_pos hk, hk, hl]
          simp [Option.filter, hown]
        · rw [if_neg hk, if_neg hk]
      · simp only [Option.any_some, hown, decide_false, Bool.false_eq_true, if_false, if_true]
        refine hlinks db rfl rfl fun key => ?_
        rw [hafter]
        by_cases hk : key = (guildId, roleId)
        · rw [if_pos hk, hk, hl]
          simp [Option.filter, hown]
        · rw [if_neg hk]

theorem registers_roleConfigSave (guildId roleId : String) (version : ℤ) (tree : RuleTreeBody) :
    (Routes.roleConfigSave C K state around db headers guildId roleId version tree).1.registers =
      db.registers.after C K state around ⟨.roleConfigSave guildId roleId version tree, headers⟩ := by
  rcases Routes.made_roleConfigSave (C := C) (K := K) guildId roleId version tree with
    hmade | ⟨hsame, hnone⟩
  · generalize (Routes.roleConfigSave C K state around db headers guildId roleId version tree).1 = db'
      at hmade
    cases hmade with
    | @roleConfigSave _ _ _ _ parsed l hc hl hv hlt hnul =>
      apply Registers.ext
      · rfl
      · rfl
      · funext key
        show (db.saveTree around.now l parsed.toValue).roleLinks.get? key =
          Registers.linkAfter C K state around ⟨.roleConfigSave guildId roleId version tree, headers⟩
            key (db.roleLinks.get? key)
        unfold Database.saveTree Registers.linkAfter
        dsimp only
        rw [RoleLinks.get?_saved hl]
        by_cases hk : key = (guildId, roleId)
        · subst hk hv
          simp only [hc, hl, if_true, Option.map_some, true_and, hnul, Bool.not_false, and_true,
            if_pos hlt]
        · rw [if_neg hk, if_neg (Ne.symm hk)]
  · rw [hsame]
    apply Registers.ext
    · rfl
    · rfl
    · funext key
      show db.roleLinks.get? key = Registers.linkAfter C K state around
        ⟨.roleConfigSave guildId roleId version tree, headers⟩ key (db.roleLinks.get? key)
      unfold Registers.linkAfter
      by_cases hk : (guildId, roleId) = key
      · subst hk
        cases hc : Routes.saveCheck C K state around headers guildId roleId tree with
        | error e => simp [hc]
        | ok parsed =>
          cases hl : db.roleLinks.get? (guildId, roleId) with
          | none => simp [hc]
          | some l =>
            have hstale : ¬(l.ruleTreeVersion = version ∧ version + 1 < 2 ^ 31 ∧
                !parsed.toValue.hasNul) := fun h =>
              hnone _ (.roleConfigSave hc hl h.1 h.2.1 (by simpa using h.2.2))
            simp only [if_true, hc, Option.map_some, if_neg hstale]
      · simp [hk]

theorem registers_setViewPermission (guildId vp : String) :
    (Routes.setViewPermission K state around db headers guildId vp).1.registers =
      db.registers.after C K state around ⟨.setViewPermission guildId vp, headers⟩ := by
  unfold Routes.setViewPermission
  cases hc : Routes.permissionCheck K state around headers guildId vp with
  | error e =>
    rw [Routes.checked_error rfl]
    simp [Registers.after, Registers.birthdayAfter, Registers.viewPermissionAfter, Registers.linkAfter, hc]
  | ok =>
    rw [Routes.checked_ok rfl]
    apply Registers.ext
    · rfl
    · funext g
      show (db.setViewPermission around.now guildId vp).viewPermission g =
        Registers.viewPermissionAfter K state around ⟨.setViewPermission guildId vp, headers⟩ g
          (db.viewPermission g)
      unfold Registers.viewPermissionAfter Database.setViewPermission Database.viewPermission
      dsimp only
      rw [Table.get?_put]
      by_cases hg : g = guildId
      · subst hg
        simp [hc]
      · rw [if_neg hg, if_neg (Ne.symm hg)]
    · rfl

theorem registers_verifySave (body : SaveBody) :
    (Routes.verifySave C K state around db headers body).1.registers =
      db.registers.after C K state around ⟨.verifySave body, headers⟩ := by
  rcases Routes.made_verifySave (C := C) (K := K) body with hmade | ⟨hsame, hnone⟩
  · generalize (Routes.verifySave C K state around db headers body).1 = db' at hmade
    cases hmade with
    | @verifySave _ session row ho hs hr =>
      refine Registers.ext (funext fun d => ?_) rfl rfl
      show (db.birthdays.put row).get? d =
        Registers.birthdayAfter C K state around ⟨.verifySave body, headers⟩ d (db.birthdays.get? d)
      have hown : row.discordId = session.1 := discordId_of_verifySaveRow hr
      rw [Table.get?_put]
      unfold Registers.birthdayAfter Registers.ownName
      by_cases hd : d = session.1
      · subst hd
        simp [ho, hs, hr, hown]
      · simp [ho, hs, hown, hd, Ne.symm hd]
  · rw [hsame]
    refine Registers.ext (funext fun d => ?_) rfl rfl
    show db.birthdays.get? d =
      Registers.birthdayAfter C K state around ⟨.verifySave body, headers⟩ d (db.birthdays.get? d)
    unfold Registers.birthdayAfter
    cases hown : Registers.ownName K state around ⟨.verifySave body, headers⟩ d with
    | none => rfl
    | some name =>
      obtain ⟨ho, hs⟩ := Registers.ownName_eq_some.mp hown
      cases hr : verifySaveRow C around.thisYear around.now d name body with
      | error e => simp [hr]
      | ok row => exact absurd (.verifySave ho hs hr) (hnone _)

theorem registers_verifyUnlink : (Routes.verifyUnlink K state around db headers).1.registers =
    db.registers.after C K state around ⟨.verifyUnlink, headers⟩ := by
  have hunlink : Routes.Made C K state around db headers .verifyUnlink
      (Routes.verifyUnlink K state around db headers).1 := Routes.made_verifyUnlink
  rcases hunlink with hmade | ⟨hsame, hnone⟩
  · generalize (Routes.verifyUnlink K state around db headers).1 = db' at hmade
    cases hmade with
    | @verifyUnlink session row ho hs hr =>
      refine Registers.ext (funext fun d => ?_) rfl rfl
      show (db.birthdays.remove session.1).get? d =
        Registers.birthdayAfter C K state around ⟨.verifyUnlink, headers⟩ d (db.birthdays.get? d)
      rw [Table.get?_remove]
      unfold Registers.birthdayAfter Registers.ownName
      by_cases hd : d = session.1
      · subst hd
        simp [ho, hs]
      · simp [ho, hs, hd, Ne.symm hd]
  · rw [hsame]
    refine Registers.ext (funext fun d => ?_) rfl rfl
    show db.birthdays.get? d =
      Registers.birthdayAfter C K state around ⟨.verifyUnlink, headers⟩ d (db.birthdays.get? d)
    unfold Registers.birthdayAfter
    cases hown : Registers.ownName K state around ⟨.verifyUnlink, headers⟩ d with
    | none => rfl
    | some name =>
      obtain ⟨ho, hs⟩ := Registers.ownName_eq_some.mp hown
      cases hr : db.birthdays.get? d with
      | none => rfl
      | some row => exact absurd (.verifyUnlink ho hs hr) (hnone _)

end Database

namespace Routes

/-- What a request makes of the tables is what it makes of every register. -/
theorem registers_handle (C : Crates) (K : TokenCrates) (state : AppState) (around : Surroundings)
    (db : Database) (request : HttpRequest) :
    (handle C K state around db request).1.registers =
      db.registers.after C K state around request := by
  obtain ⟨route, headers⟩ := request
  cases route with
  | register guildId roleId => exact db.registers_register guildId roleId
  | deleteConfig guildId roleId => exact db.registers_deleteConfig guildId roleId
  | roleConfigSave guildId roleId version tree =>
    exact db.registers_roleConfigSave guildId roleId version tree
  | setViewPermission guildId vp => exact db.registers_setViewPermission guildId vp
  | verifySave body => exact db.registers_verifySave body
  | verifyUnlink => exact db.registers_verifyUnlink
  | getConfig | postConfig | roleConfigPage | roleConfigData | roleConfigPreview
  | roleConfigPreviewEdit | usersPage | usersData | verifyPage | verifyStatus | verifyLogin | favicon
  | dweebStatus | health | ready | unrouted => rfl

/-- However many requests there are, from whomever and in whatever order, each birthday, each
visibility and each link is what it would be if it were alone: the requests that may write it are
applied to it, one after the other, and nothing else is. -/
theorem registers_run (C : Crates) (K : TokenCrates) (state : AppState) :
    ∀ (visits : List Site.Visit) (db : Database),
      (visits.foldl (fun db v => (handle C K state v.1 db v.2).1) db).registers =
        visits.foldl (fun R v => R.after C K state v.1 v.2) db.registers
  | [], _ => rfl
  | v :: visits, db => by
    rw [List.foldl_cons, List.foldl_cons, registers_run C K state visits, registers_handle]

end Routes

end BirthdayRole
