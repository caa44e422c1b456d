/-
# Player runs on a link that has settled

A player run adds its member to a link or removes them where what they qualify for is
not what is assigned. On a settled link there is one such case, a member for whom the
list has no room (`actionFor_settled`), and there RoleLogic refuses. So any number of
player runs, side by side, leave the link as it is (`World.Settled.players`); what they
do to other links does not matter (`World.Still`).
-/
import BirthdayRole.SyncSettles

namespace BirthdayRole

open Prog

section

variable {C : Crates} {H : HttpCrates} {w w' : World} {link : LinkKey} {l : RoleLink}
  {tree : RuleTree} {discordId : String}

/-! ### What a player run finds -/

/-- The facts a member's run computes. -/
def World.facts (w : World) (discordId : String) : Option Facts :=
  ((w.db.birthdays.get? discordId).map BirthdayRow.input).map (computeFacts w.localToday)

/-- A member of the guild qualifies if their birthday satisfies the rule. -/
theorem qualifies_iff (C : Crates) (tree : RuleTree) (hmem : discordId ∈ w.members link.1) :
    qualifies C tree (w.facts discordId) = true ↔ discordId ∈ w.satisfying C link tree := by
  rw [mem_satisfying_iff, and_iff_right hmem]
  unfold World.facts qualifies
  cases hget : w.db.birthdays.get? discordId with
  | none => simp
  | some row =>
    by_cases hg : tree.grantOnAnyBirthday = true
    · simp [hg, evaluate]
    · by_cases hempty : tree.groups.isEmpty = true
      · simp [hg, hempty, evaluate]
      · simp [hg, hempty]

/-- Whoever satisfies the rule and is not in the target finds the link full. -/
theorem full_of_not_mem_target (h : discordId ∈ w.satisfying C link tree)
    (hnot : discordId ∉ w.target C link tree) :
    (w.target C link tree).length = (w.roleLogic.limits link).1 := by
  unfold World.target at hnot ⊢
  rw [List.length_take]
  refine Nat.min_eq_left ?_
  by_contra hshort
  rw [List.take_of_length_le (by omega)] at hnot
  exact hnot h

/-- RoleLogic has no room for a user on a link. -/
def World.NoRoom (w : World) (link : LinkKey) (discordId : String) : Prop :=
  (w.roleLogic.limits link).1 ≤ (w.roleLogic.lists link).card ∧ discordId ∉ w.roleLogic.lists link

/-- The one thing a player run may find to do on a settled link. -/
theorem actionFor_settled (hs : w.Settled C link l tree) (hmem : discordId ∈ w.members link.1)
    {existing : List LinkKey} (hexisting : link ∈ existing ↔ w.db.rows (link, discordId) = true)
    {a : SyncAction}
    (ha : actionFor C (w.facts discordId) existing (link, l.apiToken, l.ruleTree) = some a) :
    a = .add link l.apiToken ∧ w.NoRoom link discordId := by
  have hassigned : link ∈ existing ↔ discordId ∈ w.target C link tree := by
    rw [hexisting, ← Database.mem_assigned, hs.assigned]
  have hqualifies := qualifies_iff C tree hmem
  unfold actionFor at ha
  rw [hs.rule.ruleTreeOf] at ha
  by_cases hq : qualifies C tree (w.facts discordId) = true <;> by_cases he : link ∈ existing
  · simp [hq, he] at ha
  · simp only [hq, he, decide_false] at ha
    cases ha
    have hnot : discordId ∉ w.target C link tree := mt hassigned.mpr he
    have hlen := full_of_not_mem_target (hqualifies.mp hq) hnot
    refine ⟨rfl, ?_, ?_⟩
    · rw [hs.list, List.toFinset_card_of_nodup (target_nodup C w link tree), hlen]
    · rw [hs.list, List.mem_toFinset]
      exact hnot
  · exact absurd (hqualifies.mpr (List.mem_of_mem_take (hassigned.mp he))) hq
  · simp [hq, he] at ha

/-! ### What stays as it is -/

/-- Nothing of a link has changed, nor of what its rule is judged on. -/
structure World.Still (link : LinkKey) (w w' : World) : Prop where
  lists : w'.roleLogic.lists link = w.roleLogic.lists link
  limits : w'.roleLogic.limits link = w.roleLogic.limits link
  rows : ∀ d, w'.db.rows (link, d) = w.db.rows (link, d)
  row : w'.db.roleLinks.get? link = w.db.roleLinks.get? link
  birthdays : w'.db.birthdays = w.db.birthdays
  members : w'.members = w.members
  localToday : w'.localToday = w.localToday
  postgres : w'.postgres = w.postgres

theorem World.Still.refl (w : World) : World.Still link w w :=
  ⟨rfl, rfl, fun _ => rfl, rfl, rfl, rfl, rfl, rfl⟩

theorem World.Still.trans {w'' : World} (h : World.Still link w w') (h' : World.Still link w' w'') :
    World.Still link w w'' where
  lists := h'.lists.trans h.lists
  limits := h'.limits.trans h.limits
  rows d := (h'.rows d).trans (h.rows d)
  row := h'.row.trans h.row
  birthdays := h'.birthdays.trans h.birthdays
  members := h'.members.trans h.members
  localToday := h'.localToday.trans h.localToday
  postgres := h'.postgres.trans h.postgres

theorem World.Still.assigned (h : World.Still link w w') : w'.db.assigned link = w.db.assigned link :=
  Database.assigned_eq (Database.assigned_sorted _ _) (Database.assigned_nodup _ _) fun d => by
    rw [Database.mem_assigned, h.rows]

theorem World.Still.target (h : World.Still link w w') :
    w'.target C link tree = w.target C link tree := by
  have hfilter : (w.db.birthdays.rows.filter fun row => w'.Satisfies C link tree row) =
      w.db.birthdays.rows.filter fun row => w.Satisfies C link tree row := by
    refine List.filter_congr fun row _ => ?_
    rw [decide_eq_decide]
    unfold World.Satisfies
    rw [h.members, h.localToday]
  unfold World.target World.satisfying
  rw [h.limits, h.birthdays, hfilter]

theorem World.Settled.still (hs : w.Settled C link l tree) (h : World.Still link w w') :
    w'.Settled C link l tree where
  row := h.row.trans hs.row
  rule := hs.rule
  birthdays := by rw [h.birthdays]; exact hs.birthdays
  dates := by rw [h.birthdays, h.postgres, h.localToday]; exact hs.dates
  regex := by rw [h.postgres]; exact hs.regex
  assigned := by rw [h.assigned, h.target]; exact hs.assigned
  list := by rw [h.lists, h.target]; exact hs.list

theorem World.NoRoom.still (hn : w.NoRoom link discordId) (h : World.Still link w w') :
    w'.NoRoom link discordId := by
  unfold World.NoRoom
  rw [h.limits, h.lists]
  exact hn

theorem World.Still.facts (h : World.Still link w w') (discordId : String) :
    w'.facts discordId = w.facts discordId := by
  unfold World.facts
  rw [h.birthdays, h.localToday]

/-- A call on another link. -/
theorem still_of_roleLogic {other : LinkKey} (hne : other ≠ link) {token : String} {c : RlCall}
    {r : Except AppError c.Result} (h : World.outside H (.roleLogic other token c) w r w') :
    World.Still link w w' := by
  obtain ⟨-, rfl⟩ := h
  cases r with
  | error e => exact .refl w
  | ok v =>
    have hne : link ≠ other := Ne.symm hne
    refine ⟨?_, ?_, fun _ => rfl, rfl, rfl, rfl, rfl, rfl⟩
    · cases c with
      | getUserInfo | startUpload | uploadChunk | cancelUpload => rfl
      | addUser | removeUser | replaceUsers => exact Function.update_of_ne hne _ _
      | commitUpload id =>
        show (w.roleLogic.after other (.commitUpload id) v).lists link = _
        rcases w.roleLogic.after_commitUpload other id v with ⟨-, he⟩ | ⟨u, -, he⟩
        · rw [he]
        · rw [he]
          exact Function.update_of_ne hne _ _
    · exact congrFun (w.roleLogic.limits_after other c v) link

/-- A write for another link. -/
def Statement.Elsewhere (link : LinkKey) : Statement → Prop
  | insertAssignment other _ | deleteAssignment other _ | deleteRoleLink other => other ≠ link
  | s => s.Reads

theorem still_of_db {s : Statement} (hs : s.Elsewhere link) {r : Except AppError s.Result}
    (h : World.outside H (.db s) w r w') : World.Still link w w' := by
  obtain ⟨-, rfl⟩ := h
  cases r with
  | error e => exact .refl w
  | ok v =>
    cases s with
    | selectLinks | selectBirthday | selectAssigned | selectLink | selectQualifying | selectCurrent
    | existsAssigned => exact .refl w
    | rewriteAssignments | clearAssignments => exact hs.elim
    | insertAssignment other id =>
      refine ⟨rfl, rfl, fun d => ?_, rfl, rfl, rfl, rfl, rfl⟩
      show (w.db.insertAssignment other id).rows (link, d) = _
      rw [Database.rows_insertAssignment, decide_eq_false, Bool.false_or]
      exact fun he => hs (congrArg Prod.fst he).symm
    | deleteAssignment other id =>
      refine ⟨rfl, rfl, fun d => ?_, rfl, rfl, rfl, rfl, rfl⟩
      show (w.db.deleteAssignment other id).rows (link, d) = _
      rw [Database.rows_deleteAssignment, decide_eq_false, Bool.not_false, Bool.true_and]
      exact fun he => hs (congrArg Prod.fst he).symm
    | deleteRoleLink other =>
      refine ⟨rfl, rfl, fun d => ?_, ?_, rfl, rfl, rfl, rfl⟩
      · show (w.db.clearAssignments other).rows (link, d) = _
        rw [Database.rows_clearAssignments, decide_eq_false (Ne.symm hs), Bool.not_false, Bool.true_and]
      · show (w.db.roleLinks.remove other).get? link = _
        rw [Table.get?_remove, if_neg (Ne.symm hs)]

/-! ### Player runs -/

/-- Player runs of any members, side by side. -/
def playerRuns (C : Crates) (H : HttpCrates) : System AppError SyncCall.Result World SyncTask :=
  { syncSystem C (World.outside H) fun _ _ => False with
    root := fun t => ∃ discordId, t = .player discordId }

/-- A task that does nothing to a link: an action on another one, or an add where
there is no room. -/
def Harmless (C : Crates) (link : LinkKey) (l : RoleLink) (tree : RuleTree) : SyncTask → World → Prop
  | .player _, w => w.Settled C link l tree
  | .roleLink _, _ => False
  | .act discordId (.add other _), w => other ≠ link ∨ w.NoRoom link discordId
  | .act _ (.remove other _), _ => other ≠ link

/-- What the calls of a player run mean to the others. -/
abbrev still (H : HttpCrates) (link : LinkKey) : Rule AppError SyncCall.Result World :=
  shared (World.outside H) (World.Still link)

/-- A statement whose failure is dropped, at the end of an action. -/
theorem bestEffort_still {s : Statement} (hs : s.Elsewhere link)
    (Q : Except AppError (List SyncTask) → World → Prop) (hQ : ∀ w, Q (.ok []) w) :
    wp (still H link) (bestEffort s >>= fun _ => pure []) Q w :=
  fun _ _ hr => ⟨still_of_db hs hr, fun w'' _ => hQ w''⟩

/-- An action on another link. -/
theorem act_elsewhere {other : LinkKey} (hne : other ≠ link) (a : SyncAction)
    (ha : (∃ token, a = .add other token) ∨ ∃ token, a = .remove other token)
    (Q : Except AppError (List SyncTask) → World → Prop) (hQ : ∀ w, Q (.ok []) w) :
    wp (still H link) (SyncTask.body C (.act discordId a)) Q w := by
  rcases ha with ⟨token, rfl⟩ | ⟨token, rfl⟩
  · intro r w' hr
    refine ⟨still_of_roleLogic hne hr, fun w'' _ => ?_⟩
    rcases r with e | v
    · cases e with
      | roleLinkNotFound => exact bestEffort_still (s := .deleteRoleLink other) hne Q hQ
      | _ => exact hQ w''
    · exact bestEffort_still (s := .insertAssignment other discordId) hne Q hQ
  · intro r w' hr
    refine ⟨still_of_roleLogic hne hr, fun w'' _ => ?_⟩
    rcases r with e | v
    · cases e with
      | roleLinkNotFound => exact bestEffort_still (s := .deleteRoleLink other) hne Q hQ
      | _ => exact hQ w''
    · exact bestEffort_still (s := .deleteAssignment other discordId) hne Q hQ

/-- An add where there is no room is refused, and nothing follows. -/
theorem add_no_room (hn : w.NoRoom link discordId) (token : String)
    (Q : Except AppError (List SyncTask) → World → Prop) (hQ : ∀ w, Q (.ok []) w) :
    wp (still H link) (SyncTask.body C (.act discordId (.add link token))) Q w := by
  intro r w' hr
  obtain ⟨⟨reply, hreply, hrefuses⟩, rfl⟩ := hr
  rcases hrefuses hn.1 hn.2 with hlimit | ⟨e, rfl⟩
  · obtain ⟨n, hn⟩ := RoleLogicClient.addUser_limitError H hlimit
    obtain rfl : r = .error (.userLimitReached n) := hreply.symm.trans hn
    exact ⟨.refl w, fun w'' _ => hQ w''⟩
  · obtain rfl : r = .error (.roleLogic e) := hreply.symm
    exact ⟨.refl w, fun w'' _ => hQ w''⟩

/-! ### Every player run -/

/-- A statement that reads, and what follows it. -/
theorem reads_still {s : Statement} (hs : s.Reads) {α : Type} {f : s.Result → Sync α}
    {Q : Except AppError α → World → Prop} (herror : ∀ e w', Q (.error e) w')
    (h : ∀ v w', s.Answers w.postgres w.db v → World.Still link w w' →
      wp (still H link) (f v) Q w') : wp (still H link) (query s >>= f) Q w := by
  intro r w₁ hr
  obtain ⟨hans, hw⟩ := hr
  cases r with
  | error e =>
    obtain rfl : w = w₁ := hw.symm
    exact ⟨.refl w, fun w' _ => herror e w'⟩
  | ok v =>
    have hsame : w₁ = w := by
      rw [hw]
      show { w with db := s.after w.db } = w
      rw [hs.after]
    subst hsame
    exact ⟨.refl _, fun w' hw' => h v w' hans hw'⟩

/-- The guilds of a member, and what follows them. -/
theorem userGuildIds_still {α : Type} {f : List String → Sync α}
    {Q : Except AppError α → World → Prop} (herror : ∀ e w', Q (.error e) w')
    (h : ∀ guildIds w', (∀ g, g ∈ guildIds ↔ discordId ∈ w.members g) → World.Still link w w' →
      wp (still H link) (f guildIds) Q w') :
    wp (still H link) (perform (SyncCall.userGuildIds discordId) >>= f) Q w := by
  intro r w₁ hr
  obtain ⟨⟨reply, -, hguilds⟩, hw⟩ := hr
  obtain rfl : w = w₁ := by rw [hw]; cases r <;> rfl
  refine ⟨.refl w, fun w' hw' => ?_⟩
  rcases r with e | guildIds
  · exact herror e w'
  · exact h guildIds w' (hguilds guildIds rfl) hw'

/-- The facts of a member, whose row has been read. -/
theorem readFacts_still {α : Type} {f : Option Facts → Sync α}
    {Q : Except AppError α → World → Prop}
    (h : ∀ w', World.Still link w w' → wp (still H link) (f (w.facts discordId)) Q w') :
    wp (still H link) (readFacts ((w.db.birthdays.get? discordId).map BirthdayRow.input) >>= f) Q w := by
  unfold World.facts at h
  generalize (w.db.birthdays.get? discordId).map BirthdayRow.input = row at h ⊢
  cases row with
  | none => exact h w (.refl w)
  | some input =>
    intro r w₁ hr
    obtain ⟨rfl, hw⟩ := hr
    obtain rfl : w = w₁ := hw.symm
    exact ⟨.refl w, fun w' hw' => h w' hw'⟩

/-- The row of a link among those of the guilds. -/
theorem selectLinks_row (hrow : w.db.roleLinks.get? link = some l) {guildIds : List String}
    {rows : List (LinkKey × String × Json.Value)}
    (hrows : (Statement.selectLinks guildIds).Answers w.postgres w.db rows)
    {row : LinkKey × String × Json.Value} (hmem : row ∈ rows) (hlink : row.1 = link) :
    row = (link, l.apiToken, l.ruleTree) ∧ link.1 ∈ guildIds := by
  obtain ⟨l', hl', rfl⟩ := List.mem_map.mp (hrows.mem_iff.mp hmem)
  obtain ⟨hl', hguild⟩ := List.mem_filter.mp hl'
  have hget : w.db.roleLinks.get? link = some l' := Table.get?_eq_some.mpr ⟨hl', hlink⟩
  obtain rfl : l = l' := Option.some.inj (hrow.symm.trans hget)
  subst hlink
  exact ⟨rfl, of_decide_eq_true hguild⟩

theorem selectAssigned_mem {links : List LinkKey}
    (h : (Statement.selectAssigned discordId).Answers w.postgres w.db links) :
    link ∈ links ↔ w.db.rows (link, discordId) = true := by
  rw [h.mem_iff, ← Database.mem_assigned]
  unfold Database.assigned
  simp only [List.mem_insertionSort, List.mem_map, List.mem_filter, decide_eq_true_eq]
  constructor
  · rintro ⟨a, ⟨ha, hid⟩, hlink⟩
    exact ⟨a, ⟨ha, hlink⟩, hid⟩
  · rintro ⟨a, ⟨ha, hlink⟩, hid⟩
    exact ⟨a, ⟨ha, hid⟩, hlink⟩

/-- An action is about the link of its row. -/
theorem actionFor_link {facts : Option Facts} {existing : List LinkKey}
    {row : LinkKey × String × Json.Value} {a : SyncAction}
    (h : actionFor C facts existing row = some a) :
    a = .add row.1 row.2.1 ∨ a = .remove row.1 row.2.1 := by
  unfold actionFor at h
  split at h
  · exact Or.inl (Option.some.inj h).symm
  · exact Or.inr (Option.some.inj h).symm
  · cases h

/-- What the run of a member plans does nothing to a settled link. -/
theorem planPlayer_harmless (hs : w.Settled C link l tree) :
    wp (still H link) (planPlayer C discordId)
      (fun x w' => ∀ as, x = .ok as → ∀ a ∈ as, Harmless C link l tree (.act discordId a) w') w := by
  have herror : ∀ (e : AppError) (w' : World) (as : List SyncAction),
      (Except.error e : Except AppError (List SyncAction)) = .ok as →
        ∀ a ∈ as, Harmless C link l tree (.act discordId a) w' := fun _ _ _ he => by cases he
  have hnone : ∀ (w' : World) (as : List SyncAction),
      (Except.ok [] : Except AppError (List SyncAction)) = .ok as →
        ∀ a ∈ as, Harmless C link l tree (.act discordId a) w' := fun _ _ he a ha => by
    cases he
    exact absurd ha List.not_mem_nil
  refine userGuildIds_still herror fun guildIds w₁ hguilds h₁ => ?_
  by_cases hguild : guildIds.isEmpty = true
  · rw [if_pos hguild]
    exact hnone w₁
  rw [if_neg hguild]
  refine reads_still (s := .selectLinks guildIds) trivial herror fun roleLinks w₂ hlinks h₂ => ?_
  by_cases hempty : roleLinks.isEmpty = true
  · rw [if_pos hempty]
    exact hnone w₂
  rw [if_neg hempty]
  refine reads_still (s := .selectBirthday discordId) trivial herror fun row w₃ hrow h₃ => ?_
  have hrow : row = (w₃.db.birthdays.get? discordId).map BirthdayRow.input := by
    rw [h₃.birthdays]
    exact hrow
  subst hrow
  refine readFacts_still fun w₄ h₄ => ?_
  refine reads_still (s := .selectAssigned discordId) trivial herror fun existing w₅ hexist h₅ => ?_
  intro as has a ha
  cases has
  obtain ⟨row, hrow, ha⟩ := List.mem_filterMap.mp ha
  have hother : row.1 ≠ link → Harmless C link l tree (.act discordId a) w₅ := by
    intro hne
    rcases actionFor_link ha with rfl | rfl
    · exact Or.inl hne
    · exact hne
  by_cases hlink : row.1 = link
  · have hthere : World.Still link w w₄ := ((h₁.trans h₂).trans h₃).trans h₄
    obtain ⟨hrow, hguild⟩ := selectLinks_row (h₁.row.trans hs.row) hlinks hrow hlink
    have hmem : discordId ∈ w₄.members link.1 := by
      rw [hthere.members]
      exact (hguilds _).mp hguild
    rw [← h₄.facts, hrow] at ha
    obtain ⟨rfl, hroom⟩ := actionFor_settled (hs.still hthere) hmem (selectAssigned_mem hexist) ha
    exact Or.inr (hroom.still h₅)
  · exact hother hlink

/-- The run of a member, started on a settled link. -/
theorem player_behaves (hs : w.Settled C link l tree) :
    Behaves (playerRuns C H) (World.Still link) (Harmless C link l tree)
      (SyncTask.body C (.player discordId)) w := by
  intro w' hw'
  show wp (still H link) (planPlayer C discordId >>= fun actions =>
    pure (actions.map (SyncTask.act discordId))) _ w'
  rw [wp_bind]
  refine wp_mono (shared_monotone _ _) ?_ (planPlayer_harmless (hs.still hw'))
  rintro (e | as) w'' has ts hts
  · cases hts
  · cases hts
    intro t ht
    obtain ⟨a, ha, rfl⟩ := List.mem_map.mp ht
    exact has as rfl a ha

theorem Harmless.behaves {t : SyncTask} (h : Harmless C link l tree t w) :
    Behaves (playerRuns C H) (World.Still link) (Harmless C link l tree) (SyncTask.body C t) w := by
  cases t with
  | player discordId => exact player_behaves h
  | roleLink other => exact h.elim
  | act discordId a =>
    intro w' hw'
    have hQ : ∀ w'', ∀ ts, (Except.ok [] : Except AppError (List SyncTask)) = .ok ts →
        ∀ t ∈ ts, Harmless C link l tree t w'' := fun _ _ he t ht => by
      cases he
      exact absurd ht List.not_mem_nil
    cases a with
    | add other token =>
      by_cases hother : other = link
      · subst hother
        rcases h with hne | hn
        · exact absurd rfl hne
        · exact add_no_room (hn.still hw') token _ hQ
      · exact act_elsewhere hother _ (Or.inl ⟨token, rfl⟩) _ hQ
    | remove other token => exact act_elsewhere h _ (Or.inr ⟨token, rfl⟩) _ hQ

/-- Player runs leave a settled link as it is. -/
theorem World.Settled.players (hs : w.Settled C link l tree)
    {p : Pool AppError SyncCall.Result World SyncTask} (h : Reached (playerRuns C H) ⟨w, []⟩ p) :
    p.state.db.assigned link = w.db.assigned link ∧
      p.state.roleLogic.lists link = w.roleLogic.lists link := by
  have hroot : ∀ t w', World.Still link w w' → (playerRuns C H).root t →
      Harmless C link l tree t w' := by
    rintro _ w' hw' ⟨discordId, rfl⟩
    exact hs.still hw'
  have hstill : World.Still link w p.state :=
    Reached.guarantee World.Still.refl (fun _ _ _ => World.Still.trans) (fun _ _ => False.elim) hroot
      (fun _ _ => Harmless.behaves) h fun t ht => absurd ht List.not_mem_nil
  exact ⟨hstill.assigned, hstill.lists⟩

/-! ### A run of the link, and the runs after it -/

/-- A run of a link, alone and with a database that works, from a list that the rows
mirror: both become the target, and then no run sends a list again and no player run
changes anything; or the token was rejected and the link is gone; or another error has
left both as they were. -/
theorem syncForRoleLink_settles (hfit : w.Fit C link l tree) {S : Finset String}
    (hassigned : (w.db.assigned link).toFinset = S) (hlist : w.roleLogic.lists link = S)
    {events : List SyncEvent} {x : Except AppError Unit}
    (h : Exec (World.working H) (syncForRoleLink link) w events x w') :
    (w'.db.assigned link = w.target C link tree ∧
      w'.roleLogic.lists link = (w.target C link tree).toFinset ∧
      (tree.unconfigured = true ∨ w.members link.1 = [] → w.target C link tree = []) ∧
      (∀ events' x' w'', Exec (World.outside H) (syncForRoleLink link) w' events' x' w'' →
        NoUpload events') ∧
      ∀ p, Reached (playerRuns C H) ⟨w', []⟩ p →
        p.state.db.assigned link = w'.db.assigned link ∧
          p.state.roleLogic.lists link = w'.roleLogic.lists link) ∨
    (Refused link l.apiToken .roleLinkNotFound events ∧ w'.db.roleLinks.get? link = none ∧
      w'.db.assigned link = []) ∨
    ((w'.db.assigned link).toFinset = S ∧ w'.roleLogic.lists link = S ∧
      ((∃ e, e ≠ .roleLinkNotFound ∧ Refused link l.apiToken e events) ∨
        GatewayFailed link events)) := by
  rcases syncForRoleLink_outcome hfit (hassigned.trans hlist.symm) h with
    ⟨hs, htarget⟩ | hgone | ⟨⟨ha, hl⟩, hcause⟩
  · left
    refine ⟨?_, ?_, ?_, fun _ _ _ h' => hs.sends_no_upload h', fun p hp => hs.players hp⟩
    · rw [hs.assigned, htarget]
    · rw [hs.list, htarget]
    · rintro (hconf | hnone)
      · exact target_unconfigured hconf
      · exact target_no_members hnone
  · exact Or.inr (Or.inl hgone)
  · right; right
    exact ⟨by rw [ha, hassigned], by rw [hl, hlist], hcause⟩

theorem pairWorld_fit (lists : LinkKey → Finset String) : (pairWorld lists).Fit Crates.ascii pairLink
    ⟨"g", "r", "t", pairRule, 2, 0⟩ ⟨true, []⟩ where
  row := rfl
  rule := Or.inr ⟨⟨true, []⟩, rfl, rfl⟩
  birthdays row hrow := by
    rcases List.mem_cons.mp hrow with rfl | hrow
    · exact leoRow_saved
    · rw [List.mem_singleton.mp hrow]
      exact ⟨2024, 0, "2", "a", ⟨8, 1, some 2000, none, false⟩, by rfl⟩
  dates row hrow := by
    rcases List.mem_cons.mp hrow with rfl | hrow
    · rfl
    · rw [List.mem_singleton.mp hrow]
      rfl
  regex := sameRegex_ascii _

/-- The second member of a guild of two, whose link is full, stays off the list. -/
theorem syncForRoleLink_settles_pair : ∃ events x w',
    Exec (World.working pairHttp) (syncForRoleLink pairLink) (pairWorld fun _ => ∅) events x w' ∧
    w'.db.assigned pairLink = ["1"] ∧ ∀ p, Reached (playerRuns .ascii pairHttp) ⟨w', []⟩ p →
      p.state.db.assigned pairLink = ["1"] := by
  obtain ⟨events, hexec⟩ := pair_roleLink fun _ => ∅
  rcases hexec.bind_inv with ⟨e, -, he⟩ | ⟨_, first, w', rest, hrun, hend, -⟩
  · cases he
  obtain ⟨-, -, rfl⟩ := hend.done_inv
  have hrun : Exec (World.working pairHttp) (syncForRoleLink pairLink) (pairWorld fun _ => ∅) first
      (.ok ()) (pairSynced fun _ => ∅) := hrun.mono fun _ _ _ _ h => ⟨h.1, fun _ _ => h.2⟩
  have hassigned : (pairSynced fun _ => ∅).db.assigned pairLink = ["1"] := by decide
  refine ⟨first, _, _, hrun, hassigned, ?_⟩
  rcases syncForRoleLink_settles (S := ∅) (pairWorld_fit _) rfl rfl hrun with
    ⟨-, -, -, -, hplayers⟩ | ⟨-, -, hnone⟩ | ⟨hsame, -⟩
  · exact fun p hp => (hplayers p hp).1.trans hassigned
  · rw [hassigned] at hnone
    cases hnone
  · rw [hassigned] at hsame
    exact absurd hsame (by decide)

end

end BirthdayRole
