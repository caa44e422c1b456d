/-
# What a run that has just started is bound to do

A place is a member and a link. What a run does there rests on two things, the birthday
of the member and the rule of the link, and on what stays as it is (`World.Alike`). As
long as those do, a run of the member or of the link comes to one of two calls, whatever
else happens and however often the rows change meanwhile (`body_bound`): it writes the
list at the place, or it reads that the row there is as it should be.
-/
import BirthdayRole.Lib.Bound
import BirthdayRole.PlayerFailures
import BirthdayRole.SyncPlayers

namespace BirthdayRole

open Prog

/-- A link and a user. -/
abbrev Place := LinkKey × String

/-- The user is a member of the guild, with a birthday that satisfies the rule of the
link, both as they are stored. -/
def World.deserves (C : Crates) (w : World) (a : Place) : Bool :=
  (w.db.roleLinks.get? a.1).any fun l => a.2 ∈ w.satisfying C a.1 (ruleTreeOf l.ruleTree)

/-- No more users deserve the role of a link than RoleLogic takes. -/
def World.HasRoom (C : Crates) (w : World) : Prop :=
  ∀ link l, w.db.roleLinks.get? link = some l →
    (w.satisfying C link (ruleTreeOf l.ruleTree)).length ≤ (w.roleLogic.limits link).1

/-- Saved birthdays and stored rules, judged on one date by two engines that see the
same patterns, and room for everybody. -/
structure World.Proper (C : Crates) (w : World) : Prop where
  saved : ∀ row ∈ w.db.birthdays.rows, row.Saved C
  stored : ∀ link l, w.db.roleLinks.get? link = some l → ∃ tree, StoredRule C l.ruleTree tree
  dates : ∀ row : BirthdayRow, row.Saved C →
    w.postgres.localDate row.tz = .ok (w.localToday row.tz)
  regex : SameRegex C w.postgres.regex
  room : w.HasRoom C

/-- What is deserved at a place rests on the same things. -/
structure World.Alike (a : Place) (w w' : World) : Prop where
  members : w'.members = w.members
  limits : w'.roleLogic.limits = w.roleLogic.limits
  localToday : w'.localToday = w.localToday
  postgres : w'.postgres = w.postgres
  birthday : w'.db.birthdays.get? a.2 = w.db.birthdays.get? a.2
  rule : (w'.db.roleLinks.get? a.1).map RoleLink.ruleTree =
    (w.db.roleLinks.get? a.1).map RoleLink.ruleTree

/-- A call that changes the list at a place. -/
def SyncCall.Writes (a : Place) : SyncCall → Prop
  | .roleLogic link _ (.addUser userId) => (link, userId) = a
  | .roleLogic link _ (.removeUser userId) => (link, userId) = a
  | .roleLogic link _ (.replaceUsers _) => link = a.1
  | .roleLogic link _ (.commitUpload _) => link = a.1
  | _ => False

/-- What a call that was answered tells of the row of a place. -/
def rowReported (a : Place) : SyncEvent → Option Bool
  | ⟨.db (.selectAssigned discordId), .ok links⟩ =>
    if discordId = a.2 then some (links.any fun link => link = a.1) else none
  | ⟨.db (.selectCurrent link), .ok ids⟩ =>
    if link = a.1 then some (decide (a.2 ∈ ids)) else none
  | ⟨.db (.existsAssigned link), .ok false⟩ => if link = a.1 then some false else none
  | _ => none

/-- An answer to a call as long as a place stays as it is. -/
def StillAnswers (C : Crates) (H : HttpCrates) (a : Place) (w : World) (c : SyncCall)
    (r : Except AppError c.Result) : Prop :=
  ∃ w₁ w₂, World.Alike a w w₁ ∧ w₁.Proper C ∧ World.faultless H c w₁ r w₂

/-- The list is written at a place, or the row is as it should be. -/
def Attends (C : Crates) (w : World) (a : Place) (e : SyncEvent) : Prop :=
  e.op.Writes a ∨ rowReported a e = some (w.deserves C a)

namespace SyncTask

/-- An action at a place. -/
def ActsOn (a : Place) : SyncTask → Prop
  | act discordId action => (action.link, discordId) = a
  | _ => False

/-- A run of the member or of the link. -/
def Covers (a : Place) : SyncTask → Prop
  | player discordId => discordId = a.2
  | roleLink link => link = a.1
  | act _ _ => False

end SyncTask

/-- The rest of a run is bound to attend to a place, itself or by an action that it ends with. -/
def BoundFor (C : Crates) (H : HttpCrates) (a : Place) (w : World) (p : Sync (List SyncTask)) : Prop :=
  p.Bound (StillAnswers C H a w) (Attends C w a) fun x => ∃ ts, x = .ok ts ∧ ∃ t ∈ ts, t.ActsOn a

section

variable {C : Crates} {H : HttpCrates} {a : Place} {w w' : World} {l : RoleLink}

/-! ### What is deserved -/

theorem deserves_iff (hl : w.db.roleLinks.get? a.1 = some l) :
    w.deserves C a = true ↔ a.2 ∈ w.satisfying C a.1 (ruleTreeOf l.ruleTree) := by
  unfold World.deserves
  rw [hl, Option.any_some, decide_eq_true_iff]

/-- Who is not a member deserves nothing. -/
theorem deserves_of_not_member (h : a.2 ∉ w.members a.1.1) : w.deserves C a = false := by
  rw [Bool.eq_false_iff]
  intro hd
  cases hl : w.db.roleLinks.get? a.1 with
  | none =>
    unfold World.deserves at hd
    rw [hl] at hd
    cases hd
  | some l => exact h (mem_satisfying_iff.mp ((deserves_iff hl).mp hd)).1

theorem World.Alike.refl (a : Place) (w : World) : World.Alike a w w := ⟨rfl, rfl, rfl, rfl, rfl, rfl⟩

theorem World.Alike.trans {w'' : World} (h : World.Alike a w w') (h' : World.Alike a w' w'') :
    World.Alike a w w'' where
  members := h'.members.trans h.members
  limits := h'.limits.trans h.limits
  localToday := h'.localToday.trans h.localToday
  postgres := h'.postgres.trans h.postgres
  birthday := h'.birthday.trans h.birthday
  rule := h'.rule.trans h.rule

/-- The row of the link, with the same rule. -/
theorem World.Alike.row (h : World.Alike a w w') (hl : w.db.roleLinks.get? a.1 = some l) :
    ∃ l', w'.db.roleLinks.get? a.1 = some l' ∧ l'.ruleTree = l.ruleTree := by
  have hrule := h.rule
  rw [hl, Option.map_some] at hrule
  exact Option.map_eq_some_iff.mp hrule

theorem World.Alike.satisfying (h : World.Alike a w w') (tree : RuleTree) :
    a.2 ∈ w'.satisfying C a.1 tree ↔ a.2 ∈ w.satisfying C a.1 tree := by
  rw [mem_satisfying_iff, mem_satisfying_iff, h.members, h.birthday, h.localToday]

theorem World.Alike.deserves (h : World.Alike a w w') : w'.deserves C a = w.deserves C a := by
  cases hl : w.db.roleLinks.get? a.1 with
  | none =>
    have hrule := h.rule
    rw [hl, Option.map_none, Option.map_eq_none_iff] at hrule
    unfold World.deserves
    rw [hl, hrule]
    rfl
  | some l =>
    obtain ⟨l', hl', htree⟩ := h.row hl
    rw [Bool.eq_iff_iff, deserves_iff hl', deserves_iff hl, htree, h.satisfying]

/-- Every link of a proper world is what its rows say. -/
theorem World.Proper.fit (h : w.Proper C) {link : LinkKey} (hl : w.db.roleLinks.get? link = some l) :
    w.Fit C link l (ruleTreeOf l.ruleTree) := by
  obtain ⟨tree, hstored⟩ := h.stored link l hl
  rw [hstored.ruleTreeOf]
  exact ⟨hl, hstored, h.saved, fun row hrow => h.dates row (h.saved row hrow), h.regex⟩

/-- With room for everybody the target leaves nobody out. -/
theorem World.HasRoom.target (h : w.HasRoom C) {link : LinkKey}
    (hl : w.db.roleLinks.get? link = some l) :
    w.target C link (ruleTreeOf l.ruleTree) = w.satisfying C link (ruleTreeOf l.ruleTree) :=
  List.take_of_length_le (h link l hl)

/-- What is on its way stays so while the place does. -/
theorem BoundFor.alike {p : Sync (List SyncTask)} (h : BoundFor C H a w p)
    (hsame : World.Alike a w w') : BoundFor C H a w' p := by
  refine h.mono ?_ ?_ fun _ hx => hx
  · rintro c r ⟨w₁, w₂, halike, hrest⟩
    exact ⟨w₁, w₂, hsame.trans halike, hrest⟩
  · rintro e (hwrites | hreported)
    · exact Or.inl hwrites
    · exact Or.inr (hreported.trans (congrArg some hsame.deserves.symm))

/-! ### What a call leaves as it is -/

/-- What runs read and never write. -/
structure World.SameInputs (w w' : World) : Prop where
  birthdays : w'.db.birthdays = w.db.birthdays
  roleLinks : w'.db.roleLinks = w.db.roleLinks
  jobs : w'.db.jobs = w.db.jobs
  members : w'.members = w.members
  limits : w'.roleLogic.limits = w.roleLogic.limits
  localToday : w'.localToday = w.localToday
  postgres : w'.postgres = w.postgres

theorem World.SameInputs.refl (w : World) : World.SameInputs w w := ⟨rfl, rfl, rfl, rfl, rfl, rfl, rfl⟩

/-- A run that does not fail writes rows of `role_assignments`, and asks RoleLogic. -/
theorem Moves.sameInputs {φ ψ : Phase} {c : SyncCall} {v : c.Result} (h : Moves φ c v ψ) (w : World) :
    World.SameInputs w (w.after c v) := by
  have hasked : ∀ (link : LinkKey) (token : String) (c : RlCall) (v : c.Result),
      World.SameInputs w (w.after (.roleLogic link token c) v) := fun link _ c v =>
    ⟨rfl, rfl, rfl, rfl, w.roleLogic.limits_after link c v, rfl, rfl⟩
  cases h with
  | userGuildIds | guildMemberIds | localToday => exact .refl w
  | @read _ s v hs =>
    have hafter : w.after (.db s) v = w := by
      show { w with db := s.after w.db } = w
      rw [hs.after]
    rw [hafter]
    exact .refl w
  | getUserInfo | start | stage | commit | accept => exact hasked _ _ _ _
  | @mirror s v change hs =>
    cases s with
    | insertAssignment | deleteAssignment | clearAssignments => exact ⟨rfl, rfl, rfl, rfl, rfl, rfl, rfl⟩
    | rewriteAssignments link ids =>
      obtain ⟨hbirthdays, hlinks, hjobs⟩ :=
        rewriteAssignments_frame link ids (w.db.clearAssignments link)
      exact ⟨hbirthdays, hlinks, hjobs, rfl, rfl, rfl, rfl⟩
    | selectLinks | selectBirthday | selectAssigned | selectLink | selectQualifying | selectCurrent
    | existsAssigned | deleteRoleLink => cases hs

theorem World.SameInputs.alike (h : World.SameInputs w w') (a : Place) : World.Alike a w w' where
  members := h.members
  limits := h.limits
  localToday := h.localToday
  postgres := h.postgres
  birthday := by rw [h.birthdays]
  rule := by rw [h.roleLinks]

/-- What a call that RoleLogic accepts makes of a place. -/
def SyncCall.written (w : World) (a : Place) : SyncCall → Option Bool
  | .roleLogic link _ c => (c.change w.roleLogic link).bind fun change => change.patch a
  | _ => none

/-- The list at a place after a call. -/
theorem users_after (w : World) (c : SyncCall) (v : c.Result) (a : Place) :
    (w.after c v).users a = (c.written w a).getD (w.users a) := by
  cases c with
  | userGuildIds | guildMemberIds | localToday | db => rfl
  | roleLogic link token c =>
    rw [RoleLogic.users_after, SyncCall.written]
    cases c.change w.roleLogic link with
    | none => rfl
    | some change => rfl

/-- One that does brings something, if it is in order. -/
theorem Moves.written {φ ψ : Phase} {c : SyncCall} {v : c.Result} (h : Moves φ c v ψ)
    (hstaged : ∀ id link ids, φ = .staging id link ids → w.roleLogic.uploads id = some (link, ids))
    (hwrites : c.Writes a) : ∃ b, c.written w a = some b := by
  cases h with
  | userGuildIds | guildMemberIds | localToday | read | mirror | getUserInfo | start | stage =>
    exact hwrites.elim
  | @commit link token id ids v =>
    have hlink : link = a.1 := hwrites
    refine ⟨decide (a.2 ∈ ids), ?_⟩
    show ((w.roleLogic.uploads id).map fun u => Change.whole link u.2).bind _ = _
    rw [hstaged id link ids rfl]
    exact if_pos hlink.symm
  | @accept link token c v change hc =>
    cases c with
    | addUser id => exact ⟨true, if_pos (Eq.symm hwrites)⟩
    | removeUser id => exact ⟨false, if_pos (Eq.symm hwrites)⟩
    | replaceUsers ids => exact ⟨_, if_pos (Eq.symm hwrites)⟩
    | getUserInfo | startUpload | uploadChunk | commitUpload | cancelUpload => cases hc

/-! ### The run of the link -/

theorem StillAnswers.ok {c : SyncCall} {r : Except AppError c.Result}
    (h : StillAnswers C H a w c r) : ∃ v, r = .ok v := by
  obtain ⟨_, _, -, -, -, hv⟩ := h
  exact hv

/-- A step of an upload attends to the place, or the upload goes on. -/
theorem uploadStep_bound (token id : String) (c : RlCall) :
    (uploadStep a.1 token id c).Bound (StillAnswers C H a w) (Attends C w a)
      fun x => ∃ v, x = .ok v := by
  refine Bound.attempt_bind fun r hr => ?_
  obtain ⟨v, rfl⟩ := hr.ok
  exact Or.inr ⟨v, rfl⟩

theorem uploadChunks_bound (token id : String) : ∀ chunks : List (List String),
    (uploadChunks a.1 token id chunks).Bound (StillAnswers C H a w) (Attends C w a)
      fun x => ∃ v, x = .ok v
  | [] => ⟨(), rfl⟩
  | chunk :: chunks => by
    refine (uploadStep_bound token id (.uploadChunk id chunk)).bind ?_ ?_
    · exact fun _ _ => uploadChunks_bound token id chunks
    · rintro e ⟨v, hv⟩
      cases hv

/-- An upload writes the list. -/
theorem uploadUsers_bound (ids : List String) (token : String) :
    (uploadUsers a.1 ids token).Bound (StillAnswers C H a w) (Attends C w a) fun _ => False := by
  unfold uploadUsers
  by_cases hlen : ids.length ≤ putMaxUsers
  · rw [if_pos hlen]
    exact Bound.perform fun r _ => Or.inl (Or.inl rfl)
  · rw [if_neg hlen]
    refine Bound.perform_bind (fun r hr => hr.ok) fun (id : String) _ => Or.inr ?_
    refine (uploadChunks_bound token id (chunks chunkSize ids)).bind ?_ ?_
    · exact fun _ _ => Bound.attempt_bind fun r _ => Or.inl (Or.inl rfl)
    · rintro e ⟨v, hv⟩
      cases hv

theorem uploadAndMirror_bound (ids : List String) (token : String) (s : Statement)
    {last : Except AppError Unit → Prop} :
    (uploadAndMirror a.1 ids token s).Bound (StillAnswers C H a w) (Attends C w a) last := by
  have hupload : (uploadUsers a.1 ids token).capture.Bound (StillAnswers C H a w) (Attends C w a)
      fun _ => False := Bound.capture (uploadUsers_bound ids token)
  exact hupload.bind (fun _ h => h.elim) fun _ h => h.elim

/-- Where nobody deserves the role, a run that finds no rows leaves it at that. -/
theorem drainToEmpty_bound (token : String) (hnot : w.deserves C a = false)
    {last : Except AppError Unit → Prop} :
    (drainToEmpty a.1 token).Bound (StillAnswers C H a w) (Attends C w a) last := by
  refine Bound.perform_bind (fun r hr => hr.ok) fun any _ => ?_
  cases any with
  | false =>
    refine Or.inl (Or.inr ?_)
    rw [hnot]
    exact if_pos rfl
  | true => exact Or.inr (uploadAndMirror_bound [] token _)

/-- The query tells who deserves the role; then the rows are as they should be at the
place, or the list is sent. -/
theorem syncQualifying_bound (token : String) {memberIds : List String}
    (hl : w.db.roleLinks.get? a.1 = some l) (hconf : (ruleTreeOf l.ruleTree).unconfigured = false)
    (hne : memberIds ≠ []) (hmembers : ∀ d, d ∈ memberIds ↔ d ∈ w.members a.1.1)
    {last : Except AppError Unit → Prop} :
    (syncQualifying a.1 token (ruleTreeOf l.ruleTree) memberIds (w.roleLogic.limits a.1)).Bound
      (StillAnswers C H a w) (Attends C w a) last := by
  refine Bound.perform_bind (fun r hr => hr.ok) fun (qualifying : List String) hq => Or.inr ?_
  obtain ⟨w₁, w₂, halike, hproper, ⟨hans, -⟩, -⟩ := hq
  obtain ⟨l₁, hl₁, htree⟩ := halike.row hl
  have hfit := hproper.fit hl₁
  rw [htree] at hfit
  rw [← halike.limits] at hans
  have htarget : qualifying = w₁.target C a.1 (ruleTreeOf l.ruleTree) :=
    Query.Answers.eq_target hfit hconf hne (by rw [halike.members]; exact hmembers) hans
  have hqualifying : decide (a.2 ∈ qualifying) = w.deserves C a := by
    have hroom := hproper.room.target hl₁
    rw [htree] at hroom
    rw [Bool.eq_iff_iff, decide_eq_true_iff, deserves_iff hl, htarget, hroom, halike.satisfying]
  refine Bound.perform_bind (fun r hr => hr.ok) fun (current : List String) _ => ?_
  by_cases hsame : decide (a.2 ∈ current) = w.deserves C a
  · refine Or.inl (Or.inr ?_)
    rw [← hsame]
    exact if_pos rfl
  · have hdiffer : current ≠ qualifying := by
      rintro rfl
      exact hsame hqualifying
    rw [if_neg hdiffer]
    exact Or.inr (uploadAndMirror_bound qualifying token _)

/-- An unconfigured rule is satisfied by nobody. -/
theorem deserves_unconfigured (hl : w.db.roleLinks.get? a.1 = some l)
    (hconf : (ruleTreeOf l.ruleTree).unconfigured = true) (hroom : w.HasRoom C) :
    w.deserves C a = false := by
  rw [Bool.eq_false_iff]
  intro h
  rw [deserves_iff hl, ← hroom.target hl, target_unconfigured hconf] at h
  exact absurd h List.not_mem_nil

/-- The run of the link, of whose guild the user is a member. -/
theorem syncForRoleLink_bound (hproper : w.Proper C) (hl : w.db.roleLinks.get? a.1 = some l)
    (hmember : a.2 ∈ w.members a.1.1) {last : Except AppError Unit → Prop} :
    (syncForRoleLink a.1).Bound (StillAnswers C H a w) (Attends C w a) last := by
  refine Bound.perform_bind (fun r hr => hr.ok) fun row hrow => Or.inr ?_
  obtain ⟨w₁, w₂, halike, -, ⟨hrow, -⟩, -⟩ := hrow
  obtain ⟨l₁, hl₁, htree⟩ := halike.row hl
  have hrow : row = (w₁.db.roleLinks.get? a.1).map fun l => (l.apiToken, l.ruleTree) := hrow
  rw [hl₁, Option.map_some, htree] at hrow
  subst hrow
  show (syncLink a.1 l₁.apiToken (ruleTreeOf l.ruleTree)).Bound _ _ _
  unfold syncLink
  by_cases hconf : (ruleTreeOf l.ruleTree).unconfigured = true
  · rw [if_pos hconf]
    exact drainToEmpty_bound _ (deserves_unconfigured hl hconf hproper.room)
  rw [if_neg hconf]
  refine Bound.perform_bind (fun r hr => hr.ok) fun (memberIds : List String) hmembers => Or.inr ?_
  obtain ⟨w₂, w₃, halike₂, -, ⟨⟨reply, -, hmembers⟩, -⟩, -⟩ := hmembers
  have hmembers : ∀ d, d ∈ memberIds ↔ d ∈ w.members a.1.1 := by
    rw [← halike₂.members]
    exact hmembers memberIds rfl
  have hne : memberIds ≠ [] := fun he => by
    have hmem := (hmembers a.2).mpr hmember
    rw [he] at hmem
    exact absurd hmem List.not_mem_nil
  rw [if_neg fun he => hne (List.isEmpty_iff.mp he)]
  refine Bound.attempt_bind fun info hinfo => Or.inr ?_
  obtain ⟨⟨n, userLimit⟩, rfl⟩ := hinfo.ok
  obtain ⟨w₄, w₅, halike₄, -, ⟨⟨reply, hreply, hlimit⟩, -⟩, -⟩ := hinfo
  have hlimit : userLimit = w.roleLogic.limits a.1 := by
    rw [← halike₄.limits]
    exact hlimit _ hreply
  subst hlimit
  exact syncQualifying_bound _ hl (Bool.eq_false_of_not_eq_true hconf) hne hmembers

/-! ### The run of the member -/

theorem readFacts_bound {α : Type} {f : Option Facts → Sync α} {last : Except AppError α → Prop}
    (h : (f (w.facts a.2)).Bound (StillAnswers C H a w) (Attends C w a) last) :
    (readFacts ((w.db.birthdays.get? a.2).map BirthdayRow.input) >>= f).Bound
      (StillAnswers C H a w) (Attends C w a) last := by
  unfold World.facts at h
  generalize (w.db.birthdays.get? a.2).map BirthdayRow.input = row at h ⊢
  cases row with
  | none => exact h
  | some input =>
    rintro r ⟨w₁, w₂, halike, -, ⟨htoday, -⟩, -⟩
    obtain rfl : r = .ok w₁.localToday := htoday
    rw [halike.localToday]
    exact Or.inr h

/-- The run of a member finds that the row is as it should be, or ends with an action. -/
theorem planPlayer_bound (hl : w.db.roleLinks.get? a.1 = some l) (hmember : a.2 ∈ w.members a.1.1) :
    (planPlayer C a.2).Bound (StillAnswers C H a w) (Attends C w a)
      fun x => ∃ actions, x = .ok actions ∧ ∃ action ∈ actions, action.link = a.1 := by
  refine Bound.perform_bind (fun r hr => hr.ok) fun (guildIds : List String) hguilds => Or.inr ?_
  obtain ⟨w₁, w₂, halike, -, ⟨⟨reply, -, hguilds⟩, -⟩, -⟩ := hguilds
  have hguild : a.1.1 ∈ guildIds := by
    rw [hguilds guildIds rfl, halike.members]
    exact hmember
  have hne : guildIds.isEmpty ≠ true := fun he => by
    rw [List.isEmpty_iff.mp he] at hguild
    exact absurd hguild List.not_mem_nil
  rw [if_neg hne]
  refine Bound.perform_bind (fun r hr => hr.ok)
    fun (rows : List (LinkKey × String × Json.Value)) hrows => Or.inr ?_
  obtain ⟨w₃, w₄, halike₃, -, ⟨hrows, -⟩, -⟩ := hrows
  obtain ⟨l₃, hl₃, htree⟩ := halike₃.row hl
  have hrow : (a.1, l₃.apiToken, l₃.ruleTree) ∈ rows := by
    obtain ⟨hmem, hkey⟩ := Table.get?_eq_some.mp hl₃
    have hguild : l₃.guildId ∈ guildIds := by
      rw [show l₃.guildId = a.1.1 from congrArg Prod.fst hkey]
      exact hguild
    refine hrows.mem_iff.mpr (List.mem_map.mpr ⟨l₃, List.mem_filter.mpr ⟨hmem, ?_⟩, ?_⟩)
    · exact decide_eq_true hguild
    · rw [hkey]
  have hne : rows.isEmpty ≠ true := fun he => by
    rw [List.isEmpty_iff.mp he] at hrow
    exact absurd hrow List.not_mem_nil
  rw [if_neg hne]
  refine Bound.perform_bind (fun r hr => hr.ok) fun birthday hbirthday => Or.inr ?_
  obtain ⟨w₅, w₆, halike₅, -, ⟨hbirthday, -⟩, -⟩ := hbirthday
  have hbirthday : birthday = (w₅.db.birthdays.get? a.2).map BirthdayRow.input := hbirthday
  rw [halike₅.birthday] at hbirthday
  subst hbirthday
  refine readFacts_bound ?_
  refine Bound.perform_bind (fun r hr => hr.ok) fun (existing : List LinkKey) _ => ?_
  have hqualifies : qualifies C (ruleTreeOf l₃.ruleTree) (w.facts a.2) = w.deserves C a := by
    rw [htree, Bool.eq_iff_iff, qualifies_iff C _ hmember, deserves_iff hl]
  by_cases hsame : decide (a.1 ∈ existing) = w.deserves C a
  · have hany : (existing.any fun link => link = a.1) = w.deserves C a := by
      rw [← hsame, Bool.eq_iff_iff, List.any_eq_true, decide_eq_true_iff]
      simp
    refine Or.inl (Or.inr ?_)
    rw [← hany]
    exact if_pos rfl
  · have haction : actionFor C (w.facts a.2) existing (a.1, l₃.apiToken, l₃.ruleTree) =
        some (.towards (a.1, l₃.apiToken, l₃.ruleTree) (w.deserves C a)) := by
      rw [actionFor_eq, if_neg, hqualifies]
      rw [hqualifies]
      exact Ne.symm hsame
    refine Or.inr ⟨_, rfl, _, List.mem_filterMap.mpr ⟨_, hrow, haction⟩, ?_⟩
    exact SyncAction.towards_link _ _

/-! ### Runs -/

/-- An action asks RoleLogic first. -/
theorem act_bound {t : SyncTask} (h : t.ActsOn a) : BoundFor C H a w (t.body C) := by
  cases t with
  | player | roleLink => exact h.elim
  | act discordId action =>
    cases action with
    | add link token => exact fun r _ => Or.inl (Or.inl h)
    | remove link token => exact fun r _ => Or.inl (Or.inl h)

/-- A run that has just started is bound to attend to every place that it covers, if the
user is a member. -/
theorem body_bound (hproper : w.Proper C) (hl : w.db.roleLinks.get? a.1 = some l)
    (hmember : a.2 ∈ w.members a.1.1) {t : SyncTask} (h : t.Covers a) :
    BoundFor C H a w (t.body C) := by
  cases t with
  | player discordId =>
    have h : discordId = a.2 := h
    subst h
    refine (planPlayer_bound hl hmember).bind ?_ ?_
    · rintro actions ⟨_, he, action, haction, hlink⟩
      cases he
      refine ⟨_, rfl, .act a.2 action, List.mem_map_of_mem haction, ?_⟩
      show (action.link, a.2) = a
      rw [hlink]
    · rintro e ⟨_, he, -⟩
      cases he
  | roleLink link =>
    have h : link = a.1 := h
    subst h
    have hrun : (syncForRoleLink a.1).Bound (StillAnswers C H a w) (Attends C w a) fun _ => False :=
      syncForRoleLink_bound hproper hl hmember
    exact hrun.bind (fun _ h => h.elim) fun _ h => h.elim
  | act discordId action => exact h.elim

end

end BirthdayRole
