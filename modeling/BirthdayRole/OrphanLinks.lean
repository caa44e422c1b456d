/-
# Who removes a link

A link goes when its owner deletes it, or when a run finds that RoleLogic rejects its
token and deletes the row as an orphan. A run calls RoleLogic with the token it has read
and deletes only after a rejection (`SyncTask.body_careful`). But it deletes by guild and
role: a registration in between leaves a row with another token, and this is the one
that goes (`reregistered_removed`). As long as a deletion finds the token that the run
has read, or another one that RoleLogic rejected, every removal is one of the owner or
of a rejected token (`lawful_iff_current`).
-/
import BirthdayRole.Lib.Trace
import BirthdayRole.LinkAuthority
import BirthdayRole.SyncMirror
import BirthdayRole.SyncSettles

namespace BirthdayRole

open Prog

/-! ### What a run keeps to -/

def readToken : SyncEvent → Option String
  | ⟨.db (.selectLink _), .ok (some (token, _))⟩ => some token
  | _ => none

namespace SyncTask

/-- The link that a task works on, and the token it has for it. -/
def held : SyncTask → List SyncEvent → Option (LinkKey × String)
  | player _, _ => none
  | roleLink link, events => (events.findSome? readToken).map fun token => (link, token)
  | act _ (.add link token), _ => some (link, token)
  | act _ (.remove link token), _ => some (link, token)

/-- A task calls RoleLogic on its link with its token, and deletes its link after a
rejection. -/
def Careful (t : SyncTask) (events : List SyncEvent) : SyncCall → Prop
  | .roleLogic link token _ => t.held events = some (link, token)
  | .db (.deleteRoleLink link) => ∃ token, t.held events = some (link, token) ∧
      Refused link token .roleLinkNotFound events
  | _ => True

theorem held_append {t : SyncTask} {events : List SyncEvent} {l : LinkKey × String}
    (h : t.held events = some l) (more : List SyncEvent) : t.held (events ++ more) = some l := by
  cases t with
  | player d => cases h
  | act d a => cases a <;> exact h
  | roleLink link =>
    obtain ⟨token, htoken, rfl⟩ := Option.map_eq_some_iff.mp h
    show ((events ++ more).findSome? readToken).map _ = _
    rw [List.findSome?_append, htoken]
    rfl

end SyncTask

section

variable {C : Crates} {t : SyncTask} {link : LinkKey} {token : String} {α β : Type}

/-- A program of a task that holds a token makes careful calls only, and ends with `Q`. -/
def Keeps (t : SyncTask) (link : LinkKey) (token : String) (P : List SyncEvent → Prop)
    (p : Sync α) (Q : Except AppError α → List SyncEvent → Prop) : Prop :=
  ∀ events, t.held events = some (link, token) → P events →
    wp (noted t.Careful) p (fun x events' => t.held events' = some (link, token) ∧ Q x events') events

/-- What holds after a rejection, if an answer is one. -/
abbrev Noted (link : LinkKey) (token : String) (x : Except AppError α) (events : List SyncEvent) :
    Prop :=
  x = .error .roleLinkNotFound → Refused link token .roleLinkNotFound events

/-- The same of an answer that a program is handed. -/
def Handed (link : LinkKey) (token : String) (x : Except AppError (Except AppError α))
    (events : List SyncEvent) : Prop :=
  ∃ y, x = .ok y ∧ Noted link token y events

theorem Handed.noted {y : Except AppError α} {events : List SyncEvent}
    (h : Handed link token (.ok y) events) : Noted link token y events := by
  obtain ⟨_, he, hnoted⟩ := h
  cases he
  exact hnoted

namespace Keeps

variable {P P' : List SyncEvent → Prop} {p : Sync α} {f : α → Sync β}
  {Q : Except AppError α → List SyncEvent → Prop} {R : Except AppError β → List SyncEvent → Prop}

theorem done {x : Except AppError α} (h : ∀ events, P events → Q x events) :
    Keeps t link token P (done x) Q := fun events hheld hP => ⟨hheld, h events hP⟩

theorem weaken (h : Keeps t link token P p Q) (hP : ∀ events, P' events → P events) :
    Keeps t link token P' p Q := fun events hheld hP' => h events hheld (hP events hP')

theorem bind (hp : Keeps t link token P p Q) (hf : ∀ a, Keeps t link token (Q (.ok a)) (f a) R)
    (herror : ∀ e events, Q (.error e) events → R (.error e) events) :
    Keeps t link token P (p >>= f) R := by
  intro events hheld hP
  rw [wp_bind]
  refine wp_mono (noted_monotone _) ?_ (hp events hheld hP)
  rintro (e | a) events' ⟨hheld', hQ⟩
  · exact ⟨hheld', herror e events' hQ⟩
  · exact hf a events' hheld' hQ

/-- A sequence of which nothing but its calls matters. -/
theorem seq (hp : Keeps t link token P p Q)
    (hf : ∀ a, Keeps t link token (Q (.ok a)) (f a) fun _ _ => True) :
    Keeps t link token P (p >>= f) fun _ _ => True := hp.bind hf fun _ _ _ => trivial

theorem capture (hp : Keeps t link token P p (Noted link token)) :
    Keeps t link token P p.capture (Handed link token) := by
  intro events hheld hP
  rw [wp_capture]
  refine wp_mono (noted_monotone _) ?_ (hp events hheld hP)
  rintro x events' ⟨hheld', hnoted⟩
  exact ⟨hheld', x, rfl, hnoted⟩

end Keeps

/-! ### The programs -/

variable {P : List SyncEvent → Prop}

theorem tryAsk_keeps (c : RlCall) :
    Keeps t link token P (tryAsk link token c) (Handed link token) := by
  refine fun events hheld _ => ⟨hheld, fun r => ⟨SyncTask.held_append hheld _, r, rfl, ?_⟩⟩
  rintro rfl
  exact ⟨c, List.mem_append_right _ (List.mem_singleton_self _)⟩

theorem ask_keeps (c : RlCall) : Keeps t link token P (ask link token c) (Noted link token) := by
  refine fun events hheld _ => ⟨hheld, fun r => ⟨SyncTask.held_append hheld _, ?_⟩⟩
  rintro rfl
  exact ⟨c, List.mem_append_right _ (List.mem_singleton_self _)⟩

/-- A call that is no matter of tokens. -/
theorem perform_keeps {c : SyncCall} (hc : ∀ events, t.Careful events c) :
    Keeps t link token P (perform c) fun _ _ => True := fun _ hheld _ =>
  ⟨hc _, fun _ => ⟨SyncTask.held_append hheld _, trivial⟩⟩

theorem bestEffort_keeps {s : Statement}
    (hs : ∀ events, P events → t.held events = some (link, token) → t.Careful events (.db s)) :
    Keeps t link token P (bestEffort s) fun _ _ => True := fun _ hheld hP =>
  ⟨hs _ hP hheld, fun _ => ⟨SyncTask.held_append hheld _, trivial⟩⟩

/-- An orphan is deleted after the rejection. -/
theorem deleteOrphanRoleLink_keeps : Keeps t link token (Refused link token .roleLinkNotFound)
    (deleteOrphanRoleLink link) fun _ _ => True :=
  bestEffort_keeps fun _ hP hheld => ⟨token, hheld, hP⟩

theorem cancelAfter_keeps {id : String} {e : AppError} : Keeps t link token
    (fun events => e = .roleLinkNotFound → Refused link token .roleLinkNotFound events)
    (cancelAfter link token id e : Sync α) (Noted link token) := fun _ hheld hP =>
  ⟨hheld, fun _ => ⟨SyncTask.held_append hheld _, fun he =>
    (hP (Except.error.inj he)).mono (List.subset_append_left _ _)⟩⟩

theorem uploadStep_keeps {id : String} {c : RlCall} :
    Keeps t link token P (uploadStep link token id c) (Noted link token) := by
  refine (tryAsk_keeps c).bind (fun r => ?_) fun e _ hhanded => ?_
  · cases r with
    | ok v => exact .done fun _ _ he => by cases he
    | error e => exact cancelAfter_keeps.weaken fun _ hhanded he => hhanded.noted (by rw [he])
  · obtain ⟨_, he, -⟩ := hhanded
    cases he

theorem uploadChunks_keeps {id : String} : ∀ (cs : List (List String)) {P : List SyncEvent → Prop},
    Keeps t link token P (uploadChunks link token id cs) (Noted link token)
  | [], _ => .done fun _ _ he => by cases he
  | _ :: cs, _ => uploadStep_keeps.bind (fun _ => uploadChunks_keeps cs)
      fun _ _ h he => h (by cases he; rfl)

theorem uploadUsers_keeps {ids : List String} :
    Keeps t link token P (uploadUsers link ids token) (Noted link token) := by
  unfold uploadUsers
  split
  · exact ask_keeps _
  · refine (ask_keeps _).bind (fun id => ?_) fun _ _ h he => h (by cases he; rfl)
    exact (uploadChunks_keeps _).bind (fun _ => uploadStep_keeps) fun _ _ h he => h (by cases he; rfl)

theorem uploadApplied_keeps {result : Except AppError Usize} :
    Keeps t link token (Noted link token result) (uploadApplied result link) fun _ _ => True := by
  unfold uploadApplied
  split
  · exact .done fun _ _ => trivial
  · exact (deleteOrphanRoleLink_keeps.weaken fun _ h => h rfl).seq fun _ => .done fun _ _ => trivial
  · exact .done fun _ _ => trivial
  · exact .done fun _ _ => trivial
  · exact .done fun _ _ => trivial

theorem uploadAndMirror_keeps {ids : List String} {s : Statement}
    (hs : ∀ events, t.Careful events (.db s)) :
    Keeps t link token P (uploadAndMirror link ids token s) fun _ _ => True := by
  refine uploadUsers_keeps.capture.seq fun result => ?_
  refine (uploadApplied_keeps.weaken fun _ h => h.noted).seq fun applied => ?_
  split
  · exact .done fun _ _ => trivial
  · exact (perform_keeps hs).seq fun _ => .done fun _ _ => trivial

theorem drainToEmpty_keeps :
    Keeps t link token P (drainToEmpty link token) fun _ _ => True := by
  refine (perform_keeps (c := .db (.existsAssigned link)) fun _ => trivial).seq fun any => ?_
  split
  · exact .done fun _ _ => trivial
  · exact uploadAndMirror_keeps fun _ => trivial

theorem syncQualifying_keeps {tree : RuleTree} {memberIds : List String} {userLimit : Usize} :
    Keeps t link token P (syncQualifying link token tree memberIds userLimit) fun _ _ => True := by
  refine (perform_keeps (c := .db (.selectQualifying _)) fun _ => trivial).seq fun qualifying => ?_
  refine (perform_keeps (c := .db (.selectCurrent link)) fun _ => trivial).seq fun current => ?_
  split
  · exact .done fun _ _ => trivial
  · exact uploadAndMirror_keeps fun _ => trivial

theorem syncLink_keeps {tree : RuleTree} :
    Keeps t link token P (syncLink link token tree) fun _ _ => True := by
  unfold syncLink
  split
  · exact drainToEmpty_keeps
  refine (perform_keeps (c := .guildMemberIds link.1) fun _ => trivial).seq fun memberIds => ?_
  split
  · exact drainToEmpty_keeps
  refine (tryAsk_keeps _).seq fun info => ?_
  unfold withUserInfo
  split
  · exact syncQualifying_keeps
  · exact deleteOrphanRoleLink_keeps.weaken fun _ h => h.noted rfl
  · exact .done fun _ _ => trivial
  · exact .done fun _ _ => trivial

theorem SyncAction.run_keeps {discordId : String} {a : SyncAction} {events : List SyncEvent} :
    wp (noted (SyncTask.act discordId a).Careful) (a.run discordId) (fun _ _ => True) events := by
  have hrun : ∀ link token, (SyncTask.act discordId a).held events = some (link, token) →
      Keeps (.act discordId a) link token (fun _ => True) (a.run discordId) (fun _ _ => True) := by
    intro link token hheld
    cases a with
    | add link' token' =>
      cases hheld
      refine (tryAsk_keeps _).seq fun r => ?_
      split
      · exact deleteOrphanRoleLink_keeps.weaken fun _ h => h.noted rfl
      · exact .done fun _ _ => trivial
      · exact bestEffort_keeps fun _ _ _ => trivial
    | remove link' token' =>
      cases hheld
      refine (tryAsk_keeps _).seq fun r => ?_
      split
      · exact deleteOrphanRoleLink_keeps.weaken fun _ h => h.noted rfl
      · exact .done fun _ _ => trivial
      · exact bestEffort_keeps fun _ _ _ => trivial
  have hheld : ∃ link token, (SyncTask.act discordId a).held events = some (link, token) := by
    cases a <;> exact ⟨_, _, rfl⟩
  obtain ⟨link, token, hheld⟩ := hheld
  exact wp_mono (noted_monotone _) (fun _ _ _ => trivial) (hrun link token hheld events hheld trivial)

theorem planPlayer_free (C : Crates) (discordId : String) :
    Free (SyncTask.player discordId).Careful (planPlayer C discordId) := by
  refine (Free.perform fun _ => trivial).bind fun (guildIds : List String) => ?_
  split
  · exact .done
  refine (Free.perform (c := SyncCall.db (.selectLinks guildIds)) fun _ => trivial).bind
    fun roleLinks => ?_
  split
  · exact .done
  refine (Free.perform (c := SyncCall.db (.selectBirthday discordId)) fun _ => trivial).bind fun row => ?_
  refine Free.bind ?_ fun facts => ?_
  · cases row with
    | none => exact .done
    | some input => exact (Free.perform fun _ => trivial).bind fun _ => .done
  · exact (Free.perform (c := SyncCall.db (.selectAssigned discordId)) fun _ => trivial).bind
      fun _ => .done

/-- Every call of a task is careful. -/
theorem SyncTask.body_careful (C : Crates) (t : SyncTask) :
    wp (noted t.Careful) (t.body C) (fun _ _ => True) [] := by
  cases t with
  | player discordId => exact (planPlayer_free C discordId).bind (fun _ => .done) []
  | roleLink link =>
    refine ⟨trivial, fun r => ?_⟩
    rcases r with e | _ | ⟨token, raw⟩
    · exact trivial
    · exact trivial
    · have hlink : Keeps (.roleLink link) link token (fun _ => True)
          (syncLink link token (ruleTreeOf raw)) (fun _ _ => True) := syncLink_keeps
      have hbody : Keeps (.roleLink link) link token (fun _ => True)
          (syncLink link token (ruleTreeOf raw) >>= fun _ => pure ([] : List SyncTask))
          (fun _ _ => True) := hlink.seq fun _ => .done fun _ _ => trivial
      exact wp_mono (noted_monotone _) (fun _ _ _ => trivial) (hbody _ rfl trivial)
  | act discordId a =>
    show wp _ (a.run discordId >>= _) _ _
    rw [wp_bind]
    refine wp_mono (noted_monotone _) ?_ SyncAction.run_keeps
    rintro (e | _) events _ <;> exact trivial

end

/-! ### Requests and runs -/

inductive SiteLabel where
  | request (v : Site.Visit)
  | sync (l : SyncLabel)

/-- A request as the sync runs see it. -/
def SiteLabel.toSync : SiteLabel → SyncLabel
  | request _ => .drift
  | sync l => l

/-- The runs of the jobs, where anything but the links may change on its own. -/
abbrev linkRuns (C : Crates) (H : HttpCrates) : System AppError SyncCall.Result World SyncTask :=
  syncSystem C (World.outside H) fun w w' => w'.db.roleLinks = w.db.roleLinks

section

variable (C : Crates) (K : TokenCrates) (state : AppState) (H : HttpCrates)

/-- A request is handled, or a run goes on. -/
inductive SiteStep : SyncPool → SiteLabel → SyncPool → Prop
  | request {p : SyncPool} (v : Site.Visit) : SiteStep p (.request v)
      ⟨{ p.state with db := (Routes.handle C K state v.1 p.state.db v.2).1 }, p.threads⟩
  | sync {p p' : SyncPool} {l : SyncLabel} : Step (linkRuns C H) p l p' → SiteStep p (.sync l) p'

/-- Requests and runs in any order, where each step has a property, given the labels
before it. -/
inductive SiteRun (P : List SiteLabel → SyncPool → SiteLabel → SyncPool → Prop) (start : World) :
    List SiteLabel → SyncPool → Prop
  | refl : SiteRun P start [] ⟨start, []⟩
  | tail {labels : List SiteLabel} {p p' : SyncPool} {l : SiteLabel} : SiteRun P start labels p →
      SiteStep C K state H p l p' → P labels p l p' → SiteRun P start (labels ++ [l]) p'

end

/-- RoleLogic has rejected a call on a link with a token. -/
def Rejected (labels : List SiteLabel) (link : LinkKey) (token : String) : Prop :=
  ∃ i c, SiteLabel.sync (.call i ⟨.roleLogic link token c, .error .roleLinkNotFound⟩) ∈ labels

/-- A link is removed by a request that presents its token, or after a rejection of it. -/
def Lawful (labels : List SiteLabel) (p : SyncPool) (l : SiteLabel) (p' : SyncPool) : Prop :=
  ∀ link row, p.state.db.roleLinks.get? link = some row → p'.state.db.roleLinks.get? link = none →
    (∃ v, l = .request v ∧ v.2.route = .deleteConfig link.1 link.2 ∧
      extractToken v.2.headers = .ok row.apiToken) ∨ Rejected labels link row.apiToken

/-- The token that a thread has for its link. -/
def HeldBy (labels : List SiteLabel) (i : ℕ) (link : LinkKey) (token : String) : Prop :=
  ∃ parent t, (births (labels.map SiteLabel.toSync))[i]? = some (parent, t) ∧
    t.held (eventsOf i (labels.map SiteLabel.toSync)) = some (link, token)

/-- A run that deletes an orphan finds the row gone, or with the token that the run has,
or with another one that RoleLogic has rejected. -/
def Current (labels : List SiteLabel) (p : SyncPool) (l : SiteLabel) (_ : SyncPool) : Prop :=
  ∀ i link v row, l = .sync (.call i ⟨.db (.deleteRoleLink link), .ok v⟩) →
    p.state.db.roleLinks.get? link = some row →
    HeldBy labels i link row.apiToken ∨ Rejected labels link row.apiToken

section

variable {C : Crates} {K : TokenCrates} {state : AppState} {H : HttpCrates} {start : World}
  {labels : List SiteLabel} {p p' : SyncPool} {l : SiteLabel}
  {P : List SiteLabel → SyncPool → SiteLabel → SyncPool → Prop}

/-- For the runs of the jobs alone a request is something that happens elsewhere. -/
abbrev anyRuns (C : Crates) (H : HttpCrates) : System AppError SyncCall.Result World SyncTask :=
  syncSystem C (World.outside H) fun _ _ => True

theorem SiteStep.toSync (h : SiteStep C K state H p l p') : Step (anyRuns C H) p l.toSync p' := by
  cases h with
  | request v => exact .drift trivial
  | sync h =>
    cases h with
    | drift _ => exact .drift trivial
    | spawn hroot => exact .spawn hroot
    | call hi hr => exact .call hi hr
    | start hi hlimit => exact .start hi hlimit

theorem SiteRun.steps (h : SiteRun C K state H P start labels p) :
    Steps (anyRuns C H) ⟨start, []⟩ (labels.map SiteLabel.toSync) p := by
  induction h with
  | refl => exact .refl
  | tail _ hstep _ ih =>
    rw [List.map_append]
    exact ih.tail hstep.toSync

theorem Rejected.of_refused {i : ℕ} {link : LinkKey} {token : String}
    (h : Refused link token .roleLinkNotFound (eventsOf i (labels.map SiteLabel.toSync))) :
    Rejected labels link token := by
  obtain ⟨c, hc⟩ := h
  obtain ⟨l, hl, hevent⟩ := List.mem_filterMap.mp hc
  obtain ⟨l', hl', rfl⟩ := List.mem_map.mp hl
  refine ⟨i, c, ?_⟩
  have hsync := Label.eventOf_eq_some hevent
  cases l' with
  | request v => cases hsync
  | sync l =>
    obtain rfl : l = .call i _ := hsync
    exact hl'

/-- No request but a deletion of the owner removes a link. -/
theorem request_removes {v : Site.Visit} {db : Database} {link : LinkKey} {row : RoleLink}
    (hrow : db.roleLinks.get? link = some row)
    (hgone : (Routes.handle C K state v.1 db v.2).1.roleLinks.get? link = none) :
    v.2.route = .deleteConfig link.1 link.2 ∧ extractToken v.2.headers = .ok row.apiToken := by
  obtain ⟨around, route, headers⟩ := v
  rcases Routes.handle_made C K state around db ⟨route, headers⟩ with hmade | ⟨hsame, -⟩
  · generalize (Routes.handle C K state around db ⟨route, headers⟩).1 = db' at hmade hgone
    have hsame : db'.roleLinks = db.roleLinks → False := fun he => by
      rw [he, hrow] at hgone
      cases hgone
    cases hmade with
    | @register g r t ht =>
      rw [Database.register, RoleLinks.get?_upsertToken] at hgone
      split at hgone
      · cases hgone
      · rw [hrow] at hgone
        cases hgone
    | @deleteConfig g r l hl ht =>
      rw [Database.deleteLink, Table.get?_remove] at hgone
      split at hgone
      · rename_i he
        subst he
        rw [hrow] at hl
        cases hl
        exact ⟨rfl, ht⟩
      · rw [hrow] at hgone
        cases hgone
    | @roleConfigSave g r version tree parsed l hc hl hv hlt hnul =>
      rw [Database.saveTree, RoleLinks.get?_saved hl] at hgone
      split at hgone
      · cases hgone
      · rw [hrow] at hgone
        cases hgone
    | setViewPermission | verifySave | verifyUnlink => exact (hsame rfl).elim
  · rw [hsame, hrow] at hgone
    cases hgone

/-- A call of a run that removes a link deletes it as an orphan. -/
theorem effect_removes {w : World} {c : SyncCall} {r : Except AppError c.Result} {link : LinkKey}
    {row : RoleLink} (hrow : w.db.roleLinks.get? link = some row)
    (hgone : (w.effect c r).db.roleLinks.get? link = none) :
    ∃ v, (⟨c, r⟩ : SyncEvent) = ⟨.db (.deleteRoleLink link), .ok v⟩ := by
  have hsame : (w.effect c r).db.roleLinks = w.db.roleLinks → False := fun he => by
    rw [he, hrow] at hgone
    cases hgone
  cases r with
  | error e => exact (hsame rfl).elim
  | ok v =>
    cases c with
    | userGuildIds | guildMemberIds | localToday | roleLogic => exact (hsame rfl).elim
    | db s =>
      cases s with
      | deleteRoleLink link' =>
        have hgone : (w.db.roleLinks.remove link').get? link = none := hgone
        rw [Table.get?_remove] at hgone
        split at hgone
        · rename_i he
          rw [he]
          exact ⟨v, rfl⟩
        · rw [hrow] at hgone
          cases hgone
      | rewriteAssignments link' ids =>
        exact (hsame (rewriteAssignments_frame link' ids (w.db.clearAssignments link')).2.1).elim
      | _ => exact (hsame rfl).elim

/-- A step is lawful exactly if it finds what it deletes current. -/
theorem SiteStep.lawful_iff (hrun : SiteRun C K state H P start labels p)
    (h : SiteStep C K state H p l p') : Lawful labels p l p' ↔ Current labels p l p' := by
  have hsync := h.toSync
  constructor
  · rintro hlaw i link v row rfl hrow
    have hgone : p'.state.db.roleLinks.get? link = none := by
      cases h with
      | sync h =>
        cases h with
        | call _ hr =>
          obtain ⟨-, rfl⟩ := hr
          show (p.state.db.roleLinks.remove link).get? link = none
          rw [Table.get?_remove, if_pos rfl]
    rcases hlaw link row hrow hgone with ⟨v', he, -⟩ | hrejected
    · cases he
    · exact Or.inr hrejected
  · intro hcurrent link row hrow hgone
    have hsame : p'.state.db.roleLinks = p.state.db.roleLinks → False := fun he => by
      rw [he, hrow] at hgone
      cases hgone
    cases h with
    | request v => exact Or.inl ⟨v, rfl, request_removes hrow hgone⟩
    | sync h =>
      cases h with
      | drift hd => exact (hsame hd).elim
      | spawn => exact (hsame rfl).elim
      | start => exact (hsame rfl).elim
      | @call i parent op k r w hi hr =>
        have hgone : w.db.roleLinks.get? link = none := hgone
        rw [hr.2] at hgone
        obtain ⟨v, hevent⟩ := effect_removes hrow hgone
        obtain ⟨parent', t, hbirth, hcareful⟩ :=
          hrun.steps.accounts.allowed hsync fun t => ⟨_, t.body_careful C⟩
        refine Or.inr ?_
        have hcur := hcurrent i link v row (by rw [hevent]) hrow
        rw [congrArg Event.op hevent] at hcareful
        obtain ⟨token, hheld, hrefused⟩ := hcareful
        rcases hcur with ⟨parent'', t', hbirth', hheld'⟩ | hrejected
        · have hsame : t = t' := congrArg Prod.snd (Option.some.inj (hbirth.symm.trans hbirth'))
          rw [hsame, hheld'] at hheld
          have htoken : row.apiToken = token := congrArg Prod.snd (Option.some.inj hheld)
          rw [htoken]
          exact .of_refused hrefused
        · exact hrejected

/-- The removals of a run are lawful exactly if every deletion of an orphan finds the row
current. -/
theorem lawful_iff_current : SiteRun C K state H Lawful start labels p ↔
    SiteRun C K state H Current start labels p := by
  constructor
  · intro h
    induction h with
    | refl => exact .refl
    | tail hrun hstep hlaw ih => exact ih.tail hstep ((hstep.lawful_iff hrun).mp hlaw)
  · intro h
    induction h with
    | refl => exact .refl
    | tail hrun hstep hcurrent ih => exact ih.tail hstep ((hstep.lawful_iff hrun).mpr hcurrent)

end

/-! ### A registration in between -/

theorem pair_rejected (lists : LinkKey → Finset String) : World.outside pairHttp
    (.roleLogic pairLink "t" .getUserInfo) (pairWorld lists) (.error .roleLinkNotFound)
    (pairWorld lists) := by
  refine ⟨⟨.replied 403 (.ok "Invalid or revoked token"), rfl, ?_⟩, rfl⟩
  intro info h
  cases h

theorem handle_register (db : Database) (token : String) :
    (Routes.handle .ascii .sha256 Routes.exampleState (.silent 1) db
      (Routes.registerRequest "g" "r" token)).1 = db.register 1 "g" "r" token := by
  have htoken : extractToken (Routes.registerRequest "g" "r" token).headers = .ok token := by
    show Result.okOr (Text.stripPrefix "Token " ("Token " ++ token)) AppError.unauthorized = _
    rw [stripPrefix_append]
    rfl
  show (Routes.register _ _ _ _ _).1 = _
  unfold Routes.register
  rw [Routes.checked_ok htoken]
  rfl

/-- The run of a link is told that its token is revoked. The link is registered with a
new token; then the run deletes it. -/
theorem reregistered_removed : ∃ labels p l p',
    SiteRun .ascii .sha256 Routes.exampleState pairHttp (fun _ _ _ _ => True) (pairWorld fun _ => ∅) labels p ∧
    SiteStep .ascii .sha256 Routes.exampleState pairHttp p l p' ∧
    (∃ row, p.state.db.roleLinks.get? pairLink = some row ∧ row.apiToken = "T2") ∧
    p'.state.db.roleLinks.get? pairLink = none ∧ ¬Lawful labels p l p' := by
  have h0 : SiteRun .ascii .sha256 Routes.exampleState pairHttp (fun _ _ _ _ => True)
      (pairWorld fun _ => ∅) [] _ := .refl
  have h1 := h0.tail (.sync (.spawn (t := SyncTask.roleLink pairLink) trivial)) trivial
  have h2 := h1.tail (.sync (.call (i := 0) rfl (World.faultless.outside
    (World.faultless_read (s := .selectLink pairLink) (some ("t", pairRule)) trivial rfl)))) trivial
  have h3 := h2.tail (.sync (.call (i := 0) rfl (World.faultless.outside
    (pair_memberIds fun _ => ∅)))) trivial
  have h4 := h3.tail (.sync (.call (i := 0) rfl (pair_rejected fun _ => ∅))) trivial
  have h5 := h4.tail (.request (.silent 1, Routes.registerRequest "g" "r" "T2")) trivial
  have hrow : ((Routes.handle .ascii .sha256 Routes.exampleState (.silent 1) (pairWorld fun _ => ∅).db
      (Routes.registerRequest "g" "r" "T2")).1.roleLinks.get? pairLink) =
        some ⟨"g", "r", "T2", pairRule, 2, 1⟩ := by
    rw [handle_register]
    rfl
  have hgone : ∀ links : RoleLinks, (links.remove pairLink).get? pairLink = none := fun links => by
    rw [Table.get?_remove, if_pos rfl]
  refine ⟨_, _, _, _, h5, .sync (.call (i := 0) rfl (show World.outside pairHttp
    (.db (.deleteRoleLink pairLink)) _ (.ok ()) _ from ⟨trivial, rfl⟩)), ⟨_, hrow, rfl⟩, hgone _, ?_⟩
  intro hlaw
  rcases hlaw pairLink _ hrow (hgone _) with ⟨v, he, -⟩ | ⟨i, c, hc⟩
  · cases he
  · simp at hc

end BirthdayRole
