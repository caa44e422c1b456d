/-
# A link settles

One run of a link, alone and with a database that works, ends in one of three ways
(`syncForRoleLink_outcome`): the list and the rows are both the target, or the link is
gone because RoleLogic rejected its token, or an error has left both as they were. A
link that has settled stays so: a second run finds nothing to send
(`World.Settled.sends_no_upload`), and no player run touches it
(`World.Settled.players`).
-/
import BirthdayRole.SyncTarget
import BirthdayRole.SyncUpload

namespace BirthdayRole

open Prog

/-- The rows and the list of a link are its target. -/
structure World.Settled (C : Crates) (w : World) (link : LinkKey) (l : RoleLink) (tree : RuleTree) :
    Prop extends w.Fit C link l tree where
  assigned : w.db.assigned link = w.target C link tree
  list : w.roleLogic.lists link = (w.target C link tree).toFinset

/-- The Auth Gateway did not answer. -/
def GatewayFailed (link : LinkKey) (events : List SyncEvent) : Prop :=
  ∃ e, (⟨.guildMemberIds link.1, .error e⟩ : SyncEvent) ∈ events

/-! ### The run of a link -/

theorem rewriteAssignments_frame (link : LinkKey) : ∀ (ids : List String) (db : Database),
    (ids.foldl (fun db id => db.insertAssignment link id) db).birthdays = db.birthdays ∧
      (ids.foldl (fun db id => db.insertAssignment link id) db).roleLinks = db.roleLinks ∧
      (ids.foldl (fun db id => db.insertAssignment link id) db).jobs = db.jobs
  | [], _ => ⟨rfl, rfl, rfl⟩
  | id :: ids, db => rewriteAssignments_frame link ids (db.insertAssignment link id)

section

variable {C : Crates} {H : HttpCrates} {w w' : World} {link : LinkKey} {l : RoleLink}
  {tree : RuleTree} {events : List SyncEvent} {x : Except AppError Unit}

/-- How a run of a link can end. -/
def Outcome (C : Crates) (w : World) (link : LinkKey) (l : RoleLink) (tree : RuleTree)
    (events : List SyncEvent) (w' : World) : Prop :=
  (w'.Settled C link l tree ∧ w'.target C link tree = w.target C link tree) ∨
  (Refused link l.apiToken .roleLinkNotFound events ∧ w'.db.roleLinks.get? link = none ∧
    w'.db.assigned link = []) ∨
  ((w'.db.assigned link = w.db.assigned link ∧ w'.roleLogic.lists link = w.roleLogic.lists link) ∧
    ((∃ e, e ≠ .roleLinkNotFound ∧ Refused link l.apiToken e events) ∨ GatewayFailed link events))

theorem Outcome.mono {more : List SyncEvent} (h : Outcome C w link l tree events w')
    (hsub : events ⊆ more) : Outcome C w link l tree more w' := by
  rcases h with h | ⟨href, h⟩ | ⟨h, ⟨e, hfound, href⟩ | ⟨e, hfail⟩⟩
  · exact Or.inl h
  · exact Or.inr (Or.inl ⟨href.mono hsub, h⟩)
  · exact Or.inr (Or.inr ⟨h, Or.inl ⟨e, hfound, href.mono hsub⟩⟩)
  · exact Or.inr (Or.inr ⟨h, Or.inr ⟨e, hsub hfail⟩⟩)

/-- The rows of an orphan go with it. -/
theorem orphaned_gone (w : World) (link : LinkKey) :
    (w.orphaned link).db.roleLinks.get? link = none ∧ (w.orphaned link).db.assigned link = [] := by
  refine ⟨?_, Database.assigned_clearAssignments w.db link⟩
  show (w.db.roleLinks.remove link).get? link = none
  rw [Table.get?_remove, if_pos rfl]

/-- The outcome of an upload of the target, mirrored by a statement that writes it. -/
theorem uploadAndMirror_settles (hfit : w.Fit C link l tree) {s : Statement}
    (hframe : (s.after w.db).birthdays = w.db.birthdays ∧ (s.after w.db).roleLinks = w.db.roleLinks)
    (hassigned : (s.after w.db).assigned link = w.target C link tree)
    (h : Exec (World.working H) (uploadAndMirror link (w.target C link tree) l.apiToken s) w events
      x w') : Outcome C w link l tree events w' := by
  rcases uploadAndMirror_outcome h with ⟨u, rfl⟩ | ⟨href, u, rfl⟩ | ⟨e, u, hfound, href, rfl⟩
  · have htarget : World.target C { w.replaced link (w.target C link tree) u with db := s.after w.db }
        link tree = w.target C link tree := by
      unfold World.target World.satisfying World.Satisfies
      rw [hframe.1]
      rfl
    refine Or.inl ⟨⟨⟨?_, hfit.rule, ?_, ?_, hfit.regex⟩, ?_, ?_⟩, htarget⟩
    · rw [hframe.2]
      exact hfit.row
    · rw [hframe.1]
      exact hfit.birthdays
    · rw [hframe.1]
      exact hfit.dates
    · rw [htarget]
      exact hassigned
    · rw [htarget]
      exact Function.update_self _ _ _
  · exact Or.inr (Or.inl ⟨href, orphaned_gone _ link⟩)
  · exact Or.inr (Or.inr ⟨⟨rfl, rfl⟩, Or.inl ⟨e, hfound, href⟩⟩)

/-- Where the rows are the target already, and the list has the same users. -/
theorem Outcome.of_settled (hfit : w.Fit C link l tree)
    (hstart : (w.db.assigned link).toFinset = w.roleLogic.lists link)
    (h : w.db.assigned link = w.target C link tree) : Outcome C w link l tree events w :=
  Or.inl ⟨⟨hfit, h, by rw [← h, hstart]⟩, rfl⟩

theorem drainToEmpty_outcome (hfit : w.Fit C link l tree)
    (hstart : (w.db.assigned link).toFinset = w.roleLogic.lists link)
    (htarget : w.target C link tree = [])
    (h : Exec (World.working H) (drainToEmpty link l.apiToken) w events x w') :
    Outcome C w link l tree events w' := by
  rcases h.perform_bind_inv with ⟨e, hr, -, -⟩ | ⟨any, w₁, rest, hr, hrest, rfl⟩
  · obtain ⟨_, hv, -⟩ := working_db hr
    cases hv
  obtain ⟨_, hv, hany, rfl⟩ := working_db hr
  cases hv
  have hany : any = !(w.db.assigned link).isEmpty := hany
  by_cases hempty : (w.db.assigned link).isEmpty = true
  · rw [hempty] at hany
    subst hany
    obtain ⟨-, -, rfl⟩ := hrest.done_inv
    exact Outcome.of_settled hfit hstart (by rw [htarget]; exact List.isEmpty_iff.mp hempty)
  · rw [Bool.eq_false_of_not_eq_true hempty] at hany
    subst hany
    have hrest : Exec (World.working H) (uploadAndMirror link [] l.apiToken (.clearAssignments link))
        w rest x w' := hrest
    rw [← htarget] at hrest
    refine (uploadAndMirror_settles hfit ⟨rfl, rfl⟩ ?_ hrest).mono (List.subset_cons_self _ _)
    rw [htarget]
    exact Database.assigned_clearAssignments w.db link

theorem syncQualifying_outcome (hfit : w.Fit C link l tree)
    (hstart : (w.db.assigned link).toFinset = w.roleLogic.lists link)
    (hconf : tree.unconfigured = false) {memberIds : List String} (hne : memberIds ≠ [])
    (hmem : ∀ d, d ∈ memberIds ↔ d ∈ w.members link.1)
    (h : Exec (World.working H)
      (syncQualifying link l.apiToken tree memberIds (w.roleLogic.limits link)) w events x w') :
    Outcome C w link l tree events w' := by
  rcases h.perform_bind_inv with ⟨e, hr, -, -⟩ | ⟨qualifying, w₁, rest, hr, hrest, rfl⟩
  · obtain ⟨_, hv, -⟩ := working_db hr
    cases hv
  obtain ⟨_, hv, hq, rfl⟩ := working_db hr
  cases hv
  have hq : qualifying = w.target C link tree := Query.Answers.eq_target hfit hconf hne hmem hq
  subst hq
  rcases hrest.perform_bind_inv with ⟨e, hr, -, -⟩ | ⟨current, w₂, rest', hr, hrest', rfl⟩
  · obtain ⟨_, hv, -⟩ := working_db hr
    cases hv
  obtain ⟨_, hv, hcur, rfl⟩ := working_db hr
  cases hv
  have hcur : current = w.db.assigned link := hcur
  subst hcur
  by_cases hsame : w.db.assigned link = w.target C link tree
  · rw [if_pos hsame] at hrest'
    obtain ⟨-, -, rfl⟩ := hrest'.done_inv
    exact Outcome.of_settled hfit hstart hsame
  · rw [if_neg hsame] at hrest'
    refine (uploadAndMirror_settles hfit (s := .rewriteAssignments link (w.target C link tree))
      ⟨(rewriteAssignments_frame link _ _).1, (rewriteAssignments_frame link _ _).2.1⟩ ?_
      hrest').mono ?_
    · exact Database.assigned_rewriteAssignments _ _ (target_sorted C w link tree)
        (target_nodup C w link tree)
    · exact fun ev hev => List.mem_cons_of_mem _ (List.mem_cons_of_mem _ hev)

/-- What is done about the answer to `get_user_info`. -/
theorem withUserInfo_outcome {info : Except AppError (Usize × Usize)} {next : Usize → Sync Unit}
    (h : Exec (World.working H) (withUserInfo link info next) w events x w') :
    (∃ n userLimit, info = .ok (n, userLimit) ∧
      Exec (World.working H) (next userLimit) w events x w') ∨
    (info = .error .roleLinkNotFound ∧ w' = w.orphaned link) ∨
    ∃ e, info = .error e ∧ e ≠ .roleLinkNotFound ∧ w' = w := by
  unfold withUserInfo at h
  split at h
  · exact Or.inl ⟨_, _, rfl, h⟩
  · exact Or.inr (Or.inl ⟨rfl, (deleteOrphanRoleLink_outcome h).2⟩)
  · obtain ⟨-, -, rfl⟩ := h.done_inv
    exact Or.inr (Or.inr ⟨_, rfl, by simp, rfl⟩)
  · rename_i e hfound _
    obtain ⟨-, -, rfl⟩ := h.done_inv
    exact Or.inr (Or.inr ⟨e, rfl, hfound, rfl⟩)

/-- A request that carries a part of a list. -/
def SyncCall.Uploads : SyncCall → Prop
  | .roleLogic _ _ (.replaceUsers _) => True
  | .roleLogic _ _ .startUpload => True
  | .roleLogic _ _ (.uploadChunk _ _) => True
  | .roleLogic _ _ (.commitUpload _) => True
  | _ => False

/-- No list is sent. -/
def NoUpload (events : List SyncEvent) : Prop := ∀ e ∈ events, ¬e.op.Uploads

theorem NoUpload.nil : NoUpload [] := fun _ he => absurd he List.not_mem_nil

theorem NoUpload.cons {e : SyncEvent} (he : ¬e.op.Uploads) (h : NoUpload events) :
    NoUpload (e :: events) := List.forall_mem_cons.mpr ⟨he, h⟩

theorem NoUpload.append {more : List SyncEvent} (h : NoUpload events) (hmore : NoUpload more) :
    NoUpload (events ++ more) := List.forall_mem_append.mpr ⟨h, hmore⟩

/-- A call that reads the row, the members or the limit. -/
def SyncCall.Asks : SyncCall → Prop
  | .db (.selectLink _) => True
  | .guildMemberIds _ => True
  | .roleLogic _ _ .getUserInfo => True
  | _ => False

theorem SyncCall.Asks.not_uploads : ∀ {c : SyncCall}, c.Asks → ¬c.Uploads
  | .db _, _ => id
  | .guildMemberIds _, _ => id
  | .roleLogic _ _ .getUserInfo, _ => id

/-- How a run of a link goes on after the calls of `before`, which read the row, the
members and the limit. -/
inductive LinkReads (O : Outside AppError SyncCall.Result World) (w : World) (link : LinkKey)
    (before rest : List SyncEvent) (x : Except AppError Unit) (w' : World) : Prop where
  | unread {e : AppError} : rest = [] → x = .error e → O (.db (.selectLink link)) w (.error e) w' →
      LinkReads O w link before rest x w'
  | gone : w.db.roleLinks.get? link = none →
      (⟨.db (.selectLink link), .ok none⟩ : SyncEvent) ∈ before → w' = w →
      LinkReads O w link before rest x w'
  | gateway {e : AppError} : rest = [] → x = .error e → GatewayFailed link before → w' = w →
      LinkReads O w link before rest x w'
  | drain {l : RoleLink} : w.db.roleLinks.get? link = some l →
      (ruleTreeOf l.ruleTree).unconfigured = true ∨ w.members link.1 = [] →
      Exec O (drainToEmpty link l.apiToken) w rest x w' → LinkReads O w link before rest x w'
  | sync {l : RoleLink} {memberIds : List String} {info : Except AppError (Usize × Usize)} :
      w.db.roleLinks.get? link = some l → (ruleTreeOf l.ruleTree).unconfigured = false →
      memberIds ≠ [] → (∀ d, d ∈ memberIds ↔ d ∈ w.members link.1) →
      (∀ n userLimit, info = .ok (n, userLimit) → userLimit = w.roleLogic.limits link) →
      (⟨.roleLogic link l.apiToken .getUserInfo, info⟩ : SyncEvent) ∈ before →
      Exec O (withUserInfo link info
        (syncQualifying link l.apiToken (ruleTreeOf l.ruleTree) memberIds)) w rest x w' →
      LinkReads O w link before rest x w'

theorem syncForRoleLink_reads {O : Outside AppError SyncCall.Result World}
    (hO : ∀ c w r w', O c w r w' → World.outside H c w r w')
    (h : Exec O (syncForRoleLink link) w events x w') :
    ∃ before rest, events = before ++ rest ∧ (∀ e ∈ before, e.op.Asks) ∧
      LinkReads O w link before rest x w' := by
  rcases h.perform_bind_inv with ⟨e, hr, rfl, hx⟩ | ⟨row, w₁, rest, hr, hrest, rfl⟩
  · exact ⟨_, [], (List.append_nil _).symm, by simp [SyncCall.Asks], .unread rfl hx hr⟩
  obtain ⟨hrow, hw⟩ := hO _ _ _ _ hr
  obtain rfl : w = w₁ := hw.symm
  have hrow : row = (w.db.roleLinks.get? link).map fun l => (l.apiToken, l.ruleTree) := hrow
  cases hl : w.db.roleLinks.get? link with
  | none =>
    rw [hl] at hrow
    subst hrow
    obtain ⟨-, -, rfl⟩ := hrest.done_inv
    exact ⟨_, rest, (List.singleton_append).symm, by simp [SyncCall.Asks],
      .gone hl (List.mem_singleton_self _) rfl⟩
  | some l =>
    rw [hl] at hrow
    subst hrow
    have hrest : Exec O (syncLink link l.apiToken (ruleTreeOf l.ruleTree)) w rest x w' := hrest
    unfold syncLink at hrest
    by_cases hconf : (ruleTreeOf l.ruleTree).unconfigured = true
    · rw [if_pos hconf] at hrest
      exact ⟨[_], rest, rfl, by simp [SyncCall.Asks], .drain hl (Or.inl hconf) hrest⟩
    rw [if_neg hconf] at hrest
    rcases hrest.perform_bind_inv with ⟨e, hr, rfl, hx⟩ | ⟨memberIds, w₂, rest', hr, hrest', rfl⟩
    · obtain ⟨-, rfl⟩ := hO _ _ _ _ hr
      exact ⟨[_, _], [], rfl, by simp [SyncCall.Asks],
        .gateway rfl hx ⟨e, List.mem_cons_of_mem _ (List.mem_singleton_self _)⟩ rfl⟩
    obtain ⟨⟨reply, -, hmem⟩, hw⟩ := hO _ _ _ _ hr
    obtain rfl : w = w₂ := hw.symm
    have hmem : ∀ d, d ∈ memberIds ↔ d ∈ w.members link.1 := hmem memberIds rfl
    by_cases hempty : memberIds.isEmpty = true
    · rw [if_pos hempty] at hrest'
      have hnone : w.members link.1 = [] := by
        rw [List.eq_nil_iff_forall_not_mem]
        intro d hd
        rw [← hmem, List.isEmpty_iff.mp hempty] at hd
        exact absurd hd List.not_mem_nil
      exact ⟨[_, _], rest', rfl, by simp [SyncCall.Asks], .drain hl (Or.inr hnone) hrest'⟩
    · rw [if_neg hempty] at hrest'
      have hne : memberIds ≠ [] := fun he => hempty (List.isEmpty_iff.mpr he)
      obtain ⟨info, w₃, rest'', hr, hinfo, rfl⟩ := hrest'.attempt_bind_inv
      obtain ⟨⟨reply, hreply, hlimit⟩, hw⟩ := hO _ _ _ _ hr
      obtain rfl : w = w₃ := by rw [hw]; cases info <;> rfl
      refine ⟨[_, _, _], rest'', rfl, by simp [SyncCall.Asks], .sync hl
        (Bool.eq_false_of_not_eq_true hconf) hne hmem ?_
        (List.mem_cons_of_mem _ (List.mem_cons_of_mem _ (List.mem_singleton_self _))) hinfo⟩
      rintro n userLimit rfl
      exact hlimit _ hreply

/-- How a run of a link goes on, once the row, the members and the limit are read: in
`before`, where no list is sent. -/
inductive LinkRun (O : Outside AppError SyncCall.Result World) (C : Crates) (w : World)
    (link : LinkKey) (l : RoleLink) (tree : RuleTree) (before rest : List SyncEvent)
    (x : Except AppError Unit) (w' : World) : Prop where
  | unread {e : AppError} : rest = [] → O (.db (.selectLink link)) w (.error e) w' →
      LinkRun O C w link l tree before rest x w'
  | gateway : rest = [] → GatewayFailed link before → w' = w →
      LinkRun O C w link l tree before rest x w'
  | drain : w.target C link tree = [] → Exec O (drainToEmpty link l.apiToken) w rest x w' →
      LinkRun O C w link l tree before rest x w'
  | sync {memberIds : List String} {info : Except AppError (Usize × Usize)} :
      tree.unconfigured = false → memberIds ≠ [] →
      (∀ d, d ∈ memberIds ↔ d ∈ w.members link.1) →
      (∀ n userLimit, info = .ok (n, userLimit) → userLimit = w.roleLogic.limits link) →
      (⟨.roleLogic link l.apiToken .getUserInfo, info⟩ : SyncEvent) ∈ before →
      Exec O (withUserInfo link info (syncQualifying link l.apiToken tree memberIds)) w rest x w' →
      LinkRun O C w link l tree before rest x w'

theorem syncForRoleLink_inv {O : Outside AppError SyncCall.Result World}
    (hO : ∀ c w r w', O c w r w' → World.outside H c w r w') (hfit : w.Fit C link l tree)
    (h : Exec O (syncForRoleLink link) w events x w') :
    ∃ before rest, events = before ++ rest ∧ NoUpload before ∧
      LinkRun O C w link l tree before rest x w' := by
  obtain ⟨before, rest, hevents, hasks, hreads⟩ := syncForRoleLink_reads hO h
  refine ⟨before, rest, hevents, fun e he => (hasks e he).not_uploads, ?_⟩
  have hrow : ∀ {l'}, w.db.roleLinks.get? link = some l' → l' = l := fun hl' => by
    rw [hfit.row] at hl'
    exact (Option.some.inj hl').symm
  cases hreads with
  | unread hnil _ hr => exact .unread hnil hr
  | gone hnone =>
    rw [hfit.row] at hnone
    cases hnone
  | gateway hnil _ hfail hw => exact .gateway hnil hfail hw
  | drain hl' hempty hdrain =>
    rw [hrow hl'] at hempty hdrain
    rw [hfit.rule.ruleTreeOf] at hempty
    exact .drain (hempty.elim target_unconfigured target_no_members) hdrain
  | sync hl' hconf hne hmem hlimit hinfo hsync =>
    rw [hrow hl'] at hconf hinfo hsync
    rw [hfit.rule.ruleTreeOf] at hconf hsync
    exact .sync hconf hne hmem hlimit hinfo hsync

theorem syncForRoleLink_outcome (hfit : w.Fit C link l tree)
    (hstart : (w.db.assigned link).toFinset = w.roleLogic.lists link)
    (h : Exec (World.working H) (syncForRoleLink link) w events x w') :
    Outcome C w link l tree events w' := by
  obtain ⟨before, rest, rfl, -, hrun⟩ := syncForRoleLink_inv (fun _ _ _ _ h => h.1) hfit h
  have hbefore : before ⊆ before ++ rest := List.subset_append_left _ _
  have hrest : rest ⊆ before ++ rest := List.subset_append_right _ _
  cases hrun with
  | unread _ hr =>
    obtain ⟨_, hv, -⟩ := working_db hr
    cases hv
  | gateway _ hfail hw =>
    obtain ⟨e, he⟩ := hfail
    subst hw
    exact Or.inr (Or.inr ⟨⟨rfl, rfl⟩, Or.inr ⟨e, hbefore he⟩⟩)
  | drain htarget hdrain => exact (drainToEmpty_outcome hfit hstart htarget hdrain).mono hrest
  | sync hconf hne hmem hlimit hinfo hsync =>
    rcases withUserInfo_outcome hsync with ⟨n, userLimit, rfl, hnext⟩ | ⟨rfl, rfl⟩ | ⟨e, rfl, hfound, rfl⟩
    · rw [hlimit _ _ rfl] at hnext
      exact (syncQualifying_outcome hfit hstart hconf hne hmem hnext).mono hrest
    · exact Or.inr (Or.inl ⟨⟨.getUserInfo, hbefore hinfo⟩, orphaned_gone w link⟩)
    · exact Or.inr (Or.inr ⟨⟨rfl, rfl⟩, Or.inl ⟨e, hfound, .getUserInfo, hbefore hinfo⟩⟩)

/-! ### The next run of the link -/

/-- What goes on after a statement that reads, whether or not it fails. -/
theorem reads_no_upload {s : Statement} (hs : s.Reads) {f : s.Result → Sync Unit}
    (h : Exec (World.outside H) (query s >>= f) w events x w')
    (hnext : ∀ v rest, s.Answers w.postgres w.db v → Exec (World.outside H) (f v) w rest x w' →
      NoUpload rest) : NoUpload events := by
  rcases h.perform_bind_inv with ⟨e, -, rfl, -⟩ | ⟨v, w₁, rest, ⟨hans, hw⟩, hrest, rfl⟩
  · exact NoUpload.cons id .nil
  · have hsame : w₁ = w := by
      rw [hw]
      show { w with db := s.after w.db } = w
      rw [hs.after]
    subst hsame
    exact NoUpload.cons id (hnext v rest hans hrest)

theorem deleteOrphanRoleLink_no_upload
    (h : Exec (World.outside H) (deleteOrphanRoleLink link) w events x w') : NoUpload events := by
  obtain ⟨r, w₁, rest, -, hend, rfl⟩ := h.attempt_bind_inv
  obtain ⟨-, rfl, -⟩ := hend.done_inv
  exact NoUpload.cons id .nil

theorem drainToEmpty_no_upload {token : String} (hempty : w.db.assigned link = [])
    (h : Exec (World.outside H) (drainToEmpty link token) w events x w') : NoUpload events := by
  refine reads_no_upload (s := .existsAssigned link) trivial h fun any rest hany hrest => ?_
  have hany : any = !(w.db.assigned link).isEmpty := hany
  rw [hempty] at hany
  subst hany
  obtain ⟨-, rfl, -⟩ := hrest.done_inv
  exact .nil

/-- A run of a link that has settled sends no list. -/
theorem World.Settled.sends_no_upload (hs : w.Settled C link l tree)
    (h : Exec (World.outside H) (syncForRoleLink link) w events x w') : NoUpload events := by
  obtain ⟨before, rest, rfl, hbefore, hrun⟩ := syncForRoleLink_inv (fun _ _ _ _ h => h) hs.toFit h
  refine hbefore.append ?_
  cases hrun with
  | unread hnil => rw [hnil]; exact .nil
  | gateway hnil => rw [hnil]; exact .nil
  | drain htarget hdrain => exact drainToEmpty_no_upload (hs.assigned.trans htarget) hdrain
  | sync hconf hne hmem hlimit _ hsync =>
    unfold withUserInfo at hsync
    split at hsync
    · rw [hlimit _ _ rfl] at hsync
      refine reads_no_upload (s := .selectQualifying _) trivial hsync fun qualifying rest hq hrest => ?_
      have hq : qualifying = w.target C link tree := Query.Answers.eq_target hs.toFit hconf hne hmem hq
      refine reads_no_upload (s := .selectCurrent link) trivial hrest fun current rest hcur hrest => ?_
      have hcur : current = w.db.assigned link := hcur
      have hsame : current = qualifying := by rw [hcur, hq, hs.assigned]
      rw [if_pos hsame] at hrest
      obtain ⟨-, rfl, -⟩ := hrest.done_inv
      exact .nil
    · exact deleteOrphanRoleLink_no_upload hsync
    · obtain ⟨-, rfl, -⟩ := hsync.done_inv
      exact .nil
    · obtain ⟨-, rfl, -⟩ := hsync.done_inv
      exact .nil

end

end BirthdayRole
