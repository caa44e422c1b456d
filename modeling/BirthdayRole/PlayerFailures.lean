/-
# What a player run passes on

`sync_for_player` ends without an error once it has read what it needs and its actions
have come to their ends. An action keeps to itself that RoleLogic refused it or that a
row was not written (`Lapse`); its job is completed all the same (`lapse_completes`).
A run that ends without an error has done all it found to do exactly if none of its
actions lapsed (`owed_met_iff`).
-/
import BirthdayRole.Lib.Trace
import BirthdayRole.SyncMirror
import BirthdayRole.SyncUpload

namespace BirthdayRole

open Prog

/-- RoleLogic says that a link is gone, disabled or full. -/
def AppError.Declines : AppError → Prop
  | .roleLinkNotFound | .roleLinkDisabled | .userLimitReached _ => True
  | _ => False

/-! ### What a run reads -/

/-- The calls of a run have read the row of a link, the facts of the member, and
whether the member is assigned to the link. -/
structure PlayerReads (discordId : String) (events : List SyncEvent)
    (row : LinkKey × String × Json.Value) (facts : Option Facts) (assigned : Bool) : Prop where
  link : ∃ guildIds rows, (⟨.db (.selectLinks guildIds), .ok rows⟩ : SyncEvent) ∈ events ∧ row ∈ rows
  facts : ((⟨.db (.selectBirthday discordId), .ok none⟩ : SyncEvent) ∈ events ∧ facts = none) ∨
    ∃ input today, (⟨.db (.selectBirthday discordId), .ok (some input)⟩ : SyncEvent) ∈ events ∧
      (⟨.localToday, .ok today⟩ : SyncEvent) ∈ events ∧ facts = some (computeFacts today input)
  assigned : ∃ existing, (⟨.db (.selectAssigned discordId), .ok existing⟩ : SyncEvent) ∈ events ∧
    assigned = decide (row.1 ∈ existing)

/-- A call of a run before its actions. -/
def SyncCall.Plans : SyncCall → Prop
  | .userGuildIds _ => True
  | .localToday => True
  | .db s => s.Reads
  | _ => False

section

variable {C : Crates} {H : HttpCrates} {σ : Type} {O : Outside AppError SyncCall.Result σ} {s s' : σ}
  {discordId : String} {events : List SyncEvent}

/-- What a run that has read everything has read. -/
structure PlayerRead (discordId : String) (events : List SyncEvent)
    (rows : List (LinkKey × String × Json.Value)) (facts : Option Facts) (existing : List LinkKey) :
    Prop where
  plans : ∀ e ∈ events, e.op.Plans
  linked : ∃ guildIds, (⟨.db (.selectLinks guildIds), .ok rows⟩ : SyncEvent) ∈ events
  reads : ∀ row f b, PlayerReads discordId events row f b ↔
    row ∈ rows ∧ f = facts ∧ b = decide (row.1 ∈ existing)

theorem readFacts_exec {birthday : Option BirthdayInput} {facts : Option Facts}
    (h : Exec O (readFacts birthday) s events (.ok facts) s') :
    (birthday = none ∧ facts = none ∧ events = []) ∨ ∃ input today, birthday = some input ∧
      facts = some (computeFacts today input) ∧ events = [⟨.localToday, .ok today⟩] := by
  cases birthday with
  | none =>
    obtain ⟨hx, rfl, -⟩ := h.done_inv
    exact Or.inl ⟨rfl, Except.ok.inj hx, rfl⟩
  | some input =>
    rcases h.perform_bind_inv with ⟨e, -, -, hx⟩ | ⟨today, s₁, rest, -, h₁, rfl⟩
    · cases hx
    obtain ⟨hx, rfl, -⟩ := h₁.done_inv
    exact Or.inr ⟨input, today, rfl, Except.ok.inj hx, rfl⟩

theorem planPlayer_exec {actions : List SyncAction}
    (h : Exec O (planPlayer C discordId) s events (.ok actions) s') :
    (actions = [] ∧ (∀ e ∈ events, e.op.Plans) ∧ ∀ row f b, ¬PlayerReads discordId events row f b) ∨
    ∃ rows facts existing, PlayerRead discordId events rows facts existing ∧
      actions = rows.filterMap (actionFor C facts existing) := by
  rcases h.perform_bind_inv with ⟨e, -, -, hx⟩ | ⟨guildIds, s₁, rest, -, h₁, rfl⟩
  · cases hx
  by_cases hguilds : guildIds.isEmpty = true
  · rw [if_pos hguilds] at h₁
    obtain ⟨hx, rfl, -⟩ := h₁.done_inv
    refine Or.inl ⟨Except.ok.inj hx, by simp [SyncCall.Plans], ?_⟩
    rintro row f b ⟨⟨_, _, hlink, -⟩, -, -⟩
    simp at hlink
  rw [if_neg hguilds] at h₁
  rcases h₁.perform_bind_inv with ⟨e, -, -, hx⟩ | ⟨rows, s₂, rest, -, h₂, rfl⟩
  · cases hx
  by_cases hrows : rows.isEmpty = true
  · rw [if_pos hrows] at h₂
    obtain ⟨hx, rfl, -⟩ := h₂.done_inv
    refine Or.inl ⟨Except.ok.inj hx, by simp [SyncCall.Plans, Statement.Reads], ?_⟩
    rintro row f b ⟨-, -, ⟨_, hassigned, -⟩⟩
    simp at hassigned
  rw [if_neg hrows] at h₂
  rcases h₂.perform_bind_inv with ⟨e, -, -, hx⟩ | ⟨birthday, s₃, rest, -, h₃, rfl⟩
  · cases hx
  rcases h₃.bind_inv with ⟨e, -, hx⟩ | ⟨facts, first, s₄, rest, hfacts, h₄, rfl⟩
  · cases hx
  rcases h₄.perform_bind_inv with ⟨e, -, -, hx⟩ | ⟨existing, s₅, rest, -, h₅, rfl⟩
  · cases hx
  obtain ⟨hx, rfl, -⟩ := h₅.done_inv
  refine Or.inr ⟨rows, facts, existing, ⟨?_, ⟨guildIds, by simp⟩, fun row f b => ?_⟩,
    Except.ok.inj hx⟩
  · rcases readFacts_exec hfacts with ⟨-, -, rfl⟩ | ⟨input, today, -, -, rfl⟩ <;>
      simp [SyncCall.Plans, Statement.Reads]
  constructor
  · rintro ⟨⟨_, _, hlink, hrow⟩, hf, _, hassigned, hb⟩
    rcases readFacts_exec hfacts with ⟨rfl, rfl, rfl⟩ | ⟨input, today, rfl, rfl, rfl⟩
    · simp only [List.nil_append, List.mem_cons, Event.mk.injEq, reduceCtorEq, false_and,
        SyncCall.db.injEq, Statement.selectLinks.injEq, heq_eq_eq, Except.ok.injEq,
        List.not_mem_nil, or_self, or_false, false_or, or_true, true_and, and_false, and_self,
        exists_false] at hlink hf hassigned
      obtain ⟨-, rfl⟩ := hlink
      subst hassigned
      exact ⟨hrow, hf, hb⟩
    · simp only [List.cons_append, List.nil_append, List.mem_cons, Event.mk.injEq, reduceCtorEq,
        false_and, SyncCall.db.injEq, Statement.selectLinks.injEq, heq_eq_eq, Except.ok.injEq,
        List.not_mem_nil, or_self, or_false, false_or, and_false, Option.some.injEq, true_and,
        exists_and_left, ↓existsAndEq, exists_eq_left] at hlink hf hassigned
      obtain ⟨-, rfl⟩ := hlink
      subst hassigned
      exact ⟨hrow, hf, hb⟩
  · rintro ⟨hrow, rfl, hb⟩
    refine ⟨⟨guildIds, rows, by simp, hrow⟩, ?_, existing, by simp, hb⟩
    rcases readFacts_exec hfacts with ⟨rfl, rfl, rfl⟩ | ⟨input, today, rfl, rfl, rfl⟩
    · exact Or.inl ⟨by simp, rfl⟩
    · exact Or.inr ⟨input, today, by simp, by simp, rfl⟩

end

/-! ### What an action does -/

namespace SyncAction

def link : SyncAction → LinkKey
  | add link _ | remove link _ => link

/-- What an action asks of RoleLogic. -/
def request (discordId : String) : SyncAction → SyncCall
  | add link token => .roleLogic link token (.addUser discordId)
  | remove link token => .roleLogic link token (.removeUser discordId)

/-- The statement that records it. -/
def record (discordId : String) : SyncAction → Statement
  | add link _ => .insertAssignment link discordId
  | remove link _ => .deleteAssignment link discordId

/-- Among some calls: RoleLogic accepted an action and it was recorded, or RoleLogic
said that the link is gone, disabled or full. -/
def Met (discordId : String) (a : SyncAction) (P : SyncEvent → Prop) : Prop :=
  ((∃ v, P ⟨a.request discordId, .ok v⟩) ∧ ∃ u, P ⟨.db (a.record discordId), .ok u⟩) ∨
    ∃ e, P ⟨a.request discordId, .error e⟩ ∧ e.Declines

end SyncAction

/-- An add or a remove that failed for another reason, or whose row was not written. -/
def Lapse : SyncEvent → Prop
  | ⟨.roleLogic _ _ (.addUser _), .error e⟩ => ¬e.Declines
  | ⟨.roleLogic _ _ (.removeUser _), .error e⟩ => ¬e.Declines
  | ⟨.db (.insertAssignment _ _), .error _⟩ => True
  | ⟨.db (.deleteAssignment _ _), .error _⟩ => True
  | _ => False

section

variable {C : Crates} {H : HttpCrates} {σ : Type} {O : Outside AppError SyncCall.Result σ} {s s' : σ}
  {discordId : String} {events : List SyncEvent} {a : SyncAction}

theorem bestEffort_exec {statement : Statement} {x : Except AppError Unit}
    (h : Exec O (bestEffort statement) s events x s') : ∃ r, events = [⟨.db statement, r⟩] := by
  obtain ⟨r, s₁, rest, -, hend, rfl⟩ := h.attempt_bind_inv
  obtain ⟨-, rfl, -⟩ := hend.done_inv
  exact ⟨r, rfl⟩

/-- The calls of an action: its request, and then its record or the cleanup. -/
def SyncAction.Calls (discordId : String) (a : SyncAction) (events : List SyncEvent) : Prop :=
  (∃ v r, events = [⟨a.request discordId, .ok v⟩, ⟨.db (a.record discordId), r⟩]) ∨
  (∃ r, events = [⟨a.request discordId, .error .roleLinkNotFound⟩,
    ⟨.db (.deleteRoleLink a.link), r⟩]) ∨
  ∃ e, events = [⟨a.request discordId, .error e⟩]

theorem SyncAction.run_exec {x : Except AppError Unit} (h : Exec O (a.run discordId) s events x s') :
    a.Calls discordId events := by
  cases a with
  | add link token =>
    obtain ⟨r, s₁, rest, -, h₁, rfl⟩ := h.attempt_bind_inv
    split at h₁
    · obtain ⟨r, rfl⟩ := bestEffort_exec h₁
      exact Or.inr (Or.inl ⟨r, rfl⟩)
    · obtain ⟨-, rfl, -⟩ := h₁.done_inv
      exact Or.inr (Or.inr ⟨_, rfl⟩)
    · obtain ⟨r, rfl⟩ := bestEffort_exec h₁
      exact Or.inl ⟨_, r, rfl⟩
  | remove link token =>
    obtain ⟨r, s₁, rest, -, h₁, rfl⟩ := h.attempt_bind_inv
    split at h₁
    · obtain ⟨r, rfl⟩ := bestEffort_exec h₁
      exact Or.inr (Or.inl ⟨r, rfl⟩)
    · obtain ⟨-, rfl, -⟩ := h₁.done_inv
      exact Or.inr (Or.inr ⟨_, rfl⟩)
    · obtain ⟨r, rfl⟩ := bestEffort_exec h₁
      exact Or.inl ⟨_, r, rfl⟩

theorem SyncAction.body_exec {x : Except AppError (List SyncTask)}
    (h : Exec O (SyncTask.body C (.act discordId a)) s events x s') : a.Calls discordId events := by
  rcases h.bind_inv with ⟨e, hrun, -⟩ | ⟨_, first, s₁, rest, hrun, hend, rfl⟩
  · exact SyncAction.run_exec hrun
  · obtain ⟨-, rfl, -⟩ := hend.done_inv
    rw [List.append_nil]
    exact SyncAction.run_exec hrun

theorem lapse_request {r : Except AppError (a.request discordId).Result} :
    Lapse ⟨a.request discordId, r⟩ ↔ ∃ e, r = .error e ∧ ¬e.Declines := by
  cases a <;> cases r <;> simp [Lapse, SyncAction.request]

theorem lapse_record {r : Except AppError (a.record discordId).Result} :
    Lapse ⟨.db (a.record discordId), r⟩ ↔ ∃ e, r = .error e := by
  cases a <;> cases r <;> simp [Lapse, SyncAction.record]

theorem SyncAction.request_ne_db (discordId : String) (a : SyncAction) (statement : Statement) :
    a.request discordId ≠ .db statement := by
  cases a <;> simp [SyncAction.request]

/-- An action has done what it should, as far as the calls of a run tell, exactly if it
did not lapse. -/
theorem SyncAction.Calls.met_iff {P : SyncEvent → Prop} (h : a.Calls discordId events)
    (hP : ∀ e ∈ events, P e)
    (hown : ∀ e, P e → e.op = a.request discordId ∨ e.op = .db (a.record discordId) → e ∈ events) :
    a.Met discordId P ↔ ∀ e ∈ events, ¬Lapse e := by
  have hrequest : ∀ r, P ⟨a.request discordId, r⟩ →
      (⟨a.request discordId, r⟩ : SyncEvent) ∈ events := fun r hr => hown _ hr (Or.inl rfl)
  have hne := a.request_ne_db discordId
  rcases h with ⟨v, r, rfl⟩ | ⟨r, rfl⟩ | ⟨e, rfl⟩
  · have hrecord : ∀ {r'}, P ⟨.db (a.record discordId), r'⟩ → r' = r := fun hr => by
      have hmem := hown _ hr (Or.inr rfl)
      simpa [Ne.symm (hne _)] using hmem
    constructor
    · rintro (⟨-, u, hu⟩ | ⟨e, he, -⟩)
      · intro e he
        rcases List.mem_cons.mp he with rfl | he
        · rw [lapse_request]
          simp
        · rw [List.mem_singleton.mp he, lapse_record, ← hrecord hu]
          simp
      · have hmem := hrequest _ he
        simp [hne] at hmem
    · intro hno
      refine Or.inl ⟨⟨v, hP _ List.mem_cons_self⟩, ?_⟩
      have hlast := hno _ (List.mem_cons_of_mem _ (List.mem_singleton_self _))
      rw [lapse_record] at hlast
      cases r with
      | ok u => exact ⟨u, hP _ (List.mem_cons_of_mem _ (List.mem_singleton_self _))⟩
      | error e => exact absurd ⟨e, rfl⟩ hlast
  · refine iff_of_true (Or.inr ⟨_, hP _ List.mem_cons_self, trivial⟩) fun e he => ?_
    rcases List.mem_cons.mp he with rfl | he
    · rw [lapse_request]
      rintro ⟨e, he, hdeclines⟩
      cases he
      exact hdeclines trivial
    · rw [List.mem_singleton.mp he]
      exact id
  · constructor
    · rintro (⟨⟨v, hv⟩, -⟩ | ⟨e', he', hdeclines⟩)
      · have hmem := hrequest _ hv
        simp at hmem
      · have hmem := hrequest _ he'
        obtain rfl : e' = e := by simpa using hmem
        intro e he
        rw [List.mem_singleton.mp he, lapse_request]
        rintro ⟨e, he, hnot⟩
        cases he
        exact hnot hdeclines
    · intro hno
      have hthis := hno _ (List.mem_singleton_self _)
      rw [lapse_request] at hthis
      refine Or.inr ⟨e, hP _ (List.mem_singleton_self _), ?_⟩
      by_contra hnot
      exact hthis ⟨e, rfl, hnot⟩

end

/-! ### A run of a member -/

/-- What brings the assignment of a member in line with whether they qualify. -/
def SyncAction.towards (row : LinkKey × String × Json.Value) (qualifies : Bool) : SyncAction :=
  if qualifies then .add row.1 row.2.1 else .remove row.1 row.2.1

/-- The calls of a run and of its actions. -/
def RunEvent (i : ℕ) (labels : List SyncLabel) (e : SyncEvent) : Prop :=
  e ∈ eventsOf i labels ∨ ∃ j t, (births labels)[j]? = some (some i, t) ∧ e ∈ eventsOf j labels

/-- Among other runs, thread `i` is a run of a member that has ended without an error,
after all its actions. -/
structure PlayerRun (C : Crates) (H : HttpCrates) (drift : World → World → Prop) (start : World)
    (discordId : String) (i : ℕ) (labels : List SyncLabel) (p : SyncPool) : Prop where
  steps : Steps (syncSystem C (World.outside H) drift) ⟨start, []⟩ labels p
  task : ∃ parent, (births labels)[i]? = some (parent, .player discordId)
  ended : ∃ parent, p.threads[i]? = some ⟨parent, done (.ok [])⟩
  actions : ∀ (j : ℕ) (t : SyncTask) (th : Thread AppError SyncCall.Result SyncTask),
    (births labels)[j]? = some (some i, t) → p.threads[j]? = some th → th.finished = true

section

variable {C : Crates} {H : HttpCrates} {drift : World → World → Prop} {start : World}
  {discordId : String} {i : ℕ} {labels : List SyncLabel} {p : SyncPool}

theorem actionFor_eq (C : Crates) (facts : Option Facts) (existing : List LinkKey)
    (row : LinkKey × String × Json.Value) : actionFor C facts existing row =
      if qualifies C (ruleTreeOf row.2.2) facts = decide (row.1 ∈ existing) then none
      else some (.towards row (qualifies C (ruleTreeOf row.2.2) facts)) := by
  unfold actionFor SyncAction.towards
  cases qualifies C (ruleTreeOf row.2.2) facts <;> cases decide (row.1 ∈ existing) <;> rfl

theorem actionFor_towards {facts : Option Facts} {existing : List LinkKey}
    {row : LinkKey × String × Json.Value} {a : SyncAction}
    (h : actionFor C facts existing row = some a) :
    a = .towards row (qualifies C (ruleTreeOf row.2.2) facts) ∧
      qualifies C (ruleTreeOf row.2.2) facts ≠ decide (row.1 ∈ existing) := by
  rw [actionFor_eq] at h
  split at h
  · cases h
  · rename_i hne
    exact ⟨(Option.some.inj h).symm, hne⟩

theorem SyncAction.towards_link (row : LinkKey × String × Json.Value) (q : Bool) :
    (SyncAction.towards row q).link = row.1 := by
  cases q <;> rfl

/-- The links that a run has read are different ones. -/
theorem links_nodup {α : Type} {x : Except AppError α} {prog : Sync α} {events : List SyncEvent}
    (hexec : Exec (anywhere (World.outside H)) prog () events x ()) {guildIds : List String}
    {rows : List (LinkKey × String × Json.Value)}
    (hrows : (⟨.db (.selectLinks guildIds), .ok rows⟩ : SyncEvent) ∈ events) :
    (rows.map Prod.fst).Nodup := by
  obtain ⟨_, _, w, w', ⟨hans, -⟩⟩ := hexec.answered hrows
  have hperm := List.Perm.map Prod.fst hans
  rw [List.map_map] at hperm
  rw [hperm.nodup_iff]
  exact w.db.roleLinks.nodup.sublist (List.filter_sublist.map _)

/-- What a run of a member does is to plan, and then to run its actions. -/
theorem PlayerRun.planned (h : PlayerRun C H drift start discordId i labels p) :
    ∃ actions, childrenOf i labels = actions.map (.act discordId) ∧
      Exec (anywhere (World.outside H)) (planPlayer C discordId) () (eventsOf i labels)
        (.ok actions) () := by
  obtain ⟨parent, hended⟩ := h.ended
  obtain ⟨parent', htask⟩ := h.task
  have htraced := h.steps.accounts.traced_birth hended htask
  have hexec := htraced.exec fun _ _ => by simp
  rcases hexec.bind_inv with ⟨e, -, he⟩ | ⟨actions, first, s₁, rest, hplan, hend, hevents⟩
  · cases he
  obtain ⟨hx, rfl, -⟩ := hend.done_inv
  rw [hevents, List.append_nil]
  exact ⟨actions, Except.ok.inj hx, hplan⟩

/-- Each action of a run has come to its end. -/
theorem PlayerRun.acted (h : PlayerRun C H drift start discordId i labels p) {j : ℕ}
    {a : SyncAction} (hj : (births labels)[j]? = some (some i, .act discordId a)) :
    a.Calls discordId (eventsOf j labels) := by
  obtain ⟨x, hexec⟩ := h.steps.accounts.exec hj fun th => h.actions j _ th hj
  exact SyncAction.body_exec (C := C) hexec

/-- The calls of another action are on another link. -/
theorem SyncAction.Calls.link_eq {a' : SyncAction} {events : List SyncEvent}
    (h : a'.Calls discordId events) {e : SyncEvent} (he : e ∈ events) {a : SyncAction}
    (hop : e.op = a.request discordId ∨ e.op = .db (a.record discordId)) : a'.link = a.link := by
  have hrequest : a'.request discordId = a.request discordId → a'.link = a.link := by
    cases a <;> cases a' <;> simp +contextual [SyncAction.request, SyncAction.link]
  have hrecord : a'.record discordId = a.record discordId → a'.link = a.link := by
    cases a <;> cases a' <;> simp [SyncAction.record, SyncAction.link]
  have hfirst : e.op = a'.request discordId → a'.link = a.link := by
    intro hreq
    rcases hop with hop | hop
    · exact hrequest (hreq.symm.trans hop)
    · exact absurd (hreq.symm.trans hop) (a'.request_ne_db discordId _)
  rcases h with ⟨v, r, rfl⟩ | ⟨r, rfl⟩ | ⟨e', rfl⟩
  · rcases List.mem_cons.mp he with rfl | he
    · exact hfirst rfl
    · rw [List.mem_singleton.mp he] at hop
      rcases hop with hop | hop
      · exact absurd hop.symm (a.request_ne_db discordId _)
      · exact hrecord (SyncCall.db.inj hop)
  · rcases List.mem_cons.mp he with rfl | he
    · exact hfirst rfl
    · rw [List.mem_singleton.mp he] at hop
      rcases hop with hop | hop
      · exact absurd hop.symm (a.request_ne_db discordId _)
      · have hop := SyncCall.db.inj hop
        cases a <;> simp [SyncAction.record] at hop
  · rw [List.mem_singleton.mp he] at hfirst
    exact hfirst rfl

/-- A call before the actions is none of theirs. -/
theorem SyncCall.Plans.not_action {c : SyncCall} (h : c.Plans) (a : SyncAction) :
    ¬(c = a.request discordId ∨ c = .db (a.record discordId)) := by
  rintro (rfl | rfl)
  · cases a <;> exact h
  · cases a <;> exact h

theorem SyncCall.Plans.not_lapse {e : SyncEvent} (h : e.op.Plans) : ¬Lapse e := by
  obtain ⟨op, r⟩ := e
  cases op with
  | userGuildIds | guildMemberIds | localToday => exact id
  | roleLogic => exact h.elim
  | db s => cases s <;> first | exact id | exact h.elim

/-- A run of a member that ends without an error: on every link where the member's
qualification differs from the assignment that was read, the add or remove was accepted
and recorded, or RoleLogic said that the link is gone, disabled or full, exactly if no
action of the run lapsed. -/
theorem owed_met_iff (h : PlayerRun C H drift start discordId i labels p) :
    (∀ row facts assigned, PlayerReads discordId (eventsOf i labels) row facts assigned →
      qualifies C (ruleTreeOf row.2.2) facts ≠ assigned →
      (SyncAction.towards row (qualifies C (ruleTreeOf row.2.2) facts)).Met discordId
        (RunEvent i labels)) ↔
      ∀ e, RunEvent i labels e → ¬Lapse e := by
  obtain ⟨actions, hchildren, hplan⟩ := h.planned
  have hchild : ∀ {j : ℕ} {t : SyncTask}, (births labels)[j]? = some (some i, t) →
      ∃ a ∈ actions, t = .act discordId a := by
    intro j t hj
    have ht : t ∈ childrenOf i labels := mem_childrenOf.mpr ⟨j, hj⟩
    rw [hchildren] at ht
    obtain ⟨a, ha, he⟩ := List.mem_map.mp ht
    exact ⟨a, ha, he.symm⟩
  rcases planPlayer_exec hplan with ⟨rfl, hplans, hnone⟩ | ⟨rows, facts, existing, hread, hactions⟩
  · refine iff_of_true (fun row facts assigned hr => absurd hr (hnone row facts assigned)) ?_
    rintro e (he | ⟨j, t, hj, -⟩)
    · exact (hplans e he).not_lapse
    · obtain ⟨a, ha, -⟩ := hchild hj
      exact absurd ha List.not_mem_nil
  have hlinks : actions.Pairwise fun a a' => a.link ≠ a'.link := by
    obtain ⟨guildIds, hlinked⟩ := hread.linked
    have hrows := List.pairwise_map.mp (links_nodup hplan hlinked)
    rw [hactions]
    refine hrows.filterMap _ fun row row' hne a ha a' ha' => ?_
    rw [(actionFor_towards ha).1, (actionFor_towards ha').1, SyncAction.towards_link,
      SyncAction.towards_link]
    exact hne
  have hunique : ∀ a ∈ actions, ∀ a' ∈ actions, a'.link = a.link → a' = a := by
    have hnodup : (actions.map SyncAction.link).Nodup := List.pairwise_map.mpr hlinks
    exact fun a ha a' ha' he => List.inj_on_of_nodup_map hnodup ha' ha he
  have hdistinct : (childrenOf i labels).Nodup := by
    rw [hchildren]
    refine List.pairwise_map.mpr (hlinks.imp fun {a a'} hne he => hne ?_)
    rw [(SyncTask.act.inj he).2]
  have hmet : ∀ {a : SyncAction} {j : ℕ}, a ∈ actions →
      (births labels)[j]? = some (some i, .act discordId a) →
      (a.Met discordId (RunEvent i labels) ↔ ∀ e ∈ eventsOf j labels, ¬Lapse e) := by
    intro a j ha hj
    refine (h.acted hj).met_iff (fun e he => Or.inr ⟨j, _, hj, he⟩) fun e he hop => ?_
    rcases he with he | ⟨j', t, hj', he⟩
    · exact absurd hop ((hread.plans e he).not_action a)
    · obtain ⟨a', ha', rfl⟩ := hchild hj'
      obtain rfl := hunique a ha a' ha' ((h.acted hj').link_eq he hop)
      rw [child_unique hdistinct hj hj']
      exact he
  constructor
  · rintro hall e (he | ⟨j, t, hj, he⟩)
    · exact (hread.plans e he).not_lapse
    · obtain ⟨a, ha, rfl⟩ := hchild hj
      refine (hmet ha hj).mp ?_ e he
      have ha' := ha
      rw [hactions] at ha'
      obtain ⟨row, hrow, hfor⟩ := List.mem_filterMap.mp ha'
      obtain ⟨rfl, hne⟩ := actionFor_towards hfor
      exact hall row facts _ ((hread.reads row facts _).mpr ⟨hrow, rfl, rfl⟩) hne
  · intro hno row f b hreads hne
    obtain ⟨hrow, rfl, rfl⟩ := (hread.reads row f b).mp hreads
    have ha : SyncAction.towards row (qualifies C (ruleTreeOf row.2.2) f) ∈ actions := by
      rw [hactions]
      refine List.mem_filterMap.mpr ⟨row, hrow, ?_⟩
      rw [actionFor_eq, if_neg hne]
    have hstarted : SyncTask.act discordId (.towards row (qualifies C (ruleTreeOf row.2.2) f)) ∈
        childrenOf i labels := by
      rw [hchildren]
      exact List.mem_map_of_mem ha
    obtain ⟨j, hj⟩ := mem_childrenOf.mp hstarted
    exact (hmet ha hj).mpr fun e he => hno e (Or.inr ⟨j, _, hj, he⟩)

end

/-! ### A failure that is kept back -/

/-- What the run of the second member reads. -/
def pairPlans : List SyncEvent :=
  [⟨.userGuildIds "2", .ok ["g"]⟩, ⟨.db (.selectLinks ["g"]), .ok [(pairLink, "t", pairRule)]⟩,
    ⟨.db (.selectBirthday "2"), .ok (some leoRow.input)⟩,
    ⟨.localToday, .ok fun _ => janFirst 2024⟩, ⟨.db (.selectAssigned "2"), .ok []⟩]

/-- What it has to do. -/
def pairAct : SyncTask := .act "2" (.add pairLink "t")

def pairLabels (acts : List SyncEvent) : List SyncLabel :=
  .spawn (.player "2") :: (pairPlans.map (.call 0) ++ (.start 0 pairAct :: acts.map (.call 1)))

theorem pair_plans (lists : LinkKey → Finset String) : Exec (World.outside pairHttp)
    (SyncTask.body .ascii (.player "2")) (pairWorld lists) pairPlans (.ok [pairAct])
    (pairWorld lists) := by
  refine Exec.call (World.faultless.outside (pair_guildIds lists)) ?_
  refine Exec.call (World.faultless.outside (World.faultless_read (s := .selectLinks ["g"])
    [(pairLink, "t", pairRule)] trivial (List.Perm.refl _))) ?_
  refine Exec.call (World.faultless.outside (World.faultless_read (s := .selectBirthday "2")
    (some leoRow.input) trivial rfl)) ?_
  refine Exec.call (World.faultless.outside World.faultless_localToday) ?_
  refine Exec.call (World.faultless.outside (World.faultless_read (s := .selectAssigned "2") []
    trivial (List.Perm.refl _))) ?_
  exact .done

/-- The run of the second member, whose action makes the calls `acts`. -/
theorem pair_playerRun {lists : LinkKey → Finset String} {acts : List SyncEvent} {w' : World}
    (h : Exec (World.outside pairHttp) (pairAct.body .ascii) (pairWorld lists) acts (.ok []) w') :
    ∃ p, PlayerRun .ascii pairHttp (fun _ _ => False) (pairWorld lists) "2" 0 (pairLabels acts) p := by
  let S := syncSystem .ascii (World.outside pairHttp) fun _ _ => False
  have hspawn : Steps S ⟨pairWorld lists, []⟩ [.spawn (.player "2")] _ :=
    Steps.refl.tail (.spawn (t := SyncTask.player "2") trivial)
  have hplan := Steps.exec (i := 0) (pair_plans lists) hspawn rfl rfl
  have hstart := hplan.tail (.start (i := 0) (t := pairAct) rfl (show 0 < 10 by decide))
  have hact := Steps.exec (i := 1) h hstart rfl rfl
  have hlabels : [.spawn (.player "2")] ++ pairPlans.map (.call 0) ++ [.start 0 pairAct] ++
      acts.map (.call 1) = pairLabels acts := by simp [pairLabels]
  rw [hlabels] at hact
  refine ⟨_, hact, ⟨none, rfl⟩, ⟨none, rfl⟩, fun j t th _ hj => ?_⟩
  have hmem : th ∈ [⟨none, done (.ok [])⟩, ⟨some 0, done (.ok [])⟩] := List.mem_of_getElem? hj
  simp only [List.mem_cons, List.not_mem_nil, or_false] at hmem
  rcases hmem with rfl | rfl <;> rfl

theorem pair_eventsOf (i : ℕ) (acts : List SyncEvent) : eventsOf i (pairLabels acts) =
    (if 0 = i then pairPlans else []) ++ if 1 = i then acts else [] := by
  show eventsOf i ([.spawn (.player "2")] ++ (pairPlans.map (.call 0) ++ ([.start 0 pairAct] ++
    acts.map (.call 1)))) = _
  rw [eventsOf_append, eventsOf_append, eventsOf_append, eventsOf_map_call, eventsOf_map_call]
  rfl

theorem pair_births (acts : List SyncEvent) :
    births (pairLabels acts) = [(none, .player "2"), (some 0, pairAct)] := by
  show births ([.spawn (.player "2")] ++ (pairPlans.map (.call 0) ++ ([.start 0 pairAct] ++
    acts.map (.call 1)))) = _
  rw [births_append, births_append, births_append, births_map_call, births_map_call]
  rfl

theorem pair_runEvent {acts : List SyncEvent} {e : SyncEvent} (h : RunEvent 0 (pairLabels acts) e) :
    e ∈ pairPlans ∨ e ∈ acts := by
  rcases h with h | ⟨j, t, hj, h⟩
  · rw [pair_eventsOf] at h
    exact Or.inl (by simpa using h)
  · rw [pair_births] at hj
    rw [pair_eventsOf] at h
    match j with
    | 0 => cases hj
    | 1 => exact Or.inr (by simpa using h)
    | j + 2 => simp at hj

theorem pair_playerReads (acts : List SyncEvent) : PlayerReads "2" (eventsOf 0 (pairLabels acts))
    (pairLink, "t", pairRule) (some (computeFacts (fun _ => janFirst 2024) leoRow.input)) false := by
  rw [pair_eventsOf]
  refine ⟨⟨["g"], _, by simp [pairPlans], List.mem_singleton_self _⟩,
    Or.inr ⟨leoRow.input, _, ?_, ?_, rfl⟩, [], by simp [pairPlans], rfl⟩
  · simp [pairPlans]
  · simp [pairPlans]

/-- RoleLogic does not answer the add, and the run ends without an error: the member
qualifies, is not assigned and has not been added. -/
theorem lapse_completes : ∃ labels p, PlayerRun .ascii pairHttp (fun _ _ => False)
    (pairWorld fun _ => ∅) "2" 0 labels p ∧ ∃ row facts,
      PlayerReads "2" (eventsOf 0 labels) row facts false ∧
      qualifies .ascii (ruleTreeOf row.2.2) facts = true ∧
      ¬(SyncAction.towards row true).Met "2" (RunEvent 0 labels) := by
  have hadd : World.outside pairHttp (.roleLogic pairLink "t" (.addUser "2")) (pairWorld fun _ => ∅)
      (.error (.roleLogic "timeout")) (pairWorld fun _ => ∅) :=
    ⟨⟨.unreachable "timeout", rfl, fun _ _ => Or.inr ⟨_, rfl⟩⟩, rfl⟩
  obtain ⟨p, hrun⟩ := pair_playerRun (.call hadd .done)
  refine ⟨_, p, hrun, _, _, pair_playerReads _, rfl, ?_⟩
  rintro (⟨⟨v, hv⟩, -⟩ | ⟨e, he, hdeclines⟩)
  · rcases pair_runEvent hv with hv | hv
    · simp [pairPlans, SyncAction.towards, SyncAction.request] at hv
    · simp [SyncAction.towards, SyncAction.request] at hv
  · rcases pair_runEvent he with he | he
    · simp [pairPlans, SyncAction.towards, SyncAction.request] at he
    · obtain rfl : e = .roleLogic "timeout" := by
        simpa [SyncAction.towards, SyncAction.request] using he
      exact hdeclines

/-- A run whose add is accepted and recorded. -/
theorem owed_met_iff_added : ∃ labels p, PlayerRun .ascii pairHttp (fun _ _ => False)
    (pairWorld fun _ => ∅) "2" 0 labels p ∧
      (SyncAction.add pairLink "t").Met "2" (RunEvent 0 labels) := by
  have hinsert : World.faultless pairHttp (.db (.insertAssignment pairLink "2")) (pairWorld pairAdded)
      (.ok ()) _ := World.faultless_db rfl
  obtain ⟨p, hrun⟩ := pair_playerRun (.call pair_add.outside (.call hinsert.outside .done))
  refine ⟨_, p, hrun, (owed_met_iff hrun).mpr ?_ (pairLink, "t", pairRule) _ false
    (pair_playerReads _) (by decide)⟩
  intro e he
  rcases pair_runEvent he with he | he
  · simp only [pairPlans, List.mem_cons, List.not_mem_nil, or_false] at he
    rcases he with rfl | rfl | rfl | rfl | rfl <;> exact id
  · simp only [List.mem_cons, List.not_mem_nil, or_false] at he
    rcases he with rfl | rfl <;> exact id

end BirthdayRole
