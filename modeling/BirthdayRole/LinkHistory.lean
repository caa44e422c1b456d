/-
# The runs of a link, one after the other

RoleLogic and the database may fail in any run, and between two runs anything may
change but the list of the link and its rows. A run sends a list only if its rows are
not what it computes (`LinkEnds`). So once a run has sent a list and failed to write
the rows (`Loses`), the rows say nothing about the list; if they are what the next run
computes, it ends as if the list were that too (`stale_rows`).

Every other run that ends without an error or an excuse leaves what it computed as the
list (`leaves_computed`).
-/
import BirthdayRole.SyncPlayers

namespace BirthdayRole

open Prog

/-- The rows of a link are its list. -/
def World.Mirrors (w : World) (link : LinkKey) : Prop :=
  (w.db.assigned link).toFinset = w.roleLogic.lists link

/-- The list of those who qualify for a link, as a query of the state can return it. -/
def World.Qualifies (w : World) (link : LinkKey) (ids : List String) : Prop :=
  ∃ l, w.db.roleLinks.get? link = some l ∧
    if (ruleTreeOf l.ruleTree).unconfigured = true ∨ w.members link.1 = [] then ids = []
    else ∃ memberIds, (∀ d, d ∈ memberIds ↔ d ∈ w.members link.1) ∧
      (qualifyingQuery (ruleTreeOf l.ruleTree) memberIds (w.roleLogic.limits link)).Answers
        w.postgres w.db.birthdays.rows ids

def computedBy : SyncEvent → Option (List String)
  | ⟨.db (.selectQualifying _), .ok ids⟩ => some ids
  | ⟨.db (.existsAssigned _), .ok _⟩ => some []
  | _ => none

/-- The list that a run computed. -/
def computed (events : List SyncEvent) : Option (List String) := events.findSome? computedBy

/-- The link is gone or disabled, or its list is held. -/
def Excused (link : LinkKey) (events : List SyncEvent) : Prop :=
  (⟨.db (.selectLink link), .ok none⟩ : SyncEvent) ∈ events ∨
    ∃ token e, Refused link token e events ∧ e.Skips

/-- A statement that writes rows failed, or the link was deleted with its rows. -/
def Loses (link : LinkKey) (events : List SyncEvent) : Prop :=
  (∃ s e, s.change ≠ none ∧ (⟨.db s, .error e⟩ : SyncEvent) ∈ events) ∨
    ∃ v, (⟨.db (.deleteRoleLink link), .ok v⟩ : SyncEvent) ∈ events

section

variable {H : HttpCrates} {w w' : World} {link : LinkKey} {before rest events : List SyncEvent}
  {x : Except AppError Unit} {ids : List String}

theorem computed_append_of_none (h : computed before = none) :
    computed (before ++ rest) = computed rest := by
  unfold computed at h ⊢
  rw [List.findSome?_append, h, Option.none_or]

theorem computed_append_of_some (h : computed before = some ids) :
    computed (before ++ rest) = some ids := by
  unfold computed at h ⊢
  rw [List.findSome?_append, h, Option.some_or]

theorem computed_of_asks (h : ∀ e ∈ before, e.op.Asks) : computed before = none := by
  unfold computed
  rw [List.findSome?_eq_none_iff]
  intro e he
  have hasks := h e he
  obtain ⟨op, r⟩ := e
  cases op with
  | userGuildIds | guildMemberIds | localToday | roleLogic => rfl
  | db s =>
    cases s with
    | selectLink => rfl
    | _ => exact hasks.elim

theorem Excused.mono {events' : List SyncEvent} (h : Excused link events) (hsub : events ⊆ events') :
    Excused link events' := by
  rcases h with h | ⟨token, e, href, hskips⟩
  · exact Or.inl (hsub h)
  · exact Or.inr ⟨token, e, href.mono hsub, hskips⟩

/-! ### One run -/

/-- How a run of a link ends: the list and the rows are as they were, or what the run
computed was sent, or the link is deleted. -/
inductive LinkEnds (link : LinkKey) (w : World) (events : List SyncEvent) (x : Except AppError Unit)
    (w' : World) : Prop where
  | kept : w'.roleLogic.lists link = w.roleLogic.lists link →
      w'.db.assigned link = w.db.assigned link →
      (x = .ok () → Excused link events ∨
        computed events = some (w.db.assigned link) ∧ w.Qualifies link (w.db.assigned link)) →
      LinkEnds link w events x w'
  | sent {ids : List String} : computed events = some ids → ids ≠ w.db.assigned link →
      w'.roleLogic.lists link = ids.toFinset → w'.Mirrors link ∨ x ≠ .ok () ∧ Loses link events →
      LinkEnds link w events x w'
  | dropped : Excused link events → Loses link events → LinkEnds link w events x w'

theorem Statement.assigned_whole {s : Statement} (hs : s.change = some (.whole link ids))
    (db : Database) : ((s.after db).assigned link).toFinset = ids.toFinset := by
  have hrows := s.rows_after db fun l he => by rw [he] at hs; cases hs
  rw [hs] at hrows
  ext d
  rw [List.mem_toFinset, List.mem_toFinset, Database.mem_assigned, hrows]
  simp [Change.patch, Mirror.Patch.apply]

theorem Cleanup.linkEnds {token : String} {w₀ : World} (h : Cleanup link w₀ rest w')
    (hlist : w₀.roleLogic.lists link = w.roleLogic.lists link)
    (hrows : w₀.db.assigned link = w.db.assigned link) (hrest : rest ⊆ events)
    (href : Refused link token .roleLinkNotFound events) : LinkEnds link w events x w' := by
  have hexcused : Excused link events := Or.inr ⟨token, _, href, trivial⟩
  rcases h.mono hrest with ⟨hdeleted, -⟩ | ⟨-, rfl⟩
  · exact .dropped hexcused (Or.inr hdeleted)
  · exact .kept hlist hrows fun _ => Or.inl hexcused

theorem uploadAndMirror_linkEnds {token : String} {s : Statement}
    (hs : s.change = some (.whole link ids)) (hcomputed : computed before = some ids)
    (hne : ids ≠ w.db.assigned link)
    (h : Exec (World.outside H) (uploadAndMirror link ids token s) w rest x w') :
    LinkEnds link w (before ++ rest) x w' := by
  have hrest : rest ⊆ before ++ rest := List.subset_append_right _ _
  have hcomp : computed (before ++ rest) = some ids := computed_append_of_some hcomputed
  rcases uploadAndMirror_ends (fun _ _ _ _ h => h) h with
    ⟨u, -, rfl⟩ | ⟨e, u, rfl, he, rfl⟩ | ⟨href, u, hclean⟩ | ⟨e, u, -, href, rfl, hskips⟩
  · have hlist : (w.replaced link ids u).roleLogic.lists link = ids.toFinset :=
      Function.update_self _ _ _
    refine .sent hcomp hne hlist (Or.inl ?_)
    show ((s.after w.db).assigned link).toFinset = _
    rw [Statement.assigned_whole hs, hlist]
  · refine .sent hcomp hne (Function.update_self _ _ _) (Or.inr ⟨by simp, Or.inl ⟨s, e, ?_, hrest he⟩⟩)
    rw [hs]
    exact Option.some_ne_none _
  · exact hclean.linkEnds rfl rfl hrest (href.mono hrest)
  · exact .kept rfl rfl fun hx => Or.inl (Or.inr ⟨token, e, href.mono hrest, hskips hx⟩)

theorem drainToEmpty_linkEnds {l : RoleLink} (hl : w.db.roleLinks.get? link = some l)
    (hempty : (ruleTreeOf l.ruleTree).unconfigured = true ∨ w.members link.1 = [])
    (hbefore : computed before = none)
    (h : Exec (World.outside H) (drainToEmpty link l.apiToken) w rest x w') :
    LinkEnds link w (before ++ rest) x w' := by
  rcases h.perform_bind_inv with ⟨e, hr, rfl, rfl⟩ | ⟨any, w₁, rest, hr, hrest, rfl⟩
  · obtain rfl : w' = w := hr.2
    exact .kept rfl rfl fun hx => by cases hx
  obtain ⟨hany, rfl⟩ := hr
  have hany : any = !(w.db.assigned link).isEmpty := hany
  by_cases hnil : w.db.assigned link = []
  · rw [hnil] at hany
    subst hany
    obtain ⟨-, -, rfl⟩ := hrest.done_inv
    refine .kept rfl rfl fun _ => Or.inr ⟨?_, l, hl, ?_⟩
    · show computed _ = some (w.db.assigned link)
      rw [computed_append_of_none hbefore, hnil]
      rfl
    · rw [if_pos hempty]
      exact hnil
  · have htrue : any = true := by
      rw [hany, Bool.not_eq_true', List.isEmpty_eq_false_iff]
      exact hnil
    subst htrue
    have hrest : Exec (World.outside H) (uploadAndMirror link [] l.apiToken (.clearAssignments link))
        w rest x w' := hrest
    have hcomputed : computed (before ++ [⟨.db (.existsAssigned link), .ok true⟩]) = some [] := by
      rw [computed_append_of_none hbefore]
      rfl
    have hends := uploadAndMirror_linkEnds rfl hcomputed (Ne.symm hnil) hrest
    rwa [List.append_assoc] at hends

theorem syncQualifying_linkEnds {l : RoleLink} {memberIds : List String}
    (hl : w.db.roleLinks.get? link = some l) (hconf : (ruleTreeOf l.ruleTree).unconfigured = false)
    (hne : memberIds ≠ []) (hmem : ∀ d, d ∈ memberIds ↔ d ∈ w.members link.1)
    (hbefore : computed before = none)
    (h : Exec (World.outside H) (syncQualifying link l.apiToken (ruleTreeOf l.ruleTree) memberIds
      (w.roleLogic.limits link)) w rest x w') : LinkEnds link w (before ++ rest) x w' := by
  rcases h.perform_bind_inv with ⟨e, hr, rfl, rfl⟩ | ⟨qualifying, w₁, rest, hr, hrest, rfl⟩
  · obtain rfl : w' = w := hr.2
    exact .kept rfl rfl fun hx => by cases hx
  obtain ⟨hq, rfl⟩ := hr
  have hmembers : w.members link.1 ≠ [] := by
    obtain ⟨d, hd⟩ := List.exists_mem_of_ne_nil _ hne
    exact List.ne_nil_of_mem ((hmem d).mp hd)
  have hqualifies : w.Qualifies link qualifying := by
    refine ⟨l, hl, ?_⟩
    rw [if_neg (by simp [hconf, hmembers])]
    exact ⟨memberIds, hmem, hq⟩
  rcases hrest.perform_bind_inv with ⟨e, hr, rfl, rfl⟩ | ⟨current, w₂, rest', hr, hrest', rfl⟩
  · obtain rfl : w' = w := hr.2
    exact .kept rfl rfl fun hx => by cases hx
  obtain ⟨hcur, rfl⟩ := hr
  have hcur : current = w.db.assigned link := hcur
  subst hcur
  have hcomputed : ∀ rest, computed (before ++ ⟨.db (.selectQualifying
      (qualifyingQuery (ruleTreeOf l.ruleTree) memberIds (w.roleLogic.limits link))), .ok qualifying⟩
        :: rest) = some qualifying := fun rest => by
    rw [computed_append_of_none hbefore]
    rfl
  by_cases hsame : w.db.assigned link = qualifying
  · rw [if_pos hsame] at hrest'
    obtain ⟨-, -, rfl⟩ := hrest'.done_inv
    refine .kept rfl rfl fun _ => Or.inr ?_
    rw [hsame]
    exact ⟨hcomputed _, hqualifies⟩
  · rw [if_neg hsame] at hrest'
    have hends := uploadAndMirror_linkEnds rfl
      (hcomputed [⟨.db (.selectCurrent link), .ok (w.db.assigned link)⟩]) (Ne.symm hsame) hrest'
    rwa [List.append_assoc] at hends

theorem syncForRoleLink_ends (h : Exec (World.outside H) (syncForRoleLink link) w events x w') :
    LinkEnds link w events x w' := by
  obtain ⟨before, rest, rfl, hasks, hreads⟩ := syncForRoleLink_reads (fun _ _ _ _ h => h) h
  have hbefore : computed before = none := computed_of_asks hasks
  cases hreads with
  | unread _ hx hr =>
    obtain rfl : w' = w := hr.2
    exact .kept rfl rfl fun hok => by rw [hx] at hok; cases hok
  | gone _ hnone hw =>
    rw [hw]
    exact .kept rfl rfl fun _ => Or.inl (Or.inl (List.mem_append_left _ hnone))
  | gateway _ hx _ hw =>
    rw [hw]
    exact .kept rfl rfl fun hok => by rw [hx] at hok; cases hok
  | drain hl hempty hdrain => exact drainToEmpty_linkEnds hl hempty hbefore hdrain
  | @sync l memberIds info hl hconf hne hmem hlimit hinfo hsync =>
    have href : ∀ {e}, info = .error e → Refused link l.apiToken e (before ++ rest) := by
      rintro e rfl
      exact ⟨.getUserInfo, List.mem_append_left _ hinfo⟩
    unfold withUserInfo at hsync
    split at hsync
    · rw [hlimit _ _ rfl] at hsync
      exact syncQualifying_linkEnds hl hconf hne hmem hbefore hsync
    · exact (deleteOrphanRoleLink_ends (fun _ _ _ _ h => h) hsync).2.linkEnds rfl rfl
        (List.subset_append_right _ _) (href rfl)
    · obtain ⟨-, -, rfl⟩ := hsync.done_inv
      exact .kept rfl rfl fun _ => Or.inl (Or.inr ⟨l.apiToken, _, href rfl, trivial⟩)
    · obtain ⟨rfl, -, rfl⟩ := hsync.done_inv
      exact .kept rfl rfl fun hok => by cases hok

/-- A run that loses nothing keeps the rows the list. -/
theorem LinkEnds.mirrors (h : LinkEnds link w events x w') (hw : w.Mirrors link)
    (hkeeps : ¬Loses link events) : w'.Mirrors link := by
  cases h with
  | kept hlist hrows _ =>
    unfold World.Mirrors
    rw [hlist, hrows]
    exact hw
  | sent _ _ _ hend => exact hend.resolve_right fun h => hkeeps h.2
  | dropped _ hloses => exact absurd hloses hkeeps

/-- A run without an error or an excuse leaves what it computed, unless that is what the
rows are and the list is not. -/
theorem LinkEnds.leaves_computed (h : LinkEnds link w events (.ok ()) w')
    (hplain : ¬Excused link events)
    (hw : w.Mirrors link ∨ ¬w.Qualifies link (w.db.assigned link)) :
    ∃ ids, computed events = some ids ∧ w'.roleLogic.lists link = ids.toFinset := by
  cases h with
  | kept hlist _ hok =>
    obtain ⟨hcomputed, hq⟩ := (hok rfl).resolve_left hplain
    refine ⟨_, hcomputed, ?_⟩
    rw [hlist, hw.resolve_right fun h => h hq]
  | sent hcomputed _ hlist _ => exact ⟨_, hcomputed, hlist⟩
  | dropped hexcused _ => exact absurd hexcused hplain

/-- For one run the condition is exact, in terms of what it computed. -/
theorem LinkEnds.leaves_iff (h : LinkEnds link w events (.ok ()) w') (hplain : ¬Excused link events)
    (hids : computed events = some ids) :
    w'.roleLogic.lists link = ids.toFinset ↔ w.Mirrors link ∨ w.db.assigned link ≠ ids := by
  cases h with
  | kept hlist _ hok =>
    obtain ⟨hcomputed, -⟩ := (hok rfl).resolve_left hplain
    obtain rfl : ids = w.db.assigned link := Option.some.inj (hids.symm.trans hcomputed)
    rw [hlist]
    constructor
    · exact fun h => Or.inl h.symm
    · exact fun h => (h.resolve_right fun hne => hne rfl).symm
  | sent hcomputed hne hlist _ =>
    obtain rfl := Option.some.inj (hids.symm.trans hcomputed)
    exact ⟨fun _ => Or.inr (Ne.symm hne), fun _ => hlist⟩
  | dropped hexcused _ => exact absurd hexcused hplain

end

/-! ### A history -/

structure SyncRun where
  before : World
  events : List SyncEvent
  result : Except AppError Unit
  after : World

/-- A run that ended without an error, on a link that is there, enabled and not held. -/
def SyncRun.Plain (link : LinkKey) (r : SyncRun) : Prop :=
  r.result = .ok () ∧ ¬Excused link r.events

/-- Between two runs: anything, but to the list of the link and its rows. -/
def World.Between (link : LinkKey) (w w' : World) : Prop :=
  w'.roleLogic.lists link = w.roleLogic.lists link ∧ w'.db.assigned link = w.db.assigned link

/-- The runs of a link one after the other, and the world after them. -/
inductive History (H : HttpCrates) (link : LinkKey) (start : World) : List SyncRun → World → Prop
  | nil : History H link start [] start
  | run {runs : List SyncRun} {w : World} {r : SyncRun} : History H link start runs w →
      World.Between link w r.before →
      Exec (World.outside H) (syncForRoleLink link) r.before r.events r.result r.after →
      History H link start (runs ++ [r]) r.after

section

variable {H : HttpCrates} {start w : World} {link : LinkKey} {runs : List SyncRun}

theorem World.Mirrors.between {w' : World} (hw : w.Mirrors link) (h : World.Between link w w') :
    w'.Mirrors link := by
  unfold World.Mirrors
  rw [h.1, h.2]
  exact hw

/-- As long as no run loses anything the rows are the list. -/
theorem History.mirrors (h : History H link start runs w) (hstart : start.Mirrors link)
    (hkeep : ∀ r ∈ runs, ¬Loses link r.events) : w.Mirrors link := by
  induction h with
  | nil => exact hstart
  | run _ hbetween hexec ih =>
    obtain ⟨hkeep, hlast⟩ := List.forall_mem_append.mp hkeep
    refine (syncForRoleLink_ends hexec).mirrors ((ih hkeep).between hbetween) ?_
    exact hlast _ (List.mem_singleton_self _)

/-- A run may rely on the rows: no earlier one lost anything, or the rows are the list
all the same, or they are not what the run is to compute. -/
def Reliable (link : LinkKey) (earlier : List SyncRun) (r : SyncRun) : Prop :=
  (∃ e ∈ earlier, Loses link e.events) →
    r.before.Mirrors link ∨ ¬r.before.Qualifies link (r.before.db.assigned link)

/-- In a history that starts with the rows equal to the list, a run without an error or
an excuse leaves what it computed as the list, if each of them may rely on the rows. -/
theorem history_leaves_computed (h : History H link start runs w) (hstart : start.Mirrors link)
    (hrely : ∀ earlier r later, runs = earlier ++ r :: later → r.Plain link →
      Reliable link earlier r) :
    ∀ r ∈ runs, r.Plain link →
      ∃ ids, computed r.events = some ids ∧ r.after.roleLogic.lists link = ids.toFinset := by
  induction h with
  | nil => exact fun r hr => absurd hr List.not_mem_nil
  | @run runs w r hhist hbetween hexec ih =>
    refine List.forall_mem_append.mpr ⟨ih fun earlier r' later hruns => ?_, fun r' hr' => ?_⟩
    · refine hrely earlier r' (later ++ [r]) ?_
      rw [hruns, List.append_assoc, List.cons_append]
    · rw [List.mem_singleton.mp hr']
      intro hr
      obtain ⟨hok, hplain⟩ := hr
      rw [hok] at hexec
      refine (syncForRoleLink_ends hexec).leaves_computed hplain ?_
      by_cases hlost : ∃ e ∈ runs, Loses link e.events
      · exact hrely runs r [] rfl ⟨hok, hplain⟩ hlost
      · refine Or.inl ((hhist.mirrors hstart fun e he hl => ?_).between hbetween)
        exact hlost ⟨e, he, hl⟩

end

/-! ### Stale rows -/

/-- The lists once the first member has been sent. -/
def pairFirst (lists : LinkKey → Finset String) : LinkKey → Finset String :=
  Function.update lists pairLink ["1"].toFinset

def pairReads : List SyncEvent :=
  [⟨.db (.selectLink pairLink), .ok (some ("t", pairRule))⟩, ⟨.guildMemberIds "g", .ok ["1", "2"]⟩,
    ⟨.roleLogic pairLink "t" .getUserInfo, .ok (⟨0, zero_lt_usize⟩, ⟨1, one_lt_usize⟩)⟩]

/-- What the link computes, and that nobody is assigned. -/
def pairCompares (ids : List String) : List SyncEvent :=
  [⟨.db (.selectQualifying (qualifyingQuery ⟨true, []⟩ ["1", "2"] ⟨1, one_lt_usize⟩)), .ok ids⟩,
    ⟨.db (.selectCurrent pairLink), .ok []⟩]

/-- The first member is sent, and their row is written or not. -/
def pairSends (r : Except AppError Unit) : List SyncEvent :=
  [⟨.roleLogic pairLink "t" (.replaceUsers ["1"]), .ok ⟨0, zero_lt_usize⟩⟩,
    ⟨.db (.rewriteAssignments pairLink ["1"]), r⟩]

theorem pair_sends (lists : LinkKey → Finset String) {r : Except AppError Unit} {w' : World}
    (hr : World.outside pairHttp (.db (.rewriteAssignments pairLink ["1"]))
      (pairWorld (pairFirst lists)) r w') :
    Exec (World.outside pairHttp) (syncForRoleLink pairLink) (pairWorld lists)
      (pairReads ++ (pairCompares ["1"] ++ pairSends r)) r w' := by
  refine Exec.call (World.faultless.outside (World.faultless_read (s := .selectLink pairLink)
    (some ("t", pairRule)) trivial rfl)) ?_
  refine Exec.call (World.faultless.outside (pair_memberIds lists)) ?_
  refine Exec.call (World.faultless.outside (World.faultless_roleLogic (c := .getUserInfo)
    (.replied 200 (.ok userInfoBody)) rfl (by rintro _ ⟨⟩; rfl))) ?_
  refine Exec.call (World.faultless.outside (World.faultless_read (s := .selectQualifying _) ["1"]
    trivial pair_qualifying)) ?_
  refine Exec.call (World.faultless.outside (World.faultless_read (s := .selectCurrent pairLink) []
    trivial rfl)) ?_
  refine Exec.call (World.faultless.outside (World.faultless_roleLogic (c := .replaceUsers ["1"])
    (.replied 200 (.ok emptyBody)) rfl trivial)) ?_
  refine Exec.call hr ?_
  cases r <;> exact .done

theorem pair_not_sent (lists : LinkKey → Finset String) : World.outside pairHttp
    (.db (.rewriteAssignments pairLink ["1"])) (pairWorld lists) (.error (.database ""))
    (pairWorld lists) := ⟨⟨"", rfl⟩, rfl⟩

theorem pair_not_excused (ids : List String) (r : Except AppError Unit) :
    ¬Excused pairLink (pairReads ++ (pairCompares ids ++ pairSends r)) := by
  rintro (h | ⟨token, e, ⟨c, h⟩, -⟩)
  · simp [pairReads, pairCompares, pairSends] at h
  · simp only [pairReads, pairCompares, pairSends, List.mem_append, List.mem_cons, Event.mk.injEq,
      SyncCall.roleLogic.injEq, reduceCtorEq, false_and, false_or, or_false, true_and,
      List.not_mem_nil] at h
    rcases h with ⟨⟨-, rfl⟩, h⟩ | ⟨⟨-, rfl⟩, h⟩ <;> cases h

/-- The world after a run that sent the first member and failed, once both members have
unlinked. -/
def pairUnlinked (lists : LinkKey → Finset String) : World :=
  { pairWorld (pairFirst lists) with db := { (pairWorld (pairFirst lists)).db with birthdays := ∅ } }

theorem pair_compares (lists : LinkKey → Finset String) :
    Exec (World.outside pairHttp) (syncForRoleLink pairLink) (pairUnlinked lists)
      (pairReads ++ pairCompares []) (.ok ()) (pairUnlinked lists) := by
  refine Exec.call (World.faultless.outside (World.faultless_read (s := .selectLink pairLink)
    (some ("t", pairRule)) trivial rfl)) ?_
  have hmembers : World.outside pairHttp (.guildMemberIds "g") (pairUnlinked lists) (.ok ["1", "2"])
      (pairUnlinked lists) := by
    refine ⟨⟨.replied 200 (.ok memberIdsBody), rfl, ?_⟩, rfl⟩
    intro ids h d
    cases h
    exact Iff.rfl
  refine Exec.call hmembers ?_
  refine Exec.call (World.faultless.outside (World.faultless_roleLogic (c := .getUserInfo)
    (.replied 200 (.ok userInfoBody)) rfl (by rintro _ ⟨⟩; rfl))) ?_
  refine Exec.call (World.faultless.outside (World.faultless_read (s := .selectQualifying _) []
    trivial ⟨by decide, by decide, fun _ => true, fun row hrow => absurd hrow List.not_mem_nil,
      rfl⟩)) ?_
  refine Exec.call (World.faultless.outside (World.faultless_read (s := .selectCurrent pairLink) []
    trivial rfl)) ?_
  exact .done

def pairFailure : SyncRun :=
  ⟨pairWorld fun _ => ∅, pairReads ++ (pairCompares ["1"] ++ pairSends (.error (.database ""))),
    .error (.database ""), pairWorld (pairFirst fun _ => ∅)⟩

theorem pairFailure_history : History pairHttp pairLink (pairWorld fun _ => ∅) [pairFailure]
    pairFailure.after := .run .nil ⟨rfl, rfl⟩ (pair_sends _ (pair_not_sent _))

/-- A run sends the first member and fails to write their row. Both members unlink; the
next run computes that nobody qualifies, finds no rows, and ends without an error. -/
theorem stale_rows : ∃ runs w, History pairHttp pairLink (pairWorld fun _ => ∅) runs w ∧
    (pairWorld fun _ => ∅).Mirrors pairLink ∧ ∃ r ∈ runs, r.Plain pairLink ∧
      computed r.events = some [] ∧ r.after.roleLogic.lists pairLink = {"1"} := by
  have hsecond := pairFailure_history.run (r := ⟨pairUnlinked fun _ => ∅, _, _, _⟩) ⟨rfl, rfl⟩
    (pair_compares _)
  refine ⟨_, _, hsecond, rfl, _, List.mem_append_right _ (List.mem_singleton_self _), ⟨rfl, ?_⟩, rfl, ?_⟩
  · intro hexcused
    exact pair_not_excused [] (.ok ()) (hexcused.mono (by simp))
  · show pairFirst (fun _ => ∅) pairLink = {"1"}
    decide

/-- The same, where nothing changes before the retry. -/
def pairRetry : SyncRun :=
  ⟨pairWorld (pairFirst fun _ => ∅), pairReads ++ (pairCompares ["1"] ++ pairSends (.ok ())), .ok (),
    pairSynced (pairFirst fun _ => ∅)⟩

theorem pairRetry_not_qualifies : ¬pairRetry.before.Qualifies pairLink [] := by
  rintro ⟨l, hl, h⟩
  cases hl
  rw [if_neg (by decide)] at h
  obtain ⟨memberIds, hmem, hans⟩ := h
  have hne : memberIds ≠ [] := List.ne_nil_of_mem ((hmem "1").mpr (by decide))
  have htarget : pairRetry.before.target .ascii pairLink ⟨true, []⟩ = ["1"] := by decide
  have hnil := (Query.Answers.eq_target (pairWorld_fit (pairFirst fun _ => ∅)) rfl hne hmem
    hans).trans htarget
  cases hnil

/-- The retry computes what the rows are not, and sends the list again. -/
theorem history_leaves_computed_retry : Loses pairLink pairFailure.events ∧
    ∃ ids, computed pairRetry.events = some ids ∧
      pairRetry.after.roleLogic.lists pairLink = ids.toFinset := by
  have hwritten : World.outside pairHttp (.db (.rewriteAssignments pairLink ["1"]))
      (pairWorld (pairFirst (pairFirst fun _ => ∅))) (.ok ()) pairRetry.after :=
    World.faultless.outside (World.faultless_db (s := .rewriteAssignments pairLink ["1"]) (v := ())
      ⟨by decide, Or.inr rfl⟩)
  have hhistory : History pairHttp pairLink (pairWorld fun _ => ∅) [pairFailure, pairRetry]
      pairRetry.after := pairFailure_history.run ⟨rfl, rfl⟩ (pair_sends _ hwritten)
  refine ⟨Or.inl ⟨.rewriteAssignments pairLink ["1"], .database "", by simp [Statement.change], ?_⟩, ?_⟩
  · exact List.mem_append_right _ (List.mem_append_right _ (by simp [pairSends]))
  refine history_leaves_computed hhistory rfl (fun earlier r later hruns _ hlost => ?_) pairRetry
    (by simp) ⟨rfl, pair_not_excused _ _⟩
  rcases earlier with _ | ⟨e, _ | ⟨e', earlier⟩⟩
  · obtain ⟨_, he, -⟩ := hlost
    exact absurd he List.not_mem_nil
  · obtain ⟨-, hsecond⟩ := List.cons.inj hruns
    obtain ⟨rfl, -⟩ := List.cons.inj hsecond
    exact Or.inr pairRetry_not_qualifies
  · have hlen := congrArg List.length hruns
    simp at hlen

end BirthdayRole
