/-
# Lists that follow the calendar

What a rule says of a member changes with the member's date, with nobody saving anything.
Here the service of `Service` goes on while the dates change, and tick workers select the
links and enqueue a job for each (`Clocked.Step`). `due` are the links no tick has come to
since the dates changed last; the program keeps no such thing.

A link that is due is as good as one for which a request is bound to enqueue the job
(`Clocked.indebted`), so that what is known of the service holds here too. It follows that
a tick brings the lists up to date (`lists_follow_dates`): once a tick that began after the
last change of the dates is through and nothing is in progress, the list of every link is
who the rule grants the role to on the new dates.

The runs are those of `quiescent_lists`: they start with lists that are right, no call fails,
the user limits have room for all who satisfy a rule, and no call is overtaken where nothing
else is on its way and no tick is still to come (`Clocked.InTime`). Left out is that a tick
collects garbage first.
-/
import BirthdayRole.Quiescence
import BirthdayRole.Ticks

namespace BirthdayRole

open Prog

/-- The service, the links that each tick still has to come to, and the links that are due. -/
structure Clocked where
  service : Service
  ticks : List (List LinkKey)
  due : List LinkKey

namespace Clocked

def world (c : Clocked) : World := c.service.world

def start (w : World) : Clocked := ⟨.start w, [], []⟩

/-- The dates of the members change, for the program and for PostgreSQL. -/
def setDates (s : Service) (localToday : String → Calendar.Date)
    (localDate : String → Except Sql.Error Calendar.Date) : Service :=
  { s with
    pool := ⟨{ s.pool.state with
      localToday := localToday
      postgres := { s.pool.state.postgres with localDate := localDate } }, s.pool.threads⟩ }

/-- The statement of a tick for a link. -/
def enqueueUnique (s : Service) (now : Time) (link : LinkKey) : Service :=
  s.setDb { s.db with jobs := s.db.jobs.enqueueConfigSyncUnique now link.1 link.2 }

inductive Label where
  | service (l : Service.Label)
  | dates
  | select
  | enqueue (i : ℕ)

section

variable (C : Crates) (K : TokenCrates) (state : AppState) (H : HttpCrates)

inductive Step : Clocked → Label → Clocked → Prop
  | service {c : Clocked} {l : Service.Label} {s : Service} :
      Service.Step C K state H c.service l s → Step c (.service l) { c with service := s }
  | dates {c : Clocked} (localToday : String → Calendar.Date)
      (localDate : String → Except Sql.Error Calendar.Date) :
      (∀ row : BirthdayRow, row.Saved C → localDate row.tz = .ok (localToday row.tz)) →
      Step c .dates
        { c with
          service := setDates c.service localToday localDate
          due := c.service.db.roleLinks.rows.map RoleLink.key }
  /-- a tick begins with the `SELECT` of all links -/
  | select {c : Clocked} {links : List LinkKey} :
      links.Perm (c.service.db.roleLinks.rows.map RoleLink.key) →
      Step c .select { c with ticks := c.ticks ++ [links] }
  | enqueue {c : Clocked} {i : ℕ} {link : LinkKey} {rest : List LinkKey} (now : Time) :
      c.ticks[i]? = some (link :: rest) →
      Step c (.enqueue i)
        { service := enqueueUnique c.service now link
          ticks := c.ticks.set i rest
          due := c.due.filter fun k => k ≠ link }

/-- Wherever nothing else is on its way, a call of a run is current or the link is due. -/
def InTime (c : Clocked) : Label → Prop
  | .service (.run (.call i e)) => ∀ a : Place, (c.service.db.roleLinks.get? a.1).isSome = true →
      c.service.OnItsWay C H (fun j => j ≠ i) a ∨ Service.Current C c.world a e ∨
        (a.2 ∈ c.world.members a.1.1 ∧ a.1 ∈ c.due)
  | _ => True

/-- A step that is in time, below the user limits. -/
def Holds (c : Clocked) (l : Label) (c' : Clocked) : Prop := c.InTime C H l ∧ c'.world.HasRoom C

/-- Steps that each have a property, from one state to another. -/
inductive Run (P : Clocked → Label → Clocked → Prop) (c₀ : Clocked) : Clocked → Prop
  | refl : Run P c₀ c₀
  | tail {c c' : Clocked} {l : Label} : Run P c₀ c → Step C K state H c l c' → P c l c' → Run P c₀ c'

end

/-! ### What is due -/

/-- A request that is bound to enqueue the job of a link. -/
def debt (link : LinkKey) : RequestRun := .config 0 (ConfigWrites.enqueueAnd link.1 link.2 0)

theorem debt_boundFor (link : LinkKey) (discordId : String) : (debt link).BoundFor (link, discordId) :=
  fun _ _ => Or.inl rfl

theorem boundFor_debt {link : LinkKey} {a : Place} {db : Database}
    (hlink : (db.roleLinks.get? a.1).isSome = true) (h : (debt link).BoundFor a) : a.1 = link := by
  rcases h (.ok ()) ⟨db, hlink, rfl⟩ with hgoal | hk
  · exact hgoal.symm
  · exact hk.elim

/-- The service with more requests in progress. -/
def withRequests (s : Service) (requests : List RequestRun) : Service :=
  { s with requests := requests ++ s.requests }

/-- The service with such a request for every link that is due. -/
def indebted (c : Clocked) : Service := withRequests c.service (c.due.map debt)

/-- The same step where there are more requests in progress. -/
def shift (n : ℕ) : Service.Label → Service.Label
  | .request i => .request (n + i)
  | l => l

section

variable {C : Crates} {K : TokenCrates} {state : AppState} {H : HttpCrates} {s s' : Service}
  {c c' : Clocked} {a : Place}

theorem step_withRequests {l : Service.Label} (requests : List RequestRun)
    (h : Service.Step C K state H s l s') :
    Service.Step C K state H (withRequests s requests) (shift requests.length l)
      (withRequests s' requests) := by
  cases h with
  | arrive arrival =>
    have hstep : Service.Step C K state H (withRequests s requests) (.arrive arrival)
      { withRequests s requests with
        requests := (withRequests s requests).requests ++ [arrival.begin C K state] } := .arrive arrival
    have hsame : (withRequests s requests).requests ++ [arrival.begin C K state] =
      requests ++ (s.requests ++ [arrival.begin C K state]) := List.append_assoc _ _ _
    rw [hsame] at hstep
    exact hstep
  | @request i q q' db hi hn =>
    have hi' : (withRequests s requests).requests[requests.length + i]? = some q := by
      show (requests ++ s.requests)[requests.length + i]? = some q
      rw [List.getElem?_append_right (Nat.le_add_right _ _), Nat.add_sub_cancel_left, hi]
    have hstep : Service.Step C K state H (withRequests s requests) (.request (requests.length + i))
      { (withRequests s requests).setDb db with
        requests := (withRequests s requests).requests.set (requests.length + i) q' } :=
      .request hi' hn
    have hsame : (withRequests s requests).requests.set (requests.length + i) q' =
        requests ++ s.requests.set i q' := by
      show (requests ++ s.requests).set (requests.length + i) q' = _
      rw [List.set_append_right _ _ (Nat.le_add_right _ _), Nat.add_sub_cancel_left]
    rw [hsame] at hstep
    exact hstep
  | claim now worker locked hidle => exact .claim (s := withRequests s requests) now worker locked hidle
  | dispatch hx hnone htask => exact .dispatch (s := withRequests s requests) hx hnone htask
  | complete now hx hi hend hover =>
    exact .complete (s := withRequests s requests) now hx hi hend hover
  | run hrun => exact .run (s := withRequests s requests) hrun

/-- What is on its way stays so. -/
theorem onItsWay_withRequests {others : ℕ → Prop} (requests : List RequestRun)
    (h : s.OnItsWay C H others a) : (withRequests s requests).OnItsWay C H others a := by
  obtain ⟨hmember, (⟨q, hq, hbound⟩ | hcoming) | hrunning⟩ := h
  · exact ⟨hmember, Or.inl (Or.inl ⟨q, List.mem_append_right _ hq, hbound⟩)⟩
  · exact ⟨hmember, Or.inl (Or.inr hcoming)⟩
  · exact ⟨hmember, Or.inr hrunning⟩

/-- The job of a link that is due is on its way to its members. -/
theorem onItsWay_due {others : ℕ → Prop} (hmember : a.2 ∈ c.world.members a.1.1) (hdue : a.1 ∈ c.due) :
    c.indebted.OnItsWay C H others a := by
  refine ⟨hmember, Or.inl (Or.inl ⟨debt a.1, ?_, debt_boundFor a.1 a.2⟩)⟩
  exact List.mem_append_left _ (List.mem_map_of_mem hdue)

theorem inTime_indebted {l : Service.Label} (h : c.InTime C H (.service l)) :
    c.indebted.InTime C H (shift (c.due.map debt).length l) := by
  cases l with
  | run l =>
    cases l with
    | call i e =>
      intro a hlink
      rcases h a hlink with hway | hcurrent | ⟨hmember, hdue⟩
      · exact Or.inl (onItsWay_withRequests _ hway)
      · exact Or.inr hcurrent
      · exact Or.inl (onItsWay_due hmember hdue)
    | drift | spawn | start => trivial
  | arrive | request | claim | dispatch | complete => trivial

/-! ### One step -/

/-- Who is no member is on a list only if it is right. -/
theorem right_of_not_member (h : s.Inv C H) (hlink : (s.db.roleLinks.get? a.1).isSome = true)
    (hmember : a.2 ∉ s.world.members a.1.1) : s.world.users a = false := by
  have hright := (h.lists a hlink).resolve_right fun hway => hmember hway.1
  rw [hright, deserves_of_not_member hmember]

/-- The ledger of the runs does not see the dates and the jobs. -/
theorem kept_setDates {owed : List RequestRun} (h : (withRequests s owed).Kept)
    (localToday : String → Calendar.Date) (localDate : String → Except Sql.Error Calendar.Date)
    (requests : List RequestRun) :
    (withRequests (setDates s localToday localDate) requests).Kept where
  held := h.held
  dispatched := h.dispatched
  ledger := by
    obtain ⟨φ, owed, hinv⟩ := h.ledger
    exact ⟨φ, owed, hinv.follows, hinv.rest, hinv.owed, hinv.staged, hinv.apart⟩
  tasks := h.tasks
  owned := h.owned

/-- When the dates change, every link is due. -/
theorem inv_dates (h : c.indebted.Inv C H) {localToday : String → Calendar.Date}
    {localDate : String → Except Sql.Error Calendar.Date}
    (hdates : ∀ row : BirthdayRow, row.Saved C → localDate row.tz = .ok (localToday row.tz))
    (hc' : c' = { c with
      service := setDates c.service localToday localDate
      due := c.service.db.roleLinks.rows.map RoleLink.key })
    (hroom : c'.world.HasRoom C) : c'.indebted.Inv C H := by
  subst hc'
  refine ⟨kept_setDates h.kept localToday localDate _,
    ⟨h.proper.saved, h.proper.stored, hdates, h.proper.regex, hroom⟩, fun q hq => ?_, fun a hlink => ?_⟩
  · rcases List.mem_append.mp hq with hq | hq
    · obtain ⟨link, -, rfl⟩ := List.mem_map.mp hq
      exact .enqueueConfig
    · exact h.stages q (List.mem_append_right _ hq)
  · have hlink' : (c.service.db.roleLinks.get? a.1).isSome = true := hlink
    by_cases hmember : a.2 ∈ c.world.members a.1.1
    · obtain ⟨l, hl⟩ := Option.isSome_iff_exists.mp hlink'
      obtain ⟨hrow, hkey⟩ := Table.get?_eq_some.mp hl
      exact Or.inr (onItsWay_due hmember (List.mem_map.mpr ⟨l, hrow, hkey⟩))
    · have hlist : c.world.users a = false :=
        right_of_not_member (s := c.indebted) h hlink' hmember
      have hmember' : a.2 ∉ (setDates c.service localToday localDate).world.members a.1.1 := hmember
      left
      show c.world.users a = World.deserves C (setDates c.service localToday localDate).world a
      rw [hlist, deserves_of_not_member hmember']

/-- The statement of a tick leaves nothing due for its link. -/
theorem inv_enqueue (h : c.indebted.Inv C H) (now : Time) (link : LinkKey) (ticks : List (List LinkKey))
    (hc' : c' = ⟨enqueueUnique c.service now link, ticks, c.due.filter fun k => k ≠ link⟩)
    (hroom : c'.world.HasRoom C) : c'.indebted.Inv C H := by
  subst hc'
  have hjobs : ∀ id row, c.service.db.jobs.get? id = some row →
      (c.service.db.jobs.enqueueConfigSyncUnique now link.1 link.2).get? id = some row :=
    fun _ _ hrow => Jobs.get?_enqueueConfigSyncUnique now link hrow
  refine ⟨h.kept.setDb _ hjobs, ⟨h.proper.saved, h.proper.stored, h.proper.dates, h.proper.regex, hroom⟩,
    fun q hq => ?_, fun a hlink => ?_⟩
  · rcases List.mem_append.mp hq with hq | hq
    · obtain ⟨link, -, rfl⟩ := List.mem_map.mp hq
      exact .enqueueConfig
    · exact h.stages q (List.mem_append_right _ hq)
  have hlink' : (c.service.db.roleLinks.get? a.1).isSome = true := hlink
  have hsame : World.Alike a c.world (enqueueUnique c.service now link).world :=
    ⟨rfl, rfl, rfl, rfl, rfl, rfl⟩
  by_cases ha : a.1 = link
  · by_cases hmember : a.2 ∈ c.world.members a.1.1
    · -- the job is pending now
      obtain ⟨id, row, hrow, hpending, hsyncs⟩ :=
        c.service.db.jobs.enqueueConfigSyncUnique_pending now link
      refine Or.inr ⟨hmember, Or.inl (Or.inr (Or.inl ⟨id, row, hrow, hpending, ?_⟩))⟩
      exact ⟨.roleLink link, JobRow.syncsLink_task hsyncs, ha.symm⟩
    · have hlist : c.world.users a = false :=
        right_of_not_member (s := c.indebted) h hlink' hmember
      have hmember' : a.2 ∉ (enqueueUnique c.service now link).world.members a.1.1 := hmember
      left
      show c.world.users a = World.deserves C (enqueueUnique c.service now link).world a
      rw [hlist, deserves_of_not_member hmember']
  · refine Service.lists_alike (h.lists a hlink') hsame rfl (fun _ hcoming => Or.inl ?_)
      fun j hj => ⟨j, hj.alike hsame rfl⟩
    rcases hcoming with ⟨q, hq, hbound⟩ | ⟨id, row, hrow, hrest⟩ | hheld
    · refine Or.inl ⟨q, ?_, hbound⟩
      rcases List.mem_append.mp hq with hq | hq
      · obtain ⟨k, hk, rfl⟩ := List.mem_map.mp hq
        have hk' : k ≠ link := fun he => ha ((boundFor_debt hlink' hbound).trans he)
        exact List.mem_append_left _ (List.mem_map_of_mem (List.mem_filter.mpr
          ⟨hk, decide_eq_true hk'⟩))
      · exact List.mem_append_right _ hq
    · exact Or.inr (Or.inl ⟨id, row, hjobs _ _ hrow, hrest⟩)
    · exact Or.inr (Or.inr hheld)

theorem inv_step {l : Label} (h : c.indebted.Inv C H) (hstep : Step C K state H c l c')
    (hin : c.Holds C H l c') : c'.indebted.Inv C H := by
  obtain ⟨hin, hroom⟩ := hin
  cases hstep with
  | service hstep => exact h.step (step_withRequests _ hstep) (inTime_indebted hin) hroom
  | dates localToday localDate hdates => exact inv_dates h hdates rfl hroom
  | select hlinks => exact h
  | enqueue now hi => exact inv_enqueue h now _ _ rfl hroom

/-! ### What a tick comes to -/

/-- No step adds or removes a link. -/
theorem link_service {l : Service.Label} (h : s.Inv C H) (hstep : Service.Step C K state H s l s')
    {link : LinkKey} (hlink : (s.db.roleLinks.get? link).isSome = true) :
    (s'.db.roleLinks.get? link).isSome = true := by
  cases hstep with
  | arrive | claim | dispatch | complete => exact hlink
  | @request i q q' db hi hn =>
    have heffect := ((h.stages q (List.mem_of_getElem? hi)).next hn).2
    show (db.roleLinks.get? link).isSome = true
    cases heffect with
    | reads | enqueue | upsert | delete => exact hlink
    | @update now key l raw tree hl =>
      show (Table.get? (s.db.roleLinks.put _) link).isSome = true
      rw [Table.get?_put]
      split
      · rfl
      · exact hlink
  | @run l p hrun =>
    cases hrun with
    | drift hd => exact hd.elim
    | spawn ht => exact ht.elim
    | @call i parent c k r w hi hr =>
      obtain ⟨⟨-, rfl⟩, v, rfl⟩ := hr
      obtain ⟨φ, ψ, hm, -⟩ := h.kept.moves hi v
      show ((s.world.after c v).db.roleLinks.get? link).isSome = true
      rw [(hm.sameInputs s.world).roleLinks]
      exact hlink
    | start => exact hlink

/-- A link that is due is there. -/
def DueLinked (c : Clocked) : Prop := ∀ k ∈ c.due, (c.service.db.roleLinks.get? k).isSome = true

theorem dueLinked_step {l : Label} (h : c.indebted.Inv C H) (hstep : Step C K state H c l c')
    (hdue : c.DueLinked) : c'.DueLinked := by
  intro k hk
  cases hstep with
  | service hstep =>
    exact link_service h (step_withRequests (c.due.map debt) hstep) (hdue k hk)
  | dates =>
    obtain ⟨l, hl, rfl⟩ := List.mem_map.mp hk
    exact Option.isSome_iff_exists.mpr ⟨l, Table.get?_eq_some.mpr ⟨hl, rfl⟩⟩
  | select => exact hdue k hk
  | enqueue => exact hdue k (List.mem_filter.mp hk).1

/-- What is due, the tick still has to come to. -/
def LeftTo (n : ℕ) (c : Clocked) : Prop := ∃ rest, c.ticks[n]? = some rest ∧ ∀ k ∈ c.due, k ∈ rest

theorem leftTo_step {n : ℕ} {l : Label} (hstep : Step C K state H c l c') (hl : l ≠ .dates)
    (h : c.LeftTo n) : c'.LeftTo n := by
  obtain ⟨rest, hn, hdue⟩ := h
  cases hstep with
  | service => exact ⟨rest, hn, hdue⟩
  | dates => exact absurd rfl hl
  | select =>
    refine ⟨rest, ?_, hdue⟩
    rw [List.getElem?_append_left (List.getElem?_eq_some_iff.mp hn).1, hn]
  | @enqueue i link rest' now hi =>
    by_cases hni : i = n
    · subst hni
      rw [hn, Option.some.injEq] at hi
      subst hi
      refine ⟨rest', ?_, fun k hk => ?_⟩
      · exact List.getElem?_set_self (List.getElem?_eq_some_iff.mp hn).1
      · obtain ⟨hk, hne⟩ := List.mem_filter.mp hk
        exact (List.mem_cons.mp (hdue k hk)).resolve_left (of_decide_eq_true hne)
    · refine ⟨rest, ?_, fun k hk => hdue k (List.mem_filter.mp hk).1⟩
      rw [List.getElem?_set_ne hni, hn]

/-! ### A whole run -/

theorem run_inv {w : World} (hproper : w.Proper C) (hright : Service.Right C w)
    (hrun : Run C K state H (Holds C H) (start w) c) : c.indebted.Inv C H ∧ c.DueLinked := by
  induction hrun with
  | refl =>
    have hstart : Service.Run C K state H (Service.Holds C H) w (Service.start w) := .refl
    exact ⟨Service.run_inv hproper hright hstart, fun k hk => absurd hk List.not_mem_nil⟩
  | tail _ hstep hP ih => exact ⟨inv_step ih.1 hstep hP, dueLinked_step ih.1 hstep ih.2⟩

theorem run_leftTo {n : ℕ} {c₂ : Clocked} (h : c₂.indebted.Inv C H) (hleft : c₂.LeftTo n)
    (hrun : Run C K state H (fun c l c' => c.Holds C H l c' ∧ l ≠ .dates) c₂ c) :
    c.indebted.Inv C H ∧ c.LeftTo n := by
  induction hrun with
  | refl => exact ⟨h, hleft⟩
  | tail _ hstep hP ih => exact ⟨inv_step ih.1 hstep hP.1, leftTo_step hstep hP.2 ih.2⟩

/-- In a run that starts with lists that are right, and whose steps are all in time and below the
user limits, however often the dates change: once a tick that began after the last change is
through and nothing is in progress, the list of every link is exactly the members whose stored
birthday satisfies the stored rule on the dates there are then. -/
theorem lists_follow_dates (C : Crates) (K : TokenCrates) (state : AppState) (H : HttpCrates)
    {w : World} (hproper : w.Proper C) (hright : Service.Right C w) {c₁ c₂ c₃ : Clocked}
    (hbefore : Run C K state H (Holds C H) (start w) c₁) (hselect : Step C K state H c₁ .select c₂)
    (hafter : Run C K state H (fun c l c' => c.Holds C H l c' ∧ l ≠ .dates) c₂ c₃)
    (hthrough : c₃.ticks[c₁.ticks.length]? = some []) (hquiet : c₃.service.Quiescent) :
    Service.Right C c₃.world := by
  obtain ⟨hinv₁, hdue₁⟩ := run_inv hproper hright hbefore
  have hinv₂ : c₂.indebted.Inv C H := by
    cases hselect
    exact hinv₁
  have hleft₂ : c₂.LeftTo c₁.ticks.length := by
    cases hselect with
    | @select links hlinks =>
      refine ⟨links, List.getElem?_concat_length, fun k hk => ?_⟩
      obtain ⟨l, hl⟩ := Option.isSome_iff_exists.mp (hdue₁ k hk)
      obtain ⟨hrow, hkey⟩ := Table.get?_eq_some.mp hl
      exact hlinks.mem_iff.mpr (List.mem_map.mpr ⟨l, hrow, hkey⟩)
  obtain ⟨hinv₃, rest, hrest, hdue₃⟩ := run_leftTo hinv₂ hleft₂ hafter
  -- nothing is left to the tick, so nothing is due
  rw [hthrough, Option.some.injEq] at hrest
  subst hrest
  have hnone : c₃.due = [] := List.eq_nil_iff_forall_not_mem.mpr fun k hk =>
    absurd (hdue₃ k hk) List.not_mem_nil
  have hplain : c₃.indebted = c₃.service := by
    unfold indebted withRequests
    rw [hnone]
    rfl
  rw [hplain] at hinv₃
  exact Service.right_iff.mpr fun a hlink =>
    (hinv₃.lists a hlink).resolve_right (hinv₃.nothing_on_its_way hquiet a)

end

/-! ### The first of August -/

section August

/-- A rule for those whose birthday it is. -/
def todayTree : RuleTree := ⟨false, [⟨[⟨.isBirthdayToday, .eq, .bool true, none⟩]⟩]⟩

def aug1 : Calendar.Date := ⟨2024, 8, 1, by decide⟩

/-- A member born on 1 August, on a day. -/
def augustWorld (today : Calendar.Date) (db : Database) (lists : LinkKey → Finset String) : World :=
  { pairWorld lists with
    db := db
    localToday := fun _ => today
    postgres := .ascii today }

def augustDb (jobs : Jobs) : Database :=
  { Database.empty with
    roleLinks := (∅ : RoleLinks).put ⟨"g", "r", "t", todayTree.toValue, 2, 0⟩
    birthdays := (∅ : Birthdays).put Service.soloRow
    jobs := jobs }

def augustJobs : Jobs := Jobs.empty.enqueueConfigSyncUnique 0 "g" "r"

/-- The same once a worker has the job. -/
def augustClaimed : Jobs := (augustJobs.claimBatch 0 "worker-0" batchSize fun _ => false).1

def augustJob : Job := ⟨1, "config_sync", Jobs.configSyncPayload "g" "r", 1, 8⟩

theorem augustWorld_hasRoom {today : Calendar.Date} {db : Database} (lists : LinkKey → Finset String)
    (h : db.birthdays.rows.length ≤ 1) : (augustWorld today db lists).HasRoom .ascii := by
  intro link l _
  refine le_trans ?_ h
  unfold World.satisfying
  rw [List.length_insertionSort, List.length_map]
  exact List.length_filter_le _ _

theorem august_link {jobs : Jobs} {link : LinkKey}
    (h : ((augustDb jobs).roleLinks.get? link).isSome = true) : link = pairLink := by
  by_contra hne
  have hnone : (augustDb jobs).roleLinks.get? link = none := Table.get?_put_ne _ hne
  rw [hnone] at h
  cases h

theorem august_dates (today : Calendar.Date) {row : BirthdayRow} (hrow : row.Saved .ascii) :
    (Postgres.ascii today).localDate row.tz = .ok today := by
  have hutc : row.tz = "UTC" := by
    rcases hrow.valid.tz with h | ⟨s, hs⟩
    · exact h
    · simp only [Crates.ascii] at hs
      split at hs
      · cases hs
        assumption
      · cases hs
  rw [hutc]
  rfl

theorem augustWorld_proper :
    (augustWorld (janFirst 2024) (augustDb .empty) fun _ => ∅).Proper .ascii where
  saved row hrow := by
    rw [List.mem_singleton.mp hrow]
    exact ⟨2024, 0, "1", "a", Service.soloBody, by rfl⟩
  stored link l hl := by
    obtain rfl := august_link (Option.isSome_iff_exists.mpr ⟨l, hl⟩)
    cases hl
    refine ⟨todayTree, Or.inr ⟨⟨false, [⟨[⟨"is_birthday_today", "eq", .bool true, none⟩]⟩]⟩, rfl, rfl⟩⟩
  dates row hrow := august_dates _ hrow
  regex := sameRegex_ascii _
  room := augustWorld_hasRoom _ (by decide)

theorem augustWorld_right :
    Service.Right .ascii (augustWorld (janFirst 2024) (augustDb .empty) fun _ => ∅) := by
  intro link l hl
  obtain rfl := august_link (Option.isSome_iff_exists.mpr ⟨l, hl⟩)
  cases hl
  decide

/-- On the day the member deserves the role, and nobody else does. -/
theorem august_deserves (jobs : Jobs) (lists : LinkKey → Finset String) (d : String) :
    (augustWorld aug1 (augustDb jobs) lists).deserves .ascii (pairLink, d) = decide (d = "1") := by
  have hl : (augustDb jobs).roleLinks.get? pairLink =
    some ⟨"g", "r", "t", todayTree.toValue, 2, 0⟩ := rfl
  rw [Bool.eq_iff_iff, deserves_iff hl, decide_eq_true_iff]
  have hone : (augustWorld aug1 (augustDb .empty) fun _ => ∅).satisfying .ascii pairLink
      (ruleTreeOf todayTree.toValue) = ["1"] := by decide
  have hone : (augustWorld aug1 (augustDb jobs) lists).satisfying .ascii pairLink
      (ruleTreeOf todayTree.toValue) = ["1"] := hone
  rw [hone, List.mem_singleton]

/-- The query of the run on the day. -/
theorem august_qualifying : (qualifyingQuery todayTree ["1", "2"] ⟨1, one_lt_usize⟩).Answers
    (.ascii aug1) [Service.soloRow] ["1"] := by
  refine ⟨by decide, by decide, fun _ => true, fun row hrow => ⟨.bool true, ?_, fun _ => rfl,
    fun _ => rfl⟩, rfl⟩
  rw [List.mem_singleton.mp hrow]
  decide

theorem august_memberIds (jobs : Jobs) (lists : LinkKey → Finset String) :
    World.faultless pairHttp (.guildMemberIds "g") (augustWorld aug1 (augustDb jobs) lists)
      (.ok ["1", "2"]) (augustWorld aug1 (augustDb jobs) lists) := by
  refine ⟨⟨⟨.replied 200 (.ok memberIdsBody), rfl, ?_⟩, rfl⟩, _, rfl⟩
  rintro _ ⟨⟩ d
  exact Iff.rfl

/-- A call of a thread. -/
theorem Run.call {C : Crates} {K : TokenCrates} {state : AppState} {H : HttpCrates}
    {P : Clocked → Label → Clocked → Prop} {c₀ c : Clocked} (h : Run C K state H P c₀ c)
    {w' : World} {i : ℕ} {parent : Option ℕ} {op : SyncCall} {v : op.Result}
    {k : Except AppError op.Result → Sync (List SyncTask)}
    (hi : c.service.pool.threads[i]? = some ⟨parent, .call op k⟩)
    (hans : World.faultless H op c.world (.ok v) w')
    (hP : ∀ c', c'.world = w' → P c (.service (.run (.call i ⟨op, .ok v⟩))) c') :
    Run C K state H P c₀ { c with
      service := { c.service with pool := c.service.pool.update w' i parent (k (.ok v)) } } :=
  h.tail (.service (.run (.call hi hans))) (hP _ rfl)

/-- The list with the member. -/
def augustList : LinkKey → Finset String :=
  ((augustWorld aug1 (augustDb .empty) fun _ => ∅).roleLogic.after pairLink (.replaceUsers ["1"])
    ⟨0, zero_lt_usize⟩).lists

/-- The first of August comes, and a tick; its job puts the member on the list. -/
theorem lists_follow_dates_august : ∃ c : Clocked,
    c.world.localToday = (fun _ => aug1) ∧ c.world.roleLogic.lists pairLink = {"1"} ∧
      Service.Right .ascii c.world := by
  let K := BirthdayWrites.exampleCrates
  let state := BirthdayWrites.exampleState
  let w : World := augustWorld (janFirst 2024) (augustDb .empty) fun _ => ∅
  let nobody : LinkKey → Finset String := fun _ => ∅
  let c1 : Clocked :=
    ⟨⟨⟨augustWorld aug1 (augustDb .empty) nobody, []⟩, [], [], fun _ => none⟩, [], [pairLink]⟩
  let c2 : Clocked := ⟨c1.service, [[pairLink]], [pairLink]⟩
  let c3 : Clocked :=
    ⟨⟨⟨augustWorld aug1 (augustDb augustJobs) nobody, []⟩, [], [], fun _ => none⟩, [[]], []⟩
  let c4 : Clocked := ⟨⟨⟨augustWorld aug1 (augustDb augustClaimed) nobody, []⟩, [],
    [⟨"worker-0", augustJob⟩], fun _ => none⟩, [[]], []⟩
  let P : Clocked → Label → Clocked → Prop := fun c l c' => c.Holds .ascii pairHttp l c' ∧ l ≠ .dates
  have hroom : ∀ {c : Clocked} (db : Database) (lists : LinkKey → Finset String),
      c.world = augustWorld aug1 db lists → db.birthdays.rows.length ≤ 1 →
      c.world.HasRoom .ascii := by
    intro c db lists hw hlen
    rw [hw]
    exact augustWorld_hasRoom lists hlen
  have hrows : ((∅ : Birthdays).put Service.soloRow).rows.length ≤ 1 := by decide
  have hone : ∀ jobs, (augustDb jobs).birthdays.rows.length ≤ 1 := fun _ => hrows
  have h1 : Run .ascii K state pairHttp (Holds .ascii pairHttp) (start w) c1 :=
    Run.refl.tail (.dates (fun _ => aug1) (Postgres.ascii aug1).localDate
      fun _ hrow => august_dates aug1 hrow) ⟨trivial, hroom _ _ rfl (hone .empty)⟩
  have hselect : Step .ascii K state pairHttp c1 .select c2 := .select (List.Perm.refl _)
  have henqueue : Step .ascii K state pairHttp c2 (.enqueue 0) c3 :=
    @Step.enqueue _ _ _ _ c2 0 pairLink [] 0 rfl
  have h3 : Run .ascii K state pairHttp P c2 c3 :=
    Run.refl.tail henqueue ⟨⟨trivial, hroom _ _ rfl (hone _)⟩, fun h => by cases h⟩
  have h4 : Run .ascii K state pairHttp P c2 c4 :=
    h3.tail (.service (.claim 0 "worker-0" (fun _ => false) fun h hh => absurd hh List.not_mem_nil))
      ⟨⟨trivial, hroom _ _ rfl (hone _)⟩, fun h => by cases h⟩
  have h5 := h4.tail (P := P) (.service (.dispatch (t := .roleLink pairLink) List.mem_cons_self
    (fun _ _ _ => rfl) rfl)) ⟨⟨trivial, hroom _ _ rfl (hone _)⟩, fun h => by cases h⟩
  -- a call that neither writes a list nor reads a row
  have hreads : ∀ {c c' : Clocked} {e : SyncEvent},
      c'.world = augustWorld aug1 (augustDb augustClaimed) nobody →
      (∀ a, e.op.written c.world a = none) → (∀ a, rowReported a e = none) →
      P c (.service (.run (.call 0 e))) c' :=
    fun hw hwritten hreported => ⟨⟨fun a _ => Or.inr (Or.inl (.of_reads (hwritten a) (hreported a))),
      hroom _ nobody hw (hone _)⟩, fun h => by cases h⟩
  have h6 := h5.call (i := 0) rfl
    (World.faultless_read (s := .selectLink pairLink) (some ("t", todayTree.toValue)) trivial rfl)
    fun c' hc' => hreads hc' (fun _ => rfl) fun _ => rfl
  have h7 := h6.call (i := 0) rfl (august_memberIds _ nobody)
    fun c' hc' => hreads hc' (fun _ => rfl) fun _ => rfl
  have h8 := h7.call (i := 0) rfl (World.faultless_roleLogic (c := .getUserInfo)
    (.replied 200 (.ok userInfoBody)) rfl (by rintro _ ⟨⟩; rfl))
    fun c' hc' => hreads hc' (fun _ => rfl) fun _ => rfl
  have h9 := h8.call (i := 0) rfl
    (World.faultless_read (s := .selectQualifying _) ["1"] trivial august_qualifying)
    fun c' hc' => hreads hc' (fun _ => rfl) fun _ => rfl
  have h10 := h9.call (i := 0) rfl (World.faultless_read (s := .selectCurrent pairLink) [] trivial rfl)
    fun c' hc' => by
      refine ⟨⟨fun a ha => Or.inr (Or.inl ⟨fun b hb => ?_, fun hreported => ?_⟩), ?_⟩, fun h => by cases h⟩
      · cases hb
      · obtain ⟨link, d⟩ := a
        obtain rfl := august_link ha
        have hreported : some (decide (d ∈ ([] : List String))) =
            some ((augustWorld aug1 (augustDb augustClaimed) nobody).deserves .ascii
              (pairLink, d)) :=
          hreported
        rw [august_deserves] at hreported
        show false = (augustWorld aug1 (augustDb augustClaimed) nobody).deserves .ascii (pairLink, d)
        rw [august_deserves]
        exact Option.some.inj hreported
      · exact hroom _ nobody hc' (hone _)
  have h11 := h10.call (i := 0) rfl (World.faultless_roleLogic (c := .replaceUsers ["1"])
    (.replied 200 (.ok emptyBody)) rfl trivial) fun c' hc' => by
      refine ⟨⟨fun a ha => Or.inr (Or.inl ⟨fun b hb => ?_, fun hreported => ?_⟩), ?_⟩, fun h => by cases h⟩
      · obtain ⟨link, d⟩ := a
        obtain rfl := august_link ha
        show b = (augustWorld aug1 (augustDb augustClaimed) nobody).deserves .ascii (pairLink, d)
        rw [august_deserves]
        have hb : (if pairLink = pairLink then some (decide (d ∈ ["1"])) else none) = some b := hb
        rw [if_pos rfl, Option.some.injEq] at hb
        rw [← hb]
        simp
      · cases hreported
      · exact hroom _ augustList hc' (hone _)
  have h12 := h11.call (i := 0) rfl (World.faultless_db (s := .rewriteAssignments pairLink ["1"])
    (v := ()) ⟨by decide, Or.inr rfl⟩) fun c' hc' => by
      refine ⟨⟨fun a _ => Or.inr (Or.inl (.of_reads rfl rfl)), ?_⟩, fun h => by cases h⟩
      exact hroom ((augustDb augustClaimed).rewriteAssignments pairLink ["1"]) augustList hc'
        (hone augustClaimed)
  let last : Clocked := ⟨⟨⟨augustWorld aug1 ({ augustDb augustClaimed with
      jobs := augustClaimed.complete 0 1 }.rewriteAssignments pairLink ["1"]) augustList,
    [⟨none, .done (.ok [])⟩]⟩, [], [], Function.update (fun _ => none) 1 (some 0)⟩, [[]], []⟩
  have h13 : Run .ascii K state pairHttp P c2 last :=
    h12.tail (.service (.complete (h := ⟨"worker-0", augustJob⟩) (i := 0) 0 List.mem_cons_self rfl rfl
      (.of_all (by decide) 0)))
      ⟨⟨trivial, hroom _ augustList rfl (hone augustClaimed)⟩, fun h => by cases h⟩
  have hquiet : last.service.Quiescent := by
    refine ⟨fun q hq => absurd hq List.not_mem_nil, ?_⟩
    show ∀ row ∈ (augustClaimed.complete 0 1).table.rows, row.status = .completed ∨ row.status = .dead
    decide
  have hlist : augustList pairLink = {"1"} := by decide
  exact ⟨last, rfl, hlist, lists_follow_dates .ascii K state pairHttp augustWorld_proper augustWorld_right
    h1 hselect h13 rfl hquiet⟩

end August

end Clocked

end BirthdayRole
