/-
# Lists that are right once nothing is in progress

As long as no call fails, the list of every link is right at every place to which no
change is on its way (`Inv.lists`), so it is right altogether once nothing is in progress
(`quiescent_lists`).

That holds for every run in which the runs of the jobs are not overtaken (`InTime`). Two
things break it: a write that was planned before the last change lands after it, when
nothing else is on its way; or a row that lags behind the list is read as if nothing were
left to do. Either leaves a list wrong (`wrong_of_not_inTime`), and both can happen: a
member who removes their birthday may end up on the list (`unlink_overtaken`).
-/
import BirthdayRole.OnItsWay

namespace BirthdayRole

open Prog

namespace Service

section

variable {C : Crates} {K : TokenCrates} {state : AppState} {H : HttpCrates} {s s' : Service} {a : Place}

/-! ### A whole run -/

/-- One step that is in time. -/
theorem Inv.step {l : Label} (h : s.Inv C H) (hstep : Step C K state H s l s') (hin : s.InTime C H l)
    (hroom : s'.world.HasRoom C) : s'.Inv C H := by
  have hkept := h.kept.step hstep h.stages
  have hrunning : ∀ a : Place, s'.pool.threads = s.pool.threads → World.Alike a s.world s'.world →
      ∀ j, s.Running C H a j → ∃ j', s'.Running C H a j' :=
    fun a hthreads hsame j hj => ⟨j, hj.alike hsame (by rw [hthreads])⟩
  cases hstep with
  | arrive arrival =>
    refine ⟨hkept, h.proper, fun q hq => ?_, fun a hlink => ?_⟩
    · rcases List.mem_append.mp hq with hq | hq
      · exact h.stages q hq
      · rw [List.mem_singleton.mp hq]
        exact RequestRun.begin_stage arrival
    · refine lists_alike (h.lists a hlink) (.refl a s.world) rfl (fun _ hc => Or.inl ?_)
        (hrunning a rfl (.refl a s.world))
      rcases hc with ⟨q, hq, hbound⟩ | hc
      · exact Or.inl ⟨q, List.mem_append_left _ hq, hbound⟩
      · exact Or.inr hc
  | @request i q q' db hi hn =>
    obtain ⟨hstage, heffect⟩ := (h.stages q (List.mem_of_getElem? hi)).next hn
    refine ⟨hkept, effect_proper heffect h.proper rfl rfl rfl hroom, fun p hp => ?_,
      fun a hlink => h.lists_request hi hn hlink⟩
    rcases List.mem_or_eq_of_mem_set hp with hp | rfl
    · exact h.stages p hp
    · exact hstage
  | claim now worker locked hidle =>
    refine ⟨hkept, ⟨h.proper.saved, h.proper.stored, h.proper.dates, h.proper.regex, hroom⟩, h.stages,
      fun a hlink => ?_⟩
    have hsame : World.Alike a s.world { s.world with
        db := { s.db with jobs := (s.db.jobs.claimBatch now worker batchSize locked).1 } } :=
      ⟨rfl, rfl, rfl, rfl, rfl, rfl⟩
    exact lists_alike (h.lists a hlink) hsame rfl
      (fun _ hc => Or.inl (coming_claim h.kept now worker locked hc)) (hrunning a rfl hsame)
  | @dispatch x t hx hnone htask =>
    refine ⟨hkept, h.proper, h.stages, fun a hlink => ?_⟩
    refine lists_alike (h.lists a hlink) (.refl a s.world) rfl
      (fun hmember hc => coming_dispatch h hx htask hlink hmember rfl hc) fun j hj => ?_
    obtain ⟨th, hth, hbound⟩ := hj
    exact ⟨j, th, Pool.getElem?_add_of_some hth _ _, hbound⟩
  | @complete x i parent now hx hi hend hover =>
    refine ⟨hkept, ⟨h.proper.saved, h.proper.stored, h.proper.dates, h.proper.regex, hroom⟩, h.stages,
      fun a hlink => ?_⟩
    have hsame : World.Alike a s.world
        { s.world with db := { s.db with jobs := s.db.jobs.complete now x.job.id } } :=
      ⟨rfl, rfl, rfl, rfl, rfl, rfl⟩
    exact lists_alike (h.lists a hlink) hsame rfl
      (fun _ hc => Or.inl (coming_complete h.kept hx hi now hc)) (hrunning a rfl hsame)
  | @run l p hrun =>
    cases hrun with
    | drift hd => exact hd.elim
    | spawn ht => exact ht.elim
    | @call i parent c k r w hi hr =>
      obtain ⟨⟨hans, rfl⟩, v, rfl⟩ := hr
      obtain ⟨φ, ψ, hm, -⟩ := h.kept.moves hi v
      have hinputs := hm.sameInputs s.world
      refine ⟨hkept, ⟨fun row hrow => ?_, fun link l hl => ?_, ?_, ?_, hroom⟩, h.stages,
        fun a hlink => ?_⟩
      · have hsame : s.world.db.birthdays = _ := hinputs.birthdays.symm
        exact h.proper.saved row (by rw [hsame]; exact hrow)
      · have hsame : s.world.db.roleLinks = _ := hinputs.roleLinks.symm
        exact h.proper.stored link l (by rw [hsame]; exact hl)
      · show ∀ row : BirthdayRow, row.Saved C →
          (s.world.after c v).postgres.localDate row.tz = .ok ((s.world.after c v).localToday row.tz)
        rw [hinputs.postgres, hinputs.localToday]
        exact h.proper.dates
      · show SameRegex C (s.world.after c v).postgres.regex
        rw [hinputs.postgres]
        exact h.proper.regex
      · refine h.lists_call hi ⟨⟨hans, rfl⟩, v, rfl⟩ (hin a ?_) rfl hlink
        rw [show s.db.roleLinks = _ from hinputs.roleLinks.symm]
        exact hlink
    | @start i parent t ts hi hlimit =>
      refine ⟨hkept, h.proper, h.stages, fun a hlink => ?_⟩
      exact lists_alike (h.lists a hlink) (.refl a s.world) rfl (fun _ hc => Or.inl hc)
        fun j hj => hj.start hi rfl

/-- A call that reads a row writes no list. -/
theorem written_of_reported {e : SyncEvent} {b : Bool} (h : rowReported a e = some b) (w : World) :
    e.op.written w a = none := by
  obtain ⟨c, r⟩ := e
  cases c with
  | db => rfl
  | userGuildIds | guildMemberIds | localToday | roleLogic => cases h

/-- A step that is not in time leaves a list wrong, with nothing else on its way to the place. -/
theorem wrong_of_not_inTime {i : ℕ} {e : SyncEvent} (h : s.Kept)
    (hstep : Step C K state H s (.run (.call i e)) s') (hnot : ¬s.InTime C H (.run (.call i e))) :
    ∃ a : Place, (s'.db.roleLinks.get? a.1).isSome = true ∧
      s'.world.users a ≠ s'.world.deserves C a ∧ ¬s.OnItsWay C H (fun j => j ≠ i) a := by
  have hnot : ¬∀ a : Place, (s.db.roleLinks.get? a.1).isSome = true →
      s.OnItsWay C H (fun j => j ≠ i) a ∨ Current C s.world a e := hnot
  push Not at hnot
  obtain ⟨a, hlink, hothers, hcurrent⟩ := hnot
  cases hstep with
  | run hrun =>
    cases hrun with
    | @call _ parent c k r w hi hr =>
      obtain ⟨⟨-, rfl⟩, v, rfl⟩ := hr
      obtain ⟨φ, ψ, hm, -⟩ := h.moves hi v
      have hinputs := hm.sameInputs s.world
      have hdeserves : (s.world.after c v).deserves C a = s.world.deserves C a :=
        (hinputs.alike a).deserves
      refine ⟨a, ?_, fun hright => hcurrent ⟨fun b hb => ?_, fun hreported => ?_⟩, hothers⟩
      · show ((s.world.after c v).db.roleLinks.get? a.1).isSome = true
        rw [hinputs.roleLinks]
        exact hlink
      · have hright : (s.world.after c v).users a = (s.world.after c v).deserves C a := hright
        rw [users_after, hb, Option.getD_some, hdeserves] at hright
        exact hright
      · have hright : (s.world.after c v).users a = (s.world.after c v).deserves C a := hright
        rw [users_after, written_of_reported hreported, Option.getD_none, hdeserves] at hright
        exact hright

/-- Nothing is on its way where nothing is in progress. -/
theorem Inv.nothing_on_its_way (h : s.Inv C H) (hquiet : s.Quiescent) (a : Place) :
    ¬s.OnItsWay C H (fun _ => True) a := by
  have hnothing : ∀ x ∈ s.held, False := by
    intro x hx
    obtain ⟨row, hrow, hstatus, -⟩ := h.kept.held x hx
    rcases hquiet.2 row (Table.get?_eq_some.mp hrow).1 with hended | hended <;>
      · rw [hstatus] at hended
        cases hended
  rintro ⟨-, (⟨q, hq, hbound⟩ | ⟨id, row, hrow, hpending, -⟩ | ⟨x, hx, -⟩) | ⟨j, -, th, hth, hbound⟩⟩
  · have hfinished := hquiet.1 q hq
    cases q with
    | birthday now prog =>
      obtain ⟨x, rfl⟩ := hfinished
      exact hbound
    | config now prog =>
      obtain ⟨x, rfl⟩ := hfinished
      exact hbound
  · rcases hquiet.2 row (Table.get?_eq_some.mp hrow).1 with hended | hended <;>
      · rw [hpending] at hended
        cases hended
  · exact hnothing x hx
  · cases hfinished : th.finished with
    | false =>
      obtain ⟨x, hx, -⟩ := h.kept.owned j th hth hfinished
      exact hnothing x hx
    | true =>
      obtain ⟨parent, prog⟩ := th
      cases prog with
      | call c k => cases hfinished
      | done x =>
        obtain ⟨ts, rfl, t, ht, -⟩ := hbound
        cases ts with
        | nil => exact absurd ht List.not_mem_nil
        | cons => cases hfinished

/-- The steps of a run that is in time, below the user limits. -/
def Holds (C : Crates) (H : HttpCrates) (s : Service) (l : Label) (s' : Service) : Prop :=
  s.InTime C H l ∧ s'.world.HasRoom C

/-- The lists say what the stored rules and birthdays say. -/
def Right (C : Crates) (w : World) : Prop :=
  ∀ link l, w.db.roleLinks.get? link = some l →
    w.roleLogic.lists link = (w.satisfying C link (ruleTreeOf l.ruleTree)).toFinset

theorem right_iff {w : World} : Right C w ↔
    ∀ a : Place, (w.db.roleLinks.get? a.1).isSome = true → w.users a = w.deserves C a := by
  constructor
  · intro h a hlink
    obtain ⟨l, hl⟩ := Option.isSome_iff_exists.mp hlink
    rw [Bool.eq_iff_iff, deserves_iff hl, World.users, decide_eq_true_iff, h a.1 l hl, List.mem_toFinset]
  · intro h link l hl
    ext d
    have hplace := h (link, d) (by rw [hl]; rfl)
    rw [Bool.eq_iff_iff, deserves_iff hl, World.users, decide_eq_true_iff] at hplace
    rw [List.mem_toFinset]
    exact hplace

theorem run_inv {w : World} (hproper : w.Proper C) (hright : Right C w)
    (hrun : Run C K state H (Holds C H) w s) : s.Inv C H := by
  induction hrun with
  | refl =>
    exact ⟨kept_start w, hproper, fun q hq => absurd hq List.not_mem_nil,
      fun a hlink => Or.inl (right_iff.mp hright a hlink)⟩
  | tail _ hstep hin ih => exact ih.step hstep hin.1 hin.2

/-- In every run in which a call is current wherever nothing else is on its way, the list
of every link is exactly the members whose stored birthday satisfies the stored rule
whenever nothing is in progress; who has no birthday is on none. -/
theorem quiescent_lists (C : Crates) (K : TokenCrates) (state : AppState) (H : HttpCrates) {w : World}
    (hproper : w.Proper C) (hright : Right C w) {s : Service}
    (hrun : Run C K state H (Holds C H) w s) (hquiet : s.Quiescent) :
    Right C s.world ∧ ∀ link l discordId, s.db.roleLinks.get? link = some l →
      s.db.birthdays.get? discordId = none → discordId ∉ s.world.roleLogic.lists link := by
  have hinv := run_inv hproper hright hrun
  have hlists : Right C s.world := right_iff.mpr fun a hlink =>
    (hinv.lists a hlink).resolve_right (hinv.nothing_on_its_way hquiet a)
  refine ⟨hlists, fun link l discordId hl hnone hmem => ?_⟩
  rw [hlists link l hl, List.mem_toFinset, mem_satisfying_iff] at hmem
  obtain ⟨-, row, hrow, -⟩ := hmem
  rw [show s.world.db.birthdays = s.db.birthdays from rfl, hnone] at hrow
  cases hrow

/-! ### A guild of one -/

section Solo

open BirthdayWrites

/-- A guild of one, with a link for anyone who added a birthday. -/
def soloWorld (db : Database) (lists : LinkKey → Finset String) : World :=
  { pairWorld lists with
    db := db
    members := fun g => if g = "g" then ["1"] else [] }

/-- Its database. -/
def soloDb (birthdays : Birthdays) (jobs : Jobs) : Database :=
  { Database.empty with
    roleLinks := (∅ : RoleLinks).put ⟨"g", "r", "t", pairRule, 2, 0⟩
    birthdays := birthdays
    jobs := jobs }

def soloRow : BirthdayRow :=
  ⟨"1", some "a", 8, 1, none, "UTC", false, "leo", none, "summer", "peridot", none, 0⟩

def soloBody : SaveBody := ⟨8, 1, none, none, false⟩

/-- A job of the member once it is claimed. -/
def soloJob (id : ℕ) : Job := ⟨id, "player_sync", .object [("discord_id", .string "1")], 1, 8⟩

/-- The job of the save, enqueued. -/
def soloJobs : Jobs := Jobs.empty.enqueuePlayerSync 0 "1"

/-- The same once a worker has it. -/
def soloClaimed : Jobs := (soloJobs.claimBatch 0 "worker-0" batchSize fun _ => false).1

/-- The member on the list. -/
def soloList : LinkKey → Finset String := Function.update (fun _ => ∅) pairLink (insert "1" ∅)

/-- What the run of the member plans. -/
def soloAct : SyncTask := .act "1" (.add pairLink "t")

theorem soloWorld_hasRoom {db : Database} (lists : LinkKey → Finset String)
    (h : db.birthdays.rows.length ≤ 1) : (soloWorld db lists).HasRoom .ascii := by
  intro link l _
  refine le_trans ?_ h
  unfold World.satisfying
  rw [List.length_insertionSort, List.length_map]
  exact List.length_filter_le _ _

theorem solo_link {birthdays : Birthdays} {jobs : Jobs} {link : LinkKey}
    (h : ((soloDb birthdays jobs).roleLinks.get? link).isSome = true) : link = pairLink := by
  by_contra hne
  have hnone : (soloDb birthdays jobs).roleLinks.get? link = none := Table.get?_put_ne _ hne
  rw [hnone] at h
  cases h

theorem soloWorld_proper : (soloWorld (soloDb ∅ .empty) fun _ => ∅).Proper .ascii where
  saved row hrow := absurd hrow List.not_mem_nil
  stored link l hl := by
    have hsome : ((soloDb ∅ .empty).roleLinks.get? link).isSome = true :=
      Option.isSome_iff_exists.mpr ⟨l, hl⟩
    obtain rfl := solo_link hsome
    cases hl
    exact ⟨⟨true, []⟩, Or.inr ⟨⟨true, []⟩, rfl, rfl⟩⟩
  dates row hrow := by
    have hutc : row.tz = "UTC" := by
      rcases hrow.valid.tz with h | ⟨s, hs⟩
      · exact h
      · simp only [Crates.ascii] at hs
        split at hs
        · cases hs
          assumption
        · cases hs
    rw [hutc]
    rfl
  regex := sameRegex_ascii _
  room := soloWorld_hasRoom _ (by decide)

theorem soloWorld_right : Right .ascii (soloWorld (soloDb ∅ .empty) fun _ => ∅) :=
  fun _ _ _ => rfl

theorem solo_saveChecks : saveChecks .ascii exampleCrates exampleState (.silent 0) exampleHeaders
    soloBody = .ok soloRow := by
  obtain ⟨_, horigin, hsession⟩ := Result.bind_ok exampleHeaders_session
  have hrow : verifySaveRow .ascii (Surroundings.silent 0).thisYear (Surroundings.silent 0).now
      "1" "a" soloBody = .ok soloRow := by rfl
  rw [saveChecks, horigin, hsession]
  exact hrow

/-- The member's save, as it arrives. -/
theorem solo_begin : (Arrival.birthday (.silent 0) exampleHeaders (.save soloBody)).begin .ascii
    exampleCrates exampleState = .birthday 0
      (perform (BirthdayStatement.upsert soloRow) >>= fun _ => enqueueAnd "1") := by
  show RequestRun.birthday 0 (handler .ascii exampleCrates exampleState (.silent 0) exampleHeaders
    (.save soloBody)) = _
  rw [handler_save, solo_saveChecks]
  rfl

theorem solo_guildIds (db : Database) (lists : LinkKey → Finset String) :
    World.faultless pairHttp (.userGuildIds "1") (soloWorld db lists) (.ok ["g"])
      (soloWorld db lists) := by
  refine ⟨⟨⟨.replied 200 (.ok guildIdsBody), rfl, ?_⟩, rfl⟩, _, rfl⟩
  intro ids h g
  cases h
  show g ∈ ["g"] ↔ "1" ∈ if g = "g" then ["1"] else []
  by_cases hg : g = "g" <;> simp [hg]

/-- RoleLogic adds the member. -/
theorem solo_add (db : Database) : World.faultless pairHttp
    (.roleLogic pairLink "t" (.addUser "1")) (soloWorld db fun _ => ∅) (.ok false)
    (soloWorld db soloList) :=
  World.faultless_roleLogic (.replied 200 (.ok emptyBody)) rfl fun hfull =>
    absurd hfull (Nat.not_succ_le_zero 0)

/-- A call that neither writes a list nor reads a row. -/
theorem Current.of_reads {w : World} {e : SyncEvent} (hwritten : e.op.written w a = none)
    (hreported : rowReported a e = none) : Current C w a e where
  written b hb := by
    rw [hwritten] at hb
    cases hb
  reported h := by
    rw [hreported] at h
    cases h

theorem Run.mono {P Q : Service → Label → Service → Prop} (hPQ : ∀ s l s', P s l s' → Q s l s')
    {w : World} (h : Run C K state H P w s) : Run C K state H Q w s := by
  induction h with
  | refl => exact .refl
  | tail _ hstep hP ih => exact ih.tail hstep (hPQ _ _ _ hP)

/-- A call of a thread. -/
theorem Run.call {P : Service → Label → Service → Prop} {w w' : World} (h : Run C K state H P w s)
    {i : ℕ} {parent : Option ℕ} {c : SyncCall} {v : c.Result}
    {k : Except AppError c.Result → Sync (List SyncTask)}
    (hi : s.pool.threads[i]? = some ⟨parent, .call c k⟩)
    (hans : World.faultless H c s.world (.ok v) w')
    (hP : ∀ s', s'.world = w' → P s (.run (.call i ⟨c, .ok v⟩)) s') :
    Run C K state H P w { s with pool := s.pool.update w' i parent (k (.ok v)) } :=
  h.tail (.run (.call hi hans)) (hP _ rfl)

/-- Everything in a list of threads has come to its end. -/
theorem Over.of_all {p : SyncPool} (h : ∀ th ∈ p.threads, th.finished = true) (i : ℕ) : Over p i :=
  fun _ th hth _ => h th (List.mem_of_getElem? hth)

abbrev SoloRun (P : Service → Label → Service → Prop) : Service → Prop :=
  Run .ascii exampleCrates exampleState pairHttp P (soloWorld (soloDb ∅ .empty) fun _ => ∅)

/-- The member's save. -/
def soloSaving : RequestRun :=
  .birthday 0 (perform (BirthdayStatement.upsert soloRow) >>= fun _ => enqueueAnd "1")

/-- A request of the member that was answered. -/
def soloSaved : RequestRun := .birthday 0 (.done success)

def soloFirst : HeldJob := ⟨"worker-0", soloJob 1⟩

def soloSecond : HeldJob := ⟨"worker-1", soloJob 2⟩

/-- The run of the member from its last read on. -/
def soloPlan : Sync (List SyncTask) :=
  (query (.selectAssigned "1") >>= fun existing => pure ([(pairLink, "t", pairRule)].filterMap
    (actionFor .ascii (some (computeFacts (fun _ => janFirst 2024) soloRow.input)) existing))) >>=
    fun actions => pure (actions.map (.act "1"))

theorem solo_room {s : Service} {db : Database} {lists : LinkKey → Finset String}
    (hw : s.world = soloWorld db lists) (hlen : db.birthdays.rows.length ≤ 1) :
    s.world.HasRoom .ascii := by
  rw [hw]
  exact soloWorld_hasRoom lists hlen

/-- A call that neither writes a list nor reads a row is in time. -/
theorem holds_read {i : ℕ} {e : SyncEvent} (hroom : s'.world.HasRoom C)
    (hwritten : ∀ a, e.op.written s.world a = none) (hreported : ∀ a, rowReported a e = none) :
    Holds C H s (.run (.call i e)) s' :=
  ⟨fun a _ => Or.inr (.of_reads (hwritten a) (hreported a)), hroom⟩

/-- The member's run, up to its last read. -/
theorem solo_reads {rows : Birthdays} {jobs : Jobs} {i : ℕ}
    (h : SoloRun (Holds .ascii pairHttp) s)
    (hw : s.pool.state = soloWorld (soloDb rows jobs) fun _ => ∅)
    (hi : s.pool.threads[i]? = some ⟨none, SyncTask.body .ascii (.player "1")⟩)
    (hrow : rows.get? "1" = some soloRow) (hlen : rows.rows.length ≤ 1) :
    SoloRun (Holds .ascii pairHttp)
      { s with pool := s.pool.update (soloWorld (soloDb rows jobs) fun _ => ∅) i none soloPlan } := by
  let w := soloWorld (soloDb rows jobs) fun _ => ∅
  have hthread : ∀ prog, (s.pool.update w i none prog).threads[i]? = some ⟨none, prog⟩ := by
    intro prog
    rw [Pool.getElem?_update hi, if_pos rfl]
  have hread : ∀ {s s' : Service} {e : SyncEvent},
      s'.world = w → (∀ a, e.op.written s.world a = none) → (∀ a, rowReported a e = none) →
        Holds .ascii pairHttp s (.run (.call i e)) s' :=
    fun hs' hwritten hreported => holds_read (solo_room hs' hlen) hwritten hreported
  have hguilds : World.faultless pairHttp (.userGuildIds "1") s.world (.ok ["g"]) w := by
    rw [show s.world = _ from hw]
    exact solo_guildIds _ _
  have h1 := h.call hi hguilds fun s' hs' => hread hs' (fun _ => rfl) fun _ => rfl
  have h2 := h1.call (hthread _) (World.faultless_read (w := w) (s := .selectLinks ["g"])
    [(pairLink, "t", pairRule)] trivial (List.Perm.refl _))
    fun s' hs' => hread hs' (fun _ => rfl) fun _ => rfl
  simp only [Pool.update_update] at h2
  have hbirthday : (Statement.selectBirthday "1").Answers w.postgres w.db (some soloRow.input) := by
    show some soloRow.input = (rows.get? "1").map BirthdayRow.input
    rw [hrow]
    rfl
  have h3 := h2.call (hthread _)
    (World.faultless_read (w := w) (s := .selectBirthday "1") (some soloRow.input) trivial hbirthday)
    fun s' hs' => hread hs' (fun _ => rfl) fun _ => rfl
  simp only [Pool.update_update] at h3
  have h4 := h3.call (hthread _) (World.faultless_localToday (w := w))
    fun s' hs' => hread hs' (fun _ => rfl) fun _ => rfl
  simp only [Pool.update_update] at h4
  exact h4

/-- The member has saved, and the run of the job has planned to add them. -/
def soloPlanned : Service where
  pool := ⟨soloWorld (soloDb ((∅ : Birthdays).put soloRow) soloClaimed) fun _ => ∅,
    [⟨none, .done (.ok [])⟩, ⟨some 0, soloAct.body .ascii⟩]⟩
  requests := [soloSaved]
  held := [soloFirst]
  thread := Function.update (fun _ => none) 1 (some 0)

theorem solo_planned : SoloRun (Holds .ascii pairHttp) soloPlanned := by
  let rows := (∅ : Birthdays).put soloRow
  have hone : rows.rows.length ≤ 1 := by decide
  have hstart : SoloRun (Holds .ascii pairHttp) (start (soloWorld (soloDb ∅ .empty) fun _ => ∅)) :=
    .refl
  have harrived : SoloRun (Holds .ascii pairHttp) ⟨⟨soloWorld (soloDb ∅ .empty) fun _ => ∅, []⟩,
      [soloSaving], [], fun _ => none⟩ := by
    have h := hstart.tail (.arrive (.birthday (.silent 0) exampleHeaders (.save soloBody)))
      ⟨trivial, solo_room rfl (Nat.zero_le 1)⟩
    rw [solo_begin] at h
    exact h
  have hwritten : SoloRun (Holds .ascii pairHttp) ⟨⟨soloWorld (soloDb rows .empty) fun _ => ∅, []⟩,
      [.birthday 0 (enqueueAnd "1")], [], fun _ => none⟩ :=
    harrived.tail (.request (i := 0) rfl rfl) ⟨trivial, solo_room rfl hone⟩
  have henqueued : SoloRun (Holds .ascii pairHttp) ⟨⟨soloWorld (soloDb rows soloJobs) fun _ => ∅,
      []⟩, [soloSaved], [], fun _ => none⟩ :=
    hwritten.tail (.request (i := 0) rfl rfl) ⟨trivial, solo_room rfl hone⟩
  have hclaimed : SoloRun (Holds .ascii pairHttp) ⟨⟨soloWorld (soloDb rows soloClaimed) fun _ => ∅,
      []⟩, [soloSaved], [soloFirst], fun _ => none⟩ :=
    henqueued.tail (.claim 0 "worker-0" (fun _ => false) fun h hh => absurd hh List.not_mem_nil)
      ⟨trivial, solo_room rfl hone⟩
  have hdispatched := hclaimed.tail
    (.dispatch (t := .player "1") List.mem_cons_self (fun _ _ _ => rfl) rfl)
    ⟨trivial, solo_room rfl hone⟩
  have hread := solo_reads (i := 0) hdispatched rfl rfl rfl hone
  -- no row is there yet, and nobody is on the list
  have hplanned := hread.call (i := 0) rfl
    (World.faultless_read (s := .selectAssigned "1") [] trivial (List.Perm.refl _)) fun s' hs' => by
      refine ⟨fun a ha => Or.inr ⟨fun b hb => ?_, fun hreported => ?_⟩, solo_room hs' hone⟩
      · cases hb
      obtain ⟨link, d⟩ := a
      obtain rfl := solo_link ha
      by_cases hd : "1" = d
      · subst hd
        exact absurd hreported (by decide)
      · have hnone : rowReported (pairLink, d) ⟨.db (.selectAssigned "1"), .ok []⟩ = none := if_neg hd
        rw [hnone] at hreported
        cases hreported
  exact hplanned.tail (.run (.start (i := 0) (t := soloAct) rfl (show 0 < 10 by decide)))
    ⟨trivial, solo_room rfl hone⟩

/-- The jobs once a second request was answered and another worker has its job. -/
def soloBoth : Jobs :=
  ((soloClaimed.enqueuePlayerSync 0 "1").claimBatch 0 "worker-1" batchSize fun _ => false).1

/-- The job of a second request is dispatched while the run of the first is at its action. -/
def soloAgain (rows : Birthdays) : Service where
  pool := ⟨soloWorld (soloDb rows soloBoth) fun _ => ∅, [⟨none, .done (.ok [])⟩,
    ⟨some 0, soloAct.body .ascii⟩, ⟨none, SyncTask.body .ascii (.player "1")⟩]⟩
  requests := [soloSaved, soloSaved]
  held := [soloFirst, soloSecond]
  thread := Function.update (Function.update (fun _ => none) 1 (some 0)) 2 (some 2)

theorem solo_again {request : BirthdayRequest} {q : RequestRun} {rows : Birthdays}
    (hbegin : (Arrival.birthday (.silent 0) exampleHeaders request).begin .ascii exampleCrates
      exampleState = q)
    (hwrite : q.next soloPlanned.db =
      some (.birthday 0 (enqueueAnd "1"), soloDb rows soloClaimed))
    (hlen : rows.rows.length ≤ 1) : SoloRun (Holds .ascii pairHttp) (soloAgain rows) := by
  have harrived : SoloRun (Holds .ascii pairHttp)
      { soloPlanned with requests := [soloSaved, q] } := by
    have h := solo_planned.tail (.arrive (.birthday (.silent 0) exampleHeaders request))
      ⟨trivial, solo_room rfl (by decide)⟩
    rw [hbegin] at h
    exact h
  have hwritten : SoloRun (Holds .ascii pairHttp)
      { soloPlanned.setDb (soloDb rows soloClaimed) with
        requests := [soloSaved, .birthday 0 (enqueueAnd "1")] } :=
    harrived.tail (.request (i := 1) rfl hwrite) ⟨trivial, solo_room rfl hlen⟩
  have henqueued : SoloRun (Holds .ascii pairHttp)
      { soloPlanned.setDb (soloDb rows (soloClaimed.enqueuePlayerSync 0 "1")) with
        requests := [soloSaved, soloSaved] } :=
    hwritten.tail (.request (i := 1) rfl rfl) ⟨trivial, solo_room rfl hlen⟩
  have hclaimed : SoloRun (Holds .ascii pairHttp)
      { soloPlanned.setDb (soloDb rows soloBoth) with
        requests := [soloSaved, soloSaved]
        held := [soloFirst, soloSecond] } := by
    refine henqueued.tail (.claim 0 "worker-1" (fun _ => false) fun h hh => ?_)
      ⟨trivial, solo_room rfl hlen⟩
    rw [List.mem_singleton.mp hh]
    decide
  refine hclaimed.tail (.dispatch (h := soloSecond) (t := .player "1")
    (List.mem_cons_of_mem _ (List.mem_singleton_self _)) (fun h hh hworker => ?_) rfl)
    ⟨trivial, solo_room rfl hlen⟩
  rcases List.mem_cons.mp hh with rfl | hh
  · exact absurd hworker (by decide)
  · rw [List.mem_singleton.mp hh]
    rfl

/-- Both requests were answered and both jobs completed. -/
theorem solo_quiescent (hrequests : s.requests = [soloSaved, soloSaved])
    (hjobs : s.db.jobs = (soloBoth.complete 0 2).complete 0 1) : s.Quiescent := by
  refine ⟨fun q hq => ?_, ?_⟩
  · rw [hrequests] at hq
    rcases List.mem_cons.mp hq with rfl | hq
    · exact ⟨success, rfl⟩
    · rw [List.mem_singleton.mp hq]
      exact ⟨success, rfl⟩
  · rw [hjobs]
    show ∀ row ∈ ((soloBoth.complete 0 2).complete 0 1).table.rows,
      row.status = .completed ∨ row.status = .dead
    decide

/-- The member saves once more while the run of the first job plans to add them. The runs of both
jobs overlap: the second reads that there is no action to take once the first has added them. -/
theorem quiescent_lists_overlap : ∃ s : Service, SoloRun (Holds .ascii pairHttp) s ∧ s.Quiescent ∧
    s.world.roleLogic.lists pairLink = {"1"} ∧ Right .ascii s.world := by
  let rows := ((∅ : Birthdays).put soloRow).put soloRow
  let db := (soloDb rows soloBoth).insertAssignment pairLink "1"
  let ended : List (Thread AppError SyncCall.Result SyncTask) :=
    [⟨none, .done (.ok [])⟩, ⟨some 0, .done (.ok [])⟩, ⟨none, .done (.ok [])⟩]
  have hone : rows.rows.length ≤ 1 := by decide
  have hread := solo_reads (i := 2) (solo_again solo_begin rfl hone) rfl rfl rfl hone
  -- the first run adds the member and writes their row
  have hadded := hread.call (i := 1) rfl (solo_add _) fun s' hs' => by
    refine ⟨fun a ha => Or.inr ⟨fun b hb => ?_, fun hreported => ?_⟩, solo_room hs' hone⟩
    · obtain ⟨link, d⟩ := a
      obtain rfl := solo_link ha
      have hb : (if (pairLink, d) = (pairLink, "1") then some true else none) = some b := hb
      split at hb
      · rename_i hplace
        cases hplace
        cases hb
        decide
      · cases hb
    · cases hreported
  have hinserted := hadded.call (i := 1) rfl
    (World.faultless_db (s := .insertAssignment pairLink "1") (v := ()) rfl)
    fun s' hs' => holds_read (solo_room hs' hone) (fun _ => rfl) fun _ => rfl
  -- the second finds the row there
  have hfound : SoloRun (Holds .ascii pairHttp)
      { soloAgain rows with pool := ⟨soloWorld db soloList, ended⟩ } := hinserted.call (i := 2) rfl
    (World.faultless_read (s := .selectAssigned "1") [pairLink] trivial (List.Perm.refl _))
    fun s' hs' => by
      refine ⟨fun a ha => Or.inr ⟨fun b hb => ?_, fun hreported => ?_⟩, solo_room hs' hone⟩
      · cases hb
      obtain ⟨link, d⟩ := a
      obtain rfl := @solo_link rows soloBoth link ha
      by_cases hd : "1" = d
      · subst hd
        decide
      · have hnone : rowReported (pairLink, d) ⟨.db (.selectAssigned "1"), .ok [pairLink]⟩ = none :=
          if_neg hd
        rw [hnone] at hreported
        cases hreported
  have hsecond : SoloRun (Holds .ascii pairHttp)
      { soloAgain rows with
        pool := ⟨soloWorld { db with jobs := soloBoth.complete 0 2 } soloList, ended⟩
        held := [soloFirst] } :=
    hfound.tail (.complete (h := soloSecond) (i := 2) 0
      (List.mem_cons_of_mem _ (List.mem_singleton_self _)) rfl rfl (.of_all (by decide) 2))
      ⟨trivial, solo_room rfl hone⟩
  have hfirst := hsecond.tail (.complete (h := soloFirst) (i := 0) 0 List.mem_cons_self rfl rfl
    (.of_all (by decide) 0)) ⟨trivial, solo_room rfl hone⟩
  have hquiet := solo_quiescent (s := { soloAgain rows with
    pool := ⟨soloWorld { db with jobs := (soloBoth.complete 0 2).complete 0 1 } soloList, ended⟩
    held := [] }) rfl rfl
  have hlist : soloList pairLink = {"1"} := by decide
  exact ⟨_, hfirst, hquiet, hlist,
    (quiescent_lists .ascii exampleCrates exampleState pairHttp soloWorld_proper soloWorld_right hfirst
      hquiet).1⟩

/-- The member saves a birthday, and the run of the job plans to add them. Before it asks
RoleLogic, the member removes the birthday, and the run of that job finds nothing to do:
there is no birthday, and no row. Then the first run adds the member to the list, and
nothing takes them off again. -/
theorem unlink_overtaken : (soloWorld (soloDb ∅ .empty) fun _ => ∅).Proper .ascii ∧
    Right .ascii (soloWorld (soloDb ∅ .empty) fun _ => ∅) ∧
    ∃ s : Service, SoloRun (fun _ _ s' => s'.world.HasRoom .ascii) s ∧ s.Quiescent ∧
      s.db.birthdays.get? "1" = none ∧ s.world.roleLogic.lists pairLink = {"1"} ∧
      ¬Right .ascii s.world := by
  refine ⟨soloWorld_proper, soloWorld_right, ?_⟩
  let P : Service → Label → Service → Prop := fun _ _ s' => s'.world.HasRoom .ascii
  let unlinked := ((∅ : Birthdays).put soloRow).remove "1"
  have hnone : unlinked.rows.length ≤ 1 := by decide
  have hbegin : (Arrival.birthday (.silent 0) exampleHeaders .unlink).begin .ascii exampleCrates
      exampleState = .birthday 0 (perform (BirthdayStatement.delete "1") >>= fun removed =>
        if removed = 0 then raise (.notFound "No saved birthday to remove.") else enqueueAnd "1") := by
    show RequestRun.birthday 0 (handler .ascii exampleCrates exampleState (.silent 0) exampleHeaders
      .unlink) = _
    rw [handler_unlink, exampleHeaders_session]
    rfl
  have hagain : SoloRun P (soloAgain unlinked) :=
    (solo_again hbegin rfl hnone).mono fun _ _ _ h => h.2
  have hroom : ∀ {db : Database} {lists : LinkKey → Finset String}, db.birthdays = unlinked →
      ∀ s' : Service, s'.world = soloWorld db lists → s'.world.HasRoom .ascii := by
    intro db lists hrows s' hs'
    exact solo_room hs' (by rw [hrows]; exact hnone)
  -- the second run finds no birthday and no row
  have hguilds := hagain.call (i := 2) rfl (solo_guildIds _ _) (hroom rfl)
  have hlinks := hguilds.call (i := 2) rfl (World.faultless_read (s := .selectLinks ["g"])
    [(pairLink, "t", pairRule)] trivial (List.Perm.refl _)) (hroom rfl)
  have hbirthday := hlinks.call (i := 2) rfl
    (World.faultless_read (s := .selectBirthday "1") none trivial rfl) (hroom rfl)
  have hfound : SoloRun P { soloAgain unlinked with
      pool := ⟨soloWorld (soloDb unlinked soloBoth) fun _ => ∅, [⟨none, .done (.ok [])⟩,
        ⟨some 0, soloAct.body .ascii⟩, ⟨none, .done (.ok [])⟩]⟩ } := hbirthday.call (i := 2) rfl
    (World.faultless_read (s := .selectAssigned "1") [] trivial (List.Perm.refl _)) (hroom rfl)
  have hsecond : SoloRun P { soloAgain unlinked with
      pool := ⟨soloWorld (soloDb unlinked (soloBoth.complete 0 2)) fun _ => ∅,
        [⟨none, .done (.ok [])⟩, ⟨some 0, soloAct.body .ascii⟩, ⟨none, .done (.ok [])⟩]⟩
      held := [soloFirst] } := by
    refine hfound.tail (.complete (h := soloSecond) (i := 2) 0
      (List.mem_cons_of_mem _ (List.mem_singleton_self _)) rfl rfl ?_) (solo_room rfl hnone)
    intro j th hj hown
    rcases j with _ | _ | _ | j
    · cases hj
      exact absurd hown (by decide)
    · cases hj
      exact absurd hown (by decide)
    · cases hj
      rfl
    · cases hj
  -- and the first adds the member
  have hadded := hsecond.call (i := 1) rfl (solo_add _) (hroom rfl)
  have hinserted := hadded.call (i := 1) rfl
    (World.faultless_db (s := .insertAssignment pairLink "1") (v := ()) rfl) (hroom rfl)
  have hfirst := hinserted.tail (.complete (h := soloFirst) (i := 0) 0 List.mem_cons_self rfl rfl
    (.of_all (by decide) 0)) (hroom rfl _ rfl)
  have hlist : soloList pairLink = {"1"} := by decide
  refine ⟨_, hfirst, solo_quiescent rfl rfl, rfl, hlist, fun hright => ?_⟩
  have hempty : soloList pairLink = ∅ := hright pairLink _ rfl
  rw [hlist] at hempty
  exact absurd hempty (by decide)

end Solo

end

end Service

end BirthdayRole
