/-
# The sync engine (`services/sync.rs`, `upload_users` of `services/rolelogic.rs`)

`syncForRoleLink` computes the list of a link, sends it to RoleLogic as a whole and
rewrites the rows of `role_assignments`. `planPlayer` compares what a member should
have with what is assigned; the actions it ends with run side by side. Either way
RoleLogic comes first and the rows follow, if it accepted.
-/
import BirthdayRole.ConditionEval
import BirthdayRole.Lib.Pool
import BirthdayRole.SyncWorld

namespace BirthdayRole

open Json Prog

abbrev Sync := Prog AppError SyncCall.Result

def query (s : Statement) : Sync s.Result := perform (SyncCall.db s)

/-- A call to RoleLogic, on a link with its token. -/
def ask (link : LinkKey) (token : String) (c : RlCall) : Sync c.Result :=
  perform (SyncCall.roleLogic link token c)

def tryAsk (link : LinkKey) (token : String) (c : RlCall) : Sync (Except AppError c.Result) :=
  attempt (SyncCall.roleLogic link token c)

/-- `let _ = …`: a statement whose failure is dropped. -/
def bestEffort (s : Statement) : Sync Unit := do
  let _ ← attempt (SyncCall.db s)
  pure ()

def deleteOrphanRoleLink (link : LinkKey) : Sync Unit := bestEffort (.deleteRoleLink link)

/-! ### Uploading a list -/

def putMaxUsers : ℕ := 100000
def chunkSize : ℕ := 100000

/-- `slice::chunks`, of at most so many chunks. -/
def chunksAux {α : Type} (size : ℕ) : ℕ → List α → List (List α)
  | 0, _ => []
  | _ + 1, [] => []
  | n + 1, x :: xs => (x :: xs).take size :: chunksAux size n ((x :: xs).drop size)

def chunks {α : Type} (size : ℕ) (xs : List α) : List (List α) := chunksAux size xs.length xs

/-- The cancel of an upload that failed, and the error it failed with. -/
def cancelAfter {α : Type} (link : LinkKey) (token uploadId : String) (e : AppError) : Sync α := do
  let _ ← tryAsk link token (.cancelUpload uploadId)
  raise e

/-- A step of an upload: a failure cancels it. -/
def uploadStep (link : LinkKey) (token uploadId : String) (c : RlCall) : Sync c.Result := do
  match ← tryAsk link token c with
  | .ok v => pure v
  | .error e => cancelAfter link token uploadId e

def uploadChunks (link : LinkKey) (token uploadId : String) : List (List String) → Sync Unit
  | [] => pure ()
  | chunk :: rest => do
    uploadStep link token uploadId (.uploadChunk uploadId chunk)
    uploadChunks link token uploadId rest

def uploadUsers (link : LinkKey) (userIds : List String) (token : String) : Sync Usize :=
  if userIds.length ≤ putMaxUsers then ask link token (.replaceUsers userIds)
  else do
    let uploadId ← ask link token .startUpload
    uploadChunks link token uploadId (chunks chunkSize userIds)
    uploadStep link token uploadId (.commitUpload uploadId)

/-- `Ok(true)` is for a list that was applied, `Ok(false)` for one to be sent again. -/
def uploadApplied (result : Except AppError Usize) (link : LinkKey) : Sync Bool :=
  match result with
  | .ok _ => pure true
  | .error .roleLinkNotFound => do
    deleteOrphanRoleLink link
    pure false
  | .error .roleLinkDisabled => pure false
  | .error (.roleLinkRemovalHeld _ _) => pure false
  | .error e => raise e

/-! ### A role link -/

/-- An upload, and the statement that mirrors it if it was applied. -/
def uploadAndMirror (link : LinkKey) (userIds : List String) (token : String) (s : Statement) :
    Sync Unit := do
  let result ← (uploadUsers link userIds token).capture
  let applied ← uploadApplied result link
  if !applied then pure () else do
    let _ ← query s
    pure ()

def drainToEmpty (link : LinkKey) (token : String) : Sync Unit := do
  let any : Bool ← query (.existsAssigned link)
  if !any then pure () else uploadAndMirror link [] token (.clearAssignments link)

/-- The rest of `sync_for_role_link`, once the limit is known. -/
def syncQualifying (link : LinkKey) (token : String) (tree : RuleTree) (memberIds : List String)
    (userLimit : Usize) : Sync Unit := do
  let qualifying : List String ← query (.selectQualifying (qualifyingQuery tree memberIds userLimit))
  let current : List String ← query (.selectCurrent link)
  if current = qualifying then pure ()
  else uploadAndMirror link qualifying token (.rewriteAssignments link qualifying)

/-- What `sync_for_role_link` makes of `get_user_info`. -/
def withUserInfo (link : LinkKey) (info : Except AppError (Usize × Usize))
    (next : Usize → Sync Unit) : Sync Unit :=
  match info with
  | .ok (_, userLimit) => next userLimit
  | .error .roleLinkNotFound => deleteOrphanRoleLink link
  | .error .roleLinkDisabled => pure ()
  | .error e => raise e

def RuleTree.unconfigured (tree : RuleTree) : Bool := !tree.grantOnAnyBirthday && tree.groups.isEmpty

/-- `sync_for_role_link` on the row of the link. -/
def syncLink (link : LinkKey) (token : String) (tree : RuleTree) : Sync Unit :=
  if tree.unconfigured then drainToEmpty link token
  else do
    let memberIds : List String ← perform (SyncCall.guildMemberIds link.1)
    if memberIds.isEmpty then drainToEmpty link token
    else do
      let info ← tryAsk link token .getUserInfo
      withUserInfo link info (syncQualifying link token tree memberIds)

def syncForRoleLink (link : LinkKey) : Sync Unit := do
  match ← query (.selectLink link) with
  | none => pure ()
  | some (token, rawTree) => syncLink link token (ruleTreeOf rawTree)

/-! ### A member -/

inductive SyncAction where
  | add (link : LinkKey) (token : String)
  | remove (link : LinkKey) (token : String)

section

variable (C : Crates)

def qualifies (tree : RuleTree) (facts : Option Facts) : Bool :=
  if tree.grantOnAnyBirthday then facts.isSome
  else if tree.groups.isEmpty then false
  else match facts with
    | some f => evaluate C tree f
    | none => false

/-- What to do about a link, if anything. -/
def actionFor (facts : Option Facts) (existing : List LinkKey) (row : LinkKey × String × Value) :
    Option SyncAction :=
  match qualifies C (ruleTreeOf row.2.2) facts, decide (row.1 ∈ existing) with
  | true, false => some (.add row.1 row.2.1)
  | false, true => some (.remove row.1 row.2.1)
  | _, _ => none

def readFacts : Option BirthdayInput → Sync (Option Facts)
  | none => pure none
  | some input => do
    let localToday : String → Calendar.Date ← perform SyncCall.localToday
    pure (some (computeFacts localToday input))

/-- `sync_for_player` up to its stream of actions. -/
def planPlayer (discordId : String) : Sync (List SyncAction) := do
  let guildIds : List String ← perform (SyncCall.userGuildIds discordId)
  if guildIds.isEmpty then pure []
  else do
    let roleLinks : List (LinkKey × String × Value) ← query (.selectLinks guildIds)
    if roleLinks.isEmpty then pure []
    else do
      let row ← query (.selectBirthday discordId)
      let facts ← readFacts row
      let existing : List LinkKey ← query (.selectAssigned discordId)
      pure (roleLinks.filterMap (actionFor C facts existing))

/-- One action. Of the errors only a link that is gone is acted upon. -/
def SyncAction.run (discordId : String) : SyncAction → Sync Unit
  | add link token => do
    match ← tryAsk link token (.addUser discordId) with
    | .error .roleLinkNotFound => deleteOrphanRoleLink link
    | .error _ => pure ()
    | .ok _ => bestEffort (.insertAssignment link discordId)
  | remove link token => do
    match ← tryAsk link token (.removeUser discordId) with
    | .error .roleLinkNotFound => deleteOrphanRoleLink link
    | .error _ => pure ()
    | .ok _ => bestEffort (.deleteAssignment link discordId)

/-! ### Runs side by side -/

inductive SyncTask where
  | player (discordId : String)
  | roleLink (link : LinkKey)
  | act (discordId : String) (action : SyncAction)

namespace SyncTask

def body : SyncTask → Sync (List SyncTask)
  | player discordId => do
    let actions ← planPlayer C discordId
    pure (actions.map (.act discordId))
  | roleLink link => do
    syncForRoleLink link
    pure []
  | act discordId action => do
    action.run discordId
    pure []

/-- What a job starts; an action belongs to the run of its member. -/
def Run : SyncTask → Prop
  | act _ _ => False
  | _ => True

end SyncTask

/-- Runs of the jobs on any number of workers, in a world that answers and that may
also change by itself. -/
def syncSystem (outside : Outside AppError SyncCall.Result World) (drift : World → World → Prop) :
    System AppError SyncCall.Result World SyncTask where
  body := SyncTask.body C
  root := SyncTask.Run
  limit := 10
  outside := outside
  drift := drift

end

def World.outside (H : HttpCrates) : Outside AppError SyncCall.Result World := fun c w r w' =>
  w.Answers H c r ∧ w' = w.effect c r

/-- The same where no statement fails. -/
def World.working (H : HttpCrates) : Outside AppError SyncCall.Result World := fun c w r w' =>
  World.outside H c w r w' ∧ ∀ s, c = .db s → ∃ v, r = .ok v

/-- The same where no call fails. -/
def World.faultless (H : HttpCrates) : Outside AppError SyncCall.Result World := fun c w r w' =>
  World.outside H c w r w' ∧ ∃ v, r = .ok v

section

variable {H : HttpCrates} {w : World}

theorem World.faultless.outside {c : SyncCall} {w' : World} {r : Except AppError c.Result}
    (h : World.faultless H c w r w') : World.outside H c w r w' := h.1

theorem World.faultless_db {s : Statement} {v : s.Result} (h : s.Answers w.postgres w.db v) :
    World.faultless H (.db s) w (.ok v) { w with db := s.after w.db } := ⟨⟨h, rfl⟩, v, rfl⟩

theorem World.faultless_read {s : Statement} (v : s.Result) (hs : s.Reads)
    (h : s.Answers w.postgres w.db v) : World.faultless H (.db s) w (.ok v) w :=
  ⟨⟨h, by show w = { w with db := s.after w.db }; rw [hs.after]⟩, v, rfl⟩

theorem World.faultless_localToday : World.faultless H .localToday w (.ok w.localToday) w :=
  ⟨⟨rfl, rfl⟩, _, rfl⟩

theorem World.faultless_roleLogic {link : LinkKey} {token : String} {c : RlCall} {v : c.Result}
    (reply : HttpReply) (hreply : c.client H reply = .ok v) (h : w.roleLogic.Replies H link c reply) :
    World.faultless H (.roleLogic link token c) w (.ok v)
      { w with roleLogic := w.roleLogic.after link c v } := ⟨⟨⟨reply, hreply, h⟩, rfl⟩, v, rfl⟩

end

/-! ### A guild of two -/

/-- A link for anyone who added a birthday. -/
def pairLink : LinkKey := ("g", "r")

def pairRule : Value := RuleTree.toValue ⟨true, []⟩

theorem zero_lt_usize : 0 < 2 ^ 64 := by decide

theorem one_lt_usize : 1 < 2 ^ 64 := by decide

theorem one_inRange : -2 ^ 63 ≤ (1 : ℤ) ∧ (1 : ℤ) < 2 ^ 64 := by decide

/-- Both members added a birthday, nobody is assigned, and the link takes one user. -/
def pairWorld (lists : LinkKey → Finset String) : World where
  db := { Database.empty with
    roleLinks := (∅ : RoleLinks).put ⟨"g", "r", "t", pairRule, 2, 0⟩
    birthdays := ((∅ : Birthdays).put leoRow).put { leoRow with discordId := "2" } }
  roleLogic := ⟨lists, fun _ => ⟨1, by decide⟩, fun _ => none⟩
  members g := if g = "g" then ["1", "2"] else []
  localToday _ := janFirst 2024
  postgres := .ascii (janFirst 2024)

def emptyBody : String := "\x7b\x7d"
def userInfoBody : String := "\x7b\"data\":\x7b\"user_limit\":1\x7d\x7d"
def guildIdsBody : String := "\x7b\"guild_ids\":[\"g\"]\x7d"
def memberIdsBody : String := "\x7b\"discord_ids\":[\"1\",\"2\"]\x7d"

def pairHttp : HttpCrates := .ofBodies
  [(emptyBody, .object []),
    (userInfoBody, .object [("data", .object [("user_limit", .number (.int 1 one_inRange))])]),
    (guildIdsBody, .object [("guild_ids", .array [.string "g"])]),
    (memberIdsBody, .object [("discord_ids", .array [.string "1", .string "2"])])]

/-- The world once the first member is on the list and assigned. -/
def pairSynced (lists : LinkKey → Finset String) : World :=
  { pairWorld lists with
    roleLogic := (pairWorld lists).roleLogic.after pairLink (.replaceUsers ["1"]) ⟨0, zero_lt_usize⟩
    db := (pairWorld lists).db.rewriteAssignments pairLink ["1"] }

theorem pair_qualifying : (qualifyingQuery ⟨true, []⟩ ["1", "2"] ⟨1, by decide⟩).Answers
    (.ascii (janFirst 2024)) [leoRow, { leoRow with discordId := "2" }] ["1"] := by
  refine ⟨by decide, by decide, fun _ => true, fun row hrow => ⟨.bool true, ?_, fun _ => rfl,
    fun _ => rfl⟩, rfl⟩
  rcases List.mem_cons.mp hrow with rfl | hrow
  · decide
  · rcases List.mem_cons.mp hrow with rfl | hrow
    · decide
    · exact absurd hrow List.not_mem_nil

variable (lists : LinkKey → Finset String)

theorem pair_guildIds :
    World.faultless pairHttp (.userGuildIds "2") (pairWorld lists) (.ok ["g"]) (pairWorld lists) := by
  refine ⟨⟨⟨.replied 200 (.ok guildIdsBody), rfl, ?_⟩, rfl⟩, _, rfl⟩
  intro ids h g
  cases h
  show g ∈ ["g"] ↔ "2" ∈ if g = "g" then ["1", "2"] else []
  by_cases hg : g = "g" <;> simp [hg]

theorem pair_memberIds : World.faultless pairHttp (.guildMemberIds "g") (pairWorld lists)
    (.ok ["1", "2"]) (pairWorld lists) := by
  refine ⟨⟨⟨.replied 200 (.ok memberIdsBody), rfl, ?_⟩, rfl⟩, _, rfl⟩
  rintro _ ⟨⟩ d
  exact Iff.rfl

/-- The second member's run finds that they should have the role. -/
theorem pair_player : ∃ events, Exec (World.faultless pairHttp)
    (SyncTask.body Crates.ascii (.player "2")) (pairWorld lists) events
    (.ok [.act "2" (.add pairLink "t")]) (pairWorld lists) := by
  refine Exec.exists_call (pair_guildIds lists) ?_
  refine Exec.exists_call (World.faultless_read (s := .selectLinks ["g"])
    [(pairLink, "t", pairRule)] trivial (List.Perm.refl _)) ?_
  refine Exec.exists_call
    (World.faultless_read (s := .selectBirthday "2") (some leoRow.input) trivial rfl) ?_
  refine Exec.exists_call World.faultless_localToday ?_
  refine Exec.exists_call
    (World.faultless_read (s := .selectAssigned "2") [] trivial (List.Perm.refl _)) ?_
  exact ⟨_, .done⟩

/-- The run of the link puts the first member on the list, and nobody else. -/
theorem pair_roleLink : ∃ events, Exec (World.faultless pairHttp)
    (SyncTask.body Crates.ascii (.roleLink pairLink)) (pairWorld lists) events (.ok [])
    (pairSynced lists) := by
  refine Exec.exists_call
    (World.faultless_read (s := .selectLink pairLink) (some ("t", pairRule)) trivial rfl) ?_
  refine Exec.exists_call (pair_memberIds lists) ?_
  refine Exec.exists_call (World.faultless_roleLogic (c := .getUserInfo)
    (.replied 200 (.ok userInfoBody)) rfl (by rintro _ ⟨⟩; rfl)) ?_
  refine Exec.exists_call
    (World.faultless_read (s := .selectQualifying _) ["1"] trivial pair_qualifying) ?_
  refine Exec.exists_call (World.faultless_read (s := .selectCurrent pairLink) [] trivial rfl) ?_
  refine Exec.exists_call (World.faultless_roleLogic (c := .replaceUsers ["1"])
    (.replied 200 (.ok emptyBody)) rfl trivial) ?_
  refine Exec.exists_call (World.faultless_db (s := .rewriteAssignments pairLink ["1"]) (v := ())
    ⟨by decide, Or.inr rfl⟩) ?_
  exact ⟨_, .done⟩

end BirthdayRole
