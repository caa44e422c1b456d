/-
# Where a run stands between RoleLogic and the rows

As long as no call fails, a run or an action is in one of three phases: it owes the
database nothing (`idle`), it has staged a part of a list in an upload (`staging`), or
RoleLogic has accepted a change that the rows do not have yet (`ahead`). It owes at
most one change at a time, writes that one next, and ends with none
(`SyncTask.body_follows`).
-/
import BirthdayRole.Changes

namespace BirthdayRole

open Prog

inductive Phase where
  | idle
  | staging (uploadId : String) (link : LinkKey) (userIds : List String)
  | ahead (change : Change)

/-- The change that is outstanding. -/
def Phase.owed : Phase → Option Change
  | ahead change => some change
  | _ => none

/-- A call that changes the list of its link at once, whatever was staged. -/
def RlCall.direct (link : LinkKey) : RlCall → Option Change
  | addUser userId => some (.one link userId true)
  | removeUser userId => some (.one link userId false)
  | replaceUsers userIds => some (.whole link userIds)
  | _ => none

/-- A call that is in order in a phase, and the phase after it. -/
inductive Moves : Phase → (c : SyncCall) → c.Result → Phase → Prop where
  | userGuildIds {φ : Phase} {d : String} {v : SyncCall.Result (.userGuildIds d)} :
      Moves φ (.userGuildIds d) v φ
  | guildMemberIds {φ : Phase} {g : String} {v : SyncCall.Result (.guildMemberIds g)} :
      Moves φ (.guildMemberIds g) v φ
  | localToday {φ : Phase} {v : SyncCall.Result .localToday} : Moves φ .localToday v φ
  | read {φ : Phase} {s : Statement} {v : s.Result} : s.Reads → Moves φ (.db s) v φ
  | getUserInfo {φ : Phase} {link : LinkKey} {token : String} {v : RlCall.getUserInfo.Result} :
      Moves φ (.roleLogic link token .getUserInfo) v φ
  | start {link : LinkKey} {token id : String} :
      Moves .idle (.roleLogic link token .startUpload) id (.staging id link [])
  | stage {link : LinkKey} {token id : String} {ids more : List String} {v : Unit} :
      Moves (.staging id link ids) (.roleLogic link token (.uploadChunk id more)) v
        (.staging id link (ids ++ more))
  | commit {link : LinkKey} {token id : String} {ids : List String} {v : Usize} :
      Moves (.staging id link ids) (.roleLogic link token (.commitUpload id)) v
        (.ahead (.whole link ids))
  | accept {link : LinkKey} {token : String} {c : RlCall} {v : c.Result} {change : Change} :
      c.direct link = some change → Moves .idle (.roleLogic link token c) v (.ahead change)
  | mirror {s : Statement} {v : s.Result} {change : Change} :
      s.change = some change → Moves (.ahead change) (.db s) v .idle

/-- Every call is in order, whatever comes back when it does not fail. -/
def following : Rule AppError SyncCall.Result Phase := fun c φ Q =>
  ∀ v, ∃ φ', Moves φ c v φ' ∧ Q (.ok v) φ'

theorem following_monotone : following.Monotone := by
  intro c φ Q Q' h hQ v
  obtain ⟨φ', hm, hv⟩ := hQ v
  exact ⟨φ', hm, h _ _ hv⟩

variable {α β : Type} {φ φ' : Phase}

/-- From a phase on a program's calls are in order, and it ends without an error. -/
def Follows (φ : Phase) (p : Sync α) (Q : α → Phase → Prop) : Prop :=
  wp following p (fun x φ' => ∃ a, x = .ok a ∧ Q a φ') φ

namespace Follows

variable {p : Sync α} {f : α → Sync β} {Q : α → Phase → Prop} {R : β → Phase → Prop}

theorem pure {a : α} (h : Q a φ) : Follows φ (pure a) Q := ⟨a, rfl, h⟩

theorem bind (hp : Follows φ p Q) (hf : ∀ a φ', Q a φ' → Follows φ' (f a) R) :
    Follows φ (p >>= f) R := by
  unfold Follows
  rw [wp_bind]
  refine wp_mono following_monotone ?_ hp
  rintro x φ' ⟨a, rfl, ha⟩
  exact hf a φ' ha

theorem capture (hp : Follows φ p Q) :
    Follows φ p.capture (fun r φ' => ∃ a, r = .ok a ∧ Q a φ') := by
  unfold Follows
  rw [wp_capture]
  exact wp_mono following_monotone (fun x φ' hx => ⟨x, rfl, hx⟩) hp

/-- A call that does not change the phase, and one that does. -/
theorem perform {c : SyncCall} {Q : c.Result → Phase → Prop}
    (h : ∀ v, ∃ φ', Moves φ c v φ' ∧ Q v φ') : Follows φ (perform c) Q := by
  intro v
  obtain ⟨φ', hm, hv⟩ := h v
  exact ⟨φ', hm, v, rfl, hv⟩

theorem attempt {c : SyncCall} {Q : Except AppError c.Result → Phase → Prop}
    (h : ∀ v, ∃ φ', Moves φ c v φ' ∧ Q (.ok v) φ') : Follows φ (attempt c) Q := by
  intro v
  obtain ⟨φ', hm, hv⟩ := h v
  exact ⟨φ', hm, .ok v, rfl, hv⟩

theorem read {s : Statement} (h : s.Reads) : Follows φ (query s) (fun _ φ' => φ' = φ) :=
  perform fun _ => ⟨φ, .read h, rfl⟩

theorem mirror {s : Statement} {change : Change} (h : s.change = some change) :
    Follows (.ahead change) (query s) (fun _ φ' => φ' = .idle) :=
  perform fun _ => ⟨.idle, .mirror h, rfl⟩

theorem bestEffort {s : Statement} {change : Change} (h : s.change = some change) :
    Follows (.ahead change) (bestEffort s) (fun _ φ' => φ' = .idle) :=
  bind (attempt (Q := fun _ φ' => φ' = .idle) fun _ => ⟨.idle, .mirror h, rfl⟩)
    fun _ _ hφ => pure hφ

end Follows

/-! ### The programs -/

theorem flatten_chunksAux {size : ℕ} (hsize : 0 < size) : ∀ (n : ℕ) (xs : List α), xs.length ≤ n →
    (chunksAux size n xs).flatten = xs
  | 0, xs, h => by
    rw [List.length_eq_zero_iff.mp (Nat.le_zero.mp h)]
    rfl
  | n + 1, [], _ => rfl
  | n + 1, x :: xs, h => by
    have hlen : ((x :: xs).drop size).length ≤ n := by
      rw [List.length_drop]
      omega
    rw [chunksAux, List.flatten_cons, flatten_chunksAux hsize n _ hlen, List.take_append_drop]

theorem flatten_chunks {size : ℕ} (hsize : 0 < size) (xs : List α) : (chunks size xs).flatten = xs :=
  flatten_chunksAux hsize _ xs le_rfl

theorem uploadStep_follows {link : LinkKey} {token id : String} {c : RlCall}
    (h : ∀ v, Moves φ (.roleLogic link token c) v φ') :
    Follows φ (uploadStep link token id c) (fun _ ψ => ψ = φ') := by
  refine Follows.bind (Q := fun r ψ => ψ = φ' ∧ ∃ v, r = .ok v)
    (Follows.attempt fun v => ⟨φ', h v, rfl, v, rfl⟩) ?_
  rintro r ψ ⟨rfl, v, rfl⟩
  exact Follows.pure rfl

theorem uploadChunks_follows {link : LinkKey} {token id : String} : ∀ (cs : List (List String))
    (ids : List String), Follows (.staging id link ids) (uploadChunks link token id cs)
      (fun _ φ => φ = .staging id link (ids ++ cs.flatten))
  | [], ids => Follows.pure (by rw [List.flatten_nil, List.append_nil])
  | c :: cs, ids => by
    refine Follows.bind (uploadStep_follows fun _ => .stage) ?_
    rintro _ φ rfl
    rw [List.flatten_cons, ← List.append_assoc]
    exact uploadChunks_follows cs (ids ++ c)

/-- Either way of sending a list makes it the list of the link. -/
theorem uploadUsers_follows (link : LinkKey) (ids : List String) (token : String) :
    Follows .idle (uploadUsers link ids token) (fun _ φ => φ = .ahead (.whole link ids)) := by
  unfold uploadUsers
  by_cases hlen : ids.length ≤ putMaxUsers
  · rw [if_pos hlen]
    exact Follows.perform fun _ => ⟨_, .accept rfl, rfl⟩
  · rw [if_neg hlen]
    refine Follows.bind (Q := fun id φ => φ = .staging id link [])
      (Follows.perform fun id => ⟨_, .start, rfl⟩) ?_
    rintro id φ rfl
    refine Follows.bind (uploadChunks_follows (chunks chunkSize ids) []) ?_
    rintro _ φ rfl
    rw [List.nil_append, flatten_chunks (by decide)]
    exact uploadStep_follows fun _ => .commit

theorem uploadAndMirror_follows {link : LinkKey} {ids : List String} {s : Statement} (token : String)
    (hs : s.change = some (.whole link ids)) :
    Follows .idle (uploadAndMirror link ids token s) (fun _ φ => φ = .idle) := by
  refine Follows.bind (uploadUsers_follows link ids token).capture ?_
  rintro r φ ⟨n, rfl, rfl⟩
  refine Follows.bind (Q := fun b φ => b = true ∧ φ = .ahead (.whole link ids))
    (Follows.pure ⟨rfl, rfl⟩) ?_
  rintro b φ ⟨rfl, rfl⟩
  exact Follows.bind (Follows.mirror hs) fun _ _ hφ => Follows.pure hφ

theorem drainToEmpty_follows (link : LinkKey) (token : String) :
    Follows .idle (drainToEmpty link token) (fun _ φ => φ = .idle) := by
  refine Follows.bind (Follows.read trivial) ?_
  rintro any φ rfl
  split
  · exact Follows.pure rfl
  · exact uploadAndMirror_follows token rfl

theorem syncQualifying_follows (link : LinkKey) (token : String) (tree : RuleTree)
    (memberIds : List String) (userLimit : Usize) :
    Follows .idle (syncQualifying link token tree memberIds userLimit) (fun _ φ => φ = .idle) := by
  refine Follows.bind (Follows.read trivial) ?_
  rintro qualifying φ rfl
  refine Follows.bind (Follows.read trivial) ?_
  rintro current φ rfl
  split
  · exact Follows.pure rfl
  · exact uploadAndMirror_follows token rfl

theorem syncForRoleLink_follows (link : LinkKey) :
    Follows .idle (syncForRoleLink link) (fun _ φ => φ = .idle) := by
  refine Follows.bind (Follows.read trivial) ?_
  rintro row φ rfl
  rcases row with _ | ⟨token, rawTree⟩
  · exact Follows.pure rfl
  · simp only [syncLink]
    split
    · exact drainToEmpty_follows link token
    · refine Follows.bind (Q := fun _ φ => φ = .idle)
        (Follows.perform fun _ => ⟨_, .guildMemberIds, rfl⟩) ?_
      rintro memberIds φ rfl
      split
      · exact drainToEmpty_follows link token
      · refine Follows.bind (Q := fun r φ => φ = .idle ∧ ∃ v, r = .ok v)
          (Follows.attempt fun v => ⟨_, .getUserInfo, rfl, v, rfl⟩) ?_
        rintro info φ ⟨rfl, ⟨_, userLimit⟩, rfl⟩
        exact syncQualifying_follows link token _ memberIds userLimit

variable (C : Crates)

theorem readFacts_follows (row : Option BirthdayInput) :
    Follows .idle (readFacts row) (fun _ φ => φ = .idle) := by
  cases row with
  | none => exact Follows.pure rfl
  | some input =>
    refine Follows.bind (Q := fun _ φ => φ = .idle) (Follows.perform fun _ => ⟨_, .localToday, rfl⟩) ?_
    rintro localToday φ rfl
    exact Follows.pure rfl

/-- What a player run does before its actions only reads. -/
theorem planPlayer_follows (discordId : String) :
    Follows .idle (planPlayer C discordId) (fun _ φ => φ = .idle) := by
  refine Follows.bind (Q := fun _ φ => φ = .idle) (Follows.perform fun _ => ⟨_, .userGuildIds, rfl⟩) ?_
  rintro guildIds φ rfl
  split
  · exact Follows.pure rfl
  refine Follows.bind (Follows.read trivial) ?_
  rintro roleLinks φ rfl
  split
  · exact Follows.pure rfl
  refine Follows.bind (Follows.read trivial) ?_
  rintro row φ rfl
  refine Follows.bind (readFacts_follows row) ?_
  rintro facts φ rfl
  refine Follows.bind (Follows.read trivial) ?_
  rintro existing φ rfl
  exact Follows.pure rfl

theorem SyncAction.run_follows (discordId : String) (action : SyncAction) :
    Follows .idle (action.run discordId) (fun _ φ => φ = .idle) := by
  cases action with
  | add link token =>
    refine Follows.bind (Q := fun r φ => φ = .ahead (.one link discordId true) ∧ ∃ v, r = .ok v)
      (Follows.attempt fun v => ⟨_, .accept rfl, rfl, v, rfl⟩) ?_
    rintro r φ ⟨rfl, v, rfl⟩
    exact Follows.bestEffort rfl
  | remove link token =>
    refine Follows.bind (Q := fun r φ => φ = .ahead (.one link discordId false) ∧ ∃ v, r = .ok v)
      (Follows.attempt fun v => ⟨_, .accept rfl, rfl, v, rfl⟩) ?_
    rintro r φ ⟨rfl, v, rfl⟩
    exact Follows.bestEffort rfl

/-- Whatever is run owes nothing before and after. -/
theorem SyncTask.body_follows (t : SyncTask) :
    Follows .idle (t.body C) (fun _ φ => φ = .idle) := by
  cases t with
  | player discordId =>
    exact Follows.bind (planPlayer_follows C discordId) fun _ _ hφ => Follows.pure hφ
  | roleLink link =>
    exact Follows.bind (syncForRoleLink_follows link) fun _ _ hφ => Follows.pure hφ
  | act discordId action =>
    exact Follows.bind (action.run_follows discordId) fun _ _ hφ => Follows.pure hφ

end BirthdayRole
