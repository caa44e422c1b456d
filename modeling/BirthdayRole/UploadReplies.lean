/-
# An upload as RoleLogic sees it

`uploadUsers` replaces the list of a link in one request or in chunks. Here its requests
are told with their replies (`Transcript`), and RoleLogic does what an HTTP service does: a
reply with a success status has been acted upon, whether or not its body arrives, one with
an error status has left the lists alone, and of a request without a reply nothing is
known (`RoleLogic.Serves`). The upload is all or nothing then (`uploadUsers_atomic`). What
it is not is certain of its failures: the client takes a success that it cannot read for
an error, and the list has been replaced all the same.
-/
import BirthdayRole.SyncPhases

namespace BirthdayRole

open Prog

/-! ### Requests and replies -/

/-- A request about a link, and its reply. -/
structure Exchange where
  link : LinkKey
  token : String
  call : RlCall
  reply : HttpReply

/-- RoleLogic, and what it has been asked. -/
structure Served where
  roleLogic : RoleLogic
  exchanges : List Exchange

/-- A reply after which RoleLogic may have done what the client reads as an error. -/
def HttpReply.Lost (H : HttpCrates) : HttpReply → Prop
  | unreachable _ => True
  | replied status body => isSuccess status = true ∧ ∀ v, H.decode some body ≠ .ok v

namespace RoleLogic

theorem lists_setList (rl : RoleLogic) (link : LinkKey) (users : Finset String) :
    (rl.setList link users).lists link = users := Function.update_self _ _ _

theorem uploads_setUpload (rl : RoleLogic) (id : String) (upload : Option (LinkKey × List String)) :
    (rl.setUpload id upload).uploads id = upload := Function.update_self _ _ _

/-- RoleLogic does what it was asked; a session has the id that the reply names. -/
def Accepts (rl : RoleLogic) (H : HttpCrates) (link : LinkKey) (c : RlCall) (reply : HttpReply)
    (rl' : RoleLogic) : Prop :=
  ∃ v : c.Result, (∀ v', c.client H reply = .ok v' → v' = v) ∧ rl' = rl.after link c v

def Serves (rl : RoleLogic) (H : HttpCrates) (link : LinkKey) (c : RlCall) (reply : HttpReply)
    (rl' : RoleLogic) : Prop :=
  match reply with
  | .unreachable _ => rl.Accepts H link c reply rl' ∨ rl'.lists = rl.lists
  | .replied status _ =>
    if isSuccess status then rl.Accepts H link c reply rl' else rl'.lists = rl.lists

/-- RoleLogic as the outside of a program. -/
def outside (H : HttpCrates) : Outside AppError SyncCall.Result Served
  | .roleLogic link token c, s, r, s' => ∃ reply, c.client H reply = r ∧
      s.roleLogic.Serves H link c reply s'.roleLogic ∧
      s'.exchanges = s.exchanges ++ [⟨link, token, c, reply⟩]
  | _, _, _, _ => False

end RoleLogic

/-! ### What a reply says -/

section

variable {H : HttpCrates} {rl rl' : RoleLogic} {link : LinkKey} {reply : HttpReply}

theorem reading_ok {α : Type} {what : String} {known : ℕ → String → Option AppError}
    {read : Json.Value → Except AppError α} {v : α}
    (h : RoleLogicClient.reading H what known read reply = .ok v) :
    ∃ status body, reply = .replied status body ∧ isSuccess status = true := by
  cases reply with
  | unreachable e => cases h
  | replied status body =>
    have hs := (Result.guard_ok h).1
    exact ⟨status, body, rfl, by simpa using hs⟩

theorem unread_ok {what : String} {v : Unit} (h : RoleLogicClient.unread H what reply = .ok v) :
    ∃ status body, reply = .replied status body ∧ isSuccess status = true := by
  cases reply with
  | unreachable e => cases h
  | replied status body =>
    have hs := (Result.guard_ok h).1
    exact ⟨status, body, rfl, by simpa using hs⟩

theorem client_ok {c : RlCall} {v : c.Result} (h : c.client H reply = .ok v) :
    ∃ status body, reply = .replied status body ∧ isSuccess status = true := by
  cases c with
  | uploadChunk id chunk => exact unread_ok h
  | cancelUpload id => exact unread_ok h
  | _ => exact reading_ok h

/-- An error of a client that reads any JSON body. -/
theorem reading_error {α : Type} {what : String} {known : ℕ → String → Option AppError}
    {read : Json.Value → α} {e : AppError}
    (h : RoleLogicClient.reading H what known (fun body => .ok (read body)) reply = .error e) :
    reply.Lost H ∨ ∃ status body, reply = .replied status body ∧ isSuccess status = false := by
  cases reply with
  | unreachable e => exact Or.inl trivial
  | replied status body =>
    cases hs : isSuccess status with
    | false => exact Or.inr ⟨status, body, rfl, hs⟩
    | true =>
      refine Or.inl ⟨hs, fun v hv => ?_⟩
      simp only [RoleLogicClient.reading, hs, hv, Bool.not_true, Bool.false_eq_true, if_false] at h
      cases h

namespace RoleLogic

theorem Serves.of_ok {c : RlCall} {v : c.Result} (h : rl.Serves H link c reply rl')
    (hok : c.client H reply = .ok v) : rl' = rl.after link c v := by
  obtain ⟨status, body, rfl, hs⟩ := client_ok hok
  rw [Serves, if_pos hs] at h
  obtain ⟨v', hv', rfl⟩ := h
  rw [hv' v hok]

theorem Serves.accepted_or {c : RlCall} (h : rl.Serves H link c reply rl') :
    rl.Accepts H link c reply rl' ∨ rl'.lists = rl.lists := by
  cases reply with
  | unreachable e => exact h
  | replied status body =>
    rw [Serves] at h
    by_cases hs : isSuccess status = true
    · rw [if_pos hs] at h
      exact Or.inl h
    · rw [if_neg hs] at h
      exact Or.inr h

/-- What is staged does not show. -/
theorem Serves.lists_eq {c : RlCall} (h : rl.Serves H link c reply rl')
    (hc : ∀ v, (rl.after link c v).lists = rl.lists) : rl'.lists = rl.lists := by
  rcases h.accepted_or with ⟨v, -, rfl⟩ | h
  · exact hc v
  · exact h

end RoleLogic

end

/-! ### The transcript of an upload -/

section

variable (H : HttpCrates) (link : LinkKey) (token : String)

/-- A chunk that was sent under an id and taken. -/
def Taken (id : String) (chunk : List String) (ex : Exchange) : Prop :=
  ex.link = link ∧ ex.token = token ∧ ex.call = .uploadChunk id chunk ∧
    RoleLogicClient.uploadChunk H ex.reply = .ok ()

def Staged (id : String) : List (List String) → List Exchange → Prop :=
  List.Forall₂ (Taken H link token id)

/-- The requests of an upload, and what it returns. -/
inductive Transcript (ids : List String) : List Exchange → Except AppError Usize → Prop where
  | put (reply : HttpReply) : ids.length ≤ putMaxUsers →
      Transcript ids [⟨link, token, .replaceUsers ids, reply⟩]
        (RoleLogicClient.replaceUsers H reply)
  | unopened (reply : HttpReply) {e : AppError} : putMaxUsers < ids.length →
      RoleLogicClient.startUpload H reply = .error e →
      Transcript ids [⟨link, token, .startUpload, reply⟩] (.error e)
  | unstaged {id : String} {sent rest : List (List String)} {chunk : List String}
      {log : List Exchange} {e : AppError} (opened reply cancelled : HttpReply) :
      putMaxUsers < ids.length → RoleLogicClient.startUpload H opened = .ok id →
      chunks chunkSize ids = sent ++ chunk :: rest → Staged H link token id sent log →
      RoleLogicClient.uploadChunk H reply = .error e →
      Transcript ids (⟨link, token, .startUpload, opened⟩ :: (log ++
        [⟨link, token, .uploadChunk id chunk, reply⟩, ⟨link, token, .cancelUpload id, cancelled⟩]))
        (.error e)
  | uncommitted {id : String} {log : List Exchange} {e : AppError}
      (opened reply cancelled : HttpReply) :
      putMaxUsers < ids.length → RoleLogicClient.startUpload H opened = .ok id →
      Staged H link token id (chunks chunkSize ids) log →
      RoleLogicClient.commitUpload H reply = .error e →
      Transcript ids (⟨link, token, .startUpload, opened⟩ :: (log ++
        [⟨link, token, .commitUpload id, reply⟩, ⟨link, token, .cancelUpload id, cancelled⟩]))
        (.error e)
  | committed {id : String} {log : List Exchange} {n : Usize} (opened reply : HttpReply) :
      putMaxUsers < ids.length → RoleLogicClient.startUpload H opened = .ok id →
      Staged H link token id (chunks chunkSize ids) log →
      RoleLogicClient.commitUpload H reply = .ok n →
      Transcript ids (⟨link, token, .startUpload, opened⟩ :: (log ++
        [⟨link, token, .commitUpload id, reply⟩])) (.ok n)

end

section

variable {H : HttpCrates} {link : LinkKey} {token : String} {s s' : Served}
  {events : List (Event AppError SyncCall.Result)}

/-- One request, cancelled if it fails. -/
theorem uploadStep_served {c : RlCall} {id : String} {x : Except AppError c.Result}
    (h : Exec (RoleLogic.outside H) (uploadStep link token id c) s events x s') :
    ∃ reply rl, s.roleLogic.Serves H link c reply rl ∧ c.client H reply = x ∧
      s'.roleLogic.lists = rl.lists ∧
      ((∃ v, x = .ok v ∧ s' = ⟨rl, s.exchanges ++ [⟨link, token, c, reply⟩]⟩) ∨
      ∃ e cancelled, x = .error e ∧ s'.exchanges = s.exchanges ++
        [⟨link, token, c, reply⟩, ⟨link, token, .cancelUpload id, cancelled⟩]) := by
  obtain ⟨r, s₁, rest, hr, hend, rfl⟩ := h.attempt_bind_inv
  obtain ⟨reply, rfl, hserves, hlog⟩ := hr
  refine ⟨reply, s₁.roleLogic, hserves, ?_⟩
  cases hreply : c.client H reply with
  | ok v =>
    rw [hreply] at hend
    obtain ⟨rfl, -, rfl⟩ := hend.done_inv
    refine ⟨rfl, rfl, Or.inl ⟨v, rfl, ?_⟩⟩
    rw [← hlog]
  | error e =>
    rw [hreply] at hend
    obtain ⟨r', s₂, rest', hr', hend', rfl⟩ := hend.attempt_bind_inv
    obtain ⟨rfl, -, rfl⟩ := hend'.done_inv
    obtain ⟨cancelled, -, hcancel, hlog'⟩ := hr'
    refine ⟨rfl, hcancel.lists_eq fun _ => rfl, Or.inr ⟨e, cancelled, rfl, ?_⟩⟩
    rw [hlog', hlog, List.append_assoc]
    rfl

/-- The chunks are taken one after the other, or one of them fails and the upload is cancelled. -/
theorem uploadChunks_served {id : String} {x : Except AppError Unit} :
    ∀ {cs : List (List String)} {s : Served} {events : List (Event AppError SyncCall.Result)}
      {staged : List String}, s.roleLogic.uploads id = some (link, staged) →
      Exec (RoleLogic.outside H) (uploadChunks link token id cs) s events x s' →
      s'.roleLogic.lists = s.roleLogic.lists ∧
      ((∃ log, x = .ok () ∧ Staged H link token id cs log ∧
          s'.exchanges = s.exchanges ++ log ∧
          s'.roleLogic.uploads id = some (link, staged ++ cs.flatten)) ∨
        ∃ e sent chunk rest log reply cancelled, x = .error e ∧ cs = sent ++ chunk :: rest ∧
          Staged H link token id sent log ∧ RoleLogicClient.uploadChunk H reply = .error e ∧
          s'.exchanges = s.exchanges ++ (log ++ [⟨link, token, .uploadChunk id chunk, reply⟩,
            ⟨link, token, .cancelUpload id, cancelled⟩]))
  | [], s, events, staged, hid, h => by
    obtain ⟨rfl, -, rfl⟩ := h.done_inv
    refine ⟨rfl, Or.inl ⟨[], rfl, .nil, (List.append_nil _).symm, ?_⟩⟩
    rw [List.flatten_nil, List.append_nil, hid]
  | c :: cs, s, events, staged, hid, h => by
    rcases h.bind_inv with ⟨e, hstep, rfl⟩ | ⟨_, first, s₁, rest, hstep, h, rfl⟩
    · obtain ⟨reply, rl, hserves, hreply, hlists, hend⟩ := uploadStep_served hstep
      rcases hend with ⟨v, hv, -⟩ | ⟨e', cancelled, he, hlog⟩
      · cases hv
      · cases he
        refine ⟨hlists.trans (hserves.lists_eq fun _ => rfl), Or.inr ?_⟩
        exact ⟨e, [], c, cs, [], reply, cancelled, rfl, rfl, .nil, hreply, hlog⟩
    · obtain ⟨reply, rl, hserves, hreply, -, hend⟩ := uploadStep_served hstep
      rcases hend with ⟨v, -, rfl⟩ | ⟨e, cancelled, he, -⟩
      · have hrl := hserves.of_ok hreply
        have hid' : rl.uploads id = some (link, staged ++ c) := by
          rw [hrl, RoleLogic.after, RoleLogic.uploads_setUpload, hid]
          rfl
        have hsame : rl.lists = s.roleLogic.lists := by
          rw [hrl]
          rfl
        have htaken : Taken H link token id c ⟨link, token, .uploadChunk id c, reply⟩ :=
          ⟨rfl, rfl, rfl, hreply⟩
        obtain ⟨hlists, hrest⟩ := uploadChunks_served hid' h
        refine ⟨hlists.trans hsame, ?_⟩
        rcases hrest with ⟨log, hx, hstaged, hlog, hup⟩ |
          ⟨e, sent, chunk, rest, log, reply', cancelled, hx, hcs, hstaged, herr, hlog⟩
        · refine Or.inl ⟨_ :: log, hx, .cons htaken hstaged, ?_, ?_⟩
          · rw [hlog, List.append_assoc]
            rfl
          · rw [hup, List.flatten_cons, List.append_assoc]
        · refine Or.inr ⟨e, c :: sent, chunk, rest, _ :: log, reply', cancelled, hx, ?_,
            .cons htaken hstaged, herr, ?_⟩
          · rw [hcs]
            rfl
          · rw [hlog, List.append_assoc]
            rfl
      · cases he

/-- A request that replaces the list. -/
def Exchange.Replaces (ex : Exchange) : Prop :=
  (∃ ids, ex.call = .replaceUsers ids) ∨ ∃ id, ex.call = .commitUpload id

/-- The list of the link is the given one, and the caller knows or a reply was lost. -/
def Replaced (H : HttpCrates) (link : LinkKey) (ids : List String) (rl rl' : RoleLogic)
    (log : List Exchange) (x : Except AppError Usize) : Prop :=
  rl'.lists = Function.update rl.lists link ids.toFinset ∧
    ((∃ n, x = .ok n) ∨ ∃ ex ∈ log, ex.Replaces ∧ ex.reply.Lost H)

/-- No list has changed, and the caller knows. -/
def Unchanged (rl rl' : RoleLogic) (x : Except AppError Usize) : Prop :=
  rl'.lists = rl.lists ∧ ∃ e, x = .error e

/-- What a request that replaces the list does to it. -/
theorem Serves.replaces {c : RlCall} {ids : List String} {rl rl' : RoleLogic} {reply : HttpReply}
    (h : rl.Serves H link c reply rl')
    (hafter : ∀ v, (rl.after link c v).lists = Function.update rl.lists link ids.toFinset)
    (herr : ∀ e, c.client H reply = .error e → reply.Lost H ∨
      ∃ status body, reply = .replied status body ∧ isSuccess status = false) :
    (rl'.lists = Function.update rl.lists link ids.toFinset ∧
      ((∃ v, c.client H reply = .ok v) ∨ reply.Lost H)) ∨
    (rl'.lists = rl.lists ∧ ∃ e, c.client H reply = .error e) := by
  cases hreply : c.client H reply with
  | ok v =>
    rw [h.of_ok hreply]
    exact Or.inl ⟨hafter v, Or.inl ⟨v, rfl⟩⟩
  | error e =>
    rcases herr e hreply with hlost | ⟨status, body, rfl, hs⟩
    · rcases h.accepted_or with ⟨v, -, rfl⟩ | hsame
      · exact Or.inl ⟨hafter v, Or.inr hlost⟩
      · exact Or.inr ⟨hsame, e, rfl⟩
    · rw [RoleLogic.Serves, hs, if_neg Bool.false_ne_true] at h
      exact Or.inr ⟨h, e, rfl⟩

theorem Serves.replaces_put {ids : List String} {rl rl' : RoleLogic} {reply : HttpReply}
    (h : rl.Serves H link (.replaceUsers ids) reply rl') :
    (rl'.lists = Function.update rl.lists link ids.toFinset ∧
      ((∃ n, RoleLogicClient.replaceUsers H reply = .ok n) ∨ reply.Lost H)) ∨
    (rl'.lists = rl.lists ∧ ∃ e, RoleLogicClient.replaceUsers H reply = .error e) :=
  Serves.replaces h (fun _ => rfl) fun _ he => reading_error he

/-- A commit puts what is staged in the place of the list. -/
theorem Serves.replaces_commit {id : String} {ids : List String} {rl rl' : RoleLogic}
    {reply : HttpReply} (hup : rl.uploads id = some (link, ids))
    (h : rl.Serves H link (.commitUpload id) reply rl') :
    (rl'.lists = Function.update rl.lists link ids.toFinset ∧
      ((∃ n, RoleLogicClient.commitUpload H reply = .ok n) ∨ reply.Lost H)) ∨
    (rl'.lists = rl.lists ∧ ∃ e, RoleLogicClient.commitUpload H reply = .error e) := by
  refine Serves.replaces h (fun v => ?_) fun _ he => reading_error he
  rcases rl.after_commitUpload link id v with ⟨hnone, -⟩ | ⟨u, hu, he⟩
  · cases hup.symm.trans hnone
  · cases hup.symm.trans hu
    exact congrArg RoleLogic.lists he

theorem uploadUsers_served {ids : List String} {x : Except AppError Usize}
    (h : Exec (RoleLogic.outside H) (uploadUsers link ids token) s events x s') :
    ∃ log, s'.exchanges = s.exchanges ++ log ∧ Transcript H link token ids log x ∧
      (Unchanged s.roleLogic s'.roleLogic x ∨
        Replaced H link ids s.roleLogic s'.roleLogic log x) := by
  unfold uploadUsers at h
  by_cases hlen : ids.length ≤ putMaxUsers
  · rw [if_pos hlen] at h
    obtain ⟨reply, rfl, hserves, hlog⟩ := h.perform_inv.1
    refine ⟨_, hlog, .put reply hlen, ?_⟩
    rcases Serves.replaces_put hserves with ⟨hlists, hknown⟩ | hsame
    · refine Or.inr ⟨hlists, hknown.imp_right fun hlost => ?_⟩
      exact ⟨_, List.mem_singleton_self _, Or.inl ⟨ids, rfl⟩, hlost⟩
    · exact Or.inl hsame
  · rw [if_neg hlen] at h
    have hlen := not_le.mp hlen
    rcases h.perform_bind_inv with ⟨e, hopen, -, rfl⟩ | ⟨id, s₁, rest, hopen, hrest, -⟩
    · obtain ⟨opened, hid, hserves, hlog⟩ := hopen
      exact ⟨_, hlog, .unopened opened hlen hid,
        Or.inl ⟨hserves.lists_eq fun _ => rfl, e, rfl⟩⟩
    · obtain ⟨opened, hid, hserves, hlog⟩ := hopen
      have hopened := hserves.of_ok hid
      have hnew : s₁.roleLogic.uploads id = some (link, []) := by
        rw [hopened]
        exact RoleLogic.uploads_setUpload _ _ _
      have hsame : s₁.roleLogic.lists = s.roleLogic.lists := by
        rw [hopened]
        rfl
      rcases hrest.bind_inv with ⟨e, hchunks, rfl⟩ | ⟨_, first, s₂, rest', hchunks, hcommit, -⟩
      · obtain ⟨hlists, hend⟩ := uploadChunks_served hnew hchunks
        rcases hend with ⟨log, hx, -⟩ |
          ⟨e', sent, chunk, unsent, log, reply, cancelled, he, hcs, hstaged, herr, hlog'⟩
        · cases hx
        · cases he
          refine ⟨_, ?_, .unstaged opened reply cancelled hlen hid hcs hstaged herr,
            Or.inl ⟨hlists.trans hsame, e, rfl⟩⟩
          rw [hlog', hlog, List.append_assoc]
          rfl
      · obtain ⟨hlists, hend⟩ := uploadChunks_served hnew hchunks
        rcases hend with ⟨log, -, hstaged, hlog', hup⟩ | ⟨_, _, _, _, _, _, _, hx, -⟩
        · rw [List.nil_append, flatten_chunks (by decide)] at hup
          obtain ⟨reply, rl, hserves', hreply, hlists', hend'⟩ := uploadStep_served hcommit
          have hdone := Serves.replaces_commit hup hserves'
          rw [← hlists', hlists.trans hsame] at hdone
          rcases hend' with ⟨n, rfl, rfl⟩ | ⟨e, cancelled, rfl, hlog''⟩
          · refine ⟨_, ?_, .committed opened reply hlen hid hstaged hreply, Or.inr ?_⟩
            · rw [hlog', hlog, List.append_assoc, List.append_assoc]
              rfl
            · rcases hdone with ⟨hnew, -⟩ | ⟨-, e, he⟩
              · exact ⟨hnew, Or.inl ⟨n, rfl⟩⟩
              · cases hreply.symm.trans he
          · refine ⟨_, ?_, .uncommitted opened reply cancelled hlen hid hstaged hreply, ?_⟩
            · rw [hlog'', hlog', hlog, List.append_assoc, List.append_assoc]
              rfl
            · rcases hdone with ⟨hnew, ⟨n, hn⟩ | hlost⟩ | ⟨hsame, -⟩
              · cases hreply.symm.trans hn
              · refine Or.inr ⟨hnew, Or.inr ⟨⟨link, token, .commitUpload id, reply⟩, ?_,
                  Or.inr ⟨id, rfl⟩, hlost⟩⟩
                simp
              · exact Or.inl ⟨hsame, e, rfl⟩
        · cases hx

end

/-! ### What a transcript shows -/

/-- The users that a call stages. -/
def RlCall.chunk : RlCall → Option (List String)
  | uploadChunk _ userIds => some userIds
  | _ => none

/-- The session that a call is about. -/
def RlCall.session : RlCall → Option String
  | uploadChunk id _ | commitUpload id | cancelUpload id => some id
  | _ => none

/-- The chunks of some requests, in order. -/
def chunkBodies (log : List Exchange) : List (List String) := log.filterMap fun ex => ex.call.chunk

section

variable {H : HttpCrates} {link : LinkKey} {token : String} {id : String} {ids : List String}
  {cs : List (List String)} {log : List Exchange} {x : Except AppError Usize}

theorem Staged.bodies (h : Staged H link token id cs log) : chunkBodies log = cs := by
  induction h with
  | nil => rfl
  | cons htaken _ ih =>
    obtain ⟨-, -, hcall, -⟩ := htaken
    unfold chunkBodies at ih ⊢
    rw [List.filterMap_cons, hcall, ih]
    rfl

theorem Staged.mem (h : Staged H link token id cs log) {ex : Exchange} (hex : ex ∈ log) :
    ∃ chunk, Taken H link token id chunk ex := by
  induction h with
  | nil => exact absurd hex List.not_mem_nil
  | cons htaken _ ih =>
    rcases List.mem_cons.mp hex with rfl | hex
    · exact ⟨_, htaken⟩
    · exact ih hex

/-- A list is split in one way at the only element of a kind. -/
theorem eq_of_split {α : Type} {p : α → Prop} {y z : α} {post after : List α} (hpost : ∀ a ∈ post, ¬p a)
    (hz : p z) : ∀ {pre before : List α}, (∀ a ∈ pre, ¬p a) →
      pre ++ y :: post = before ++ z :: after → before = pre
  | [], [], _, _ => rfl
  | [], b :: before, _, h => by
    have hmem : z ∈ post := by
      rw [(List.cons.inj h).2]
      exact List.mem_append_right _ List.mem_cons_self
    exact absurd hz (hpost z hmem)
  | a :: pre, [], hpre, h => absurd hz ((List.cons.inj h).1 ▸ hpre a List.mem_cons_self)
  | a :: pre, b :: before, hpre, h => by
    obtain ⟨rfl, htail⟩ := List.cons.inj h
    exact congrArg (a :: ·)
      (eq_of_split hpost hz (fun b hb => hpre b (List.mem_cons_of_mem _ hb)) htail)

theorem length_chunksAux {α : Type} {size : ℕ} (hsize : 0 < size) : ∀ (n : ℕ) (xs : List α),
    ∀ c ∈ chunksAux size n xs, 1 ≤ c.length ∧ c.length ≤ size
  | 0, _, c, hc => absurd hc List.not_mem_nil
  | _ + 1, [], c, hc => absurd hc List.not_mem_nil
  | n + 1, x :: xs, c, hc => by
    rcases List.mem_cons.mp hc with rfl | hc
    · rw [List.length_take, List.length_cons]
      omega
    · exact length_chunksAux hsize n _ c hc

/-- What is sent before the commit is the request for the session and every chunk. -/
theorem Staged.before_commit (h : Staged H link token id cs log) {opened : HttpReply} {y ex : Exchange}
    {post before after : List Exchange} (hpost : ∀ a ∈ post, ¬∃ id', a.call = .commitUpload id')
    (hlog : ⟨link, token, .startUpload, opened⟩ :: (log ++ y :: post) = before ++ ex :: after)
    (hcall : ∃ id', ex.call = .commitUpload id') :
    chunkBodies before = cs ∧ ∀ ex' ∈ before, ∀ id' chunk, ex'.call = .uploadChunk id' chunk →
      RoleLogicClient.uploadChunk H ex'.reply = .ok () := by
  have hpre : ∀ a ∈ (⟨link, token, .startUpload, opened⟩ :: log : List Exchange),
      ¬∃ id', a.call = .commitUpload id' := by
    rintro a ha ⟨id', hid'⟩
    rcases List.mem_cons.mp ha with rfl | ha
    · cases hid'
    · obtain ⟨chunk, -, -, hchunk, -⟩ := h.mem ha
      cases hchunk.symm.trans hid'
  obtain rfl := eq_of_split hpost hcall hpre hlog
  refine ⟨h.bodies, fun ex' hex' id' chunk hchunk => ?_⟩
  rcases List.mem_cons.mp hex' with rfl | hex'
  · cases hchunk
  · obtain ⟨_, -, -, -, hok⟩ := h.mem hex'
    exact hok

/-- A commit is sent when every chunk has been taken. -/
theorem Transcript.commit_last (h : Transcript H link token ids log x) {before after : List Exchange}
    {ex : Exchange} (hlog : log = before ++ ex :: after) (hcall : ∃ id, ex.call = .commitUpload id) :
    chunkBodies before = chunks chunkSize ids ∧
      ∀ ex' ∈ before, ∀ id' chunk, ex'.call = .uploadChunk id' chunk →
        RoleLogicClient.uploadChunk H ex'.reply = .ok () := by
  have hmem : ex ∈ log := by
    rw [hlog]
    exact List.mem_append_right _ List.mem_cons_self
  obtain ⟨id, hid⟩ := hcall
  cases h with
  | put reply | unopened reply =>
    obtain rfl := List.mem_singleton.mp hmem
    cases hid
  | unstaged opened reply cancelled _ _ _ hstaged =>
    simp only [List.mem_cons, List.mem_append, List.not_mem_nil, or_false] at hmem
    rcases hmem with rfl | hmem | rfl | rfl
    · cases hid
    · obtain ⟨chunk, -, -, hchunk, -⟩ := hstaged.mem hmem
      cases hchunk.symm.trans hid
    · cases hid
    · cases hid
  | uncommitted opened reply cancelled _ _ hstaged =>
    refine hstaged.before_commit (fun a ha => ?_) hlog ⟨id, hid⟩
    obtain rfl := List.mem_singleton.mp ha
    rintro ⟨_, h⟩
    cases h
  | committed opened reply _ _ hstaged =>
    exact hstaged.before_commit (fun a ha => absurd ha List.not_mem_nil) hlog ⟨id, hid⟩

/-- The chunks that are sent are the first ones, in order. -/
theorem Transcript.bodies_prefix (h : Transcript H link token ids log x) :
    chunkBodies log <+: chunks chunkSize ids := by
  have hsplit : ∀ (ex : Exchange) (log post : List Exchange), ex.call.chunk = none →
      chunkBodies (ex :: (log ++ post)) = chunkBodies log ++ chunkBodies post := by
    intro ex log post hex
    unfold chunkBodies
    rw [List.filterMap_cons, hex, List.filterMap_append]
  cases h with
  | put reply | unopened reply => exact List.nil_prefix
  | unstaged opened reply cancelled _ _ hcs hstaged =>
    rw [hsplit _ _ _ rfl, hstaged.bodies, hcs]
    exact List.prefix_append_right_inj _ |>.mpr ⟨_, rfl⟩
  | uncommitted opened reply cancelled _ _ hstaged =>
    rw [hsplit _ _ _ rfl, hstaged.bodies]
    exact (List.append_nil _).symm ▸ List.prefix_rfl
  | committed opened reply _ _ hstaged =>
    rw [hsplit _ _ _ rfl, hstaged.bodies]
    exact (List.append_nil _).symm ▸ List.prefix_rfl

/-- The requests of a session, after the one that opened it. -/
def InSession (link : LinkKey) (token id : String) (ex : Exchange) : Prop :=
  ex.link = link ∧ ex.token = token ∧ ex.call.session = some id

theorem Staged.inSession (h : Staged H link token id cs log) : ∀ ex ∈ log, InSession link token id ex := by
  intro ex hex
  obtain ⟨chunk, hlink, htoken, hcall, -⟩ := h.mem hex
  refine ⟨hlink, htoken, ?_⟩
  rw [hcall]
  rfl

/-- An upload is one request, or a session; or it failed before it had one. -/
theorem Transcript.session (h : Transcript H link token ids log x) :
    (∃ reply, log = [⟨link, token, .replaceUsers ids, reply⟩]) ∨
    (∃ reply e, log = [⟨link, token, .startUpload, reply⟩] ∧
      RoleLogicClient.startUpload H reply = .error e) ∨
    ∃ opened id rest, log = ⟨link, token, .startUpload, opened⟩ :: rest ∧
      RoleLogicClient.startUpload H opened = .ok id ∧ (∀ ex ∈ rest, InSession link token id ex) ∧
      ((∃ n, x = .ok n) ∨ ∃ ex ∈ rest, ex.call = .cancelUpload id) := by
  have hmore : ∀ {log tail : List Exchange} {id : String}, (∀ ex ∈ log, InSession link token id ex) →
      (∀ ex ∈ tail, InSession link token id ex) → ∀ ex ∈ log ++ tail, InSession link token id ex :=
    fun hl ht ex hex => (List.mem_append.mp hex).elim (hl ex) (ht ex)
  have hpair : ∀ {id : String} {a b : RlCall} (r r' : HttpReply), a.session = some id →
      b.session = some id → ∀ ex ∈ [(⟨link, token, a, r⟩ : Exchange), ⟨link, token, b, r'⟩],
        InSession link token id ex := by
    intro id a b r r' ha hb ex hex
    rcases List.mem_cons.mp hex with rfl | hex
    · exact ⟨rfl, rfl, ha⟩
    · obtain rfl := List.mem_singleton.mp hex
      exact ⟨rfl, rfl, hb⟩
  cases h with
  | put reply => exact Or.inl ⟨reply, rfl⟩
  | unopened reply _ he => exact Or.inr (Or.inl ⟨reply, _, rfl, he⟩)
  | unstaged opened reply cancelled _ hid _ hstaged =>
    refine Or.inr (Or.inr ⟨opened, _, _, rfl, hid, hmore hstaged.inSession
      (hpair reply cancelled rfl rfl), Or.inr ⟨⟨link, token, .cancelUpload _, cancelled⟩, ?_, rfl⟩⟩)
    simp
  | uncommitted opened reply cancelled _ hid hstaged =>
    refine Or.inr (Or.inr ⟨opened, _, _, rfl, hid, hmore hstaged.inSession
      (hpair reply cancelled rfl rfl), Or.inr ⟨⟨link, token, .cancelUpload _, cancelled⟩, ?_, rfl⟩⟩)
    simp
  | committed opened reply _ hid hstaged =>
    refine Or.inr (Or.inr ⟨opened, _, _, rfl, hid, hmore hstaged.inSession fun ex hex => ?_,
      Or.inl ⟨_, rfl⟩⟩)
    obtain rfl := List.mem_singleton.mp hex
    exact ⟨rfl, rfl, rfl⟩

/-- A session whose id was read is committed, or a cancel is sent. -/
theorem Transcript.cancelled (h : Transcript H link token ids log x) {ex : Exchange} (hex : ex ∈ log)
    (hcall : ex.call = .startUpload) (hid : RoleLogicClient.startUpload H ex.reply = .ok id) :
    (∃ n, x = .ok n) ∨ ∃ ex' ∈ log, ex'.call = .cancelUpload id := by
  rcases h.session with ⟨reply, rfl⟩ | ⟨reply, e, rfl, he⟩ | ⟨opened, id', rest, rfl, hopened, hrest, hend⟩
  · obtain rfl := List.mem_singleton.mp hex
    cases hcall
  · obtain rfl := List.mem_singleton.mp hex
    cases he.symm.trans hid
  · rcases List.mem_cons.mp hex with rfl | hex
    · cases hopened.symm.trans hid
      rcases hend with hok | ⟨ex', hex', hcancel⟩
      · exact Or.inl hok
      · exact Or.inr ⟨ex', List.mem_cons_of_mem _ hex', hcancel⟩
    · have hsession := (hrest ex hex).2.2
      rw [hcall] at hsession
      cases hsession

/-- Every request is about the link, and of a session that was opened before. -/
theorem Transcript.about (h : Transcript H link token ids log x) {ex : Exchange} (hex : ex ∈ log) :
    ex.link = link ∧ ex.token = token ∧ ∀ id, ex.call.session = some id →
      ∃ ex' ∈ log, ex'.call = .startUpload ∧ RoleLogicClient.startUpload H ex'.reply = .ok id := by
  rcases h.session with ⟨reply, rfl⟩ | ⟨reply, e, rfl, he⟩ | ⟨opened, id', rest, rfl, hopened, hrest, -⟩
  · obtain rfl := List.mem_singleton.mp hex
    exact ⟨rfl, rfl, fun _ hid => by cases hid⟩
  · obtain rfl := List.mem_singleton.mp hex
    exact ⟨rfl, rfl, fun _ hid => by cases hid⟩
  · rcases List.mem_cons.mp hex with rfl | hex
    · exact ⟨rfl, rfl, fun _ hid => by cases hid⟩
    · obtain ⟨hlink, htoken, hsession⟩ := hrest ex hex
      refine ⟨hlink, htoken, fun id hid => ⟨_, List.mem_cons_self, rfl, ?_⟩⟩
      cases hsession.symm.trans hid
      exact hopened

end

/-- An upload is all or nothing. -/
theorem uploadUsers_atomic {H : HttpCrates} {rl : RoleLogic} {link : LinkKey} {ids : List String}
    {token : String} {events : List (Event AppError SyncCall.Result)} {x : Except AppError Usize}
    {s' : Served}
    (h : Exec (RoleLogic.outside H) (uploadUsers link ids token) ⟨rl, []⟩ events x s') :
    (s'.roleLogic.lists = rl.lists ∨
      s'.roleLogic.lists = Function.update rl.lists link ids.toFinset) ∧
    (∀ n, x = .ok n → s'.roleLogic.lists = Function.update rl.lists link ids.toFinset) ∧
    (∀ e, x = .error e → s'.roleLogic.lists = rl.lists ∨
      ∃ ex ∈ s'.exchanges, ex.Replaces ∧ ex.reply.Lost H) ∧
    (chunks chunkSize ids).flatten = ids ∧
    (∀ c ∈ chunks chunkSize ids, 1 ≤ c.length ∧ c.length ≤ 100000) ∧
    chunkBodies s'.exchanges <+: chunks chunkSize ids ∧
    (∀ before ex after, s'.exchanges = before ++ ex :: after → (∃ id, ex.call = .commitUpload id) →
      chunkBodies before = chunks chunkSize ids ∧
      ∀ ex' ∈ before, ∀ id chunk, ex'.call = .uploadChunk id chunk →
        RoleLogicClient.uploadChunk H ex'.reply = .ok ()) ∧
    (∀ ex ∈ s'.exchanges, ∀ id, ex.call = .startUpload →
      RoleLogicClient.startUpload H ex.reply = .ok id →
      (∃ n, x = .ok n) ∨ ∃ ex' ∈ s'.exchanges, ex'.call = .cancelUpload id) ∧
    ∀ ex ∈ s'.exchanges, ex.link = link ∧ ex.token = token ∧
      ∀ id, ex.call.session = some id → ∃ ex' ∈ s'.exchanges, ex'.call = .startUpload ∧
        RoleLogicClient.startUpload H ex'.reply = .ok id := by
  obtain ⟨log, hlog, ht, hend⟩ := uploadUsers_served h
  rw [List.nil_append] at hlog
  subst hlog
  refine ⟨?_, ?_, ?_, flatten_chunks (by decide) ids, length_chunksAux (by decide) _ ids,
    ht.bodies_prefix, ?_, ?_, ?_⟩
  · exact hend.imp And.left And.left
  · rintro n rfl
    rcases hend with ⟨-, e, he⟩ | ⟨hnew, -⟩
    · cases he
    · exact hnew
  · rintro e rfl
    rcases hend with ⟨hsame, -⟩ | ⟨-, ⟨n, hn⟩ | hlost⟩
    · exact Or.inl hsame
    · cases hn
    · exact Or.inr hlost
  · exact fun before ex after hsplit hcall => ht.commit_last hsplit hcall
  · exact fun ex hex id hcall hid => ht.cancelled hex hcall hid
  · exact fun ex hex => ht.about hex

/-! ### Replies that are lost -/

/-- Nobody is on a list, and no upload is open. -/
def RoleLogic.empty : RoleLogic := ⟨fun _ => ∅, fun _ => ⟨1, one_lt_usize⟩, fun _ => none⟩

/-- A success without a JSON body. -/
def blankReply : HttpReply := .replied 200 (.ok "")

/-- The list of one user, sent and acted upon, whatever the client makes of the reply. -/
theorem putOne_served (reply : HttpReply)
    (hserves : ∀ rl', RoleLogic.empty.Accepts pairHttp pairLink (.replaceUsers ["1"]) reply rl' →
      RoleLogic.empty.Serves pairHttp pairLink (.replaceUsers ["1"]) reply rl') :
    ∃ events s', Exec (RoleLogic.outside pairHttp) (uploadUsers pairLink ["1"] "t")
      ⟨RoleLogic.empty, []⟩ events (RoleLogicClient.replaceUsers pairHttp reply) s' ∧
      s'.roleLogic.lists pairLink = {"1"} := by
  let n : Usize := (RoleLogicClient.replaceUsers pairHttp reply).toOption.getD ⟨0, zero_lt_usize⟩
  have haccepts : RoleLogic.empty.Accepts pairHttp pairLink (.replaceUsers ["1"]) reply
      (RoleLogic.empty.setList pairLink {"1"}) := by
    refine ⟨n, fun v hv => ?_, rfl⟩
    have hv : RoleLogicClient.replaceUsers pairHttp reply = .ok v := hv
    show v = (RoleLogicClient.replaceUsers pairHttp reply).toOption.getD ⟨0, zero_lt_usize⟩
    rw [hv]
    rfl
  refine ⟨_, ⟨RoleLogic.empty.setList pairLink {"1"}, [⟨pairLink, "t", .replaceUsers ["1"], reply⟩]⟩,
    .call ⟨reply, rfl, hserves _ haccepts, rfl⟩ .done, ?_⟩
  exact RoleLogic.lists_setList _ _ _

/-- An upload that fails may have replaced the list: its reply was a success that cannot be
read, or it did not come. And a session whose id cannot be read is not cancelled. -/
theorem lostReplies_replace : RoleLogic.empty.lists pairLink = ∅ ∧
    (∃ e events s', Exec (RoleLogic.outside pairHttp) (uploadUsers pairLink ["1"] "t")
      ⟨RoleLogic.empty, []⟩ events (.error e) s' ∧ s'.roleLogic.lists pairLink = {"1"}) ∧
    (∃ events s', Exec (RoleLogic.outside pairHttp) (uploadUsers pairLink ["1"] "t")
      ⟨RoleLogic.empty, []⟩ events (.error (.roleLogic "timed out")) s' ∧
      s'.roleLogic.lists pairLink = {"1"}) ∧
    ∃ e events s', Exec (RoleLogic.outside pairHttp)
      (uploadUsers pairLink (List.replicate 100001 "1") "t") ⟨RoleLogic.empty, []⟩ events (.error e) s' ∧
      s'.roleLogic.uploads "s" = some (pairLink, []) ∧
      s'.exchanges = [⟨pairLink, "t", .startUpload, blankReply⟩] := by
  refine ⟨rfl, ⟨_, putOne_served blankReply fun _ h => h⟩,
    putOne_served (.unreachable "timed out") fun _ h => Or.inl h, ?_⟩
  have hlen : ¬(List.replicate 100001 "1").length ≤ putMaxUsers := by
    rw [List.length_replicate]
    decide
  obtain ⟨events, hexec⟩ : ∃ events, Exec (RoleLogic.outside pairHttp)
      (uploadUsers pairLink (List.replicate 100001 "1") "t") ⟨RoleLogic.empty, []⟩ events
      (.error (.roleLogic pairHttp.decodeError)) ⟨RoleLogic.empty.setUpload "s" (some (pairLink, [])),
        [⟨pairLink, "t", .startUpload, blankReply⟩]⟩ := by
    unfold uploadUsers
    rw [if_neg hlen]
    refine Exec.exists_call ⟨blankReply, rfl, ⟨"s", fun v hv => ?_, rfl⟩, rfl⟩ ⟨_, .done⟩
    cases hv
  exact ⟨_, events, _, hexec, RoleLogic.uploads_setUpload _ _ _, rfl⟩

/-! ### An upload in two chunks -/

theorem chunksAux_of_ne_nil {α : Type} (size n : ℕ) {xs : List α} (h : xs ≠ []) :
    chunksAux size (n + 1) xs = xs.take size :: chunksAux size n (xs.drop size) := by
  cases xs with
  | nil => exact absurd rfl h
  | cons x xs => rfl

theorem chunks_append {α : Type} {size : ℕ} {first second : List α} (hfirst : first.length = size)
    (hne : first ≠ []) (hne' : second ≠ []) (hsecond : second.length ≤ size) :
    chunks size (first ++ second) = [first, second] := by
  obtain ⟨n, hn⟩ : ∃ n, (first ++ second).length = n + 1 + 1 := by
    have h1 := List.length_pos_iff.mpr hne
    have h2 := List.length_pos_iff.mpr hne'
    exact ⟨first.length + second.length - 2, by rw [List.length_append]; omega⟩
  have hnil : chunksAux size n ([] : List α) = [] := by cases n <;> rfl
  rw [chunks, hn, chunksAux_of_ne_nil _ _ (List.append_ne_nil_of_left_ne_nil hne second),
    List.take_left' hfirst, List.drop_left' hfirst, chunksAux_of_ne_nil _ _ hne',
    List.take_of_length_le hsecond, List.drop_of_length_le hsecond, hnil]

/-- A call that is answered with a success, and acted upon. -/
theorem RoleLogic.outside_ok {H : HttpCrates} {link : LinkKey} {token body : String} {c : RlCall}
    {v : c.Result} {s : Served} (h : c.client H (.replied 200 (.ok body)) = .ok v) :
    RoleLogic.outside H (.roleLogic link token c) s (.ok v) ⟨s.roleLogic.after link c v,
      s.exchanges ++ [⟨link, token, c, .replied 200 (.ok body)⟩]⟩ := by
  have haccepts : s.roleLogic.Accepts H link c (.replied 200 (.ok body))
      (s.roleLogic.after link c v) := by
    refine ⟨v, fun v' hv' => ?_, rfl⟩
    rw [h] at hv'
    exact (Except.ok.inj hv').symm
  exact ⟨_, h, haccepts, rfl⟩

def openedBody : String := "\x7b\"data\":\x7b\"upload_id\":\"s\"\x7d\x7d"

def openedHttp : HttpCrates := .ofBodies
  [(emptyBody, .object []),
    (openedBody, .object [("data", .object [("upload_id", .string "s")])])]

/-- One user more than a chunk holds. -/
def twoChunks : List String := List.replicate 100000 "1" ++ ["2"]

/-- A list that is sent in two chunks is the given one once the commit is read. -/
theorem uploadUsers_atomic_twoChunks : ∃ n events s',
    Exec (RoleLogic.outside openedHttp) (uploadUsers pairLink twoChunks "t") ⟨RoleLogic.empty, []⟩
      events (.ok n) s' ∧ s'.exchanges.length = 4 ∧
    s'.roleLogic.lists = Function.update RoleLogic.empty.lists pairLink twoChunks.toFinset := by
  have hlong : ¬twoChunks.length ≤ putMaxUsers := by
    rw [twoChunks, List.length_append, List.length_replicate]
    decide
  have hchunks : chunks chunkSize twoChunks = [List.replicate 100000 "1", ["2"]] :=
    chunks_append List.length_replicate
      (List.ne_nil_of_length_pos (by rw [List.length_replicate]; exact Nat.succ_pos 99999))
      (List.cons_ne_nil _ _) (Nat.succ_le_succ (Nat.zero_le 99999))
  have hstart := @RoleLogic.outside_ok openedHttp pairLink "t" openedBody .startUpload "s"
  have hchunk := fun chunk =>
    @RoleLogic.outside_ok openedHttp pairLink "t" emptyBody (.uploadChunk "s" chunk) ()
  have hcommit := @RoleLogic.outside_ok openedHttp pairLink "t" emptyBody (.commitUpload "s")
    ⟨0, zero_lt_usize⟩
  obtain ⟨events, s', hexec, hlen⟩ : ∃ events s', Exec (RoleLogic.outside openedHttp)
      (uploadUsers pairLink twoChunks "t") ⟨RoleLogic.empty, []⟩ events (.ok ⟨0, zero_lt_usize⟩) s' ∧
      s'.exchanges.length = 4 := by
    unfold uploadUsers
    rw [if_neg hlong, hchunks]
    exact ⟨_, _, .call (hstart rfl) (.call (hchunk _ rfl) (.call (hchunk _ rfl)
      (.call (hcommit rfl) .done))), rfl⟩
  exact ⟨_, events, s', hexec, hlen, (uploadUsers_atomic hexec).2.1 _ rfl⟩

end BirthdayRole
