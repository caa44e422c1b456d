/-
# What an upload leaves behind

`uploadUsers` ends in one of two ways, in one request or in chunks: the list of the
link is the given one, or RoleLogic refused a call and no list has changed. A run then
either writes the rows that mirror the list, or deletes a link whose token was
rejected, or leaves the rows as they are (`uploadAndMirror_outcome`). Where statements
may fail too, the list can be replaced and the rows not (`uploadAndMirror_ends`).
-/
import BirthdayRole.Changes
import BirthdayRole.SyncPhases

namespace BirthdayRole

open Prog

abbrev SyncEvent := Event AppError SyncCall.Result

/-- RoleLogic answered a call on a link, made with a token, with an error. -/
def Refused (link : LinkKey) (token : String) (e : AppError) (events : List SyncEvent) : Prop :=
  ∃ c, (⟨.roleLogic link token c, .error e⟩ : SyncEvent) ∈ events

theorem Refused.mono {link : LinkKey} {token : String} {e : AppError} {events events' : List SyncEvent}
    (h : Refused link token e events) (hsub : events ⊆ events') : Refused link token e events' := by
  obtain ⟨c, hc⟩ := h
  exact ⟨c, hsub hc⟩

/-- A world with other uploads open. -/
def World.withUploads (w : World) (uploads : String → Option (LinkKey × List String)) : World :=
  { w with roleLogic := { w.roleLogic with uploads := uploads } }

/-- The same where the list of a link has been replaced. -/
def World.replaced (w : World) (link : LinkKey) (userIds : List String)
    (uploads : String → Option (LinkKey × List String)) : World :=
  { w with roleLogic := { w.roleLogic.setList link userIds.toFinset with uploads := uploads } }

section

variable {H : HttpCrates} {O : Outside AppError SyncCall.Result World}
  (hO : ∀ c w r w', O c w r w' → World.outside H c w r w')

variable {link : LinkKey} {token : String} {w w' : World} {events : List SyncEvent}

include hO

/-- A cancel touches the upload and nothing else. -/
theorem cancelAfter_outcome {α : Type} {id : String} {e : AppError} {x : Except AppError α}
    (h : Exec O (cancelAfter link token id e) w events x w') :
    x = .error e ∧ ∃ u, w' = w.withUploads u := by
  obtain ⟨r, w₁, rest, hr, hend, rfl⟩ := h.attempt_bind_inv
  obtain ⟨rfl, rfl, rfl⟩ := hend.done_inv
  obtain ⟨-, rfl⟩ := hO _ _ _ _ hr
  refine ⟨rfl, ?_⟩
  cases r with
  | ok v => exact ⟨_, rfl⟩
  | error e => exact ⟨w.roleLogic.uploads, rfl⟩

theorem uploadStep_outcome {c : RlCall} {id : String} {x : Except AppError c.Result}
    (h : Exec O (uploadStep link token id c) w events x w') :
    (∃ v, x = .ok v ∧ w' = w.after (.roleLogic link token c) v) ∨
    ∃ e u, x = .error e ∧ w' = w.withUploads u ∧ Refused link token e events := by
  obtain ⟨r, w₁, rest, hr, hend, rfl⟩ := h.attempt_bind_inv
  obtain ⟨-, rfl⟩ := hO _ _ _ _ hr
  cases r with
  | ok v =>
    obtain ⟨rfl, rfl, rfl⟩ := hend.done_inv
    exact Or.inl ⟨v, rfl, rfl⟩
  | error e =>
    obtain ⟨rfl, u, rfl⟩ := cancelAfter_outcome hO hend
    exact Or.inr ⟨e, u, rfl, rfl, c, List.mem_cons_self⟩

/-- Every chunk is staged, or one was refused. -/
theorem uploadChunks_outcome {id : String} {x : Except AppError Unit} :
    ∀ {cs : List (List String)} {w : World} {events : List SyncEvent} {staged : List String},
      w.roleLogic.uploads id = some (link, staged) →
      Exec O (uploadChunks link token id cs) w events x w' →
      (∃ u, w' = w.withUploads u ∧ u id = some (link, staged ++ cs.flatten) ∧ x = .ok ()) ∨
      ∃ e u, x = .error e ∧ w' = w.withUploads u ∧ Refused link token e events
  | [], w, events, staged, hid, h => by
    obtain ⟨rfl, rfl, rfl⟩ := h.done_inv
    exact Or.inl ⟨w'.roleLogic.uploads, rfl, by rw [List.flatten_nil, List.append_nil, hid], rfl⟩
  | c :: cs, w, events, staged, hid, h => by
    rcases h.bind_inv with ⟨e, hstep, rfl⟩ | ⟨v, first, w₁, rest, hstep, h, rfl⟩
    · rcases uploadStep_outcome hO hstep with ⟨v, hv, -⟩ | ⟨e', u, he, hw, href⟩
      · cases hv
      · cases he
        exact Or.inr ⟨e, u, rfl, hw, href⟩
    · rcases uploadStep_outcome hO hstep with ⟨v, -, rfl⟩ | ⟨e, u, he, -, -⟩
      · have hid' : (w.after (.roleLogic link token (.uploadChunk id c)) v).roleLogic.uploads id =
            some (link, staged ++ c) := by
          show Function.update _ _ _ _ = _
          rw [Function.update_self, hid]
          rfl
        rcases uploadChunks_outcome hid' h with ⟨u, hw, hu, hx⟩ | ⟨e, u, hx, hw, href⟩
        · refine Or.inl ⟨u, hw, ?_, hx⟩
          rw [hu, List.flatten_cons, List.append_assoc]
        · exact Or.inr ⟨e, u, hx, hw, href.mono (List.subset_append_right _ _)⟩
      · cases he

/-- The list is replaced, or a call was refused and no list has changed. -/
theorem uploadUsers_outcome {ids : List String} {x : Except AppError Usize}
    (h : Exec O (uploadUsers link ids token) w events x w') :
    (∃ n u, x = .ok n ∧ w' = w.replaced link ids u) ∨
    ∃ e u, x = .error e ∧ w' = w.withUploads u ∧ Refused link token e events := by
  unfold uploadUsers at h
  by_cases hlen : ids.length ≤ putMaxUsers
  · rw [if_pos hlen] at h
    obtain ⟨hr, rfl⟩ := h.perform_inv
    obtain ⟨-, rfl⟩ := hO _ _ _ _ hr
    cases x with
    | ok n => exact Or.inl ⟨n, w.roleLogic.uploads, rfl, rfl⟩
    | error e => exact Or.inr ⟨e, w.roleLogic.uploads, rfl, rfl, _, List.mem_singleton_self _⟩
  · rw [if_neg hlen] at h
    rcases h.perform_bind_inv with ⟨e, hr, rfl, rfl⟩ | ⟨id, w₁, rest, hr, h, rfl⟩
    · obtain ⟨-, rfl⟩ := hO _ _ _ _ hr
      exact Or.inr ⟨e, w'.roleLogic.uploads, rfl, rfl, _, List.mem_singleton_self _⟩
    · obtain ⟨-, rfl⟩ := hO _ _ _ _ hr
      have hid : (w.after (.roleLogic link token .startUpload) id).roleLogic.uploads id =
          some (link, []) := Function.update_self _ _ _
      rcases h.bind_inv with ⟨e, hchunks, rfl⟩ | ⟨_, first, w₂, rest, hchunks, h, rfl⟩
      · rcases uploadChunks_outcome hO hid hchunks with ⟨u, -, -, hx⟩ | ⟨e', u, he, rfl, href⟩
        · cases hx
        · cases he
          exact Or.inr ⟨e, u, rfl, rfl, href.mono (List.subset_cons_self _ _)⟩
      · rcases uploadChunks_outcome hO hid hchunks with ⟨u, rfl, hu, -⟩ | ⟨e, u, he, -, -⟩
        · rw [List.nil_append, flatten_chunks (by decide)] at hu
          rcases uploadStep_outcome hO h with ⟨n, rfl, rfl⟩ | ⟨e, u', rfl, rfl, href⟩
          · refine Or.inl ⟨n, Function.update u id none, rfl, ?_⟩
            rcases (w.withUploads u).roleLogic.after_commitUpload link id n with
              ⟨hnone, -⟩ | ⟨u', hu', he⟩
            · cases hu.symm.trans hnone
            · cases hu.symm.trans hu'
              exact congrArg (fun rl => { w with roleLogic := rl }) he
          · refine Or.inr ⟨e, u', rfl, rfl, href.mono fun ev hev => ?_⟩
            exact List.mem_cons_of_mem _ (List.mem_append_right _ hev)
        · cases he

end

/-! ### What follows an upload -/

/-- An answer to an upload, or to `get_user_info`, that ends a run without an error. -/
def AppError.Skips : AppError → Prop
  | .roleLinkNotFound | .roleLinkDisabled | .roleLinkRemovalHeld _ _ => True
  | _ => False

/-- The world without the row of a link. -/
def World.orphaned (w : World) (link : LinkKey) : World :=
  { w with db := w.db.deleteLink link.1 link.2 }

/-- The row of an orphan was deleted, or that failed. -/
def Cleanup (link : LinkKey) (w : World) (events : List SyncEvent) (w' : World) : Prop :=
  ((∃ v, (⟨.db (.deleteRoleLink link), .ok v⟩ : SyncEvent) ∈ events) ∧ w' = w.orphaned link) ∨
  ((∃ e, (⟨.db (.deleteRoleLink link), .error e⟩ : SyncEvent) ∈ events) ∧ w' = w)

theorem Cleanup.mono {link : LinkKey} {w w' : World} {events events' : List SyncEvent}
    (h : Cleanup link w events w') (hsub : events ⊆ events') : Cleanup link w events' w' := by
  rcases h with ⟨⟨v, hv⟩, hw⟩ | ⟨⟨e, he⟩, hw⟩
  · exact Or.inl ⟨⟨v, hsub hv⟩, hw⟩
  · exact Or.inr ⟨⟨e, hsub he⟩, hw⟩

section

variable {H : HttpCrates} {O : Outside AppError SyncCall.Result World}
  (hO : ∀ c w r w', O c w r w' → World.outside H c w r w')

variable {link : LinkKey} {token : String} {w w' : World} {events : List SyncEvent}

include hO

/-- A statement does what it does, or fails and does nothing. -/
theorem outside_db {s : Statement} {r : Except AppError s.Result} (h : O (.db s) w r w') :
    (∃ v, r = .ok v ∧ s.Answers w.postgres w.db v ∧ w' = { w with db := s.after w.db }) ∨
    ∃ e, r = .error e ∧ w' = w := by
  obtain ⟨hans, rfl⟩ := hO _ _ _ _ h
  cases r with
  | ok v => exact Or.inl ⟨v, rfl, hans, rfl⟩
  | error e => exact Or.inr ⟨e, rfl, rfl⟩

theorem deleteOrphanRoleLink_ends {x : Except AppError Unit}
    (h : Exec O (deleteOrphanRoleLink link) w events x w') :
    x = .ok () ∧ Cleanup link w events w' := by
  obtain ⟨r, w₁, rest, hr, hend, rfl⟩ := h.attempt_bind_inv
  obtain ⟨rfl, rfl, rfl⟩ := hend.done_inv
  refine ⟨rfl, ?_⟩
  rcases outside_db hO hr with ⟨v, rfl, -, hw⟩ | ⟨e, rfl, hw⟩
  · exact Or.inl ⟨⟨v, List.mem_cons_self⟩, hw⟩
  · exact Or.inr ⟨⟨e, List.mem_cons_self⟩, hw⟩

theorem uploadApplied_ends {result : Except AppError Usize} {x : Except AppError Bool}
    (h : Exec O (uploadApplied result link) w events x w') :
    (∃ n, result = .ok n ∧ x = .ok true ∧ w' = w) ∨
    (result = .error .roleLinkNotFound ∧ x = .ok false ∧ Cleanup link w events w') ∨
    ∃ e, result = .error e ∧ e ≠ .roleLinkNotFound ∧ w' = w ∧
      (x = .ok false ∧ e.Skips ∨ x = .error e) := by
  unfold uploadApplied at h
  split at h
  · obtain ⟨rfl, -, rfl⟩ := h.done_inv
    exact Or.inl ⟨_, rfl, rfl, rfl⟩
  · rcases h.bind_inv with ⟨e, hdel, rfl⟩ | ⟨_, first, w₁, rest, hdel, hend, rfl⟩
    · cases (deleteOrphanRoleLink_ends hO hdel).1
    · obtain ⟨-, hclean⟩ := deleteOrphanRoleLink_ends hO hdel
      obtain ⟨rfl, rfl, rfl⟩ := hend.done_inv
      exact Or.inr (Or.inl ⟨rfl, rfl, hclean.mono (List.subset_append_left _ _)⟩)
  · obtain ⟨rfl, -, rfl⟩ := h.done_inv
    exact Or.inr (Or.inr ⟨_, rfl, by simp, rfl, Or.inl ⟨rfl, trivial⟩⟩)
  · obtain ⟨rfl, -, rfl⟩ := h.done_inv
    exact Or.inr (Or.inr ⟨_, rfl, by simp, rfl, Or.inl ⟨rfl, trivial⟩⟩)
  · rename_i e hfound _ _
    obtain ⟨rfl, -, rfl⟩ := h.done_inv
    exact Or.inr (Or.inr ⟨e, rfl, hfound, rfl, Or.inr rfl⟩)

/-- The list is replaced, and the rows with it or by an error not; or the token was
rejected; or a call was refused and both are as they were. -/
theorem uploadAndMirror_ends {ids : List String} {s : Statement} {x : Except AppError Unit}
    (h : Exec O (uploadAndMirror link ids token s) w events x w') :
    (∃ u, x = .ok () ∧ w' = { w.replaced link ids u with db := s.after w.db }) ∨
    (∃ e u, x = .error e ∧ (⟨.db s, .error e⟩ : SyncEvent) ∈ events ∧ w' = w.replaced link ids u) ∨
    (Refused link token .roleLinkNotFound events ∧ ∃ u, Cleanup link (w.withUploads u) events w') ∨
    ∃ e u, e ≠ .roleLinkNotFound ∧ Refused link token e events ∧ w' = w.withUploads u ∧
      (x = .ok () → e.Skips) := by
  rcases h.bind_inv with ⟨e, hup, rfl⟩ | ⟨result, first, w₁, rest, hup, h₁, rfl⟩
  · obtain ⟨y, hy, -⟩ := hup.capture_inv
    cases hy
  obtain ⟨y, hy, hup⟩ := hup.capture_inv
  cases hy
  have hmore : ∀ {e}, Refused link token e first → Refused link token e (first ++ rest) :=
    fun href => href.mono (List.subset_append_left _ _)
  have hrest : rest ⊆ first ++ rest := List.subset_append_right _ _
  rcases uploadUsers_outcome hO hup with ⟨n, u, rfl, rfl⟩ | ⟨e, u, rfl, rfl, href⟩
  · have h₁ : Exec O (query s >>= fun _ => pure ()) (w.replaced link ids u) rest x w' := h₁
    rcases h₁.perform_bind_inv with ⟨e, hr, rfl, rfl⟩ | ⟨v, w₂, rest', hr, hend, -⟩
    · rcases outside_db hO hr with ⟨v, hv, -⟩ | ⟨e', he, rfl⟩
      · cases hv
      · cases he
        exact Or.inr (Or.inl ⟨e, u, rfl, hrest List.mem_cons_self, rfl⟩)
    · obtain ⟨rfl, -, rfl⟩ := hend.done_inv
      rcases outside_db hO hr with ⟨v', -, -, rfl⟩ | ⟨e', he, -⟩
      · exact Or.inl ⟨u, rfl, rfl⟩
      · cases he
  · -- the upload failed: no statement follows but the delete of an orphan
    rcases h₁.bind_inv with ⟨e', happ, rfl⟩ | ⟨b, first', w₂, rest', happ, h₂, rfl⟩
    · rcases uploadApplied_ends hO happ with ⟨_, hn, -⟩ | ⟨-, hx, -⟩ | ⟨_, he, hfound, rfl, -⟩
      · cases hn
      · cases hx
      · cases he
        exact Or.inr (Or.inr (Or.inr ⟨e, u, hfound, hmore href, rfl, fun hx => by cases hx⟩))
    · have hfalse : b = false → w' = w₂ := by
        rintro rfl
        obtain ⟨-, -, rfl⟩ := h₂.done_inv
        rfl
      rcases uploadApplied_ends hO happ with ⟨_, hn, -⟩ | ⟨he, hx, hclean⟩ | ⟨_, he, hfound, rfl, hx⟩
      · cases hn
      · cases he
        cases hx
        rw [hfalse rfl]
        refine Or.inr (Or.inr (Or.inl ⟨hmore href, u, hclean.mono fun ev hev => ?_⟩))
        exact hrest (List.mem_append_left _ hev)
      · cases he
        rcases hx with ⟨hx, hskips⟩ | hx
        · cases hx
          exact Or.inr (Or.inr (Or.inr ⟨e, u, hfound, hmore href, hfalse rfl, fun _ => hskips⟩))
        · cases hx

end

section

variable {H : HttpCrates} {link : LinkKey} {token : String} {w w' : World} {events : List SyncEvent}

/-- A statement of a run returns something, and does what it does. -/
theorem working_db {s : Statement} {r : Except AppError s.Result}
    (h : World.working H (.db s) w r w') :
    ∃ v, r = .ok v ∧ s.Answers w.postgres w.db v ∧ w' = { w with db := s.after w.db } := by
  obtain ⟨⟨hans, rfl⟩, hworks⟩ := h
  obtain ⟨v, rfl⟩ := hworks s rfl
  exact ⟨v, rfl, hans, rfl⟩

/-- No statement of a run fails. -/
theorem working_events {α : Type} {p : Sync α} {x : Except AppError α}
    (h : Exec (World.working H) p w events x w') {s : Statement} {e : AppError} :
    (⟨.db s, .error e⟩ : SyncEvent) ∉ events := by
  intro he
  obtain ⟨_, _, hr⟩ := h.answered he
  obtain ⟨v, hv, -⟩ := working_db hr
  cases hv

theorem Cleanup.of_working {α : Type} {p : Sync α} {x : Except AppError α} {w₀ w₀' : World}
    (hexec : Exec (World.working H) p w₀ events x w₀') (h : Cleanup link w events w') :
    w' = w.orphaned link := by
  rcases h with ⟨-, hw⟩ | ⟨⟨e, he⟩, -⟩
  · exact hw
  · exact absurd he (working_events hexec)

theorem deleteOrphanRoleLink_outcome {x : Except AppError Unit}
    (h : Exec (World.working H) (deleteOrphanRoleLink link) w events x w') :
    x = .ok () ∧ w' = w.orphaned link := by
  obtain ⟨hx, hclean⟩ := deleteOrphanRoleLink_ends (fun _ _ _ _ h => h.1) h
  exact ⟨hx, hclean.of_working h⟩

/-- The list and the rows are both replaced; or the token was rejected and the link is
gone; or a call was refused and both are as they were. -/
theorem uploadAndMirror_outcome {ids : List String} {s : Statement} {x : Except AppError Unit}
    (h : Exec (World.working H) (uploadAndMirror link ids token s) w events x w') :
    (∃ u, w' = { w.replaced link ids u with db := s.after w.db }) ∨
    (Refused link token .roleLinkNotFound events ∧ ∃ u, w' = (w.withUploads u).orphaned link) ∨
    ∃ e u, e ≠ .roleLinkNotFound ∧ Refused link token e events ∧ w' = w.withUploads u := by
  rcases uploadAndMirror_ends (fun _ _ _ _ h => h.1) h with
    ⟨u, -, hw⟩ | ⟨e, u, -, he, -⟩ | ⟨href, u, hclean⟩ | ⟨e, u, hfound, href, hw, -⟩
  · exact Or.inl ⟨u, hw⟩
  · exact absurd he (working_events h)
  · exact Or.inr (Or.inl ⟨href, u, hclean.of_working h⟩)
  · exact Or.inr (Or.inr ⟨e, u, hfound, href, hw⟩)

end

end BirthdayRole
