/-
# Editors of one rule (`role_config_data`, `role_config_save`, `role_config.html`)

Any number of editors load and save the rule of a link, while the link is deleted
and registered. A request is sent, runs its statements one by one, and its answer is
delivered, all at any time. An editor knows the version that its last load or save
returned, and the tree it then saw or wrote (`Knowledge`); the epoch, which counts
the deletions, is not in the program.

A save should replace a tree its editor knows (`OverwritesSeen`). The version is
compared and written in one statement, but the one a save returns is read by a
second, after which it may be that of another save; and versions start again when
the link does (`unseen_overwritten`). When neither happens
to a save that matches (`Fenced`), every save replaces what its editor knows
(`reached_overwritesSeen`).
-/
import BirthdayRole.Lib.Reach
import BirthdayRole.RoleLinks

namespace BirthdayRole

open Json

/-- A version, and the tree an editor takes to be in it. -/
structure Knowledge where
  version : ℤ
  tree : Value
  epoch : ℕ

/-- A request under way. -/
inductive EditorRequest where
  /-- a load before its `SELECT` -/
  | loading (editor : ℕ)
  /-- a save before its `UPDATE` -/
  | saving (editor : ℕ) (tree : Value) (base : Knowledge)
  /-- a save between its `UPDATE` and the `SELECT` of the version -/
  | updated (editor : ℕ) (tree : Value) (epoch : ℕ)
  /-- the answer of a load or a save, on its way -/
  | answered (editor : ℕ) (k : Knowledge)

inductive EditorAction where
  | sendLoad (i editor : ℕ)
  | select (i : ℕ)
  | sendSave (i editor : ℕ) (tree : RuleTree)
  | update (i : ℕ) (now : Time)
  | selectVersion (i : ℕ)
  | deliver (i : ℕ)
  | lose (i : ℕ)
  | deleteConfig (token : String)
  | register (now : Time) (token : String)

structure Editors where
  links : RoleLinks
  epoch : ℕ
  editors : ℕ → Option Knowledge
  requests : ℕ → Option EditorRequest

namespace Editors

def start (links : RoleLinks) : Editors := ⟨links, 0, fun _ => none, fun _ => none⟩

section System

variable (guildId roleId : String)

def setRequest (s : Editors) (i : ℕ) (r : Option EditorRequest) : Editors :=
  { s with requests := Function.update s.requests i r }

def step (s : Editors) : EditorAction → Option Editors
  | .sendLoad i editor =>
    match s.requests i with
    | none => some (s.setRequest i (some (.loading editor)))
    | some _ => none
  | .select i =>
    match s.requests i with
    | some (.loading editor) =>
      match s.links.get? (guildId, roleId) with
      | some l => some (s.setRequest i
          (some (.answered editor ⟨l.ruleTreeVersion, l.ruleTree, s.epoch⟩)))
      | none => some (s.setRequest i none)
    | _ => none
  | .sendSave i editor tree =>
    match s.requests i, s.editors editor with
    | none, some k => some (s.setRequest i (some (.saving editor tree.toValue k)))
    | _, _ => none
  | .update i now =>
    match s.requests i with
    | some (.saving editor tree k) =>
      match s.links.updateTree now tree guildId roleId k.version with
      | .ok (links, 1) =>
        some ({ s with links := links }.setRequest i (some (.updated editor tree s.epoch)))
      | _ => some (s.setRequest i none)
    | _ => none
  | .selectVersion i =>
    match s.requests i with
    | some (.updated editor tree epoch) =>
      match s.links.version? guildId roleId with
      | some v => some (s.setRequest i (some (.answered editor ⟨v, tree, epoch⟩)))
      | none => some (s.setRequest i none)
    | _ => none
  | .deliver i =>
    match s.requests i with
    | some (.answered editor k) =>
      some ({ s with editors := Function.update s.editors editor (some k) }.setRequest i none)
    | _ => none
  | .lose i => some (s.setRequest i none)
  | .deleteConfig token =>
    let deleted := s.links.deleteOwned guildId roleId token
    some { s with links := deleted.1, epoch := s.epoch + deleted.2 }
  | .register now token => some { s with links := s.links.upsertToken now guildId roleId token }

/-- A save that writes replaces the tree that its editor knew when sending it. -/
def OverwritesSeen (s : Editors) : EditorAction → Prop
  | .update i now => ∀ editor tree k, s.requests i = some (.saving editor tree k) →
      ∀ links, s.links.updateTree now tree guildId roleId k.version = .ok (links, 1) →
        ∃ l, s.links.get? (guildId, roleId) = some l ∧ l.ruleTree = k.tree
  | _ => True

/-- When a save presents the version the link is in, it got that version since the
link was last deleted, and no other save is between its `UPDATE` and its `SELECT`. -/
def Fenced (s : Editors) : EditorAction → Prop
  | .update i _ => ∀ editor tree k, s.requests i = some (.saving editor tree k) →
      s.links.version? guildId roleId = some k.version →
        k.epoch = s.epoch ∧ ∀ j e t n, s.requests j ≠ some (.updated e t n)
  | _ => True

/-! ### What editors know -/

/-- What an editor knows is right as long as the link has not been deleted: the
version is not ahead, and if it is the current one the tree is. -/
def Sound (s : Editors) (k : Knowledge) : Prop :=
  k.epoch ≤ s.epoch ∧ (k.epoch = s.epoch → ∃ l, s.links.get? (guildId, roleId) = some l ∧
    k.version ≤ l.ruleTreeVersion ∧ (k.version = l.ruleTreeVersion → l.ruleTree = k.tree))

def EditorRequest.Ok (s : Editors) : EditorRequest → Prop
  | .loading _ => True
  | .saving _ _ k => s.Sound guildId roleId k
  | .updated _ tree epoch => epoch ≤ s.epoch ∧
      (epoch = s.epoch → ∃ l, s.links.get? (guildId, roleId) = some l ∧ l.ruleTree = tree)
  | .answered _ k => s.Sound guildId roleId k

structure Inv (s : Editors) : Prop where
  editors : ∀ e k, s.editors e = some k → s.Sound guildId roleId k
  requests : ∀ i r, s.requests i = some r → EditorRequest.Ok guildId roleId s r

variable {guildId roleId}

theorem inv_start (links : RoleLinks) : (start links).Inv guildId roleId :=
  ⟨fun _ _ h => (by cases h), fun _ _ h => (by cases h)⟩

/-- A request changes and the rest stays. -/
theorem Inv.setRequest {s : Editors} (h : s.Inv guildId roleId) (i : ℕ) {r : Option EditorRequest}
    (hr : ∀ q, r = some q → EditorRequest.Ok guildId roleId s q) :
    (s.setRequest i r).Inv guildId roleId := by
  refine ⟨h.editors, fun j q hq => ?_⟩
  have hq' : Function.update s.requests i r j = some q := hq
  by_cases hj : j = i
  · subst hj
    rw [Function.update_self] at hq'
    exact hr q hq'
  · rw [Function.update_of_ne hj] at hq'
    exact h.requests j q hq'

/-- The link and the epoch change so that all that was right stays right. -/
theorem Inv.change {s : Editors} (h : s.Inv guildId roleId) (links : RoleLinks) (epoch : ℕ)
    (hs : ∀ k, s.Sound guildId roleId k →
      Sound guildId roleId { s with links := links, epoch := epoch } k)
    (hu : ∀ i e t n, s.requests i = some (.updated e t n) →
      EditorRequest.Ok guildId roleId { s with links := links, epoch := epoch } (.updated e t n)) :
    Inv guildId roleId { s with links := links, epoch := epoch } := by
  refine ⟨fun e k hk => hs k (h.editors e k hk), fun i r hr => ?_⟩
  cases r with
  | loading e => trivial
  | saving e t k => exact hs k (h.requests i _ hr)
  | updated e t n => exact hu i e t n hr
  | answered e k => exact hs k (h.requests i _ hr)

/-- A save writes while no other one is between its statements. The version goes
up, so nobody knows the new one. -/
theorem Inv.written {s : Editors} (h : s.Inv guildId roleId) {now : Time} {tree : Value}
    {version : ℤ} {links : RoleLinks}
    (hupd : s.links.updateTree now tree guildId roleId version = .ok (links, 1))
    (hnone : ∀ j e t n, s.requests j ≠ some (.updated e t n)) (i editor : ℕ) :
    ({ s with links := links }.setRequest i (some (.updated editor tree s.epoch))).Inv
      guildId roleId := by
  obtain ⟨l, hl, -, hl'⟩ := RoleLinks.updateTree_one hupd
  have hknown : ∀ k, s.Sound guildId roleId k →
      Sound guildId roleId { s with links := links, epoch := s.epoch } k := by
    refine fun k hk => ⟨hk.1, fun he => ?_⟩
    obtain ⟨l', hl'', hle, -⟩ := hk.2 he
    rw [hl] at hl''
    cases hl''
    exact ⟨_, hl', by show k.version ≤ l.ruleTreeVersion + 1; omega,
      fun heq => by
        have heq : k.version = l.ruleTreeVersion + 1 := heq
        omega⟩
  have hinv := h.change links s.epoch hknown fun j e t n hj => absurd hj (hnone j e t n)
  refine hinv.setRequest i fun q hq => ?_
  cases hq
  exact ⟨le_rfl, fun _ => ⟨_, hl', rfl⟩⟩

/-- An answer arrives, and its editor knows what it says. -/
theorem Inv.delivered {s : Editors} (h : s.Inv guildId roleId) {i editor : ℕ} {k : Knowledge}
    (hreq : s.requests i = some (.answered editor k)) :
    ({ s with editors := Function.update s.editors editor (some k) }.setRequest i none).Inv
      guildId roleId := by
  have hed : Inv guildId roleId
      { s with editors := Function.update s.editors editor (some k) } := by
    refine ⟨fun e k' hk' => ?_, h.requests⟩
    have hk' : Function.update s.editors editor (some k) e = some k' := hk'
    by_cases he : e = editor
    · subst he
      rw [Function.update_self] at hk'
      cases hk'
      exact h.requests i _ hreq
    · rw [Function.update_of_ne he] at hk'
      exact h.editors e k' hk'
  exact hed.setRequest i fun q hq => by cases hq

/-- The link may be deleted. When it is the epoch moves on, and everything known is
of an earlier one. -/
theorem Inv.deleted {s : Editors} (h : s.Inv guildId roleId) (token : String) :
    Inv guildId roleId { s with
      links := (s.links.deleteOwned guildId roleId token).1,
      epoch := s.epoch + (s.links.deleteOwned guildId roleId token).2 } := by
  unfold RoleLinks.deleteOwned
  split
  · split
    · have hold : ∀ n, n ≤ s.epoch → n ≤ s.epoch + 1 ∧ n ≠ s.epoch + 1 := by omega
      refine h.change _ (s.epoch + 1) (fun k hk => ?_) fun i e t n hi => ?_
      · exact ⟨(hold _ hk.1).1, fun he => absurd he (hold _ hk.1).2⟩
      · have hn := hold n (h.requests i _ hi).1
        exact ⟨hn.1, fun he => absurd he hn.2⟩
    · exact h.change s.links s.epoch (fun _ hk => hk) fun i e t n hi => h.requests i _ hi
  · exact h.change s.links s.epoch (fun _ hk => hk) fun i e t n hi => h.requests i _ hi

/-- A link that is registered again keeps its tree and its version. -/
theorem Inv.registered {s : Editors} (h : s.Inv guildId roleId) (now : Time) (token : String) :
    Inv guildId roleId { s with links := s.links.upsertToken now guildId roleId token } := by
  have hkeep : ∀ l, s.links.get? (guildId, roleId) = some l →
      (s.links.upsertToken now guildId roleId token).get? (guildId, roleId) =
        some { l with apiToken := token, updatedAt := now } := by
    intro l hl
    rw [RoleLinks.get?_upsertToken, if_pos rfl, hl]
  refine h.change (s.links.upsertToken now guildId roleId token) s.epoch
    (fun k hk => ⟨hk.1, fun he => ?_⟩) fun i e t n hi => ?_
  · obtain ⟨l, hl, hle, ht⟩ := hk.2 he
    exact ⟨_, hkeep l hl, hle, ht⟩
  · obtain ⟨hle, ht⟩ := h.requests i _ hi
    refine ⟨hle, fun he => ?_⟩
    obtain ⟨l, hl, ht⟩ := ht he
    exact ⟨_, hkeep l hl, ht⟩

/-- One step: a case for each action. -/
theorem inv_step {s s' : Editors} {a : EditorAction} (h : s.Inv guildId roleId)
    (ha : s.Fenced guildId roleId a) (hstep : s.step guildId roleId a = some s') :
    s'.Inv guildId roleId := by
  cases a with
  | sendLoad i editor =>
    simp only [step] at hstep
    split at hstep
    · cases hstep
      exact h.setRequest i fun q hq => by cases hq; trivial
    · cases hstep
  | select i =>
    simp only [step] at hstep
    split at hstep
    · split at hstep
      · rename_i l hl
        cases hstep
        refine h.setRequest i fun q hq => ?_
        cases hq
        exact ⟨le_rfl, fun _ => ⟨l, hl, le_rfl, fun _ => rfl⟩⟩
      · cases hstep
        exact h.setRequest i fun q hq => by cases hq
    · cases hstep
  | sendSave i editor tree =>
    simp only [step] at hstep
    split at hstep
    · rename_i k _ hk
      cases hstep
      exact h.setRequest i fun q hq => by
        cases hq
        exact h.editors editor k hk
    · cases hstep
  | update i now =>
    simp only [step] at hstep
    split at hstep
    · rename_i editor tree k hreq
      split at hstep
      · rename_i links hupd
        cases hstep
        obtain ⟨l, hl, hv, -⟩ := RoleLinks.updateTree_one hupd
        have hver : s.links.version? guildId roleId = some k.version := by
          rw [RoleLinks.version?, hl, Option.map_some, hv]
        obtain ⟨-, hnone⟩ := ha editor tree k hreq hver
        exact h.written hupd hnone i editor
      · cases hstep
        exact h.setRequest i fun q hq => by cases hq
    · cases hstep
  | selectVersion i =>
    simp only [step] at hstep
    split at hstep
    · rename_i editor tree epoch hreq
      obtain ⟨hle, htree⟩ := h.requests i _ hreq
      split at hstep
      · rename_i v hv
        cases hstep
        refine h.setRequest i fun q hq => ?_
        cases hq
        refine ⟨hle, fun he => ?_⟩
        obtain ⟨l, hl, ht⟩ := htree he
        rw [RoleLinks.version?, hl, Option.map_some, Option.some.injEq] at hv
        exact ⟨l, hl, hv.ge, fun _ => ht⟩
      · cases hstep
        exact h.setRequest i fun q hq => by cases hq
    · cases hstep
  | deliver i =>
    simp only [step] at hstep
    split at hstep
    · rename_i editor k hreq
      cases hstep
      exact h.delivered hreq
    · cases hstep
  | lose i =>
    cases hstep
    exact h.setRequest i fun q hq => by cases hq
  | deleteConfig token =>
    cases hstep
    exact h.deleted token
  | register now token =>
    cases hstep
    exact h.registered now token

/-- In a run whose matching saves are fenced, a save that writes replaces what its
editor knows. -/
theorem reached_overwritesSeen {links : RoleLinks} {s : Editors} {a : EditorAction}
    (h : Lts.Reached (step guildId roleId) (Fenced guildId roleId) (start links) s)
    (ha : s.Fenced guildId roleId a) : s.OverwritesSeen guildId roleId a := by
  have hinv : s.Inv guildId roleId := h.invariant (inv_start links) fun _ _ _ => inv_step
  cases a with
  | update i now =>
    intro editor tree k hreq links' hupd
    obtain ⟨l, hl, hv, -⟩ := RoleLinks.updateTree_one hupd
    have hver : s.links.version? guildId roleId = some k.version := by
      rw [RoleLinks.version?, hl, Option.map_some, hv]
    obtain ⟨he, -⟩ := ha editor tree k hreq hver
    obtain ⟨l', hl', -, ht⟩ := (hinv.requests i _ hreq).2 he
    rw [hl] at hl'
    cases hl'
    exact ⟨l, hl, ht hv.symm⟩
  | sendLoad | select | sendSave | selectVersion | deliver | lose | deleteConfig | register => trivial

/-! ### What goes wrong otherwise -/

def oneLink (tree : RuleTree) (version : ℤ) : RoleLinks :=
  ⟨[⟨"g", "r", "T", tree.toValue, version, 0⟩], by simp⟩

def anyoneTree : RuleTree := ⟨true, []⟩

def julyTree : RuleTree :=
  ⟨false, [⟨[⟨.birthMonth, .eq, .number (.int 7 (by decide)), none⟩]⟩]⟩

/-- Editor 1 saves over editor 0's save before that has read its version, so editor 0
is told the version of editor 1's tree. -/
def lateVersionRun : List EditorAction :=
  [.sendLoad 0 0, .select 0, .deliver 0, .sendSave 1 0 anyoneTree, .update 1 0,
    .sendLoad 2 1, .select 2, .deliver 2, .sendSave 3 1 julyTree, .update 3 0, .selectVersion 3,
    .deliver 3, .selectVersion 1, .deliver 1, .sendSave 4 0 anyoneTree]

/-- Editor 0 loads version 2; the link is made anew, and editor 1 brings it to
version 2 again. -/
def reusedVersionRun : List EditorAction :=
  [.sendLoad 0 0, .select 0, .deliver 0, .deleteConfig "T", .register 0 "T",
    .sendLoad 1 1, .select 1, .deliver 1, .sendSave 2 1 julyTree, .update 2 0, .selectVersion 2,
    .deliver 2, .sendSave 4 0 anyoneTree]

/-- Either way editor 0's last save replaces a tree that it has never seen. -/
theorem unseen_overwritten :
    (∃ s, Lts.Reached (step "g" "r") (fun _ _ => True) (start (oneLink default 1)) s ∧
      ¬s.OverwritesSeen "g" "r" (.update 4 0)) ∧
    ∃ s, Lts.Reached (step "g" "r") (fun _ _ => True) (start (oneLink anyoneTree 2)) s ∧
      ¬s.OverwritesSeen "g" "r" (.update 4 0) := by
  have hne : julyTree.toValue ≠ anyoneTree.toValue := fun he =>
    absurd (congrArg (fun v => (v.index "grant_on_any_birthday").asBool) he) (by decide)
  refine ⟨⟨_, Lts.Reached.refl.of_run (fun _ _ _ => trivial)
    (show Lts.run (step "g" "r") (start (oneLink default 1)) lateVersionRun = some _ from rfl),
    fun h => ?_⟩, ⟨_, Lts.Reached.refl.of_run (fun _ _ _ => trivial)
    (show Lts.run (step "g" "r") (start (oneLink anyoneTree 2)) reusedVersionRun = some _ from rfl),
    fun h => ?_⟩⟩
  · obtain ⟨l, hl, ht⟩ := h 0 _ _ rfl _ rfl
    cases hl
    exact hne ht
  · obtain ⟨l, hl, ht⟩ := h 0 _ _ rfl _ rfl
    cases hl
    exact hne ht

/-- Both editors load version 1, and both send a save. -/
def bothLoaded : List EditorAction :=
  [.sendLoad 0 0, .select 0, .deliver 0, .sendLoad 1 1, .select 1, .deliver 1,
    .sendSave 2 0 anyoneTree, .sendSave 3 1 julyTree]

/-- Editor 1 loads again, and sends a save. -/
def reloaded : List EditorAction := [.sendLoad 4 1, .select 4, .deliver 4, .sendSave 5 1 julyTree]

/-- Editor 0's save goes first. Editor 1's is refused, and the next replaces what editor 0 wrote,
which editor 1 has loaded by then. -/
theorem reached_overwritesSeen_two : ∃ s,
    Lts.run (step "g" "r") (start (oneLink default 1)) (bothLoaded ++ .update 2 0 ::
      [.selectVersion 2, .deliver 2] ++ .update 3 0 :: reloaded) = some s ∧
      s.OverwritesSeen "g" "r" (.update 5 0) := by
  have hboth : ∀ a ∈ bothLoaded, ∀ t : Editors, t.Fenced "g" "r" a := by simp [bothLoaded, Fenced]
  have htold : ∀ a ∈ [EditorAction.selectVersion 2, .deliver 2], ∀ t : Editors, t.Fenced "g" "r" a := by
    simp [Fenced]
  have hreloaded : ∀ a ∈ reloaded, ∀ t : Editors, t.Fenced "g" "r" a := by simp [reloaded, Fenced]
  have h1 := Lts.Reached.refl.of_run hboth
    (show Lts.run (step "g" "r") (start (oneLink default 1)) bothLoaded = some _ from rfl)
  have h2 := h1.step (a := .update 2 0) (by
    intro editor tree k hreq _
    cases hreq
    refine ⟨rfl, fun j e t n hj => ?_⟩
    match j with
    | 0 | 1 | 2 | 3 => cases hj
    | j + 4 => cases hj) rfl
  have h3 := h2.of_run htold rfl
  -- the version that editor 1 presents is not that of the link
  have h4 := h3.step (a := .update 3 0) (by
    intro editor tree k hreq hver
    cases hreq
    cases hver) rfl
  have h5 := h4.of_run hreloaded rfl
  refine ⟨_, rfl, reached_overwritesSeen h5 ?_⟩
  intro editor tree k hreq _
  cases hreq
  refine ⟨rfl, fun j e t n hj => ?_⟩
  match j with
  | 0 | 1 | 2 | 3 | 4 | 5 => cases hj
  | j + 6 => cases hj

end System

end Editors

end BirthdayRole
