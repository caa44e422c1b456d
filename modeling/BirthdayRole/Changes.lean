/-
# The lists and their rows

RoleLogic's list of a link and the rows of `role_assignments` for it should be the
same (`World.Mirrored`). Every call of the sync engine that touches either makes one
change: what an accepted call does to the lists (`RlCall.change`), a statement later
does to the rows (`Statement.change`).
-/
import BirthdayRole.Lib.Mirror
import BirthdayRole.Sync

namespace BirthdayRole

/-! ### The rows of a link -/

namespace Database

variable {db : Database} {link : LinkKey} {discordId : String}

/-- Whether a user is assigned. -/
def rows (db : Database) (a : LinkKey × String) : Bool := (db.assignments.get? a).isSome

theorem mem_assigned : discordId ∈ db.assigned link ↔ db.rows (link, discordId) = true := by
  unfold assigned rows
  rw [List.mem_insertionSort, List.mem_map, Option.isSome_iff_exists]
  constructor
  · rintro ⟨a, ha, rfl⟩
    obtain ⟨ha, hl⟩ := List.mem_filter.mp ha
    have hl : a.link = link := by simpa using hl
    exact ⟨a, Table.get?_eq_some.mpr ⟨ha, by rw [← hl]; rfl⟩⟩
  · rintro ⟨a, ha⟩
    obtain ⟨ha, hk⟩ := Table.get?_eq_some.mp ha
    have hl : a.link = link := congrArg Prod.fst hk
    exact ⟨a, List.mem_filter.mpr ⟨ha, by simpa using hl⟩, congrArg Prod.snd hk⟩

theorem assigned_nodup (db : Database) (link : LinkKey) : (db.assigned link).Nodup := by
  unfold assigned
  rw [(List.perm_insertionSort _ _).nodup_iff]
  refine List.Nodup.map_on ?_ ((List.Nodup.of_map _ db.assignments.nodup).filter _)
  intro a ha b hb hab
  have hl : a.link = b.link := by
    have ha := (List.mem_filter.mp ha).2
    have hb := (List.mem_filter.mp hb).2
    rw [of_decide_eq_true ha, of_decide_eq_true hb]
  have hg : a.guildId = b.guildId := congrArg Prod.fst hl
  have hr : a.roleId = b.roleId := congrArg Prod.snd hl
  cases a
  cases b
  simp_all

theorem assigned_sorted (db : Database) (link : LinkKey) : (db.assigned link).Pairwise (· ≤ ·) :=
  List.pairwise_insertionSort _ _

/-- The rows of a link are known from their users. -/
theorem assigned_eq {ids : List String} (hsorted : ids.Pairwise (· ≤ ·)) (hnodup : ids.Nodup)
    (h : ∀ d, d ∈ ids ↔ db.rows (link, d) = true) : db.assigned link = ids := by
  have hperm : (db.assigned link).Perm ids := by
    rw [List.perm_ext_iff_of_nodup (db.assigned_nodup link) hnodup]
    intro d
    rw [mem_assigned, h]
  exact hperm.eq_of_pairwise (fun _ _ _ _ => le_antisymm) (db.assigned_sorted link) hsorted

theorem rows_insertAssignment (db : Database) (link : LinkKey) (discordId : String)
    (a : LinkKey × String) :
    (db.insertAssignment link discordId).rows a = (decide (a = (link, discordId)) || db.rows a) := by
  unfold rows insertAssignment
  rw [Table.get?_put, show Assignment.key ⟨link.1, link.2, discordId⟩ = (link, discordId) from rfl]
  by_cases h : a = (link, discordId) <;> simp [h]

theorem rows_deleteAssignment (db : Database) (link : LinkKey) (discordId : String)
    (a : LinkKey × String) :
    (db.deleteAssignment link discordId).rows a = (!decide (a = (link, discordId)) && db.rows a) := by
  unfold rows deleteAssignment
  rw [Table.get?_remove]
  by_cases h : a = (link, discordId) <;> simp [h]

theorem rows_clearAssignments (db : Database) (link : LinkKey) (a : LinkKey × String) :
    (db.clearAssignments link).rows a = (!decide (a.1 = link) && db.rows a) := by
  unfold rows clearAssignments cascade
  rw [Table.get?_deleteWhere]
  cases h : db.assignments.get? a with
  | none => simp
  | some r =>
    have hk : r.link = a.1 := congrArg Prod.fst (Table.key_of_get? h)
    by_cases hl : a.1 = link <;> simp [Option.filter_some, hk, hl]

/-- Inserts for one link, one after the other. -/
theorem rows_foldl_insertAssignment (link : LinkKey) (a : LinkKey × String) :
    ∀ (ids : List String) (db : Database),
      (ids.foldl (fun db id => db.insertAssignment link id) db).rows a =
        (decide (a.1 = link ∧ a.2 ∈ ids) || db.rows a)
  | [], db => by simp
  | id :: ids, db => by
    rw [List.foldl_cons, rows_foldl_insertAssignment link a ids, rows_insertAssignment]
    obtain ⟨l, d⟩ := a
    by_cases hl : l = link <;> by_cases hd : d = id <;> simp [hl, hd]

theorem rows_rewriteAssignments (db : Database) (link : LinkKey) (ids : List String)
    (a : LinkKey × String) :
    (db.rewriteAssignments link ids).rows a =
      if a.1 = link then decide (a.2 ∈ ids) else db.rows a := by
  unfold rewriteAssignments
  rw [rows_foldl_insertAssignment, rows_clearAssignments]
  by_cases hl : a.1 = link <;> simp [hl]

/-- A list that is sorted and names nobody twice is what is assigned after it is written. -/
theorem assigned_rewriteAssignments (db : Database) (link : LinkKey) {ids : List String}
    (hsorted : ids.Pairwise (· ≤ ·)) (hnodup : ids.Nodup) :
    (db.rewriteAssignments link ids).assigned link = ids :=
  assigned_eq hsorted hnodup fun d => by rw [rows_rewriteAssignments]; simp

theorem assigned_clearAssignments (db : Database) (link : LinkKey) :
    (db.clearAssignments link).assigned link = [] :=
  assigned_eq .nil .nil fun d => by rw [rows_clearAssignments]; simp

end Database

/-! ### Changes -/

inductive Change where
  | one (link : LinkKey) (discordId : String) (holds : Bool)
  | whole (link : LinkKey) (discordIds : List String)

/-- Who holds the role of a link after a change, where it says so. -/
def Change.patch : Change → Mirror.Patch (LinkKey × String) Bool
  | one link discordId holds => fun a => if a = (link, discordId) then some holds else none
  | whole link discordIds => fun a => if a.1 = link then some (decide (a.2 ∈ discordIds)) else none

/-- Two changes that say the same of every user they both say something of. -/
def Change.Agrees (c c' : Change) : Prop := c.patch.Agree c'.patch

/-- The change of a call that RoleLogic accepts. -/
def RlCall.change (rl : RoleLogic) (link : LinkKey) : RlCall → Option Change
  | addUser userId => some (.one link userId true)
  | removeUser userId => some (.one link userId false)
  | replaceUsers userIds => some (.whole link userIds)
  | commitUpload id => (rl.uploads id).map fun u => .whole link u.2
  | _ => none

/-- The change of a statement. -/
def Statement.change : Statement → Option Change
  | insertAssignment link discordId => some (.one link discordId true)
  | deleteAssignment link discordId => some (.one link discordId false)
  | rewriteAssignments link discordIds => some (.whole link discordIds)
  | clearAssignments link => some (.whole link [])
  | _ => none

namespace World

/-- Whether a user is on the list of a link. -/
def users (w : World) (a : LinkKey × String) : Bool := decide (a.2 ∈ w.roleLogic.lists a.1)

/-- `role_assignments` of every link equals RoleLogic's list. -/
def Mirrored (w : World) : Prop :=
  ∀ link, (w.db.assigned link).toFinset = w.roleLogic.lists link

theorem mirrored_iff {w : World} : w.Mirrored ↔ w.users = w.db.rows := by
  constructor
  · intro h
    funext ⟨link, d⟩
    rw [Bool.eq_iff_iff, ← Database.mem_assigned, ← List.mem_toFinset, h link]
    exact decide_eq_true_iff
  · intro h link
    ext d
    rw [List.mem_toFinset, Database.mem_assigned, ← h]
    exact decide_eq_true_iff

end World

/-- The list of a link after an accepted call is changed as the call says. -/
theorem RoleLogic.users_after (w : World) (link : LinkKey) (token : String) (c : RlCall)
    (v : c.Result) : (w.after (.roleLogic link token c) v).users =
      match c.change w.roleLogic link with
      | some change => change.patch.apply w.users
      | none => w.users := by
  funext ⟨l, d⟩
  cases c with
  | getUserInfo | startUpload | uploadChunk | cancelUpload => rfl
  | addUser id =>
    by_cases hl : l = link <;> by_cases hd : d = id <;>
      simp [World.users, World.after, RoleLogic.after, RoleLogic.setList, RlCall.change,
        Change.patch, Mirror.Patch.apply, hl, hd]
  | removeUser id =>
    by_cases hl : l = link <;> by_cases hd : d = id <;>
      simp [World.users, World.after, RoleLogic.after, RoleLogic.setList, RlCall.change,
        Change.patch, Mirror.Patch.apply, hl, hd]
  | replaceUsers ids =>
    by_cases hl : l = link <;>
      simp [World.users, World.after, RoleLogic.after, RoleLogic.setList, RlCall.change,
        Change.patch, Mirror.Patch.apply, hl]
  | commitUpload id =>
    cases hu : w.roleLogic.uploads id with
    | none => simp [World.users, World.after, RoleLogic.after, RlCall.change, hu]
    | some u =>
      by_cases hl : l = link <;>
        simp [World.users, World.after, RoleLogic.after, RoleLogic.setList, RoleLogic.setUpload,
          RlCall.change, Change.patch, Mirror.Patch.apply, hu, hl]

/-- The rows after a statement are changed as the statement says; a link that is
deleted takes its rows with it. -/
theorem Statement.rows_after (db : Database) (s : Statement) (hs : ∀ link, s ≠ deleteRoleLink link) :
    (s.after db).rows = match s.change with
      | some change => change.patch.apply db.rows
      | none => db.rows := by
  funext ⟨l, d⟩
  cases s with
  | selectLinks | selectBirthday | selectAssigned | selectLink | selectQualifying | selectCurrent
  | existsAssigned => rfl
  | deleteRoleLink link => exact absurd rfl (hs link)
  | insertAssignment link id =>
    show (db.insertAssignment link id).rows (l, d) = _
    rw [Database.rows_insertAssignment]
    by_cases h : (l, d) = (link, id) <;> simp [Statement.change, Change.patch, Mirror.Patch.apply, h]
  | deleteAssignment link id =>
    show (db.deleteAssignment link id).rows (l, d) = _
    rw [Database.rows_deleteAssignment]
    by_cases h : (l, d) = (link, id) <;> simp [Statement.change, Change.patch, Mirror.Patch.apply, h]
  | rewriteAssignments link ids =>
    show (db.rewriteAssignments link ids).rows (l, d) = _
    rw [Database.rows_rewriteAssignments]
    by_cases h : l = link <;> simp [Statement.change, Change.patch, Mirror.Patch.apply, h]
  | clearAssignments link =>
    show (db.clearAssignments link).rows (l, d) = _
    rw [Database.rows_clearAssignments]
    by_cases h : l = link <;> simp [Statement.change, Change.patch, Mirror.Patch.apply, h]

end BirthdayRole
