/-
# The RoleLogic and Auth Gateway clients (`services/rolelogic.rs`, `services/auth_gateway.rs`)

What the program makes of the answer to each request. A rejection is read for the
link states that every endpoint shares, and by the list writes for a held removal;
anything else is an error with the status and the body in it.
-/
import BirthdayRole.RuleSql

namespace BirthdayRole

open Json Text

/-- How an HTTP request ended. -/
inductive HttpReply where
  | unreachable (e : String)
  /-- the status, and the body as far as it could be read -/
  | replied (status : ℕ) (body : Except String String)

/-- What the clients take from `reqwest` and `serde_json`. -/
structure HttpCrates where
  json : String → Option Value
  /-- a body that is not what it should be -/
  decodeError : String
  /-- a status with its reason phrase -/
  status : ℕ → String

/-- A part of the crates that computes: some bodies, and bare status codes. -/
def HttpCrates.ofBodies (bodies : List (String × Value)) : HttpCrates where
  json s := bodies.lookup s
  decodeError := "error decoding response body"
  status n := toString n

def isSuccess (status : ℕ) : Bool := 200 ≤ status && status < 300

/-- `text().await.unwrap_or_default()` -/
def textOrEmpty (body : Except String String) : String := body.toOption.getD ""

/-- `json().await` -/
def HttpCrates.decode {α : Type} (H : HttpCrates) (read : Value → Option α)
    (body : Except String String) : Except String α :=
  body.bind fun text => Result.okOr ((H.json text).bind read) H.decodeError

/-- `as_u64().unwrap_or(n) as usize` -/
def usizeOr (n : Usize) (v : Value) : Usize :=
  match v with
  | .number (.int m h) => if hm : 0 ≤ m then ⟨m.toNat, by omega⟩ else n
  | _ => n

namespace RoleLogicClient

def linkStateError (status : ℕ) (body : String) : Option AppError :=
  if status ≠ 403 then none
  else if contains body "Invalid or revoked token" then some .roleLinkNotFound
  else if contains body "This role link is disabled" || contains body "This role link is paused" then
    some .roleLinkDisabled
  else none

section

variable (H : HttpCrates)

def shrinkHeldError (status : ℕ) (body : String) : Option AppError :=
  if status ≠ 409 then none
  else do
    let parsed ← H.json body
    let errors := parsed.index "errors"
    if (errors.index "error").asStr ≠ some "confirm_required" then none
    else some (.roleLinkRemovalHeld ((errors.index "previous").asU64.getD 0)
      ((errors.index "next").asU64.getD 0))

/-- An answer that is no success: an error the endpoint knows, or one that quotes it. -/
def rejected (what : String) (known : ℕ → String → Option AppError) (status : ℕ)
    (body : Except String String) : AppError :=
  (known status (textOrEmpty body)).getD
    (.roleLogic (what ++ " failed: " ++ H.status status ++ " - " ++ textOrEmpty body))

/-- A request whose answer has a JSON body. -/
def reading {α : Type} (what : String) (known : ℕ → String → Option AppError)
    (read : Value → Except AppError α) : HttpReply → Except AppError α
  | .unreachable e => .error (.roleLogic e)
  | .replied status body =>
    if !isSuccess status then .error (rejected H what known status body)
    else match H.decode some body with
      | .error e => .error (.roleLogic e)
      | .ok v => read v

/-- A request of which only the status is read. -/
def unread (what : String) : HttpReply → Except AppError Unit
  | .unreachable e => .error (.roleLogic e)
  | .replied status body =>
    if !isSuccess status then .error (rejected H what (fun _ _ => none) status body) else .ok ()

/-- The user count and the user limit. -/
def getUserInfo : HttpReply → Except AppError (Usize × Usize) :=
  reading H "Get user info" linkStateError fun body =>
    .ok (usizeOr ⟨0, by decide⟩ ((body.index "data").index "user_count"),
      usizeOr ⟨100, by decide⟩ ((body.index "data").index "user_limit"))

/-- The limit error of an add. -/
def userLimitError (status : ℕ) (body : String) : Option AppError :=
  if (status = 400 ∨ status = 403) ∧ contains body "limit" then
    let parsed := (H.json body).getD .null
    some (.userLimitReached (usizeOr ⟨100, by decide⟩ ((parsed.index "data").index "user_limit")).1)
  else none

def addUser : HttpReply → Except AppError Bool :=
  reading H "Add user" (fun status body => linkStateError status body <|> userLimitError H status body)
    fun body => .ok (((body.index "data").index "added").asBool.getD false)

def removeUser : HttpReply → Except AppError Bool :=
  reading H "Remove user" linkStateError fun body =>
    .ok (((body.index "data").index "removed").asBool.getD false)

/-- What both list writes know of a rejection. -/
def listWriteError (status : ℕ) (body : String) : Option AppError :=
  linkStateError status body <|> shrinkHeldError H status body

def replaceUsers : HttpReply → Except AppError Usize :=
  reading H "Replace users" (listWriteError H) fun body =>
    .ok (usizeOr ⟨0, by decide⟩ ((body.index "data").index "user_count"))

def startUpload : HttpReply → Except AppError String :=
  reading H "Start upload" linkStateError fun body =>
    Result.okOr ((body.index "data").index "upload_id").asStr
      (.roleLogic "Start upload response missing upload_id")

def uploadChunk : HttpReply → Except AppError Unit := unread H "Upload chunk"

def commitUpload : HttpReply → Except AppError Usize :=
  reading H "Commit upload" (listWriteError H) fun body =>
    .ok (usizeOr ⟨0, by decide⟩ ((body.index "data").index "user_count"))

def cancelUpload : HttpReply → Except AppError Unit := unread H "Cancel upload"

/-- RoleLogic's own limit error. -/
def LimitError : HttpReply → Prop
  | .unreachable _ => False
  | .replied status body => (status = 400 ∨ status = 403) ∧
      contains (textOrEmpty body) "limit" = true ∧ linkStateError status (textOrEmpty body) = none

theorem addUser_limitError {reply : HttpReply} (h : LimitError reply) :
    ∃ limit, addUser H reply = .error (.userLimitReached limit) := by
  cases reply with
  | unreachable e => exact h.elim
  | replied status body =>
    obtain ⟨hs, hl, hn⟩ := h
    have hstatus : isSuccess status = false := by
      rcases hs with rfl | rfl <;> rfl
    exact ⟨_, by simp [addUser, reading, hstatus, rejected, hn, userLimitError, hs, hl]; rfl⟩

end

end RoleLogicClient

/-! ### The Auth Gateway -/

/-- A field that is a list of strings. -/
def stringsField (key : String) (body : Value) : Option (List String) :=
  ((body.get key).bind Value.asArray).bind fun a => a.mapM Value.asStr

/-- `fetch_user_guild_ids` and `fetch_guild_member_ids`: the endpoint and its field. -/
def fetchIds (H : HttpCrates) (endpoint key : String) : HttpReply → Except AppError (List String)
  | .unreachable e => .error (.internal ("auth_gateway request failed: " ++ e))
  | .replied status body =>
    if !isSuccess status then
      .error (.internal ("auth_gateway " ++ endpoint ++ " returned " ++ H.status status ++ ": " ++
        textOrEmpty body))
    else
      (H.decode (stringsField key) body).mapError fun e =>
        .internal ("auth_gateway response not JSON: " ++ e)

def fetchUserGuildIds (H : HttpCrates) : HttpReply → Except AppError (List String) :=
  fetchIds H "user_guild_ids" "guild_ids"

def fetchGuildMemberIds (H : HttpCrates) : HttpReply → Except AppError (List String) :=
  fetchIds H "guild_member_ids" "discord_ids"

end BirthdayRole
