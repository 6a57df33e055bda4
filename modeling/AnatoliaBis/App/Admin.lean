import AnatoliaBis.App.Accounts

/-! # Administration of accounts

The routes of `admin.rs` that change accounts: decisions on registrations, by an
administrator or by a mailed link, bans, roles, deletion, creation and editing.
-/

namespace AnatoliaBis.App

open Atomic
open Auth (Headers trim requestId)

/-! ## Who may call -/

/-- `auth::require_role`. -/
def requireRole (headers : Headers) (policy : Policy) : Handler Bool := do
  let claims ← lift (Auth.authUserFromHeaders headers)
  return claims.any fun claims => policy.allows claims.role

/-- `require_admin` in front of a route. -/
def adminOnly (headers : Headers) (route : Handler Reply) : Handler Reply := do
  let allowed ← requireRole headers .administerUsers
  if allowed then route else return forbidden headers

/-- `actor_claims`: the bearer token, decoded once more. -/
def actorClaims (headers : Headers) : Handler (Option Auth.Claims) :=
  lift (Auth.authUserFromHeaders headers)

/-- The audit event of a route about the account `id`. -/
def userEvent (d : Deployment) (headers : Headers) (action : String) (actor : Option Auth.Claims)
    (id : String) : Audit.AuditRecorder :=
  (withActorOpt (recorder d headers action "success") actor).resource "user" id

/-! ## Decisions on registrations -/

/-- The flags of an approval. -/
def approval : FlagUpdate := ⟨some true, some false, none, some Role.defaultApproved⟩

/-- `send_approval_email`, if there is an address. -/
def sendApproval (user : Account) : Handler Unit :=
  match user.email with
  | none => return ()
  | some email => perform (.send (.approval user.firstName user.lastName email user.userCode))

/-- `send_rejection_email`, if there is an address. -/
def sendRejection (user : Account) : Handler Unit :=
  match user.email with
  | none => return ()
  | some email => perform (.send (.rejection user.firstName user.lastName email))

/-- `admin::approve_user`. -/
def approveUser (d : Deployment) (headers : Headers) (id : String) : Handler Reply :=
  adminOnly headers do
    match ← updateUserFlags d id approval with
    | .ok (some user) =>
        sendApproval user
        let actor ← actorClaims headers
        save d (userEvent d headers "REGISTRATION_APPROVED" actor user.id.text)
        return json (.publicUser (Auth.publicUser user.toUserRow))
    | .ok none => return notFound headers
    | .error _ => return internal headers

/-- `admin::reject_user`. -/
def rejectUser (d : Deployment) (headers : Headers) (id : String) : Handler Reply :=
  adminOnly headers do
    let user ← loadTarget d id
    let actor ← actorClaims headers
    match ← deleteUser d id with
    | .ok true =>
        match user with
        | some user => sendRejection user
        | none => pure ()
        save d (userEvent d headers "REGISTRATION_REJECTED" actor id)
        return message "admin.requestRejected"
    | .ok false => return notFound headers
    | .error _ => return internal headers

def invalidLink : Reply :=
  htmlPage "Invalid or expired link"
    "<p>This approval link is invalid, has expired, or has already been used.</p>"

def requestGone : Reply :=
  htmlPage "Not found" "<p>This registration request no longer exists.</p>"

/-- A page that names the applicant. -/
def namedPage (title : String) (user : Account) (rest : String) : Reply :=
  htmlPage title ("<p>" ++ escapeHtml user.firstName ++ " " ++ escapeHtml user.lastName ++ rest ++
    "</p>")

/-- The audit event of a decision made through a link. -/
def linkEvent (d : Deployment) (headers : Headers) (action id : String) : Audit.AuditRecorder :=
  (userEvent d headers action none id).withMetadata (.object [("source", .string "email_link")])

/-- `admin::quick_approve`. -/
def quickApprove (d : Deployment) (headers : Headers) (token : LinkToken) : Handler Reply := do
  match ← consumeApprovalToken d token "approved" with
  | none => return invalidLink
  | some userId =>
      match ← updateUserFlags d userId.text approval with
      | .ok (some user) =>
          sendApproval user
          save d (linkEvent d headers "REGISTRATION_APPROVED" user.id.text)
          return namedPage "Approved" user " has been approved and notified by email."
      | .ok none => return requestGone
      | .error _ => return json .errorPage

/-- `admin::quick_reject`. -/
def quickReject (d : Deployment) (headers : Headers) (token : LinkToken) : Handler Reply := do
  match ← consumeApprovalToken d token "rejected" with
  | none => return invalidLink
  | some userId =>
      let user ← loadTarget d userId.text
      match ← deleteUser d userId.text with
      | .ok true =>
          save d (linkEvent d headers "REGISTRATION_REJECTED" userId.text)
          match user with
          | some user =>
              sendRejection user
              return namedPage "Rejected" user " has been rejected and notified by email."
          | none => return htmlPage "Rejected" "<p>Registration request rejected.</p>"
      | .ok false => return requestGone
      | .error _ => return json .errorPage

/-! ## Bans, roles and deletion -/

/-- `count_active_system_admins(…).map(|count| count <= 1).unwrap_or(false)`. -/
def isLastAdmin : Handler Bool := do
  match ← query .countActiveSystemAdmins with
  | .ok count => return decide (count ≤ 1)
  | .error _ => return false

/-- `would_remove_last_admin`. -/
def wouldRemoveLastAdmin (target : Account) : Handler Bool :=
  if target.role != Role.systemAdmin || target.isBanned then return false else isLastAdmin

/-- The guard in front of a ban or a deletion. -/
def guardTarget (d : Deployment) (id : String) : Handler Bool := do
  let target ← loadTarget d id
  match target with
  | some target => wouldRemoveLastAdmin target
  | none => return false

def lastAdminProtected (headers : Headers) : Reply :=
  failure headers "LAST_ADMIN_PROTECTED" "errors.lastAdminProtected"

/-- `admin::ban_user`. -/
def banUser (d : Deployment) (headers : Headers) (id : String) (reason : Option String) :
    Handler Reply :=
  adminOnly headers do
    let guarded ← guardTarget d id
    if guarded then return lastAdminProtected headers
    else
      match ← updateUserFlags d id ⟨none, some true, reason, none⟩ with
      | .ok (some _) =>
          -- a ban must take effect immediately, not just for future logins
          let _ ← revokeAllSessionsForUser d id
          let actor ← actorClaims headers
          saveMandatory d headers ((userEvent d headers "USER_BANNED" actor id).withMetadata
            (.object [("reason", (reason.map Json.Value.string).getD .null)]))
            (message "admin.userBanned")
      | .ok none => return notFound headers
      | .error _ => return internal headers

/-- `admin::unban_user`. -/
def unbanUser (d : Deployment) (headers : Headers) (id : String) : Handler Reply :=
  adminOnly headers do
    match ← updateUserFlags d id ⟨none, some false, none, none⟩ with
    | .ok (some _) =>
        let actor ← actorClaims headers
        saveMandatory d headers (userEvent d headers "USER_UNBANNED" actor id)
          (message "admin.banLifted")
    | .ok none => return notFound headers
    | .error _ => return internal headers

/-- `change_role_route` once the change is allowed. -/
def applyRole (d : Deployment) (headers : Headers) (id previousRole role : String) :
    Handler Reply := do
  match ← updateUserFlags d id ⟨none, none, none, some role⟩ with
  | .ok (some _) =>
      let _ ← revokeAllSessionsForUser d id
      let actor ← actorClaims headers
      saveMandatory d headers ((userEvent d headers "USER_ROLE_CHANGED" actor id).withMetadata
        (.object [("from", .string previousRole), ("to", .string role)]))
        (message "admin.roleChanged")
  | .ok none => return notFound headers
  | .error _ => return internal headers

/-- `demotes_last_admin`. -/
def demotesLastAdmin (target : Account) (role : String) : Handler Bool :=
  if target.role == Role.systemAdmin && role != Role.systemAdmin then isLastAdmin else return false

/-- `admin::change_role_route`. -/
def changeRole (d : Deployment) (headers : Headers) (id role : String) : Handler Reply :=
  adminOnly headers <|
    if !Role.isAssignable role then
      return failure headers "VALIDATION_ERROR" "errors.invalidRole"
    else do
      let target ← loadTarget d id
      match target with
      | none => return notFound headers
      | some target =>
          if target.role = role then
            return failure headers "VALIDATION_ERROR" "errors.roleUnchanged"
          else
            let demotes ← demotesLastAdmin target role
            if demotes then return lastAdminProtected headers
            else applyRole d headers id target.role role

/-- `admin::delete_user_route`. -/
def deleteUserRoute (d : Deployment) (headers : Headers) (id : String) : Handler Reply :=
  adminOnly headers do
    let guarded ← guardTarget d id
    if guarded then return lastAdminProtected headers
    else
      match ← softDeleteUser d id with
      | .ok true =>
          let _ ← revokeAllSessionsForUser d id
          let actor ← actorClaims headers
          save d (userEvent d headers "USER_DELETED" actor id)
          return message "admin.userDeleted"
      | .ok false => return notFound headers
      | .error _ => return internal headers

/-! ## Creating and editing accounts -/

/-- The answer to a failed write of an account. -/
def writeFailed (headers : Headers) : QueryError → Reply
  | .unique => failure headers "CONFLICT" "errors.registrationConflict"
  | .failed => internal headers

/-- `CreateUserPayload`. -/
structure CreateUserPayload where
  userCode : String
  password : String
  firstName : Option String
  lastName : Option String
  nationalId : String
  email : String
  isAdmin : Bool
  deriving Repr, DecidableEq

/-- `admin::create_user_route`. -/
def createUserRoute (d : Deployment) (headers : Headers) (payload : CreateUserPayload) :
    Handler Reply :=
  adminOnly headers <|
    let code := d.toUppercase (trim payload.userCode)
    let nationalId := trim payload.nationalId
    let email := d.toLowercase (trim payload.email)
    if !isUserCode code || payload.password.utf8ByteSize < 8 || !isNationalId nationalId ||
        email == "" then
      return invalid headers
    else do
      let salt ← perform (.auth .random)
      match d.bcryptHash payload.password salt with
      | none => return internal headers
      | some hashed =>
          let nonce ← perform (.auth .random)
          let encrypted := d.encryptNationalId nationalId nonce
          match ← createUser d ⟨code, some email,
            ((payload.firstName.map trim).filter (· != "")).getD code,
            (payload.lastName.map trim).getD "", some encrypted.1, some encrypted.2, hashed,
            if payload.isAdmin then Role.systemAdmin else Role.defaultApproved, true⟩ with
          | .ok (some user) =>
              let actor ← actorClaims headers
              save d (userEvent d headers "USER_CREATED" actor user.id.text)
              return json (.user (d.userJson user))
          | .ok none => return internal headers
          | .error err => return writeFailed headers err

/-- `UpdateUserPayload`. -/
structure UpdateUserPayload where
  nickname : Option String
  nationalId : Option String
  email : Option String
  password : Option String
  deriving Repr, DecidableEq

/-- A text that is there and not blank, trimmed. -/
def given (value : Option String) : Option String := (value.map trim).filter (· != "")

/-- The national-id columns to write; nothing if the payload's is malformed. -/
def nextNationalId (d : Deployment) (payload : UpdateUserPayload) (current : Account) :
    Handler (Option (Option String × Option String)) :=
  match given payload.nationalId with
  | none => return some (current.nationalIdEncrypted, current.nationalIdLookupHash)
  | some value =>
      if isNationalId value then do
        let nonce ← perform (.auth .random)
        let encrypted := d.encryptNationalId value nonce
        return some (some encrypted.1, some encrypted.2)
      else return none

/-- The password hash to write, or the refusal. -/
def nextPasswordHash (d : Deployment) (headers : Headers) (payload : UpdateUserPayload)
    (current : Account) : Handler (Except Reply String) :=
  match payload.password.filter (· != "") with
  -- untouched: the hash that was read is written back
  | none => return .ok current.passwordHash
  | some password =>
      if password.utf8ByteSize < 8 then return .error (invalid headers)
      else do
        let salt ← perform (.auth .random)
        match d.bcryptHash password salt with
        | none => return .error (internal headers)
        | some hashed => return .ok hashed

/-- The end of `update_user_route`. -/
def writeProfile (d : Deployment) (headers : Headers) (id : String) (payload : UpdateUserPayload)
    (current : Account) (nationalId : Option String × Option String) (passwordHash : String) :
    Handler Reply := do
  match ← updateUserProfile d id ((given payload.nickname).getD current.firstName)
    (((given payload.email).map d.toLowercase).or current.email) nationalId.1 nationalId.2
    passwordHash with
  | .ok (some user) =>
      let actor ← actorClaims headers
      save d (userEvent d headers "USER_UPDATED" actor user.id.text)
      return json (.user (d.userJson user))
  | .ok none => return notFound headers
  | .error err => return writeFailed headers err

/-- `admin::update_user_route`. -/
def updateUserRoute (d : Deployment) (headers : Headers) (id : String)
    (payload : UpdateUserPayload) : Handler Reply :=
  adminOnly headers do
    let current ← loadTarget d id
    match current with
    | none => return notFound headers
    | some current =>
        let nationalId ← nextNationalId d payload current
        match nationalId with
        | none => return invalid headers
        | some nationalId =>
            match ← nextPasswordHash d headers payload current with
            | .error reply => return reply
            | .ok passwordHash => writeProfile d headers id payload current nationalId passwordHash

end AnatoliaBis.App
