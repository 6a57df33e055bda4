import AnatoliaBis.App.Store

/-! # Accounts

The functions of `db/identity.rs`, and the routes of `auth.rs` that need no
session: registration, the links sent by mail, and the password reset.
-/

namespace AnatoliaBis.App

open Atomic
open Auth (Headers trim requestId withHeaders withUser withActor)

/-! ## Reading and writing accounts -/

/-- `db::load_user_by_id`. -/
def loadUserById (d : Deployment) (id : String) : Handler (Except QueryError (Option Account)) :=
  match d.key id with
  | none => return .ok none
  | some key => query (.loadUserById key)

/-- `load_user_by_id(…).await.ok().flatten()`. -/
def loadTarget (d : Deployment) (id : String) : Handler (Option Account) := do
  match ← loadUserById d id with
  | .ok user => return user
  | .error _ => return none

/-- `db::update_user_flags`: the row is read, merged with the given flags, and
all four columns are written. -/
def updateUserFlags (d : Deployment) (id : String) (flags : FlagUpdate) :
    Handler (Except QueryError (Option Account)) := do
  match ← loadUserById d id with
  | .error err => return .error err
  | .ok none => return .ok none
  | .ok (some current) =>
      let next := flags.merge current
      match d.key id with
      | none => return .ok none
      | some key =>
          match ← query (.updateUserFlags key next.isApproved next.isBanned next.banReason
            next.role) with
          | .error err => return .error err
          | .ok _ => loadUserById d id

/-- `db::update_user_profile`. -/
def updateUserProfile (d : Deployment) (id firstName : String)
    (email nationalIdEncrypted nationalIdLookupHash : Option String) (passwordHash : String) :
    Handler (Except QueryError (Option Account)) :=
  match d.key id with
  | none => return .ok none
  | some key => do
      match ← query (.updateUserProfile key firstName email nationalIdEncrypted
        nationalIdLookupHash passwordHash) with
      | .error err => return .error err
      | .ok _ => loadUserById d id

/-- `db::update_user_password`. -/
def updateUserPassword (d : Deployment) (id passwordHash : String) :
    Handler (Except QueryError (Option Account)) :=
  match d.key id with
  | none => return .ok none
  | some key => do
      match ← query (.updateUserPassword key passwordHash) with
      | .error err => return .error err
      | .ok _ => loadUserById d id

/-- `db::delete_user`. -/
def deleteUser (d : Deployment) (id : String) : Handler (Except QueryError Bool) :=
  match d.key id with
  | none => return .ok false
  | some key => query (.deleteUser key)

/-- `db::soft_delete_user`. -/
def softDeleteUser (d : Deployment) (id : String) : Handler (Except QueryError Bool) :=
  match d.key id with
  | none => return .ok false
  | some key => do
      match ← query (.softDeleteUser key) with
      | .error err => return .error err
      | .ok true => return .ok true
      | .ok false =>
          match ← query (.loadUserByIdIncludingDeleted key) with
          | .error err => return .error err
          | .ok user => return .ok user.isSome

/-- `db::revoke_all_sessions_for_user`. -/
def revokeAllSessionsForUser (d : Deployment) (id : String) : Handler (Except QueryError Unit) :=
  match d.key id with
  | none => return .ok ()
  | some key => query (.revokeAllSessionsForUser key)

/-- The columns `create_user` is given. -/
structure NewUser where
  userCode : String
  email : Option String
  firstName : String
  lastName : String
  nationalIdEncrypted : Option String
  nationalIdLookupHash : Option String
  passwordHash : String
  role : String
  isApproved : Bool
  deriving Repr, DecidableEq

/-- The row inserted, the other columns at their defaults. -/
def NewUser.account (user : NewUser) (id : Uuid) : Account where
  id := id
  userCode := user.userCode
  firstName := user.firstName
  lastName := user.lastName
  email := user.email
  passwordHash := user.passwordHash
  role := user.role
  isApproved := user.isApproved
  isBanned := false
  deletedAt := none
  nationalIdEncrypted := user.nationalIdEncrypted
  nationalIdLookupHash := user.nationalIdLookupHash
  banReason := none

/-- `db::create_user`. On PostgreSQL the column default draws the identifier, and
`RETURNING` spares the second statement. -/
def createUser (d : Deployment) (user : NewUser) : Handler (Except QueryError (Option Account)) :=
  do
  let id ← perform (.auth .newId)
  match ← query (.createUser (user.account id)) with
  | .error err => return .error err
  | .ok _ =>
      match d.backend with
      | .postgres => return .ok (some (user.account id))
      | .sqlite => loadUserById d (Uuid.text id)

/-! ## Audit events -/

/-- A recorder with the request's headers. -/
def recorder (d : Deployment) (headers : Headers) (action result : String) : Audit.AuditRecorder :=
  withHeaders d.toPlatform (Audit.AuditRecorder.new action result (requestId headers)) headers

/-- `AuditRecorder::actor_opt`. -/
def withActorOpt (r : Audit.AuditRecorder) (actor : Option Auth.Claims) : Audit.AuditRecorder :=
  (actor.map (withActor r)).getD r

/-- `AuditRecorder::save`. -/
def save (d : Deployment) (r : Audit.AuditRecorder) : Handler Unit := lift (Auth.save d.toPlatform r)

/-- `AuditRecorder::save_mandatory`, and the answer if it succeeds. -/
def saveMandatory (d : Deployment) (headers : Headers) (r : Audit.AuditRecorder) (reply : Reply) :
    Handler Reply := do
  match ← lift (Auth.saveMandatory d.toPlatform r) with
  | .error err => return failure headers err.code err.messageKey
  | .ok _ => return reply

/-- The response to an audit event that could not be written. -/
def auditWriteFailed (headers : Headers) : Reply :=
  failure headers "AUDIT_WRITE_FAILED" "errors.auditWriteFailed"

/-- Finding the actor's organization only reads. -/
theorem run_resolveOrganizationId (p : Auth.Platform) (r : Audit.AuditRecorder)
    (ω : Nat → Auth.Env) (s : Auth.Server) :
    ((Auth.resolveOrganizationId p r).run (Auth.exec p) ω s).2 = s := by
  unfold Auth.resolveOrganizationId
  split
  · rfl
  · rw [Auth.run_query_bind]
    cases hf : (ω 0).fails with
    | true => simp only [Auth.exec_db_of_fails _ hf]; rfl
    | false => simp only [Auth.exec_db_of_succeeds _ hf]; rfl

theorem run_auth_saveMandatory (p : Auth.Platform) (r : Audit.AuditRecorder) (ω : Nat → Auth.Env)
    (s : Auth.Server) :
    ∃ (organizationId : Option String) (e : Auth.Env),
      (Auth.saveMandatory p r).run (Auth.exec p) ω s =
        if e.fails then (.error ⟨"AUDIT_WRITE_FAILED", "errors.auditWriteFailed", ""⟩, s)
        else (.ok (), { s with
          auditEvents := s.auditEvents ++ [r.toNewEvent organizationId] }) := by
  unfold Auth.saveMandatory
  rw [Program.run_bind, run_resolveOrganizationId, Auth.run_query_bind]
  refine ⟨((Auth.resolveOrganizationId p r).run (Auth.exec p) ω s).1,
    ω (0 + ((Auth.resolveOrganizationId p r).trace (Auth.exec p) ω s).length), ?_⟩
  generalize ω (0 + ((Auth.resolveOrganizationId p r).trace (Auth.exec p) ω s).length) = e
  cases hf : e.fails with
  | true => simp only [Auth.exec_db_of_fails _ hf]; rfl
  | false => simp only [Auth.exec_db_of_succeeds _ hf]; rfl

/-- A mandatory audit event is stored, or the request fails. -/
theorem run_saveMandatory (d : Deployment) (headers : Headers) (r : Audit.AuditRecorder)
    (reply : Reply) (ω : Nat → Auth.Env) (s : Database) :
    ∃ (organizationId : Option String) (e : Auth.Env),
      (saveMandatory d headers r reply).run (exec d) ω s =
        if e.fails then (auditWriteFailed headers, s)
        else (reply, { s with auth := { s.auth with
          auditEvents := s.auth.auditEvents ++ [r.toNewEvent organizationId] } }) := by
  rcases run_auth_saveMandatory d.toPlatform r ω s.auth with ⟨organizationId, e, hrun⟩
  refine ⟨organizationId, e, ?_⟩
  unfold saveMandatory lift
  rw [Program.run_bind, (authPart d).run_embed]
  simp only [authPart, hrun]
  split_ifs <;> rfl

/-! ## Links sent by mail -/

/-- `APPROVAL_TOKEN_TTL_DAYS`. -/
def approvalTokenTtlDays : Nat := 3

/-- `db::create_approval_token`, the row it returns left out: no caller reads it. -/
def createApprovalToken (d : Deployment) (userId : Uuid) (tokenHash purpose : String)
    (expiresAt : Timestamp) : Handler (Except QueryError Unit) := do
  let id ← perform (.auth .newId)
  match ← query (.createApprovalToken id userId tokenHash purpose expiresAt) with
  | .error err => return .error err
  | .ok _ =>
      match d.backend with
      | .postgres => return .ok ()
      | .sqlite =>
          match ← query (.findApprovalTokenByHash tokenHash) with
          | .error err => return .error err
          | .ok _ => return .ok ()

/-- `auth::sign_approval_token`. -/
def signApprovalToken (d : Deployment) (userId : Uuid) : Handler (Option LinkToken) := do
  let now ← perform (.auth .utcNow)
  let jti ← perform (.auth .newId)
  let expiresAt := now + Timestamp.days approvalTokenTtlDays
  let token := LinkToken.approval ⟨userId, approvalPurpose, jti, expiresAt.timestamp⟩
  match ← createApprovalToken d userId (d.sha256Hex (d.linkText token)) approvalPurpose
    expiresAt with
  | .error _ => return none
  | .ok _ => return some token

/-- `decode::<ApprovalClaims>`, at the instant `now`. -/
def LinkToken.approvalClaims (now : Timestamp) : LinkToken → Option ApprovalClaims
  | .approval c => if Auth.Unexpired c.exp now then some c else none
  | .other _ => none

/-- `auth::consume_approval_token`. -/
def consumeApprovalToken (d : Deployment) (token : LinkToken) (result : String) :
    Handler (Option Uuid) := do
  let now ← perform (.auth .utcNow)
  match (token.approvalClaims now).filter fun claims => claims.purpose == approvalPurpose with
  | none => return none
  | some claims =>
      match ← query (.findApprovalTokenByHash (d.sha256Hex (d.linkText token))) with
      | .ok (some row) =>
          if row.userId == claims.userId then
            let now ← perform (.auth .utcNow)
            if row.expiresAt < now ∨ row.consumedAt.isSome then return none
            else
              match ← query (.consumeApprovalToken row.id result) with
              | .ok true => return some claims.userId
              | _ => return none
          else return none
      | _ => return none

/-! ## Password reset -/

/-- `auth::validate_password(…).is_none()`. -/
def isStrongPassword (password : String) : Bool :=
  8 ≤ password.utf8ByteSize && password.toList.any Char.isUpper && password.toList.any Char.isLower &&
    password.toList.any Char.isDigit && password.toList.any fun c => !c.isAlphanum

def invalidResetToken (headers : Headers) : Reply :=
  failure headers "VALIDATION_ERROR" "errors.invalidResetToken"

/-- `reset_password` once the token is consumed. -/
def setPassword (d : Deployment) (headers : Headers) (userId : Uuid) (newPassword : String) :
    Handler Reply := do
  let salt ← perform (.auth .random)
  match d.bcryptHash newPassword salt with
  | none => return internal headers
  | some hashed =>
      match ← updateUserPassword d userId.text hashed with
      | .ok (some user) =>
          let _ ← revokeAllSessionsForUser d user.id.text
          save d (withUser (recorder d headers "AUTH_PASSWORD_RESET_COMPLETED" "success")
            user.toUserRow)
          return message "auth.passwordResetSuccess"
      | _ => return internal headers

/-- `auth::reset_password`. -/
def resetPassword (d : Deployment) (headers : Headers) (token newPassword : String) :
    Handler Reply :=
  if trim token = "" ∨ !isStrongPassword newPassword then return invalid headers
  else do
    match ← query (.findApprovalTokenByHash (d.sha256Hex (trim token))) with
    | .ok (some row) =>
        if row.purpose ≠ passwordResetPurpose ∨ row.consumedAt.isSome then
          return invalidResetToken headers
        else
          let now ← perform (.auth .utcNow)
          if row.expiresAt < now then return invalidResetToken headers
          else
            -- single-use: consumed before the password is even changed
            match ← query (.consumeApprovalToken row.id "reset") with
            | .ok true => setPassword d headers row.userId newPassword
            | _ => return invalidResetToken headers
    | _ => return invalidResetToken headers

/-- `PASSWORD_RESET_TOKEN_TTL_HOURS`. -/
def passwordResetTokenTtlHours : Nat := 1

/-- `db::load_user_by_code`. -/
def loadUserByCode (d : Deployment) (userCode : String) :
    Handler (Except DbError (Option Auth.UserRow)) :=
  perform (.auth (.db (.loadUserByCode (d.toUppercase (trim userCode)))))

/-- `db::load_user_by_email`. -/
def loadUserByEmail (d : Deployment) (email : String) :
    Handler (Except QueryError (Option Account)) :=
  query (.loadUserByEmail (d.toLowercase (trim email)))

/-- The account an identifier stands for: an address if there is an `@` in it, else a
user code. -/
def findByIdentifier (d : Deployment) (identifier : String) : Handler (Option Auth.UserRow) :=
  if identifier.toList.contains '@' then do
    match ← loadUserByEmail d identifier with
    | .ok user => return user.map (·.toUserRow)
    | .error _ => return none
  else do
    match ← loadUserByCode d identifier with
    | .ok user => return user
    | .error _ => return none

/-- The mail of `forgot_password`: a link to the address on file, or, without one, a
request to the administrator. -/
def sendResetMail (d : Deployment) (user : Auth.UserRow) : Handler Unit :=
  match user.email with
  | none => perform (.send (.passwordResetRequest user.firstName user.lastName user.userCode))
  | some email => do
      let now ← perform (.auth .utcNow)
      let bytes ← perform (.auth .random)
      let rawToken := String.ofList (Numeral.chars 16 64 bytes)
      match ← createApprovalToken d user.id (d.sha256Hex rawToken) passwordResetPurpose
        (now + Timestamp.minutes (60 * passwordResetTokenTtlHours)) with
      | .error _ => return ()
      | .ok _ =>
          perform (.send (.passwordReset user.firstName user.lastName email
            (d.appUrl ++ "/?resetToken=" ++ rawToken)))

/-- What `forgot_password` does for the account, if there is one. -/
def requestReset (d : Deployment) (headers : Headers) (identifier : String) : Handler Unit := do
  match ← findByIdentifier d identifier with
  | none => return ()
  | some user =>
      sendResetMail d user
      save d (withUser (recorder d headers "AUTH_PASSWORD_RESET_REQUESTED" "success") user)

/-- `auth::forgot_password`. -/
def forgotPassword (d : Deployment) (headers : Headers) (identifier : String) : Handler Reply :=
  if trim identifier = "" then return invalid headers
  else do
    let allowed ← perform (.auth (.rateCheck
      ("forgot-password:" ++ d.toLowercase (trim identifier)) 5 Auth.quarterHour))
    if allowed then
      requestReset d headers (trim identifier)
      return message "auth.forgotPasswordReceived"
    else return failure headers "RATE_LIMITED" "errors.rateLimited"

/-! ## Registration -/

/-- The payload of `register`. -/
structure RegisterPayload where
  firstName : String
  lastName : String
  email : String
  password : String
  userCode : String
  nationalId : String
  deriving Repr, DecidableEq

/-- Eleven ASCII digits. -/
def isNationalId (value : String) : Bool :=
  value.utf8ByteSize == 11 && value.toList.all Char.isDigit

/-- Four to twenty upper-case letters and digits. -/
def isUserCode (code : String) : Bool :=
  4 ≤ code.utf8ByteSize && code.utf8ByteSize ≤ 20 &&
    code.toList.all fun c => c.isUpper || c.isDigit

/-- `REGISTRATION_TRACKING_TOKEN_TTL_DAYS`. -/
def registrationTrackingTokenTtlDays : Nat := 14

/-- `register` once the account exists. -/
def announceRegistration (d : Deployment) (headers : Headers) (user : Account) : Handler Reply := do
  let bytes ← perform (.auth .random)
  let trackingToken := String.ofList (Numeral.chars 16 64 bytes)
  let now ← perform (.auth .utcNow)
  let _ ← query (.setRegistrationTrackingToken user.id trackingToken
    (now + Timestamp.days registrationTrackingTokenTtlDays))
  let token ← signApprovalToken d user.id
  match token with
  | some token =>
      perform (.send (.registration user.firstName user.lastName (user.email.getD "")
        user.userCode token))
  | none => pure ()
  save d ((recorder d headers "REGISTRATION_CREATED" "success").actorById user.id.text
    user.userCode Role.pending)
  return ⟨201, .registrationPending trackingToken, none⟩

/-- The payload passes the checks of `register`. -/
def RegisterPayload.isValid (d : Deployment) (payload : RegisterPayload) : Bool :=
  trim payload.firstName != "" && trim payload.lastName != "" && trim payload.email != "" &&
    payload.password != "" && trim payload.userCode != "" && isNationalId (trim payload.nationalId) &&
    isUserCode (d.toUppercase (trim payload.userCode)) && isStrongPassword payload.password

/-- `auth::register`. -/
def register (d : Deployment) (headers : Headers) (payload : RegisterPayload) : Handler Reply := do
  let allowed ← perform (.auth (.rateCheck "register" 20 Auth.quarterHour))
  if !allowed then return failure headers "RATE_LIMITED" "errors.rateLimited"
  else if !payload.isValid d then return invalid headers
  else
    let salt ← perform (.auth .random)
    match d.bcryptHash payload.password salt with
    | none => return internal headers
    | some hashed =>
        let nonce ← perform (.auth .random)
        let encrypted := d.encryptNationalId (trim payload.nationalId) nonce
        match ← createUser d ⟨d.toUppercase (trim payload.userCode),
          some (d.toLowercase (trim payload.email)), trim payload.firstName, trim payload.lastName,
          some encrypted.1, some encrypted.2, hashed, Role.pending, false⟩ with
        | .ok (some user) => announceRegistration d headers user
        | .error .unique => return failure headers "CONFLICT" "errors.registrationConflict"
        | _ => return internal headers

end AnatoliaBis.App
