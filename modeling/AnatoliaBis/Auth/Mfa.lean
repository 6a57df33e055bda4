import AnatoliaBis.Auth.Session

/-! # Multi-factor authentication

The functions of `mfa.rs`: enrollment (by session and by challenge token),
confirmation, verification, the login-time challenge, disabling and the
administrative reset.
-/

namespace AnatoliaBis.Auth

open Atomic

/-! ## Limits, keys and errors -/

/-- `Duration::from_secs(15 * 60)`, in nanoseconds. -/
def quarterHour : Nat := Timestamp.minutes 15

/-- `format!("mfa-verify:{}", user.id)`. -/
def mfaVerifyKey (userId : Uuid) : String := "mfa-verify:" ++ userId.text

/-- `format!("mfa-email-resend:{}", user.id)`. -/
def mfaEmailResendKey (userId : Uuid) : String := "mfa-email-resend:" ++ userId.text

def invalidMfaCode : ApiError := ⟨"INVALID_MFA_CODE", "errors.invalidMfaCode", ""⟩

def mfaEnrollmentNotStarted : ApiError :=
  ⟨"MFA_ENROLLMENT_NOT_STARTED", "errors.mfaEnrollmentNotStarted", ""⟩

def mfaEmailNotAvailable : ApiError :=
  ⟨"MFA_EMAIL_NOT_AVAILABLE", "errors.mfaEmailNotAvailable", ""⟩

def mfaNotEnabled : ApiError := ⟨"MFA_NOT_ENABLED", "errors.mfaNotEnabled", ""⟩

def rateLimited : ApiError := ⟨"RATE_LIMITED", "errors.rateLimited", ""⟩

/-- `err.request_id = rid; err.into_response()`. -/
def ApiError.respond (err : ApiError) (headers : Headers) : Response :=
  { err with requestId := Auth.requestId headers }.intoResponse

/-! ## Challenge tokens -/

/-- `CHALLENGE_TTL_MINUTES`. -/
def challengeTtlMinutes : Nat := 10

/-- `sign_challenge_token`. -/
def signChallengeToken (userId : Uuid) (purpose : Purpose) : Handler Token := do
  let now ← perform .utcNow
  return .challenge ⟨userId, purpose, (now + Timestamp.minutes challengeTtlMinutes).timestamp⟩

/-- `decode_challenge_token`. -/
def decodeChallengeToken (token : Token) (expectedPurpose : Purpose) : Handler (Option Uuid) := do
  let now ← perform .utcNow
  return token.challengeUser now expectedPurpose

/-- What `login_mfa_outcome` found. -/
inductive LoginMfaOutcome where
  | notRequired
  | challengeRequired (method : Method)
  | enrollmentRequired
  deriving Repr, DecidableEq

/-- `.ok().flatten().filter(|row| row.enabled_at.is_some())`. -/
def enabledCredential (found : Except DbError (Option MfaCredentialRow)) :
    Option MfaCredentialRow :=
  match found with
  | .ok row => row.filter (·.enabledAt.isSome)
  | .error _ => none

/-- `login_mfa_outcome`. -/
def loginMfaOutcome (p : Platform) (user : UserRow) : Handler LoginMfaOutcome := do
  let found ← query (.findMfaCredential user.id)
  match enabledCredential found with
  | some credential => return .challengeRequired credential.method
  | none =>
      if p.mfaRequiredRoles.contains user.role then return .enrollmentRequired
      else return .notRequired

/-! ## Beginning an enrollment -/

/-- `begin_totp_enrollment`. -/
def beginTotpEnrollment (p : Platform) (userId : Uuid) (accountName : String) :
    Handler (Except ApiError Body) := do
  let bytes ← perform .random
  let secret := p.generateSecret bytes
  match ← query (.upsertPendingMfaCredential userId secret) with
  | .error _ => return .error (internalError "")
  | .ok _ =>
      if p.buildTotp secret accountName then
        return .ok (.totpEnrollment secret (p.totpUrl secret accountName))
      else return .error (internalError "")

/-- `EMAIL_CODE_TTL_MINUTES`. -/
def emailCodeTtlMinutes : Nat := 10

/-- `email_code_expiry`, in the format `%Y-%m-%dT%H:%M:%.3fZ`: it has no `%S`. -/
def emailCodeExpiry (now : Timestamp) : String :=
  let expiry := now + Timestamp.minutes emailCodeTtlMinutes
  String.ofList (TimeText.chronoYear (TimeText.date expiry).year ++
    TimeText.minuteTail expiry (TimeText.millisZ expiry))

example : emailCodeExpiry 1111111111250000000 = "2005-03-18T02:08:.250Z" := by decide +kernel

/-- `begin_email_enrollment`. -/
def beginEmailEnrollment (p : Platform) (userId : Uuid) (email : String) :
    Handler (Except ApiError Body) := do
  let bytes ← perform .random
  let now ← perform .utcNow
  match ← query (.upsertPendingEmailMfaCredential userId (p.sha256Hex (emailCode bytes))
    (emailCodeExpiry now)) with
  | .error _ => return .error (internalError "")
  | .ok _ =>
      perform (.sendMfaCode email (emailCode bytes))
      return .ok (.emailEnrollment (maskEmail email))

/-- `begin_enrollment`: every method but `"email"` means TOTP. -/
def beginEnrollment (p : Platform) (userId : Uuid) (accountName method : String)
    (email : Option String) : Handler (Except ApiError Body) :=
  if method = Method.email.text then
    match email with
    | none => return .error mfaEmailNotAvailable
    | some email => beginEmailEnrollment p userId email
  else beginTotpEnrollment p userId accountName

/-- `resend_email_code`. -/
def resendEmailCode (p : Platform) (userId : Uuid) (email : String) :
    Handler (Except ApiError Unit) := do
  let bytes ← perform .random
  let now ← perform .utcNow
  match ← query (.updateEmailMfaCode userId (p.sha256Hex (emailCode bytes))
    (emailCodeExpiry now)) with
  | .error _ => return .error (internalError "")
  | .ok updated =>
      if updated then
        perform (.sendMfaCode email (emailCode bytes))
        return .ok ()
      else return .error mfaEnrollmentNotStarted

/-- `send_login_challenge_email_code`. -/
def sendLoginChallengeEmailCode (p : Platform) (user : UserRow) : Handler Unit :=
  match user.email with
  | none => return ()
  | some email => do
      let _ ← resendEmailCode p user.id email
      return ()

/-! ## Confirming and verifying -/

/-- `ConfirmOutcome`. -/
inductive ConfirmOutcome where
  | enabled (recoveryCodes : List String)
  | alreadyEnabled
  deriving Repr, DecidableEq

/-- The `INSERT`s of `replace_recovery_codes`. -/
def insertRecoveryCodes (userId : Uuid) : List String → Handler (Except DbError Unit)
  | [] => return .ok ()
  | hash :: hashes => do
      match ← query (.insertRecoveryCode userId hash) with
      | .error err => return .error err
      | .ok _ => insertRecoveryCodes userId hashes

/-- `db::replace_recovery_codes`. -/
def replaceRecoveryCodes (userId : Uuid) (codeHashes : List String) :
    Handler (Except DbError Unit) := do
  match ← query (.deleteRecoveryCodes userId) with
  | .error err => return .error err
  | .ok _ => insertRecoveryCodes userId codeHashes

/-- `totp_code_matches`. -/
def totpCodeMatches (secret accountName code : String) : Handler Bool :=
  if trim code = "" then return false
  else perform (.totpCheck secret accountName (trim code))

/-- The end of `confirm_enrollment`, once the credential is enabled. -/
def issueRecoveryCodes (p : Platform) (userId : Uuid) : Handler (Except ApiError ConfirmOutcome) :=
  do
  let bytes ← perform .random
  match ← replaceRecoveryCodes userId ((recoveryCodes bytes).map p.sha256Hex) with
  | .error _ => return .error (internalError "")
  | .ok _ => return .ok (.enabled (recoveryCodes bytes))

/-- The comparison of `confirm_enrollment`: whether the pending credential got
enabled. -/
def enablePending (p : Platform) (userId : Uuid) (accountName code : String)
    (pending : MfaCredentialRow) : Handler (Except ApiError Bool) :=
  match pending.method with
  | .email => do
      perform (.compareCode userId)
      match ← query (.enableEmailMfaCredential userId (p.sha256Hex (trim code))) with
      | .error _ => return .error (internalError "")
      | .ok enabled => return .ok enabled
  | .totp =>
      if p.buildTotp pending.secret accountName then do
        perform (.compareCode userId)
        let ok ← totpCodeMatches pending.secret accountName code
        if ok then
          match ← query (.enableMfaCredential userId pending.secret) with
          | .error _ => return .error (internalError "")
          | .ok enabled => return .ok enabled
        else return .error invalidMfaCode
      else return .error (internalError "")

/-- `confirm_enrollment`. -/
def confirmEnrollment (p : Platform) (userId : Uuid) (accountName code : String) :
    Handler (Except ApiError ConfirmOutcome) := do
  match ← query (.findMfaCredential userId) with
  | .ok (some pending) =>
      -- a retry of a confirmation that went through
      if pending.enabledAt.isSome then return .ok .alreadyEnabled
      else
        match ← enablePending p userId accountName code pending with
        | .error err => return .error err
        | .ok false => return .error invalidMfaCode
        | .ok true => issueRecoveryCodes p userId
  | _ => return .error mfaEnrollmentNotStarted

/-- `VerifyOutcome`. -/
inductive VerifyOutcome where
  | primary
  | recovery
  | failed
  deriving Repr, DecidableEq

/-- The end of `verify_code`: a recovery code. -/
def verifyRecoveryCode (p : Platform) (userId : Uuid) (code : String) : Handler VerifyOutcome := do
  match ← query (.consumeRecoveryCode userId (p.sha256Hex (trim code))) with
  | .ok true =>
      let _ ← query (.touchMfaLastUsed userId)
      return .recovery
  | _ => return .failed

/-- The TOTP branch's test in `verify_code`. -/
def credentialTotpMatches (p : Platform) (secret accountName code : String) : Handler Bool :=
  if p.buildTotp secret accountName then totpCodeMatches secret accountName code
  else return false

/-- The body of `verify_code`. -/
def verifyCredential (p : Platform) (userId : Uuid) (accountName code : String) :
    Handler (Except ApiError VerifyOutcome) := do
  let found ← query (.findMfaCredential userId)
  match enabledCredential found with
  | none => return .error mfaNotEnabled
  | some credential =>
      match credential.method with
      | .email =>
          match ← query (.consumeEmailMfaCode userId (p.sha256Hex (trim code))) with
          | .ok true => return .ok .primary
          | _ =>
              let outcome ← verifyRecoveryCode p userId code
              return .ok outcome
      | .totp =>
          let ok ← credentialTotpMatches p credential.secret accountName code
          if ok then
            let _ ← query (.touchMfaLastUsed userId)
            return .ok .primary
          else
            let outcome ← verifyRecoveryCode p userId code
            return .ok outcome

/-- `verify_code`. -/
def verifyCode (p : Platform) (userId : Uuid) (accountName code : String) :
    Handler (Except ApiError VerifyOutcome) := do
  perform (.compareCode userId)
  verifyCredential p userId accountName code

/-! ## Routes of a signed-in user -/

/-- `load_user_by_id` where anything but a row ends the request. -/
def loadUser (userId : Uuid) : Handler (Option UserRow) := do
  match ← query (.loadUserById (.uuid userId)) with
  | .ok user => return user
  | .error _ => return none

/-- The answer of the two routes that begin an enrollment. -/
def enrollmentResponse (headers : Headers) : Except ApiError Body → Response
  | .ok body => json body
  | .error err => err.respond headers

/-- `POST /api/v1/auth/mfa/enroll`. -/
def enroll (p : Platform) (headers : Headers) (method : Option String) : Handler Response := do
  match ← authUserFromHeaders headers with
  | none => return unauthorized headers
  | some claims =>
      match ← loadUser claims.id with
      | none => return unauthorized headers
      | some user =>
          let begun ← beginEnrollment p claims.id claims.userCode
            (method.getD Method.totp.text) user.email
          return enrollmentResponse headers begun

/-- The end of the three routes that mail a fresh code. -/
def resendTo (p : Platform) (headers : Headers) (userId : Uuid) (email : Option String) :
    Handler Response :=
  match email with
  | none => return mfaEmailNotAvailable.respond headers
  | some email => do
      let allowed ← perform (.rateCheck (mfaEmailResendKey userId) 5 quarterHour)
      if allowed then
        match ← resendEmailCode p userId email with
        | .ok _ => return json (.emailSent (maskEmail email))
        | .error err => return err.respond headers
      else return rateLimited.respond headers

/-- `POST /api/v1/auth/mfa/enroll/resend`. -/
def enrollResend (p : Platform) (headers : Headers) : Handler Response := do
  match ← authUserFromHeaders headers with
  | none => return unauthorized headers
  | some claims =>
      match ← loadUser claims.id with
      | none => return unauthorized headers
      | some user => resendTo p headers claims.id user.email

/-- `POST /api/v1/auth/mfa/enroll/confirm`. -/
def enrollConfirm (p : Platform) (headers : Headers) (code : String) : Handler Response := do
  match ← authUserFromHeaders headers with
  | none => return unauthorized headers
  | some claims =>
      match ← confirmEnrollment p claims.id claims.userCode code with
      | .error err => return err.respond headers
      | .ok .alreadyEnabled => return json (.recoveryCodes [])
      | .ok (.enabled codes) =>
          match ← saveMandatory p (withHeaders p (withActor (Audit.AuditRecorder.new
            "MFA_ENABLED" "success" (requestId headers)) claims) headers) with
          | .error err => return err.respond headers
          | .ok _ => return json (.recoveryCodes codes)

/-- `db::delete_mfa_credential`. -/
def deleteMfaCredential (userId : Uuid) : Handler (Except DbError Unit) := do
  match ← query (.deleteMfaCredential userId) with
  | .error err => return .error err
  | .ok _ => query (.deleteRecoveryCodes userId)

/-- The end of `disable`, the code verified. -/
def removeOwnCredential (p : Platform) (headers : Headers) (claims : Claims) :
    Handler Response := do
  match ← deleteMfaCredential claims.id with
  | .error _ => return (internalError "").respond headers
  | .ok _ =>
      match ← saveMandatory p (withHeaders p (withActor (Audit.AuditRecorder.new
        "MFA_DISABLED" "success" (requestId headers)) claims) headers) with
      | .error err => return err.respond headers
      | .ok _ => return json (.message "auth.mfa.disabled")

/-- `POST /api/v1/auth/mfa/disable`. -/
def disable (p : Platform) (headers : Headers) (password code : String) : Handler Response := do
  match ← authUserFromHeaders headers with
  | none => return unauthorized headers
  | some claims =>
      match ← loadUser claims.id with
      | none => return unauthorized headers
      | some user =>
          if p.bcryptVerify password user.passwordHash then
            match ← verifyCode p claims.id claims.userCode code with
            | .ok .primary | .ok .recovery => removeOwnCredential p headers claims
            | _ => return invalidMfaCode.respond headers
          else
            return (ApiError.mk "UNAUTHORIZED" "errors.invalidCredentials"
              (requestId headers)).intoResponse

/-! ## Routes of a login in progress -/

/-- `load_user_or_unauthorized`: approved, and not banned. -/
def loadUserOrUnauthorized (userId : Uuid) : Handler (Option UserRow) := do
  let user ← loadUser userId
  return user.filter fun user => !user.isBanned && user.isApproved

/-- `POST /api/v1/auth/mfa/challenge/enroll`. -/
def challengeEnroll (p : Platform) (headers : Headers) (mfaToken : Token)
    (method : Option String) : Handler Response := do
  match ← decodeChallengeToken mfaToken .enrollment with
  | none => return unauthorized headers
  | some userId =>
      match ← loadUserOrUnauthorized userId with
      | none => return unauthorized headers
      | some user =>
          let begun ← beginEnrollment p user.id user.userCode
            (method.getD Method.totp.text) user.email
          return enrollmentResponse headers begun

/-- `POST /api/v1/auth/mfa/challenge/enroll/resend`. -/
def challengeEnrollResend (p : Platform) (headers : Headers) (mfaToken : Token) :
    Handler Response := do
  match ← decodeChallengeToken mfaToken .enrollment with
  | none => return unauthorized headers
  | some userId =>
      match ← loadUserOrUnauthorized userId with
      | none => return unauthorized headers
      | some user => resendTo p headers user.id user.email

/-- `POST /api/v1/auth/mfa/challenge/request-code`. -/
def challengeRequestCode (p : Platform) (headers : Headers) (mfaToken : Token) :
    Handler Response := do
  match ← decodeChallengeToken mfaToken .login with
  | none => return unauthorized headers
  | some userId =>
      match ← loadUserOrUnauthorized userId with
      | none => return unauthorized headers
      | some user =>
          let found ← query (.findMfaCredential user.id)
          if (enabledCredential found).any (·.method == .email) then
            resendTo p headers user.id user.email
          else return mfaNotEnabled.respond headers

/-- `complete_login`: one retry when the session could not be stored. -/
def completeLogin (p : Platform) (user : UserRow) (headers : Headers)
    (recoveryCodes : Option (List String)) : Handler Response := do
  match ← issueSession p user headers with
  | .ok pair => finish pair
  | .error _ =>
      match ← issueSession p user headers with
      | .ok pair => finish pair
      | .error _ => return (internalError "").respond headers
where
  finish (pair : Token × Token) : Handler Response := do
    save p (withHeaders p (withUser (Audit.AuditRecorder.new "AUTH_LOGIN_SUCCESS" "success"
      (requestId headers)) user) headers)
    return sessionResponse pair.1 pair.2 user recoveryCodes

/-- The end of `challenge_enroll_confirm`. -/
def finishEnrollment (p : Platform) (headers : Headers) (user : UserRow)
    (outcome : Except ApiError ConfirmOutcome) : Handler Response :=
  match outcome with
  | .error err => return err.respond headers
  | .ok .alreadyEnabled => completeLogin p user headers none
  | .ok (.enabled codes) => do
      match ← saveMandatory p (withHeaders p (withUser (Audit.AuditRecorder.new
        "MFA_ENABLED" "success" (requestId headers)) user) headers) with
      | .error err => return err.respond headers
      | .ok _ => completeLogin p user headers (some codes)

/-- `POST /api/v1/auth/mfa/challenge/enroll/confirm`. -/
def challengeEnrollConfirm (p : Platform) (headers : Headers) (mfaToken : Token)
    (code : String) : Handler Response := do
  match ← decodeChallengeToken mfaToken .enrollment with
  | none => return unauthorized headers
  | some userId =>
      match ← loadUserOrUnauthorized userId with
      | none => return unauthorized headers
      | some user =>
          let outcome ← confirmEnrollment p user.id user.userCode code
          finishEnrollment p headers user outcome

/-- The end of `challenge_verify`. -/
def finishVerification (p : Platform) (headers : Headers) (user : UserRow)
    (outcome : Except ApiError VerifyOutcome) : Handler Response :=
  match outcome with
  | .ok .primary => completeLogin p user headers none
  | .ok .recovery => do
      save p (withHeaders p (withUser (Audit.AuditRecorder.new "MFA_RECOVERY_CODE_USED" "success"
        (requestId headers)) user) headers)
      completeLogin p user headers none
  | _ => do
      save p (withHeaders p (withUser (Audit.AuditRecorder.new "MFA_CHALLENGE_FAILED" "denied"
        (requestId headers)) user) headers)
      return invalidMfaCode.respond headers

/-- `POST /api/v1/auth/mfa/challenge/verify`. -/
def challengeVerify (p : Platform) (headers : Headers) (mfaToken : Token) (code : String) :
    Handler Response := do
  match ← decodeChallengeToken mfaToken .login with
  | none => return unauthorized headers
  | some userId =>
      match ← loadUserOrUnauthorized userId with
      | none => return unauthorized headers
      | some user =>
          let allowed ← perform (.rateCheck (mfaVerifyKey user.id) 8 quarterHour)
          if allowed then
            let outcome ← verifyCode p user.id user.userCode code
            finishVerification p headers user outcome
          else return rateLimited.respond headers

/-! ## Administration -/

/-- `permission::can_administer_users`. -/
def canAdministerUsers (role : String) : Bool := role == "SYSTEM_ADMIN" || role == "SECURITY_ADMIN"

/-- `mfa::admin_reset`. -/
def adminReset (targetUserId : Uuid) : Handler (Except DbError Unit) :=
  deleteMfaCredential targetUserId

/-- `load_user_by_id` on a path segment, `.ok().flatten()`. -/
def loadTarget (p : Platform) (id : String) : Handler (Option UserRow) :=
  match p.key id with
  | none => return none
  | some key => do
      match ← query (.loadUserById key) with
      | .ok user => return user
      | .error _ => return none

/-- The end of `admin::mfa_reset_route`. The bearer token is decoded again for
the audit event. -/
def resetTarget (p : Platform) (headers : Headers) (target : UserRow) : Handler Response := do
  match ← adminReset target.id with
  | .error _ => return (internalError "").respond headers
  | .ok _ =>
      let actor ← authUserFromHeaders headers
      let recorder := Audit.AuditRecorder.new "MFA_RESET_BY_ADMIN" "success" (requestId headers)
      match ← saveMandatory p ((withHeaders p ((actor.map (withActor recorder)).getD recorder)
        headers).resource "user" target.id.text) with
      | .error err => return err.respond headers
      | .ok _ => return json (.message "admin.mfaResetComplete")

/-- `admin::mfa_reset_route`. -/
def mfaResetRoute (p : Platform) (headers : Headers) (id : String) : Handler Response := do
  let claims ← authUserFromHeaders headers
  if claims.any fun claims => canAdministerUsers claims.role then
    match ← loadTarget p id with
    | none => return (ApiError.mk "NOT_FOUND" "errors.notFound" (requestId headers)).intoResponse
    | some target => resetTarget p headers target
  else return (ApiError.mk "FORBIDDEN" "errors.forbidden" (requestId headers)).intoResponse

end AnatoliaBis.Auth
