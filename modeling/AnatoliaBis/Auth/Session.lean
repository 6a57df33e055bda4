import AnatoliaBis.Auth.Store

/-! # Sessions

The handlers of `auth.rs` about sessions: issuing, refreshing, revoking, and the
retention job. Signing a token cannot fail in the model: HS256 encoding of these
claims has no failing case.
-/

namespace AnatoliaBis.Auth

open Atomic

/-- `ApiError::new("INTERNAL_ERROR", "errors.internal", rid)`. -/
def internalError (rid : String) : ApiError := ⟨"INTERNAL_ERROR", "errors.internal", rid⟩

/-- `ApiError::new("UNAUTHORIZED", "errors.unauthorized", rid)`. -/
def unauthorizedError (rid : String) : ApiError := ⟨"UNAUTHORIZED", "errors.unauthorized", rid⟩

/-- `auth::unauthorized`. -/
def unauthorized (headers : Headers) : Response :=
  (unauthorizedError (requestId headers)).intoResponse

/-! ## Audit writes -/

/-- `AuditRecorder::resolve_organization_id`. -/
def resolveOrganizationId (p : Platform) (r : Audit.AuditRecorder) : Handler (Option String) :=
  match r.actorUserId.bind p.key with
  | none => return none
  | some userId => do
      match ← query (.userOrganizationIds userId) with
      | .ok ids => return ids.head?
      | .error _ => return none

/-- `AuditRecorder::save`: best-effort. -/
def save (p : Platform) (r : Audit.AuditRecorder) : Handler Unit := do
  let organizationId ← resolveOrganizationId p r
  let _ ← query (.insertAuditEvent (r.toNewEvent organizationId))
  return ()

/-- `AuditRecorder::save_mandatory`. -/
def saveMandatory (p : Platform) (r : Audit.AuditRecorder) : Handler (Except ApiError Unit) := do
  let organizationId ← resolveOrganizationId p r
  match ← query (.insertAuditEvent (r.toNewEvent organizationId)) with
  | .ok _ => return .ok ()
  | .error _ => return .error ⟨"AUDIT_WRITE_FAILED", "errors.auditWriteFailed", ""⟩

/-! ## Issuing -/

/-- `ACCESS_TOKEN_TTL_SECS`. -/
def accessTokenTtlSecs : Nat := 15 * 60

/-- `REFRESH_TOKEN_TTL_DAYS`. -/
def refreshTokenTtlDays : Nat := 30

/-- `sign_access`. -/
def signAccess (user : UserRow) : Handler Claims := do
  let now ← perform .utcNow
  return { id := user.id, userCode := user.userCode, email := user.email.getD "",
           role := user.role, exp := now.timestamp + accessTokenTtlSecs }

/-- `sign_refresh`. -/
def signRefresh (userId family : Uuid) (expiresAt : Timestamp) : Handler RefreshClaims := do
  let jti ← perform .newId
  return { sub := userId, family := family, jti := jti, exp := expiresAt.timestamp }

/-- `db::create_session`, the row it returns left out: no caller reads it. On
PostgreSQL the column default draws the identifier, and `RETURNING` spares the
second statement. -/
def createSession (p : Platform) (userId : Uuid) (refreshTokenHash : String) (family : Uuid)
    (expiresAt : Timestamp) (userAgent ipAddress : Option String) (createdBy : String) :
    Handler (Except DbError Unit) := do
  let id ← perform .newId
  match ← query (.insertSession id userId refreshTokenHash family expiresAt userAgent ipAddress
    createdBy) with
  | .error err => return .error err
  | .ok _ =>
      match p.backend with
      | .postgres => return .ok ()
      | .sqlite =>
          match ← query (.findSessionById id) with
          | .error err => return .error err
          | .ok _ => return .ok ()

/-- `issue_session`: an access and a refresh token. -/
def issueSession (p : Platform) (user : UserRow) (headers : Headers) :
    Handler (Except ApiError (Token × Token)) := do
  let family ← perform .newId
  let now ← perform .utcNow
  let expiresAt := now + Timestamp.days refreshTokenTtlDays
  let refreshToken ← signRefresh user.id family expiresAt
  match ← createSession p user.id (p.refreshTokenHash refreshToken) family expiresAt
    (userAgent headers) (clientIp p headers) "login" with
  | .error _ => return .error (internalError "")
  | .ok _ =>
      let accessToken ← signAccess user
      return .ok (.access accessToken, .refresh refreshToken)

/-- The response that hands a session over. -/
def sessionResponse (accessToken refreshToken : Token) (user : UserRow)
    (recoveryCodes : Option (List String)) : Response :=
  ⟨200, .session accessToken (publicUser user) recoveryCodes, some (.refreshToken refreshToken)⟩

/-! ## Refresh -/

/-- The branch of `refresh` taken when the presented token is not the recorded
one, or its family is revoked. -/
def reuseDetected (p : Platform) (headers : Headers) (claims : RefreshClaims) :
    Handler Response := do
  let _ ← query (.revokeSessionFamily claims.family)
  save p <| withHeaders p ((((Audit.AuditRecorder.new "AUTH_TOKEN_REUSE_DETECTED" "denied"
    (requestId headers)).actorById claims.sub.text "" "")).resource "session" claims.family.text)
    headers
  return unauthorized headers

/-- The end of `refresh`, after every check has passed. -/
def rotateTokens (p : Platform) (headers : Headers) (claims : RefreshClaims)
    (session : SessionRow) (user : UserRow) : Handler Response := do
  let now ← perform .utcNow
  let newExpiresAt := now + Timestamp.days refreshTokenTtlDays
  let newRefreshToken ← signRefresh user.id claims.family newExpiresAt
  match ← query (.rotateSession session.id (p.refreshTokenHash newRefreshToken) newExpiresAt) with
  | .error _ => return (internalError (requestId headers)).intoResponse
  | .ok _ =>
      let accessToken ← signAccess user
      save p <| withHeaders p (withUser (Audit.AuditRecorder.new "AUTH_REFRESH_SUCCESS" "success"
        (requestId headers)) user) headers
      return sessionResponse (.access accessToken) (.refresh newRefreshToken) user none

/-- `refresh` from the moment the session has been found. -/
def refreshSession (p : Platform) (headers : Headers) (claims : RefreshClaims)
    (session : SessionRow) : Handler Response :=
  if session.revokedAt.isSome || session.refreshTokenHash != p.refreshTokenHash claims then
    reuseDetected p headers claims
  else do
    let now ← perform .utcNow
    if session.expiresAt < now then
      let _ ← query (.revokeSession session.id)
      return unauthorized headers
    else
      match ← query (.loadUserById (.uuid claims.sub)) with
      | .ok (some user) =>
          if user.isBanned || !user.isApproved then
            let _ ← query (.revokeSession session.id)
            save p <| withHeaders p (withUser (Audit.AuditRecorder.new "AUTH_REFRESH_FAILED"
              "denied" (requestId headers)) user) headers
            return unauthorized headers
          else rotateTokens p headers claims session user
      | _ => return unauthorized headers

/-- `auth::refresh`. -/
def refresh (p : Platform) (headers : Headers) : Handler Response :=
  match headers.refreshCookie with
  | none =>
      return (ApiError.mk "UNAUTHORIZED" "errors.sessionExpired" (requestId headers)).intoResponse
  | some token => do
      let now ← perform .utcNow
      match token.refreshClaims now with
      | none => return unauthorized headers
      | some claims =>
          match ← query (.findSessionByFamily claims.family) with
          | .ok (some session) => refreshSession p headers claims session
          | _ => return unauthorized headers

/-! ## Revoking -/

/-- `auth_user_from_headers`. -/
def authUserFromHeaders (headers : Headers) : Handler (Option Claims) :=
  match headers.authorization with
  | none => return none
  | some token => do
      let now ← perform .utcNow
      return token.accessClaims now

/-- A message, the refresh cookie cleared. -/
def loggedOut (messageKey : String) : Response := ⟨200, .message messageKey, some .cleared⟩

/-- `auth::logout`. -/
def logout (p : Platform) (headers : Headers) : Handler Response :=
  match headers.refreshCookie with
  | none => return loggedOut "auth.loggedOut"
  | some token => do
      let now ← perform .utcNow
      match token.refreshClaims now with
      | none => return loggedOut "auth.loggedOut"
      | some claims =>
          match ← query (.findSessionByFamily claims.family) with
          | .ok (some session) =>
              let _ ← query (.revokeSession session.id)
              save p <| withHeaders p ((((Audit.AuditRecorder.new "AUTH_LOGOUT" "success"
                (requestId headers)).actorById claims.sub.text "" "")).resource "session"
                claims.family.text) headers
              return loggedOut "auth.loggedOut"
          | _ => return loggedOut "auth.loggedOut"

/-- `auth::logout_all`. -/
def logoutAll (p : Platform) (headers : Headers) : Handler Response := do
  match ← authUserFromHeaders headers with
  | none => return unauthorized headers
  | some claims =>
      let _ ← query (.revokeAllSessionsForUser claims.id)
      save p <| withHeaders p (withActor (Audit.AuditRecorder.new "AUTH_LOGOUT_ALL" "success"
        (requestId headers)) claims) headers
      return loggedOut "auth.loggedOutAll"

/-- `db::revoke_session_owned_by_user`. -/
def revokeSessionOwnedByUser (p : Platform) (sessionId : String) (userId : Uuid) :
    Handler (Except DbError Bool) :=
  match p.key sessionId with
  | none => return .ok false
  | some id => query (.revokeSessionOwnedByUser id userId)

/-- `auth::revoke_own_session`. -/
def revokeOwnSession (p : Platform) (headers : Headers) (sessionId : String) :
    Handler Response := do
  match ← authUserFromHeaders headers with
  | none => return unauthorized headers
  | some claims =>
      match ← revokeSessionOwnedByUser p sessionId claims.id with
      | .ok true =>
          save p <| withHeaders p ((withActor (Audit.AuditRecorder.new "AUTH_LOGOUT" "success"
            (requestId headers)) claims).resource "session" sessionId) headers
          return json (.message "auth.loggedOut")
      | .ok false =>
          return (ApiError.mk "NOT_FOUND" "errors.notFound" (requestId headers)).intoResponse
      | .error _ => return (internalError (requestId headers)).intoResponse

/-- `db::purge_expired_auth_records`, as far as sessions go. -/
def purgeExpiredAuthRecords : Handler (Except DbError Unit) := query .purgeExpiredSessions

end AnatoliaBis.Auth
