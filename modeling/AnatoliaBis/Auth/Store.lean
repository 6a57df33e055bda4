import AnatoliaBis.Auth.Types
import AnatoliaBis.Lib.Program
import AnatoliaBis.SqliteTime
import Mathlib.Logic.Function.Basic

/-! # The store and its operations

What the handlers of `auth.rs` and `mfa.rs` share: the tables of `db/identity.rs`,
`db/session.rs`, `db/mfa.rs` and `db/org.rs` they read and write, the rate
limiter, the mailbox, and the supply of fresh identifiers. A handler reaches
them through the operations `Call`: one SQL statement, one reading of the clock,
one draw of random bytes. Other requests may run between two operations of a
handler, never inside one.
-/

namespace AnatoliaBis.Auth

open Atomic

/-! ## State -/

/-- The tables and the state of the process. -/
structure Server where
  users : List UserRow
  sessions : List SessionRow
  /-- `user_id` is unique in `mfa_credentials`. -/
  mfaCredentials : Uuid → Option MfaCredentialRow
  recoveryCodes : List RecoveryCodeRow
  /-- `user_memberships`: user and organization. -/
  memberships : List (Uuid × String)
  /-- The events `insert_audit_event` has stored. -/
  auditEvents : List Audit.NewAuditEvent
  limiter : RateLimiter
  /-- What `send_mfa_code` mailed: address and code. -/
  outbox : List (String × String)
  /-- Identifiers from here on are unused. -/
  nextId : Nat

namespace Server

/-- `UPDATE sessions SET … WHERE …`. -/
def updateSessions (s : Server) (cond : SessionRow → Bool) (f : SessionRow → SessionRow) :
    Server :=
  { s with sessions := s.sessions.map fun row => if cond row then f row else row }

/-- `UPDATE sessions SET revoked_at = NOW() WHERE … AND revoked_at IS NULL`. -/
def revokeSessions (s : Server) (cond : SessionRow → Bool) (now : Timestamp) : Server :=
  s.updateSessions (fun row => cond row && row.revokedAt.isNone)
    fun row => { row with revokedAt := some now }

def setMfaCredential (s : Server) (userId : Uuid) (row : Option MfaCredentialRow) : Server :=
  { s with mfaCredentials := Function.update s.mfaCredentials userId row }

/-- `UPDATE mfa_credentials SET … WHERE user_id = … AND …`, and whether a row
was affected. -/
def updateMfaCredential (s : Server) (userId : Uuid) (cond : MfaCredentialRow → Bool)
    (f : MfaCredentialRow → MfaCredentialRow) : Server × Bool :=
  match (s.mfaCredentials userId).filter cond with
  | some row => (s.setMfaCredential userId (some (f row)), true)
  | none => (s, false)

/-- The row `INSERT … ON CONFLICT (user_id) DO UPDATE` leaves behind:
`last_used_at` is kept on conflict. -/
def upsertMfaCredential (s : Server) (userId : Uuid) (row : MfaCredentialRow) : Server :=
  s.setMfaCredential userId
    (some { row with lastUsedAt := (s.mfaCredentials userId).bind (·.lastUsedAt) })

end Server

/-! ## Identifiers given as text -/

/-- A path segment as a query compares it with an id column. -/
inductive Key where
  | uuid (id : Uuid)
  | text (id : String)
  deriving Repr, DecidableEq

def Key.isId : Key → Uuid → Bool
  | .uuid id, u => u == id
  | .text id, u => u.text == id

/-- PostgreSQL parses the text first and sends no statement when that fails;
SQLite compares texts. -/
def Platform.key (p : Platform) (id : String) : Option Key :=
  match p.backend with
  | .postgres => (Uuid.parseStr id).map .uuid
  | .sqlite => some (.text id)

/-! ## SQL statements -/

/-- The statements of the `db` functions. -/
inductive Query where
  | loadUserByCode (code : String)
  | loadUserById (id : Key)
  | userOrganizationIds (userId : Key)
  | insertAuditEvent (event : Audit.NewAuditEvent)
  | findMfaCredential (userId : Uuid)
  | upsertPendingMfaCredential (userId : Uuid) (secret : String)
  | upsertPendingEmailMfaCredential (userId : Uuid) (codeHash expiresAt : String)
  | updateEmailMfaCode (userId : Uuid) (codeHash expiresAt : String)
  | enableEmailMfaCredential (userId : Uuid) (codeHash : String)
  | consumeEmailMfaCode (userId : Uuid) (codeHash : String)
  | enableMfaCredential (userId : Uuid) (secret : String)
  | touchMfaLastUsed (userId : Uuid)
  | deleteMfaCredential (userId : Uuid)
  | deleteRecoveryCodes (userId : Uuid)
  | insertRecoveryCode (userId : Uuid) (codeHash : String)
  | consumeRecoveryCode (userId : Uuid) (codeHash : String)
  | insertSession (id userId : Uuid) (refreshTokenHash : String) (family : Uuid)
      (expiresAt : Timestamp) (userAgent ipAddress : Option String) (createdBy : String)
  | findSessionById (id : Uuid)
  | findSessionByFamily (family : Uuid)
  | rotateSession (id : Uuid) (refreshTokenHash : String) (expiresAt : Timestamp)
  | revokeSession (id : Uuid)
  | revokeSessionFamily (family : Uuid)
  | revokeAllSessionsForUser (userId : Uuid)
  | revokeSessionOwnedByUser (id : Key) (userId : Uuid)
  | purgeExpiredSessions
  deriving Repr, DecidableEq

/-- What a statement returns when it succeeds. -/
@[reducible] def Query.Res : Query → Type
  | .loadUserByCode _ | .loadUserById _ => Option UserRow
  | .userOrganizationIds _ => List String
  | .findMfaCredential _ => Option MfaCredentialRow
  | .updateEmailMfaCode .. | .enableEmailMfaCredential .. | .consumeEmailMfaCode ..
  | .enableMfaCredential .. | .consumeRecoveryCode .. | .revokeSessionOwnedByUser .. => Bool
  | .findSessionById _ | .findSessionByFamily _ => Option SessionRow
  | _ => Unit

/-- `NOW()`, or `strftime('%Y-%m-%dT%H:%M:%fZ', 'now')`. -/
def Platform.now (p : Platform) (t : Timestamp) : Timestamp :=
  match p.backend with
  | .postgres => t.truncMicros
  | .sqlite => t.truncMillis

/-- `expires_at` of a session, as the column keeps it: a `timestamptz`, or the
text of `to_rfc3339`. -/
def Platform.sessionExpiry (p : Platform) (t : Timestamp) : Timestamp :=
  match p.backend with
  | .postgres => t.truncMicros
  | .sqlite => t

/-- `expires_at < NOW()` in `purge_expired_auth_records`. -/
def Platform.purges (p : Platform) (expiresAt now : Timestamp) : Bool :=
  match p.backend with
  | .postgres => decide (expiresAt < p.now now)
  | .sqlite => decide (SqliteTime.textBefore expiresAt now)

/-- `method = 'email' AND email_code_hash = … AND email_code_expires_at > NOW()`. -/
def MfaCredentialRow.acceptsEmailCode (now : Timestamp) (codeHash : String)
    (row : MfaCredentialRow) : Bool :=
  row.method == .email && row.emailCodeHash == some codeHash &&
    row.emailCodeExpiresAt.any (·.after now)

/-- A recovery code that is still unused. -/
def RecoveryCodeRow.isUnused (userId : Uuid) (codeHash : String) (row : RecoveryCodeRow) : Bool :=
  row.userId == userId && row.codeHash == codeHash && row.usedAt.isNone

/-- One statement at the instant `now`. -/
def Query.perform (p : Platform) (now : Timestamp) : (q : Query) → Server → Server × q.Res
  | .loadUserByCode code, s =>
      (s, s.users.find? fun u => u.userCode == code && u.deletedAt.isNone)
  | .loadUserById id, s => (s, s.users.find? fun u => id.isId u.id && u.deletedAt.isNone)
  | .userOrganizationIds userId, s =>
      (s, (s.memberships.filter fun m => userId.isId m.1).map Prod.snd)
  | .insertAuditEvent event, s => ({ s with auditEvents := s.auditEvents ++ [event] }, ())
  | .findMfaCredential userId, s => (s, s.mfaCredentials userId)
  | .upsertPendingMfaCredential userId secret, s =>
      (s.upsertMfaCredential userId ⟨secret, .totp, none, none, none, none⟩, ())
  | .upsertPendingEmailMfaCredential userId codeHash expiresAt, s =>
      (s.upsertMfaCredential userId
        ⟨"", .email, some codeHash, some (p.codeExpiry expiresAt), none, none⟩, ())
  | .updateEmailMfaCode userId codeHash expiresAt, s =>
      s.updateMfaCredential userId (fun row => row.method == .email) fun row =>
        { row with emailCodeHash := some codeHash,
                   emailCodeExpiresAt := some (p.codeExpiry expiresAt) }
  | .enableEmailMfaCredential userId codeHash, s =>
      s.updateMfaCredential userId (·.acceptsEmailCode (p.now now) codeHash) fun row =>
        { row with enabledAt := some (p.now now), emailCodeHash := none,
                   emailCodeExpiresAt := none }
  | .consumeEmailMfaCode userId codeHash, s =>
      s.updateMfaCredential userId (·.acceptsEmailCode (p.now now) codeHash) fun row =>
        { row with emailCodeHash := none, emailCodeExpiresAt := none,
                   lastUsedAt := some (p.now now) }
  | .enableMfaCredential userId secret, s =>
      s.updateMfaCredential userId (fun row => row.secret == secret) fun row =>
        { row with enabledAt := some (p.now now) }
  | .touchMfaLastUsed userId, s =>
      ((s.updateMfaCredential userId (fun _ => true) fun row =>
        { row with lastUsedAt := some (p.now now) }).1, ())
  | .deleteMfaCredential userId, s => (s.setMfaCredential userId none, ())
  | .deleteRecoveryCodes userId, s =>
      ({ s with recoveryCodes := s.recoveryCodes.filter fun row => row.userId != userId }, ())
  | .insertRecoveryCode userId codeHash, s =>
      ({ s with recoveryCodes := s.recoveryCodes ++ [⟨userId, codeHash, none⟩] }, ())
  | .consumeRecoveryCode userId codeHash, s =>
      ({ s with recoveryCodes := s.recoveryCodes.map fun row =>
          if row.isUnused userId codeHash then { row with usedAt := some (p.now now) } else row },
        s.recoveryCodes.any (·.isUnused userId codeHash))
  | .insertSession id userId refreshTokenHash family expiresAt userAgent ipAddress createdBy, s =>
      ({ s with sessions := s.sessions ++
          [⟨id, userId, refreshTokenHash, family, p.now now, p.sessionExpiry expiresAt, p.now now,
            none, userAgent, ipAddress, 0, some createdBy⟩] }, ())
  | .findSessionById id, s => (s, s.sessions.find? fun row => row.id == id)
  | .findSessionByFamily family, s => (s, s.sessions.find? fun row => row.tokenFamilyId == family)
  | .rotateSession id refreshTokenHash expiresAt, s =>
      (s.updateSessions (fun row => row.id == id && row.revokedAt.isNone) fun row =>
        { row with refreshTokenHash := refreshTokenHash, expiresAt := p.sessionExpiry expiresAt,
                   lastUsedAt := p.now now, rotationCounter := row.rotationCounter + 1 }, ())
  | .revokeSession id, s => (s.revokeSessions (fun row => row.id == id) (p.now now), ())
  | .revokeSessionFamily family, s =>
      (s.revokeSessions (fun row => row.tokenFamilyId == family) (p.now now), ())
  | .revokeAllSessionsForUser userId, s =>
      (s.revokeSessions (fun row => row.userId == userId) (p.now now), ())
  | .revokeSessionOwnedByUser id userId, s =>
      (s.revokeSessions (fun row => id.isId row.id && row.userId == userId) (p.now now),
        s.sessions.any fun row => id.isId row.id && row.userId == userId && row.revokedAt.isNone)
  | .purgeExpiredSessions, s =>
      ({ s with sessions := s.sessions.filter fun row => !p.purges row.expiresAt now }, ())

/-! ## Operations -/

/-- What happens while one operation runs: the wall clock, the monotonic clock
in nanoseconds, random bytes, and whether a statement fails. -/
structure Env where
  now : Timestamp
  instant : Nat
  random : Nat
  fails : Bool
  deriving Repr, DecidableEq

/-- The operations of a handler. -/
inductive Call where
  /-- `Utc::now`, or the clock a library reads. -/
  | utcNow
  /-- `thread_rng().fill_bytes`. -/
  | random
  /-- `Uuid::new_v4`, and the `jti` of a refresh token: never drawn twice. -/
  | newId
  /-- `state.rate_limiter.check`. -/
  | rateCheck (key : String) (maxAttempts : Nat) (window : Nat)
  /-- `Totp::check_current`. -/
  | totpCheck (secret accountName code : String)
  /-- `email::send_mfa_code`, best-effort. -/
  | sendMfaCode (email code : String)
  /-- No operation of the source: marks the point at which a submitted code is
  about to be compared with a user's second factor. -/
  | compareCode (userId : Uuid)
  | db (q : Query)
  deriving Repr, DecidableEq

@[reducible] def Call.Res : Call → Type
  | .utcNow => Timestamp
  | .random | .newId => Nat
  | .rateCheck .. | .totpCheck .. => Bool
  | .sendMfaCode .. | .compareCode _ => Unit
  | .db q => Except DbError q.Res

/-- One operation. A statement that fails changes nothing. -/
def exec (p : Platform) : (op : Call) → Env → Server → Server × op.Res
  | .utcNow, e, s => (s, e.now)
  | .random, e, s => (s, e.random)
  | .newId, _, s => ({ s with nextId := s.nextId + 1 }, s.nextId)
  | .rateCheck key maxAttempts window, e, s =>
      let checked := s.limiter.check key maxAttempts window e.instant
      ({ s with limiter := checked.1 }, checked.2)
  | .totpCheck secret accountName code, e, s => (s, p.checkTotp secret accountName code e.now)
  | .sendMfaCode email code, _, s => ({ s with outbox := s.outbox ++ [(email, code)] }, ())
  | .compareCode _, _, s => (s, ())
  | .db q, e, s =>
      if e.fails then (s, .error .failed)
      else ((q.perform p e.now s).1, .ok (q.perform p e.now s).2)

/-- A handler, or a part of one. -/
abbrev Handler (α : Type) := Program Call Call.Res α

/-- One executed operation of a handler. -/
abbrev Step := Event Call Env Server

/-- A single operation as a handler. -/
def perform (op : Call) : Handler op.Res := .call op .done

/-- A single statement as a handler. -/
def query (q : Query) : Handler (Except DbError q.Res) := .call (.db q) .done

/-! ## One operation in front of a handler

The result type of an operation computes, so it is kept out of the simp index. -/

section Front

variable {p : Platform} {α : Type} (ω : Nat → Env) (s : Server)

@[simp] theorem run_perform_bind (op : Call) (f : op.Res → Handler α) :
    (@Bind.bind Handler _ (no_index op.Res) α (perform op) f).run (exec p) ω s =
      (f (exec p op (ω 0) s).2).run (exec p) (fun n => ω (n + 1)) (exec p op (ω 0) s).1 := rfl

@[simp] theorem run_query_bind (q : Query) (f : Except DbError q.Res → Handler α) :
    (@Bind.bind Handler _ (no_index (Except DbError q.Res)) α (query q) f).run (exec p) ω s =
      (f (exec p (.db q) (ω 0) s).2).run (exec p) (fun n => ω (n + 1))
        (exec p (.db q) (ω 0) s).1 := rfl

@[simp] theorem trace_perform_bind (op : Call) (f : op.Res → Handler α) :
    (@Bind.bind Handler _ (no_index op.Res) α (perform op) f).trace (exec p) ω s =
      ⟨op, ω 0, s, (exec p op (ω 0) s).1⟩ ::
        (f (exec p op (ω 0) s).2).trace (exec p) (fun n => ω (n + 1))
          (exec p op (ω 0) s).1 := rfl

@[simp] theorem trace_query_bind (q : Query) (f : Except DbError q.Res → Handler α) :
    (@Bind.bind Handler _ (no_index (Except DbError q.Res)) α (query q) f).trace (exec p) ω s =
      ⟨.db q, ω 0, s, (exec p (.db q) (ω 0) s).1⟩ ::
        (f (exec p (.db q) (ω 0) s).2).trace (exec p) (fun n => ω (n + 1))
          (exec p (.db q) (ω 0) s).1 := rfl

theorem wp_perform_bind {E : Env → Prop} {Q : List Step → α → Server → Prop} (op : Call)
    (f : op.Res → Handler α) :
    (@Bind.bind Handler _ (no_index op.Res) α (perform op) f).wp (exec p) E Q s ↔
      ∀ e, E e → (f (exec p op e s).2).wp (exec p) E
        (fun evs => Q (⟨op, e, s, (exec p op e s).1⟩ :: evs)) (exec p op e s).1 := Iff.rfl

theorem wp_query_bind {E : Env → Prop} {Q : List Step → α → Server → Prop} (q : Query)
    (f : Except DbError q.Res → Handler α) :
    (@Bind.bind Handler _ (no_index (Except DbError q.Res)) α (query q) f).wp (exec p) E Q s ↔
      ∀ e, E e → (f (exec p (.db q) e s).2).wp (exec p) E
        (fun evs => Q (⟨.db q, e, s, (exec p (.db q) e s).1⟩ :: evs))
        (exec p (.db q) e s).1 := Iff.rfl

variable (e : Env)

@[simp] theorem exec_utcNow : exec p .utcNow e s = (s, e.now) := rfl

@[simp] theorem exec_random : exec p .random e s = (s, e.random) := rfl

@[simp] theorem exec_newId :
    exec p .newId e s = ({ s with nextId := s.nextId + 1 }, s.nextId) := rfl

@[simp] theorem exec_totpCheck (secret accountName code : String) :
    exec p (.totpCheck secret accountName code) e s =
      (s, p.checkTotp secret accountName code e.now) := rfl

@[simp] theorem exec_sendMfaCode (email code : String) :
    exec p (.sendMfaCode email code) e s =
      ({ s with outbox := s.outbox ++ [(email, code)] }, ()) := rfl

@[simp] theorem exec_compareCode (u : Uuid) : exec p (.compareCode u) e s = (s, ()) := rfl

variable {e}

theorem exec_db_of_fails {q : Query} (h : e.fails = true) :
    exec p (.db q) e s = (s, .error .failed) := by
  simp only [exec, h, if_true]

theorem exec_db_of_succeeds {q : Query} (h : e.fails = false) :
    exec p (.db q) e s = ((q.perform p e.now s).1, .ok (q.perform p e.now s).2) := by
  simp only [exec, h, Bool.false_eq_true, if_false]

end Front

/-! ## What one operation leaves alone -/

section Frame

variable {p : Platform} {e : Env} {s : Server}

/-- No operation of authentication changes an account. -/
@[simp] theorem exec_users (op : Call) : (exec p op e s).1.users = s.users := by
  cases op with
  | db q =>
      simp only [exec]
      split_ifs
      · rfl
      · cases q <;> simp only [Query.perform, Server.updateMfaCredential,
          Server.upsertMfaCredential, Server.setMfaCredential, Server.updateSessions,
          Server.revokeSessions]
        all_goals split <;> rfl
  | _ => rfl

/-- Nor a membership. -/
@[simp] theorem exec_memberships (op : Call) :
    (exec p op e s).1.memberships = s.memberships := by
  cases op with
  | db q =>
      simp only [exec]
      split_ifs
      · rfl
      · cases q <;> simp only [Query.perform, Server.updateMfaCredential,
          Server.upsertMfaCredential, Server.setMfaCredential, Server.updateSessions,
          Server.revokeSessions]
        all_goals split <;> rfl
  | _ => rfl

end Frame

end AnatoliaBis.Auth
