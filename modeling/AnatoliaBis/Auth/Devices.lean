import AnatoliaBis.Auth.Custody
import AnatoliaBis.Lib.Embed
import Mathlib.Data.List.Sort

/-! # The device list

`GET /users/me/sessions` shows an account where it is signed in, and
`DELETE /users/me/sessions/{id}` signs one of these devices out. The list reads the
`sessions` table with its own comparison of times, while `refresh` decides about a token by
others; what the list shows is nevertheless what `refresh` would renew, and what is signed
out is refused from then on. Both hold after every run, whichever statements failed in it.
-/

namespace AnatoliaBis.Auth

open Atomic Program

/-! ## The routes -/

/-- `expires_at > NOW()` in `list_active_sessions_for_user`. -/
def Platform.outlives (p : Platform) (expiresAt now : Timestamp) : Bool :=
  match p.backend with
  | .postgres => decide (p.now now < expiresAt)
  | .sqlite => decide (SqliteTime.textAfter expiresAt now)

/-- `user_id = … AND revoked_at IS NULL AND expires_at > NOW()`. -/
def SessionRow.isActive (p : Platform) (now : Timestamp) (userId : Uuid) (row : SessionRow) :
    Bool :=
  row.userId == userId && row.revokedAt.isNone && p.outlives row.expiresAt now

/-- `db::list_active_sessions_for_user`: `ORDER BY last_used_at DESC`, which leaves the order
of equal ones open. -/
def Server.listActiveSessionsForUser (p : Platform) (now : Timestamp) (userId : Uuid)
    (s : Server) : List SessionRow :=
  (s.sessions.filter (·.isActive p now userId)).mergeSort fun a b => b.lastUsedAt ≤ a.lastUsedAt

/-- The operations of the device list. -/
inductive DeviceOp where
  | auth (op : Call)
  | listActiveSessionsForUser (userId : Uuid)
  deriving Repr, DecidableEq

@[reducible] def DeviceOp.Res : DeviceOp → Type
  | .auth op => op.Res
  | .listActiveSessionsForUser _ => Except DbError (List SessionRow)

def execDevice (p : Platform) : (op : DeviceOp) → Env → Server → Server × op.Res
  | .auth op, e, s => exec p op e s
  | .listActiveSessionsForUser userId, e, s =>
      (s, if e.fails then .error .failed else .ok (s.listActiveSessionsForUser p e.now userId))

/-- One entry of the list. -/
structure SessionItem where
  id : Uuid
  createdAt : Timestamp
  lastUsedAt : Timestamp
  expiresAt : Timestamp
  userAgent : Option String
  ipAddress : Option String
  isCurrent : Bool
  deriving Repr, DecidableEq

def sessionItem (currentFamily : Option Uuid) (s : SessionRow) : SessionItem where
  id := s.id
  createdAt := s.createdAt
  lastUsedAt := s.lastUsedAt
  expiresAt := s.expiresAt
  userAgent := s.userAgent
  ipAddress := s.ipAddress
  isCurrent := currentFamily == some s.tokenFamilyId

/-- `current_session_family`. -/
def currentSessionFamily (headers : Headers) : Handler (Option Uuid) :=
  match headers.refreshCookie with
  | none => return none
  | some token => do
      let now ← perform .utcNow
      return (token.refreshClaims now).map (·.family)

/-- A part that reads no list. -/
def withoutList {α : Type} (h : Handler α) : Program DeviceOp DeviceOp.Res α :=
  h.embed .auth fun _ r => r

/-- `auth::list_sessions`: the items, or the error answered. -/
def listSessions (headers : Headers) :
    Program DeviceOp DeviceOp.Res (Except ApiError (List SessionItem)) := do
  match ← withoutList (authUserFromHeaders headers) with
  | none => return .error (unauthorizedError (requestId headers))
  | some claims =>
      let currentFamily ← withoutList (currentSessionFamily headers)
      match ← (call (.listActiveSessionsForUser claims.id) done :
          Program DeviceOp DeviceOp.Res (Except DbError (List SessionRow))) with
      | .ok sessions => return .ok (sessions.map (sessionItem currentFamily))
      | .error _ => return .error (internalError (requestId headers))

/-! ## One request -/

section Request

variable {p : Platform} {s : Server} {headers : Headers} {claims : Claims} {now : Timestamp}
  {userId : Uuid} {row : SessionRow}

theorem mem_listActiveSessionsForUser :
    row ∈ s.listActiveSessionsForUser p now userId ↔
      row ∈ s.sessions ∧ row.userId = userId ∧ row.revokedAt = none ∧
        p.outlives row.expiresAt now := by
  simp [Server.listActiveSessionsForUser, SessionRow.isActive, and_assoc]

theorem listActiveSessionsForUser_newest :
    (s.listActiveSessionsForUser p now userId).Pairwise fun a b => b.lastUsedAt ≤ a.lastUsedAt := by
  have htrans : ∀ a b c : SessionRow, decide (b.lastUsedAt ≤ a.lastUsedAt) →
      decide (c.lastUsedAt ≤ b.lastUsedAt) → decide (c.lastUsedAt ≤ a.lastUsedAt) := by
    intro a b c hab hbc
    simp only [decide_eq_true_eq] at hab hbc ⊢
    exact hbc.trans hab
  have htotal : ∀ a b : SessionRow,
      (decide (b.lastUsedAt ≤ a.lastUsedAt) || decide (a.lastUsedAt ≤ b.lastUsedAt)) = true := by
    intro a b
    simp only [Bool.or_eq_true, decide_eq_true_eq]
    exact Nat.le_total b.lastUsedAt a.lastUsedAt
  have hsorted := List.pairwise_mergeSort htrans htotal
    (s.sessions.filter (·.isActive p now userId))
  exact hsorted.imp fun h => by simpa using h

/-- The statement is the second operation, or the third where a cookie is looked at. -/
def Headers.listedAt (headers : Headers) : Nat := if headers.refreshCookie.isSome then 2 else 1

/-- The family of the cookie's token, where that is valid. -/
def Headers.currentFamily (headers : Headers) (now : Timestamp) : Option Uuid :=
  (headers.refreshCookie.bind (·.refreshClaims now)).map (·.family)

/-- What the route answers. -/
theorem run_listSessions (hauth : headers.authorization = some (.access claims)) (ω : Nat → Env)
    (s : Server) (hexp : Unexpired claims.exp (ω 0).now)
    (hok : (ω headers.listedAt).fails = false) :
    (listSessions headers).run (execDevice p) ω s =
      (.ok ((s.listActiveSessionsForUser p (ω headers.listedAt).now claims.id).map
        (sessionItem (headers.currentFamily (ω 1).now))), s) := by
  have hclaims : (Token.access claims).accessClaims (ω 0).now = some claims := by
    rw [Token.accessClaims_eq_some]
    exact ⟨rfl, hexp⟩
  unfold listSessions withoutList currentSessionFamily
  rw [authUserFromHeaders_of_some hauth]
  unfold Headers.listedAt at hok
  unfold Headers.currentFamily Headers.listedAt
  cases hcookie : headers.refreshCookie with
  | none =>
      simp only [hcookie, Option.isSome_none, Bool.false_eq_true, if_false] at hok
      simp [perform, embed, execDevice, hclaims, hok]
  | some token =>
      simp only [hcookie, Option.isSome_some, if_true] at hok
      simp [perform, embed, execDevice, hclaims, hok]

end Request

/-! ## The expiry of a session and that of its token -/

/-- Hash and expiry of a row were written together, for one token. -/
def Server.Dated (p : Platform) (s : Server) : Prop :=
  ∀ row ∈ s.sessions, ∃ (c : RefreshClaims) (expiresAt : Timestamp),
    row.refreshTokenHash = p.refreshTokenHash c ∧ c.exp = expiresAt.timestamp ∧
      row.expiresAt = p.sessionExpiry expiresAt

/-- An operation that writes both for one token, or neither. -/
def Call.Dates (p : Platform) : Call → Prop
  | .db (.insertSession _ _ hash _ expiresAt _ _ _) | .db (.rotateSession _ hash expiresAt) =>
      ∃ c : RefreshClaims, hash = p.refreshTokenHash c ∧ c.exp = expiresAt.timestamp
  | _ => True

section Dated

variable {p : Platform} {s : Server}

theorem Call.Steady.dates {op : Call} (h : op.Steady) : op.Dates p := by
  unfold Call.Dates
  split
  · exact absurd rfl (h.1 _)
  · exact absurd trivial h.2
  · trivial

theorem Call.Quiet.dates {op : Call} (h : op.Quiet) : op.Dates p := h.steady.dates

/-- What is left of a session that is revoked at most. -/
def SessionRow.Kept (row row' : SessionRow) : Prop :=
  row' = row ∨ row.revokedAt = none ∧ ∃ at', row' = { row with revokedAt := some at' }

/-- A steady operation revokes or removes sessions at most. -/
theorem steady_sessions {op : Call} (h : op.Steady) (e : Env) (s : Server) :
    ∃ (rows : List SessionRow) (g : SessionRow → SessionRow), rows.Sublist s.sessions ∧
      (exec p op e s).1.sessions = rows.map g ∧ ∀ row : SessionRow, row.Kept (g row) := by
  have hsame : ∀ row : SessionRow, row.Kept (id row) := fun _ => Or.inl rfl
  have hrevoke : ∀ (cond : SessionRow → Bool) (now : Timestamp),
      ∃ (rows : List SessionRow) (g : SessionRow → SessionRow), rows.Sublist s.sessions ∧
        (s.revokeSessions cond now).sessions = rows.map g ∧
        ∀ row : SessionRow, row.Kept (g row) := by
    intro cond now
    refine ⟨s.sessions, _, List.Sublist.refl _, rfl, fun row => ?_⟩
    split_ifs with hcond
    · rw [Bool.and_eq_true, Option.isNone_iff_eq_none] at hcond
      exact Or.inr ⟨hcond.2, now, rfl⟩
    · exact hsame row
  by_cases hrotates : op.Rotates
  · cases op with
    | db q =>
        cases hf : e.fails with
        | true =>
            rw [exec_db_of_fails _ hf]
            exact ⟨s.sessions, id, List.Sublist.refl _, (List.map_id _).symm, hsame⟩
        | false =>
            rw [exec_db_of_succeeds _ hf]
            cases q with
            | rotateSession id hash expiresAt => exact absurd trivial h.2
            | revokeSession id => exact hrevoke _ _
            | revokeSessionFamily family => exact hrevoke _ _
            | revokeAllSessionsForUser userId => exact hrevoke _ _
            | revokeSessionOwnedByUser id userId => exact hrevoke _ _
            | purgeExpiredSessions =>
                exact ⟨_, id, List.filter_sublist, (List.map_id _).symm, hsame⟩
            | _ => exact hrotates.elim
    | _ => exact hrotates.elim
  · rw [exec_sessions h.1 hrotates]
    exact ⟨s.sessions, id, List.Sublist.refl _, (List.map_id _).symm, hsame⟩

theorem sessions_of_steady {op : Call} (h : op.Steady) (e : Env) (s : Server) :
    ∀ row' ∈ (exec p op e s).1.sessions, ∃ row ∈ s.sessions, row.Kept row' := by
  intro row' hrow'
  rcases steady_sessions h e s with ⟨rows, g, hrows, hsessions, hg⟩
  rw [hsessions] at hrow'
  rcases List.mem_map.mp hrow' with ⟨row, hrow, rfl⟩
  exact ⟨row, hrows.subset hrow, hg row⟩

theorem Server.Dated.exec {op : Call} (hs : s.Dated p) (h : op.Dates p) (e : Env) :
    (exec p op e s).1.Dated p := by
  by_cases hsteady : op.Steady
  · intro row' hrow'
    rcases sessions_of_steady hsteady e s row' hrow' with ⟨row, hrow, rfl | ⟨-, at', rfl⟩⟩
    · exact hs _ hrow
    · exact hs row hrow
  · -- what is left inserts a row, or rotates one
    cases op with
    | db q =>
        cases hf : e.fails with
        | true =>
            rw [exec_db_of_fails _ hf]
            exact hs
        | false =>
            rw [exec_db_of_succeeds _ hf]
            cases q with
            | insertSession id u hash family expiresAt agent ip createdBy =>
                rcases h with ⟨c, hhash, hexp⟩
                intro row hrow
                rcases List.mem_append.mp hrow with hrow | hrow
                · exact hs row hrow
                · rcases List.mem_singleton.mp hrow with rfl
                  exact ⟨c, expiresAt, hhash, hexp, rfl⟩
            | rotateSession id hash expiresAt =>
                rcases h with ⟨c, hhash, hexp⟩
                intro row' hrow'
                rcases List.mem_map.mp hrow' with ⟨row, hrow, rfl⟩
                split_ifs
                · exact ⟨c, expiresAt, hhash, hexp, rfl⟩
                · exact hs row hrow
            | _ => exact absurd ⟨fun _ h => h, fun h => h⟩ hsteady
    | _ => exact absurd ⟨fun _ h => h, fun h => h⟩ hsteady

/-- A part that is quiet. -/
theorem dates_of_quiet {α : Type} {R : α → Prop} {h : Handler α}
    (hp : h.Performs (Auth.exec p) Call.Quiet R) : h.Performs (Auth.exec p) (Call.Dates p) R :=
  hp.weaken fun _ => Call.Quiet.dates

end Dated

section Handlers

variable {p : Platform} (headers : Headers)

theorem issueSession_dates (user : UserRow) :
    (issueSession p user headers).Performs (exec p) (Call.Dates p) fun _ => True := by
  apply performs_perform trivial
  intro e s
  apply performs_perform trivial
  intro e s
  apply performs_perform trivial
  intro e s
  have hcreate : ∀ (c : RefreshClaims) (expiresAt : Timestamp), c.exp = expiresAt.timestamp →
      (createSession p user.id (p.refreshTokenHash c) c.family expiresAt (userAgent headers)
        (clientIp p headers) "login").Performs (exec p) (Call.Dates p) fun _ => True := by
    intro c expiresAt hexp
    apply performs_perform trivial
    intro e s
    apply performs_query ⟨c, rfl, hexp⟩
    intro e s
    split
    · trivial
    · split
      · trivial
      · apply performs_query trivial
        intro e s
        split <;> trivial
  apply (hcreate _ _ rfl).bind
  intro r _
  split
  · trivial
  · exact performs_perform trivial fun e s => trivial

theorem completeLogin_dates (user : UserRow) (codes : Option (List String)) :
    (completeLogin p user headers codes).Performs (exec p) (Call.Dates p) fun _ => True := by
  have hfinish : ∀ pair, (completeLogin.finish p user headers codes pair).Performs (exec p)
      (Call.Dates p) fun _ => True :=
    fun pair => (dates_of_quiet (save_performs _)).bind fun _ _ => trivial
  apply (issueSession_dates headers user).bind
  intro r _
  split
  · exact hfinish _
  · -- the retry
    apply (issueSession_dates headers user).bind
    intro r _
    split
    · exact hfinish _
    · trivial

theorem openSession_dates (user : UserRow) :
    (openSession p headers user).Performs (exec p) (Call.Dates p) fun _ => True := by
  apply (issueSession_dates headers user).bind
  intro r _
  split
  · trivial
  · exact (dates_of_quiet (save_performs _)).bind fun _ _ => trivial

theorem login_dates (userCode password : String) :
    (login p headers userCode password).Performs (exec p) (Call.Dates p) fun _ => True := by
  have hrefuse : ∀ user result reason err, (refuseLogin p headers user result reason err).Performs
      (exec p) (Call.Dates p) fun _ => True :=
    fun _ _ _ _ => dates_of_quiet (refuseLogin_performs ..)
  have huser : ∀ user, (loginUser p headers user).Performs (exec p) (Call.Dates p)
      fun _ => True := by
    intro user
    apply (dates_of_quiet (loginMfaOutcome_performs user)).bind
    intro outcome _
    by_cases h : outcome = .notRequired
    · subst h
      exact openSession_dates headers user
    · exact dates_of_quiet (loginChallenge_performs headers user h)
  apply (dates_of_quiet (checkLimits_performs (loginLimits_key_ne headers userCode))).bind
  intro allowed _
  split
  · apply performs_query trivial
    intro e s
    split
    · trivial
    · exact (dates_of_quiet (save_performs _)).bind fun _ _ => trivial
    · split
      · exact hrefuse ..
      · split
        · exact hrefuse ..
        · split
          · exact hrefuse ..
          · exact huser _
  · trivial

theorem challengeEnrollConfirm_dates (token : Token) (code : String) :
    (challengeEnrollConfirm p headers token code).Performs (exec p) (Call.Dates p)
      fun _ => True := by
  refine performs_challenge trivial (fun _ => Call.Quiet.dates) fun u _ =>
    performs_loadUserOrUnauthorized trivial (fun _ => Call.Quiet.dates) fun user _ => ?_
  have hconfirm : (confirmEnrollment p user.id user.userCode code).Performs (exec p)
      (Call.Dates p) fun _ => True := by
    apply (confirmEnrollment_performs user.id user.userCode code).weaken
    rintro op (hquiet | hop)
    · exact hquiet.dates
    · exact Call.Steady.dates (.of_not_rotates (fun _ => hop.not_issues) hop.not_rotates)
  apply hconfirm.bind
  intro outcome _
  unfold finishEnrollment
  split
  · trivial
  · exact completeLogin_dates headers user _
  · apply (dates_of_quiet (saveMandatory_performs _)).bind
    intro r _
    split
    · trivial
    · exact completeLogin_dates headers user _

theorem challengeVerify_dates (token : Token) (code : String) :
    (challengeVerify p headers token code).Performs (exec p) (Call.Dates p) fun _ => True := by
  refine performs_challenge trivial (fun _ => Call.Quiet.dates) fun u _ =>
    performs_loadUserOrUnauthorized trivial (fun _ => Call.Quiet.dates) fun user _ => ?_
  apply performs_perform trivial
  intro e s
  split
  · have hverify : (verifyCode p user.id user.userCode code).Performs (exec p)
        (Call.Dates p) fun _ => True := by
      apply (verifyCode_performs user.id user.userCode code).weaken
      rintro op (hquiet | hop)
      · exact hquiet.dates
      · exact Call.Steady.dates (.of_not_rotates (fun _ => hop.not_issues) hop.not_rotates)
    apply hverify.bind
    intro outcome _
    unfold finishVerification
    split
    · exact completeLogin_dates headers user none
    · exact (dates_of_quiet (save_performs _)).bind fun _ _ => completeLogin_dates headers user none
    · exact (dates_of_quiet (save_performs _)).bind fun _ _ => trivial
  · trivial

theorem refresh_dates :
    (refresh p headers).Performs (exec p) (Call.Dates p) fun _ => True := by
  have hsave : ∀ r, (save p r).Performs (exec p) (Call.Dates p) fun _ => True :=
    fun r => dates_of_quiet (save_performs r)
  have hrotate : ∀ c session user, (rotateTokens p headers c session user).Performs (exec p)
      (Call.Dates p) fun _ => True := by
    intro c session user
    apply performs_perform trivial
    intro e s
    apply performs_perform trivial
    intro e s
    apply performs_query ⟨_, rfl, rfl⟩
    intro e s
    split
    · trivial
    · exact performs_perform trivial fun e s => (hsave _).bind fun _ _ => trivial
  unfold refresh
  split
  · trivial
  · apply performs_perform trivial
    intro e s
    split
    · trivial
    · apply performs_query trivial
      intro e s
      split
      · unfold refreshSession
        split
        · exact performs_query trivial fun e s => (hsave _).bind fun _ _ => trivial
        · apply performs_perform trivial
          intro e s
          split
          · exact performs_query trivial fun e s => trivial
          · apply performs_query trivial
            intro e s
            split
            · split
              · exact performs_query trivial fun e s => (hsave _).bind fun _ _ => trivial
              · exact hrotate ..
            · trivial
      · trivial

theorem handle_dates (request : Request) :
    (handle p request).Performs (exec p) (Call.Dates p) fun _ => True := by
  cases hopens : request.opens with
  | false => exact (handle_steady hopens).weaken fun _ => Call.Steady.dates
  | true =>
      cases request with
      | login headers userCode password =>
          exact (login_dates headers userCode password).map fun _ _ => trivial
      | challengeVerify headers token code =>
          exact (challengeVerify_dates headers token code).map fun _ _ => trivial
      | challengeEnrollConfirm headers token code =>
          exact (challengeEnrollConfirm_dates headers token code).map fun _ _ => trivial
      | refresh headers => exact (refresh_dates headers).map fun _ _ => trivial
      | _ => cases hopens

end Handlers

/-! ## The table stays a map, whatever fails -/

section Failing

variable {p : Platform} {s : Server}

/-- Revoked or removed, the rows keep families, identifiers and hashes. -/
theorem Server.WellFormed.steady {op : Call} (hwf : s.WellFormed p) (h : op.Steady) (e : Env) :
    (exec p op e s).1.WellFormed p := by
  have hrevoke : ∀ (cond : SessionRow → Bool) (now : Timestamp),
      (s.revokeSessions cond now).WellFormed p := by
    intro cond now
    have hrevises : Revises p (fun _ => True) s (s.revokeSessions cond now) :=
      revises_revokeSessions now fun _ _ _ => trivial
    exact (hrevises.evolves hwf).wellFormed
  by_cases hrotates : op.Rotates
  · cases op with
    | db q =>
        cases hf : e.fails with
        | true =>
            rw [exec_db_of_fails _ hf]
            exact hwf
        | false =>
            rw [exec_db_of_succeeds _ hf]
            cases q with
            | rotateSession id hash expiresAt => exact absurd trivial h.2
            | revokeSession id => exact hrevoke _ _
            | revokeSessionFamily family => exact hrevoke _ _
            | revokeAllSessionsForUser userId => exact hrevoke _ _
            | revokeSessionOwnedByUser id userId => exact hrevoke _ _
            | purgeExpiredSessions => exact (purge_evolves hwf e.now).wellFormed
            | _ => exact hrotates.elim
    | _ => exact hrotates.elim
  · exact hwf.of_same ⟨exec_sessions h.1 hrotates, exec_users op, exec_nextId_le op⟩

theorem wellFormed_of_steady {α : Type} {R : α → Prop} {h : Handler α}
    (hp : h.Performs (exec p) Call.Steady R) :
    h.Keeps (exec p) fun s s' => s.WellFormed p → s'.WellFormed p :=
  hp.keeps (fun _ h => h) (fun h h' hwf => h' (h hwf)) fun _ e _ hop hwf => hwf.steady hop e

/-- A steady statement, an audit event and a refusal. -/
theorem revoke_wellFormed {q : Query} (hq : (Call.db q).Steady) {α : Type}
    {f : Except DbError q.Res → Handler α}
    (hf : ∀ r, (f r).Performs (exec p) Call.Quiet fun _ => True) (ω : Nat → Env)
    (hwf : s.WellFormed p) : ((query q >>= f).run (exec p) ω s).2.WellFormed p := by
  have hperforms : (query q >>= f).Performs (exec p) Call.Steady fun _ => True :=
    performs_query hq fun _ _ => (hf _).weaken fun _ => Call.Quiet.steady
  exact wellFormed_of_steady hperforms ω s hwf

theorem rotateTokens_wellFormed {headers : Headers} {c : RefreshClaims} {session : SessionRow}
    {user : UserRow} (ω : Nat → Env) (hwf : s.WellFormed p)
    (hsession : s.session c.family = some session) :
    ((rotateTokens p headers c session user).run (exec p) ω s).2.WellFormed p := by
  rcases mem_of_session hsession with ⟨hmem, hfamily⟩
  let expiresAt := (ω 0).now + Timestamp.days refreshTokenTtlDays
  let d : RefreshClaims := ⟨user.id, c.family, s.nextId, expiresAt.timestamp⟩
  have hrun : (rotateTokens p headers c session user).run (exec p) ω s =
      (query (.rotateSession session.id (p.refreshTokenHash d) expiresAt) >>= _).run (exec p)
        (fun n => ω (n + 2)) { s with nextId := s.nextId + 1 } := rfl
  rw [hrun, run_query_bind]
  cases hf : (ω 2).fails with
  | true =>
      rw [exec_db_of_fails _ hf]
      exact hwf.of_same ⟨rfl, rfl, Nat.le_succ _⟩
  | false =>
      rw [exec_db_of_succeeds _ hf]
      have hids : ∀ row' ∈ s.sessions, row'.id = session.id → row'.tokenFamilyId = c.family := by
        intro row' hrow' hid
        rw [hwf.eq_of_id hrow' hmem hid, hfamily]
      have hrevises : Revises p (fun f => f = c.family) s
          ((Query.rotateSession session.id (p.refreshTokenHash d) expiresAt).perform p (ω 2).now
            { s with nextId := s.nextId + 1 }).1 := revises_rotateSession hids rfl rfl
      have hrest : (signAccess user >>= fun accessToken =>
          save p (withHeaders p (withUser (Audit.AuditRecorder.new "AUTH_REFRESH_SUCCESS" "success"
            (requestId headers)) user) headers) >>= fun _ =>
          done (sessionResponse (.access accessToken) (.refresh d) user none)).Performs (exec p)
          Call.Quiet fun _ => True :=
        performs_perform trivial fun _ _ => (save_performs _).bind fun _ _ => trivial
      have hrotated := (hrevises.evolves hwf).wellFormed
      exact hrotated.of_same (sameSessions_of_quiet hrest (fun n => ω (n + 3)) _)

theorem refreshSession_wellFormed (headers : Headers) {c : RefreshClaims} {session : SessionRow}
    (ω : Nat → Env) (hwf : s.WellFormed p) (hsession : s.session c.family = some session) :
    ((refreshSession p headers c session).run (exec p) ω s).2.WellFormed p := by
  have hrefuse : ∀ (ω : Nat → Env), ((query (.revokeSession session.id) >>= fun _ =>
      done (unauthorized headers)).run (exec p) ω s).2.WellFormed p :=
    fun ω => revoke_wellFormed (f := fun _ => done (unauthorized headers))
      (steady_revokeSession _) (fun _ => trivial) ω hwf
  unfold refreshSession
  split_ifs with hreuse
  · unfold reuseDetected
    apply revoke_wellFormed (steady_revokeSessionFamily _) _ ω hwf
    exact fun _ => (save_performs _).bind fun _ _ => trivial
  · rw [run_perform_bind, exec_utcNow]
    dsimp only
    split_ifs
    · exact hrefuse _
    · rw [run_query_bind]
      cases hf : (ω 1).fails with
      | true =>
          rw [exec_db_of_fails _ hf]
          exact hwf
      | false =>
          rw [exec_db_of_succeeds _ hf]
          dsimp only [Query.perform]
          cases hfound : s.users.find?
              fun u => (Key.uuid c.sub).isId u.id && u.deletedAt.isNone with
          | none => exact hwf
          | some user =>
              dsimp only
              split_ifs
              · apply revoke_wellFormed (steady_revokeSession _) _ _ hwf
                exact fun _ => (save_performs _).bind fun _ _ => trivial
              · exact rotateTokens_wellFormed _ hwf hsession

/-- A refresh, whichever of its statements fail. -/
theorem refresh_wellFormed (headers : Headers) (ω : Nat → Env) (hwf : s.WellFormed p) :
    ((refresh p headers).run (exec p) ω s).2.WellFormed p := by
  unfold refresh
  split
  · exact hwf
  next token htoken =>
    rw [run_perform_bind, exec_utcNow]
    dsimp only
    split
    · exact hwf
    next c hclaims =>
      rw [run_query_bind]
      cases hf : (ω 1).fails with
      | true =>
          rw [exec_db_of_fails _ hf]
          exact hwf
      | false =>
          rw [exec_db_of_succeeds _ hf]
          dsimp only [Query.perform]
          cases hfound : s.session c.family with
          | none =>
              unfold Server.session at hfound
              rw [hfound]
              exact hwf
          | some session =>
              have hrefreshed := refreshSession_wellFormed headers (fun n => ω (n + 2)) hwf
                hfound
              unfold Server.session at hfound
              rw [hfound]
              exact hrefreshed

theorem handle_wellFormed (request : Request) (ω : Nat → Env) (hwf : s.WellFormed p) :
    ((handle p request).run (exec p) ω s).2.WellFormed p := by
  cases hopens : request.opens with
  | false => exact wellFormed_of_steady (handle_steady hopens) ω s hwf
  | true =>
      cases request with
      | login headers userCode password =>
          unfold handle
          rw [run_map]
          exact (login_extends headers userCode password ω s).wellFormed hwf
      | challengeVerify headers token code =>
          unfold handle
          rw [run_map]
          exact (challengeVerify_extends headers token code ω s).wellFormed hwf
      | challengeEnrollConfirm headers token code =>
          unfold handle
          rw [run_map]
          exact (challengeEnrollConfirm_extends headers token code ω s).wellFormed hwf
      | refresh headers =>
          unfold handle
          rw [run_map]
          exact refresh_wellFormed headers ω hwf
      | _ => cases hopens

end Failing

/-! ## What holds after every run -/

/-- The table is a map, its hashes are those of tokens of the rows' own accounts, and with
each hash the expiry of its token is recorded. -/
structure Server.Sound (p : Platform) (s : Server) : Prop where
  wellFormed : s.WellFormed p
  accounted : s.Accounted p
  dated : s.Dated p

section Runs

variable {p : Platform} {s s₀ : Server}

theorem Server.Sound.after (hinj : Function.Injective p.refreshTokenHash) (hs : s.Sound p)
    (v : Visit) : (v.after p s).Sound p ∧ Onward s (v.after p s) := by
  have hhanded := handle_hands hinj v.request v.env s hs.accounted
  have hdated : (handle p v.request).Keeps (exec p) fun s s' => s.Dated p → s'.Dated p :=
    (handle_dates v.request).keeps (fun _ h => h) (fun h h' hs => h' (h hs))
      fun _ e _ hop hs => hs.exec hop e
  constructor
  · constructor
    · exact handle_wellFormed v.request v.env hs.wellFormed
    · exact hhanded.1
    · exact hdated v.env s hs.dated
  · exact hhanded.2.1

theorem Server.Sound.stateAfter (hinj : Function.Injective p.refreshTokenHash) (hs : s.Sound p)
    (run : List Visit) : (stateAfter p s run).Sound p ∧ Onward s (stateAfter p s run) := by
  induction run generalizing s with
  | nil => exact ⟨hs, .refl s⟩
  | cons v run ih =>
      have hv := hs.after hinj v
      have hrest := ih hv.1
      exact ⟨hrest.1, hv.2.trans hrest.2⟩

theorem sound_of_no_sessions (h : s₀.sessions = []) : s₀.Sound p := by
  constructor
  · exact wellFormed_of_no_sessions h
  · exact accounted_of_no_sessions h
  · intro row hrow
    rw [h] at hrow
    cases hrow

end Runs

/-! ## The list and the tokens -/

section Times

variable {p : Platform} {x y now : Timestamp}

theorem Platform.now_mono (p : Platform) (h : x ≤ y) : p.now x ≤ p.now y := by
  unfold Platform.now Timestamp.truncMicros Timestamp.truncMillis
  cases p.backend with
  | postgres => exact Nat.mul_le_mul_right _ (Nat.div_le_div_right h)
  | sqlite => exact Nat.mul_le_mul_right _ (Nat.div_le_div_right h)

theorem Platform.sessionExpiry_le (p : Platform) (t : Timestamp) : p.sessionExpiry t ≤ t := by
  unfold Platform.sessionExpiry
  cases p.backend with
  | postgres => exact Nat.div_mul_le_self _ _
  | sqlite => exact Nat.le_refl _

/-- Both backends compare at the resolution of their own clock. -/
theorem outlives_sessionExpiry (p : Platform) (t now : Timestamp) :
    p.outlives (p.sessionExpiry t) now ↔ p.now now < p.now (p.sessionExpiry t) := by
  unfold Platform.outlives Platform.sessionExpiry Platform.now
  cases p.backend with
  | postgres => simp
  | sqlite => simp [SqliteTime.textAfter_iff]

end Times

/-- What the list of an account shows at an instant, `current` being the family of the
caller's own cookie. -/
structure DevicesExact (p : Platform) (s : Server) (now : Timestamp) (userId : Uuid)
    (current : Option Uuid) (items : List SessionItem) : Prop where
  /-- Every entry is a session whose token is renewed on presentation, as long as the account
  is in order. -/
  renewable : ∀ item ∈ items, ∃ row c, s.session c.family = some row ∧
    item = sessionItem current row ∧ c.sub = userId ∧
      ((s.findActiveUser userId).isSome → Accepts p s (steadily now 0) c)
  /-- A token of the account that would be renewed has its entry, unless its session is
  within the last tick of the store's clock. -/
  complete : ∀ c : RefreshClaims, c.sub = userId → Accepts p s (steadily now 0) c →
    ∃ row, s.session c.family = some row ∧
      (sessionItem current row ∈ items ∨ p.now now = p.now row.expiresAt)
  /-- No session is listed twice, -/
  once : (items.map (·.id)).Nodup
  /-- the one used last comes first, -/
  newest : items.Pairwise fun a b => b.lastUsedAt ≤ a.lastUsedAt
  /-- and at most one is marked as the caller's. -/
  marked : ∀ a ∈ items, ∀ b ∈ items, a.isCurrent → b.isCurrent → a = b

section Exact

variable {p : Platform} {s : Server} {now : Timestamp} {userId : Uuid} {row : SessionRow}

/-- The token that an active session has recorded would be renewed. -/
theorem accepts_of_listed (hinj : Function.Injective p.refreshTokenHash) (hs : s.Sound p)
    (hrow : row ∈ s.listActiveSessionsForUser p now userId) :
    ∃ c : RefreshClaims, s.session c.family = some row ∧ c.sub = userId ∧
      ((s.findActiveUser userId).isSome → Accepts p s (steadily now 0) c) := by
  rcases mem_listActiveSessionsForUser.mp hrow with ⟨hmem, huser, hrevoked, houtlives⟩
  rcases hs.accounted.recorded row hmem with ⟨c, hhash, hfamily, hsub⟩
  rcases hs.dated row hmem with ⟨d, t, hd, hexp, hexpiry⟩
  have hcd : c = d := hinj (hhash.symm.trans hd)
  subst hcd
  have hsession : s.session c.family = some row := by
    rw [hfamily]
    exact hs.wellFormed.session_of_mem hmem
  have hsub' : c.sub = userId := hsub.trans huser
  -- the store's clock is coarser than the server's, so the server sees no expiry either
  have hlive : now ≤ row.expiresAt := by
    rw [hexpiry] at houtlives ⊢
    rw [outlives_sessionExpiry] at houtlives
    by_contra hlt
    exact Nat.not_lt.mpr (p.now_mono (Nat.le_of_lt (Nat.lt_of_not_le hlt))) houtlives
  refine ⟨c, hsession, hsub', fun hactive => ⟨?_, row, hsession, ?_⟩⟩
  · have hle : now ≤ t := by
      rw [hexpiry] at hlive
      exact hlive.trans (p.sessionExpiry_le t)
    have hseconds : Timestamp.timestamp now ≤ Timestamp.timestamp t := Nat.div_le_div_right hle
    show Timestamp.timestamp now ≤ c.exp + leeway
    rw [hexp]
    exact hseconds.trans (Nat.le_add_right _ _)
  · constructor
    · exact hrevoked
    · exact hhash
    · exact Nat.not_lt.mpr hlive
    · rw [hsub']
      exact hactive

theorem listed_of_accepts (hinj : Function.Injective p.refreshTokenHash) (hs : s.Sound p)
    {c : RefreshClaims} (hsub : c.sub = userId) (h : Accepts p s (steadily now 0) c) :
    ∃ row, s.session c.family = some row ∧
      (row ∈ s.listActiveSessionsForUser p now userId ∨ p.now now = p.now row.expiresAt) := by
  rcases h with ⟨-, row, hsession, hrenewable⟩
  rcases mem_of_session hsession with ⟨hmem, -⟩
  rcases hs.accounted.recorded row hmem with ⟨c', hhash, -, huser⟩
  have hcc' : c = c' := hinj (hrenewable.recorded.symm.trans hhash)
  subst hcc'
  rcases hs.dated row hmem with ⟨-, t, -, -, hexpiry⟩
  have hle : p.now now ≤ p.now row.expiresAt := p.now_mono (Nat.le_of_not_lt hrenewable.unexpired)
  refine ⟨row, hsession, ?_⟩
  rcases Nat.lt_or_eq_of_le hle with hlt | heq
  · left
    rw [mem_listActiveSessionsForUser]
    refine ⟨hmem, huser.symm.trans hsub, hrenewable.unrevoked, ?_⟩
    rw [hexpiry] at hlt ⊢
    exact (outlives_sessionExpiry p t now).mpr hlt
  · exact Or.inr heq

theorem devicesExact (hinj : Function.Injective p.refreshTokenHash) (hs : s.Sound p)
    (current : Option Uuid) :
    DevicesExact p s now userId current
      ((s.listActiveSessionsForUser p now userId).map (sessionItem current)) := by
  have hperm : (s.listActiveSessionsForUser p now userId).Perm
      (s.sessions.filter (·.isActive p now userId)) := List.mergeSort_perm ..
  have hsub : (s.sessions.filter (·.isActive p now userId)).Sublist s.sessions :=
    List.filter_sublist
  constructor
  · intro item hitem
    rcases List.mem_map.mp hitem with ⟨row, hrow, rfl⟩
    rcases accepts_of_listed hinj hs hrow with ⟨c, hsession, hc⟩
    exact ⟨row, c, hsession, rfl, hc⟩
  · intro c hc haccepts
    rcases listed_of_accepts hinj hs hc haccepts with ⟨row, hsession, hrow⟩
    exact ⟨row, hsession, hrow.imp_left fun h => List.mem_map_of_mem h⟩
  · rw [List.map_map]
    exact ((hperm.map _).nodup_iff).mpr (hs.wellFormed.ids.sublist (hsub.map _))
  · exact listActiveSessionsForUser_newest.map _ fun _ _ h => h
  · intro a ha b hb hcurrent hcurrent'
    rcases List.mem_map.mp ha with ⟨row, hrow, rfl⟩
    rcases List.mem_map.mp hb with ⟨row', hrow', rfl⟩
    simp only [sessionItem, beq_iff_eq] at hcurrent hcurrent'
    have hfamily : row.tokenFamilyId = row'.tokenFamilyId := by
      rw [hcurrent, Option.some.injEq] at hcurrent'
      exact hcurrent'
    rw [hs.wellFormed.eq_of_family (mem_listActiveSessionsForUser.mp hrow).1
      (mem_listActiveSessionsForUser.mp hrow').1 hfamily]

end Exact

/-! ## Signing a device out -/

/-- The path segment is an identifier of the session. -/
def SessionRow.Named (p : Platform) (sessionId : String) (row : SessionRow) : Prop :=
  ∃ key, p.key sessionId = some key ∧ key.isId row.id

/-- What a caller achieves by naming a session. -/
structure SignsOut (p : Platform) (s : Server) (v : Visit) (userId : Uuid) (sessionId : String) :
    Prop where
  /-- An own session leaves the list, no other does, and its family is refused from then on,
  whatever follows and whatever fails. -/
  own : ∀ row ∈ s.sessions, row.Named p sessionId → row.userId = userId → row.revokedAt = none →
    v.Answers p s 200 ∧
    (∀ now u row', row' ∈ (v.after p s).listActiveSessionsForUser p now u ↔
      row' ∈ s.listActiveSessionsForUser p now u ∧ row'.id ≠ row.id) ∧
    ∀ (run : List Visit) (ω : Nat → Env) (headers : Headers) (c : RefreshClaims),
      headers.refreshCookie = some (.refresh c) → c.family = row.tokenFamilyId →
      ((refresh p headers).run (exec p) ω (stateAfter p (v.after p s) run)).1 =
        unauthorized headers
  /-- Any other session is not found, and nothing becomes of it. -/
  foreign : (∀ row ∈ s.sessions, row.Named p sessionId → row.userId = userId →
      row.revokedAt.isSome) →
    v.Answers p s 404 ∧ (v.after p s).sessions = s.sessions

section SignOut

variable {p : Platform} {s : Server} {headers : Headers} {claims : Claims} {sessionId : String}

theorem Key.isId_inj {key : Key} {u v : Uuid} (hu : key.isId u) (hv : key.isId v) : u = v := by
  cases key with
  | uuid id =>
      simp only [Key.isId, beq_iff_eq] at hu hv
      exact hu.trans hv.symm
  | text id =>
      simp only [Key.isId, beq_iff_eq] at hu hv
      exact Uuid.text_injective (hu.trans hv.symm)

theorem revokeSessions_of_none {cond : SessionRow → Bool} (now : Timestamp)
    (h : ∀ row ∈ s.sessions, cond row → row.revokedAt.isSome) :
    (s.revokeSessions cond now).sessions = s.sessions := by
  apply (List.map_congr_left _).trans (List.map_id _)
  intro row hrow
  rw [if_neg]
  · rfl
  · intro hcond
    rw [Bool.and_eq_true] at hcond
    have hrevoked := h row hrow hcond.1
    rw [Option.isSome_iff_ne_none] at hrevoked
    exact hrevoked (Option.isNone_iff_eq_none.mp hcond.2)

/-- Revoking one row takes it from every list, and no other. -/
theorem mem_listActive_revokeSessions {cond : SessionRow → Bool} {row : SessionRow}
    (hcond : ∀ row' ∈ s.sessions, cond row' ↔ row'.id = row.id) (at' now : Timestamp) (u : Uuid)
    (row' : SessionRow) :
    row' ∈ (s.revokeSessions cond at').listActiveSessionsForUser p now u ↔
      row' ∈ s.listActiveSessionsForUser p now u ∧ row'.id ≠ row.id := by
  rw [mem_listActiveSessionsForUser, mem_listActiveSessionsForUser]
  constructor
  · rintro ⟨hmem, huser, hrevoked, houtlives⟩
    rcases List.mem_map.mp hmem with ⟨old, hold, hnew⟩
    by_cases hc : cond old && old.revokedAt.isNone
    · rw [if_pos hc] at hnew
      rw [← hnew] at hrevoked
      cases hrevoked
    · rw [if_neg hc] at hnew
      subst hnew
      refine ⟨⟨hold, huser, hrevoked, houtlives⟩, fun hid => hc ?_⟩
      simp [(hcond old hold).mpr hid, hrevoked]
  · rintro ⟨⟨hmem, huser, hrevoked, houtlives⟩, hid⟩
    refine ⟨List.mem_map.mpr ⟨row', hmem, ?_⟩, huser, hrevoked, houtlives⟩
    rw [if_neg]
    intro hc
    rw [Bool.and_eq_true] at hc
    exact hid ((hcond row' hmem).mp hc.1)

/-- The end of `revoke_own_session`. -/
theorem run_revokeOwnSession (hauth : headers.authorization = some (.access claims)) {ω : Nat → Env}
    (hω : ∀ n, (ω n).fails = false) (hexp : Unexpired claims.exp (ω 0).now) (sessionId : String) :
    let ended := (revokeOwnSession p headers sessionId).run (exec p) ω s
    match p.key sessionId with
    | none => ended.1.status = 404 ∧ ended.2 = s
    | some key =>
        let cond : SessionRow → Bool := fun row => key.isId row.id && row.userId == claims.id
        SameSessions (s.revokeSessions cond (p.now (ω 1).now)) ended.2 ∧
          ended.1.status = if s.sessions.any fun row => cond row && row.revokedAt.isNone
            then 200 else 404 := by
  have hnotFound :
      (ApiError.mk "NOT_FOUND" "errors.notFound" (requestId headers)).intoResponse.status = 404 := by
    simp [ApiError.intoResponse, ApiError.statusCode]
  have hclaims : (Token.access claims).accessClaims (ω 0).now = some claims :=
    Token.accessClaims_eq_some.mpr ⟨rfl, hexp⟩
  unfold revokeOwnSession
  rw [run_authUserFromHeaders ω s hauth, hclaims]
  dsimp only
  unfold revokeSessionOwnedByUser
  cases hkey : p.key sessionId with
  | none => exact ⟨hnotFound, rfl⟩
  | some key =>
      dsimp only
      rw [run_query_of_succeeds (hω 1)]
      dsimp only [Query.perform]
      cases hany : s.sessions.any fun row =>
          key.isId row.id && row.userId == claims.id && row.revokedAt.isNone with
      | true =>
          dsimp only
          have hsaved := run_save_bind_pure (p := p) (withHeaders p ((withActor
            (Audit.AuditRecorder.new "AUTH_LOGOUT" "success" (requestId headers)) claims).resource
            "session" sessionId) headers) (json (.message "auth.loggedOut")) (fun n => ω (n + 2))
            (s.revokeSessions (fun row => key.isId row.id && row.userId == claims.id)
              (p.now (ω 1).now))
          exact ⟨hsaved.2, congrArg Response.status hsaved.1⟩
      | false => exact ⟨SameSessions.refl _, hnotFound⟩

theorem signsOut (hinj : Function.Injective p.refreshTokenHash) (hs : s.Sound p)
    (hauth : headers.authorization = some (.access claims)) {ω : Nat → Env}
    (hω : ∀ n, (ω n).fails = false) (hexp : Unexpired claims.exp (ω 0).now) :
    SignsOut p s ⟨.revokeOwnSession headers sessionId, ω⟩ claims.id sessionId := by
  have hrun := run_revokeOwnSession (p := p) (s := s) hauth hω hexp sessionId
  have hafter : Visit.after p ⟨.revokeOwnSession headers sessionId, ω⟩ s =
      ((revokeOwnSession p headers sessionId).run (exec p) ω s).2 :=
    after_eq (h := revokeOwnSession p headers sessionId) rfl
  have hanswers : ∀ status, ((revokeOwnSession p headers sessionId).run (exec p) ω s).1.status =
      status → Visit.Answers p s ⟨.revokeOwnSession headers sessionId, ω⟩ status := fun status h =>
    ⟨_, response_eq (h := revokeOwnSession p headers sessionId) rfl, h⟩
  constructor
  · rintro row hrow ⟨key, hkey, hid⟩ huser hrevoked
    rw [hkey] at hrun
    let cond : SessionRow → Bool := fun row => key.isId row.id && row.userId == claims.id
    have hcond : ∀ row' ∈ s.sessions, cond row' ↔ row'.id = row.id := by
      intro row' hrow'
      simp only [cond, Bool.and_eq_true, beq_iff_eq]
      constructor
      · exact fun h => Key.isId_inj h.1 hid
      · intro heq
        rw [hs.wellFormed.eq_of_id hrow' hrow heq]
        exact ⟨hid, huser⟩
    have hany : s.sessions.any (fun row => cond row && row.revokedAt.isNone) = true := by
      rw [List.any_eq_true]
      exact ⟨row, hrow, by simp [(hcond row hrow).mpr rfl, hrevoked]⟩
    have hsessions := hrun.1.sessions_eq
    refine ⟨hanswers 200 (hrun.2.trans (if_pos hany)), ?_, ?_⟩
    · intro now u row'
      have hlist : Server.listActiveSessionsForUser p now u
          (Visit.after p ⟨.revokeOwnSession headers sessionId, ω⟩ s) =
          (s.revokeSessions cond (p.now (ω 1).now)).listActiveSessionsForUser p now u := by
        rw [hafter]
        unfold Server.listActiveSessionsForUser
        rw [hsessions]
      rw [hlist]
      exact mem_listActive_revokeSessions hcond _ now u row'
    · intro run ω' headers' c hcookie hfamily
      have hsound := hs.after hinj ⟨.revokeOwnSession headers sessionId, ω⟩
      have hended : (Visit.after p ⟨.revokeOwnSession headers sessionId, ω⟩ s).Ended c.family := by
        constructor
        · rw [hfamily]
          exact (hs.accounted.drawn row hrow).2.trans_le hsound.2.nextId_le
        · rw [hafter, hsessions]
          intro row' hrow' hfamily'
          rcases List.mem_map.mp hrow' with ⟨old, hold, rfl⟩
          by_cases hc : cond old && old.revokedAt.isNone
          · rw [if_pos hc]
            rfl
          · rw [if_neg hc] at hfamily' ⊢
            have hsame := hs.wellFormed.eq_of_family hold hrow (hfamily'.trans hfamily)
            subst hsame
            exact absurd (by simp [(hcond old hold).mpr rfl, hrevoked]) hc
      have hlater := hsound.1.stateAfter hinj run
      exact refresh_of_ended hcookie (hended.onward hlater.2) ω'
  · intro hforeign
    cases hkey : p.key sessionId with
    | none =>
        rw [hkey] at hrun
        rw [hafter, hrun.2]
        exact ⟨hanswers 404 hrun.1, rfl⟩
    | some key =>
        rw [hkey] at hrun
        have hnone : ∀ row ∈ s.sessions, key.isId row.id && row.userId == claims.id →
            row.revokedAt.isSome := by
          intro row hrow hcond
          rw [Bool.and_eq_true, beq_iff_eq] at hcond
          exact hforeign row hrow ⟨key, hkey, hcond.1⟩ hcond.2
        rw [hafter, hrun.1.sessions_eq, revokeSessions_of_none _ hnone]
        refine ⟨hanswers 404 (hrun.2.trans (if_neg ?_)), rfl⟩
        rw [List.any_eq_true]
        rintro ⟨row, hrow, hcond⟩
        rw [Bool.and_eq_true] at hcond
        have hrevoked := hnone row hrow hcond.1
        rw [Option.isSome_iff_ne_none] at hrevoked
        exact hrevoked (Option.isNone_iff_eq_none.mp hcond.2)

end SignOut

/-! ## Sample runs -/

/-- The caller of `sampleAccess`, with the cookie of `sampleLogin`. -/
def sampleDeviceHeaders : Headers :=
  { sampleHeaders with authorization := some sampleAccess,
                       refreshCookie := some (.refresh sampleClaims1) }

theorem sampleDeviceHeaders_bearer : sampleDeviceHeaders.authorization =
    some (.access ⟨1, "OP-1", "", "OPERATOR", 1111112009⟩) := rfl

example : ((listSessions sampleDeviceHeaders).run (execDevice (samplePlatform .sqlite))
    (steadily (Timestamp.seconds 1111111110) 0)
    (stateAfter (samplePlatform .sqlite) sampleServer [sampleLogin])).1.toOption =
    some [⟨18, Timestamp.seconds 1111111109, Timestamp.seconds 1111111109,
      Timestamp.seconds 1113703109, none, none, true⟩] := by
  decide +kernel

end AnatoliaBis.Auth
