import AnatoliaBis.Auth.Mfa

/-! # Login, and runs of requests

`auth::login`, the requests a client can send, and the state after a sequence of
them, each handled to its end before the next begins. A run is over arbitrary
requests: whoever sends one may hold any token, and each comes with the
environment its operations meet.
-/

namespace AnatoliaBis.Auth

open Atomic

/-! ## Login -/

/-- The audit event of a refused login. -/
def loginFailed (result rid : String) (metadata : List (String × Json.Value)) :
    Audit.AuditRecorder :=
  (Audit.AuditRecorder.new "AUTH_LOGIN_FAILED" result rid).withMetadata (.object metadata)

/-- A login refused after the account was found. -/
def refuseLogin (p : Platform) (headers : Headers) (user : UserRow) (result reason : String)
    (err : ApiError) : Handler Response := do
  save p (withHeaders p (withUser (loginFailed result (requestId headers)
    [("reason", .string reason)]) user) headers)
  return err.respond headers

/-- The end of `login`: no second factor is asked for. -/
def openSession (p : Platform) (headers : Headers) (user : UserRow) : Handler Response := do
  match ← issueSession p user headers with
  | .error _ => return (internalError "").respond headers
  | .ok pair =>
      save p (withHeaders p (withUser (Audit.AuditRecorder.new "AUTH_LOGIN_SUCCESS" "success"
        (requestId headers)) user) headers)
      return sessionResponse pair.1 pair.2 user none

/-- `login` once the password is verified and the account is in order. -/
def loginUser (p : Platform) (headers : Headers) (user : UserRow) : Handler Response := do
  let outcome ← loginMfaOutcome p user
  answer outcome
where
  answer : LoginMfaOutcome → Handler Response
    | .notRequired => openSession p headers user
    | .challengeRequired method => do
        let token ← signChallengeToken user.id .login
        match method with
        | .totp => return json (.mfaRequired token user.userCode method)
        | .email =>
            sendLoginChallengeEmailCode p user
            return json (.mfaRequired token user.userCode method)
    | .enrollmentRequired => do
        let token ← signChallengeToken user.id .enrollment
        return json (.mfaEnrollmentRequired token user.userCode)

/-- `login` from the look-up of the account. -/
def loginByCode (p : Platform) (headers : Headers) (userCode password : String) :
    Handler Response := do
  let rateKey := p.toUppercase (trim userCode)
  match ← query (.loadUserByCode rateKey) with
  | .error _ => return (internalError "").respond headers
  | .ok none =>
      save p (withHeaders p (loginFailed "failure" (requestId headers)
        [("reason", .string "unknown_account"), ("userCode", .string rateKey)]) headers)
      return (ApiError.mk "UNAUTHORIZED" "errors.invalidCredentials" "").respond headers
  | .ok (some user) =>
      if !p.bcryptVerify password user.passwordHash then
        refuseLogin p headers user "failure" "invalid_password"
          ⟨"UNAUTHORIZED", "errors.invalidCredentials", ""⟩
      else if user.isBanned then
        refuseLogin p headers user "denied" "account_banned"
          ⟨"FORBIDDEN", "errors.accountBanned", ""⟩
      else if !user.isApproved then
        refuseLogin p headers user "denied" "account_not_approved"
          ⟨"FORBIDDEN", "errors.accountNotApproved", ""⟩
      else loginUser p headers user

/-- `check` on a list of limits, stopping at the first that refuses. -/
def checkLimits : List (String × Nat × Nat) → Handler Bool
  | [] => return true
  | (key, maxAttempts, window) :: limits => do
      let allowed ← perform (.rateCheck key maxAttempts window)
      if allowed then checkLimits limits else return false

/-- The limits of `login`: by account and, where the client's address can be
trusted, by address, and by address within a minute. -/
def loginLimits (p : Platform) (headers : Headers) (userCode : String) :
    List (String × Nat × Nat) :=
  ("login-account:" ++ p.toUppercase (trim userCode), 10, quarterHour) ::
    match clientIp p headers with
    | none => []
    | some ip =>
        [("login-ip:" ++ ip, 50, quarterHour), ("login-burst:" ++ ip, 10, Timestamp.minutes 1)]

/-- `auth::login`. -/
def login (p : Platform) (headers : Headers) (userCode password : String) : Handler Response := do
  let allowed ← checkLimits (loginLimits p headers userCode)
  if allowed then loginByCode p headers userCode password
  else return rateLimited.respond headers

/-! ## Requests -/

/-- A request to the routes above, or a pass of the retention job. -/
inductive Request where
  | login (headers : Headers) (userCode password : String)
  | enroll (headers : Headers) (method : Option String)
  | enrollResend (headers : Headers)
  | enrollConfirm (headers : Headers) (code : String)
  | challengeEnroll (headers : Headers) (mfaToken : Token) (method : Option String)
  | challengeEnrollResend (headers : Headers) (mfaToken : Token)
  | challengeRequestCode (headers : Headers) (mfaToken : Token)
  | challengeEnrollConfirm (headers : Headers) (mfaToken : Token) (code : String)
  | challengeVerify (headers : Headers) (mfaToken : Token) (code : String)
  | disable (headers : Headers) (password code : String)
  | refresh (headers : Headers)
  | logout (headers : Headers)
  | logoutAll (headers : Headers)
  | revokeOwnSession (headers : Headers) (sessionId : String)
  | mfaResetRoute (headers : Headers) (id : String)
  | purgeExpiredAuthRecords
  deriving Repr, DecidableEq

/-- The handler of a request; the retention job answers nobody. -/
def handle (p : Platform) : Request → Handler (Option Response)
  | .login headers userCode password => (login p headers userCode password).map some
  | .enroll headers method => (enroll p headers method).map some
  | .enrollResend headers => (enrollResend p headers).map some
  | .enrollConfirm headers code => (enrollConfirm p headers code).map some
  | .challengeEnroll headers mfaToken method => (challengeEnroll p headers mfaToken method).map some
  | .challengeEnrollResend headers mfaToken => (challengeEnrollResend p headers mfaToken).map some
  | .challengeRequestCode headers mfaToken => (challengeRequestCode p headers mfaToken).map some
  | .challengeEnrollConfirm headers mfaToken code =>
      (challengeEnrollConfirm p headers mfaToken code).map some
  | .challengeVerify headers mfaToken code => (challengeVerify p headers mfaToken code).map some
  | .disable headers password code => (disable p headers password code).map some
  | .refresh headers => (refresh p headers).map some
  | .logout headers => (logout p headers).map some
  | .logoutAll headers => (logoutAll p headers).map some
  | .revokeOwnSession headers sessionId => (revokeOwnSession p headers sessionId).map some
  | .mfaResetRoute headers id => (mfaResetRoute p headers id).map some
  | .purgeExpiredAuthRecords => Auth.purgeExpiredAuthRecords.map fun _ => none

/-! ## Runs -/

/-- A request, and what its operations meet. -/
structure Visit where
  request : Request
  env : Nat → Env

namespace Visit

variable (p : Platform)

/-- The state once the request is handled. -/
def after (v : Visit) (s : Server) : Server := ((handle p v.request).run (exec p) v.env s).2

/-- The answer. -/
def response (v : Visit) (s : Server) : Option Response :=
  ((handle p v.request).run (exec p) v.env s).1

/-- The operations performed. -/
def steps (v : Visit) (s : Server) : List Step := (handle p v.request).trace (exec p) v.env s

/-- No statement fails while the request is handled. -/
def Succeeds (v : Visit) : Prop := ∀ n, (v.env n).fails = false

end Visit

/-- The state after a run. -/
def stateAfter (p : Platform) (s : Server) (run : List Visit) : Server :=
  run.foldl (fun s v => v.after p s) s

@[simp] theorem stateAfter_nil (p : Platform) (s : Server) : stateAfter p s [] = s := rfl

@[simp] theorem stateAfter_cons (p : Platform) (s : Server) (v : Visit) (run : List Visit) :
    stateAfter p s (v :: run) = stateAfter p (v.after p s) run := rfl

theorem stateAfter_append (p : Platform) (s : Server) (run run' : List Visit) :
    stateAfter p s (run ++ run') = stateAfter p (stateAfter p s run) run' :=
  List.foldl_append

/-- Somewhere in the run `v` is handled next, in the state `s`. -/
def Visits (p : Platform) (s₀ : Server) (run : List Visit) (s : Server) (v : Visit) : Prop :=
  ∃ before later, run = before ++ v :: later ∧ s = stateAfter p s₀ before

@[simp] theorem visits_nil (p : Platform) (s₀ s : Server) (v : Visit) :
    ¬ Visits p s₀ [] s v := by
  rintro ⟨before, later, h, -⟩
  simp at h

/-- The first visit of a run meets the initial state. -/
theorem visits_cons {p : Platform} {s₀ s : Server} {first v : Visit} {run : List Visit} :
    Visits p s₀ (first :: run) s v ↔
      (s = s₀ ∧ v = first) ∨ Visits p (first.after p s₀) run s v := by
  constructor
  · rintro ⟨before, later, h, hs⟩
    cases before with
    | nil => exact Or.inl ⟨hs, ((List.cons.inj h).1).symm⟩
    | cons w before =>
        rcases List.cons.inj h with ⟨rfl, hrest⟩
        exact Or.inr ⟨before, later, hrest, hs⟩
  · rintro (⟨rfl, rfl⟩ | ⟨before, later, rfl, hs⟩)
    · exact ⟨[], run, rfl, rfl⟩
    · exact ⟨first :: before, later, rfl, hs⟩

section Visit

variable {p : Platform} {s : Server} {v : Visit} {h : Handler Response}

/-- A visit is its handler. -/
theorem after_eq (hv : handle p v.request = h.map some) :
    v.after p s = (h.run (exec p) v.env s).2 := by
  unfold Visit.after
  rw [hv, Program.run_map]

theorem response_eq (hv : handle p v.request = h.map some) :
    v.response p s = some (h.run (exec p) v.env s).1 := by
  unfold Visit.response
  rw [hv, Program.run_map]

theorem steps_eq (hv : handle p v.request = h.map some) :
    v.steps p s = h.trace (exec p) v.env s := by
  unfold Visit.steps
  rw [hv, Program.trace_map]

end Visit

/-- A state for examples: one account, no session, no second factor. -/
def sampleUser : UserRow where
  id := 1
  userCode := "OP-1"
  firstName := "Deniz"
  lastName := "Kaya"
  email := none
  passwordHash := "$2a$05$CCCCCCCCCCCCCCCCCCCCC.E5YPO9kmyuRGyh0XouQYb4YMJKvyOeW"
  role := "OPERATOR"
  isApproved := true
  isBanned := false
  deletedAt := none

def sampleServer : Server where
  users := [sampleUser]
  sessions := []
  mfaCredentials := fun _ => none
  recoveryCodes := []
  memberships := []
  auditEvents := []
  limiter := .new
  outbox := []
  nextId := 16

def sampleHeaders : Headers := ⟨none, none, some "req-1", 2, none, none⟩

/-- An environment in which time stands still, no statement fails and every draw
gives the same bytes. -/
def steadily (now : Timestamp) (random : Nat) : Nat → Env := fun _ => ⟨now, now, random, false⟩

def sampleLogin : Visit :=
  ⟨.login sampleHeaders "op-1" "U*U", steadily (Timestamp.seconds 1111111109) 0⟩

/-- The access token that login hands out. -/
def sampleAccess : Token := .access ⟨1, "OP-1", "", "OPERATOR", 1111112009⟩

example : (sampleLogin.response (samplePlatform .sqlite) sampleServer).map (·.body) =
    some (.session sampleAccess (publicUser sampleUser) none) := by
  decide +kernel

/-! ## How the routes begin -/

/-- The row `load_user_by_id` finds. -/
def Server.findUser (s : Server) (userId : Uuid) : Option UserRow :=
  s.users.find? fun u => u.id == userId && u.deletedAt.isNone

/-- An account that may complete a login. -/
def Server.findActiveUser (s : Server) (userId : Uuid) : Option UserRow :=
  (s.findUser userId).filter fun user => !user.isBanned && user.isApproved

theorem Server.findUser_id {s : Server} {userId : Uuid} {user : UserRow}
    (h : s.findUser userId = some user) : user.id = userId := by
  have hfound := List.find?_some h
  simp only [Bool.and_eq_true, beq_iff_eq] at hfound
  exact hfound.1

theorem Server.findActiveUser_id {s : Server} {userId : Uuid} {user : UserRow}
    (h : s.findActiveUser userId = some user) : user.id = userId :=
  findUser_id (Option.filter_eq_some_iff.mp h).1

section Beginnings

variable {p : Platform} {α : Type} (ω : Nat → Env) (s : Server)

theorem authUserFromHeaders_of_some {headers : Headers} {token : Token}
    (h : headers.authorization = some token) :
    authUserFromHeaders headers = perform .utcNow >>= fun now => .done (token.accessClaims now) := by
  unfold authUserFromHeaders
  rw [h]
  rfl

theorem run_authUserFromHeaders {headers : Headers} {token : Token}
    (h : headers.authorization = some token) (f : Option Claims → Handler α) :
    (authUserFromHeaders headers >>= f).run (exec p) ω s =
      (f (token.accessClaims (ω 0).now)).run (exec p) (fun n => ω (n + 1)) s := by
  rw [authUserFromHeaders_of_some h]
  rfl

theorem trace_authUserFromHeaders {headers : Headers} {token : Token}
    (h : headers.authorization = some token) (f : Option Claims → Handler α) :
    (authUserFromHeaders headers >>= f).trace (exec p) ω s =
      ⟨.utcNow, ω 0, s, s⟩ ::
        (f (token.accessClaims (ω 0).now)).trace (exec p) (fun n => ω (n + 1)) s := by
  rw [authUserFromHeaders_of_some h]
  rfl

theorem run_decodeChallengeToken (token : Token) (purpose : Purpose)
    (f : Option Uuid → Handler α) :
    (decodeChallengeToken token purpose >>= f).run (exec p) ω s =
      (f (token.challengeUser (ω 0).now purpose)).run (exec p) (fun n => ω (n + 1)) s := rfl

theorem trace_decodeChallengeToken (token : Token) (purpose : Purpose)
    (f : Option Uuid → Handler α) :
    (decodeChallengeToken token purpose >>= f).trace (exec p) ω s =
      ⟨.utcNow, ω 0, s, s⟩ ::
        (f (token.challengeUser (ω 0).now purpose)).trace (exec p) (fun n => ω (n + 1)) s := rfl

theorem run_loadUser (userId : Uuid) (f : Option UserRow → Handler α) :
    (loadUser userId >>= f).run (exec p) ω s =
      (f (if (ω 0).fails then none else s.findUser userId)).run (exec p)
        (fun n => ω (n + 1)) s := by
  unfold loadUser query
  simp only [Program.call_bind, Program.done_bind, Program.run_call, exec]
  split_ifs <;> rfl

theorem trace_loadUser (userId : Uuid) (f : Option UserRow → Handler α) :
    (loadUser userId >>= f).trace (exec p) ω s =
      ⟨.db (.loadUserById (.uuid userId)), ω 0, s, s⟩ ::
        (f (if (ω 0).fails then none else s.findUser userId)).trace (exec p)
          (fun n => ω (n + 1)) s := by
  unfold loadUser query
  simp only [Program.call_bind, Program.done_bind, Program.trace_call, exec]
  split_ifs <;> rfl

theorem run_loadUserOrUnauthorized (userId : Uuid) (f : Option UserRow → Handler α) :
    (loadUserOrUnauthorized userId >>= f).run (exec p) ω s =
      (f (if (ω 0).fails then none else s.findActiveUser userId)).run (exec p)
        (fun n => ω (n + 1)) s := by
  unfold loadUserOrUnauthorized loadUser query
  simp only [Program.call_bind, Program.done_bind, Program.pure_eq_done, Program.run_call, exec]
  split_ifs <;> rfl

theorem trace_loadUserOrUnauthorized (userId : Uuid) (f : Option UserRow → Handler α) :
    (loadUserOrUnauthorized userId >>= f).trace (exec p) ω s =
      ⟨.db (.loadUserById (.uuid userId)), ω 0, s, s⟩ ::
        (f (if (ω 0).fails then none else s.findActiveUser userId)).trace (exec p)
          (fun n => ω (n + 1)) s := by
  unfold loadUserOrUnauthorized loadUser query
  simp only [Program.call_bind, Program.done_bind, Program.pure_eq_done, Program.trace_call, exec]
  split_ifs <;> rfl

theorem run_loadTarget_of_none {id : String} (h : p.key id = none)
    (f : Option UserRow → Handler α) :
    (loadTarget p id >>= f).run (exec p) ω s = (f none).run (exec p) ω s := by
  unfold loadTarget
  rw [h]
  rfl

theorem run_loadTarget_of_some {id : String} {key : Key} (h : p.key id = some key)
    (f : Option UserRow → Handler α) :
    (loadTarget p id >>= f).run (exec p) ω s =
      (f (if (ω 0).fails then none else
        s.users.find? fun u => key.isId u.id && u.deletedAt.isNone)).run (exec p)
        (fun n => ω (n + 1)) s := by
  unfold loadTarget query
  simp only [h, Program.call_bind, Program.done_bind, Program.run_call, exec]
  split_ifs <;> rfl

end Beginnings

end AnatoliaBis.Auth
