import AnatoliaBis.App.AccountRows
import AnatoliaBis.Auth.Issued

/-! # What login and forgotten-password tell

Someone who sends logins and forgotten-password requests sees their answers. As long as no
login carries the password of the account it names, an answer is a function of the request
and of what the limiter says (`Attempt.run_eq`), and the limiter counts requests, not
accounts. So two databases over which the limiter starts out the same answer a whole
sequence of requests alike.
-/

namespace AnatoliaBis

/-- `check` on a list of limits, the `n`-th at the instant `instants n`, stopping at the
first that refuses. -/
def RateLimiter.checkAll :
    List (String × Nat × Nat) → (Nat → Nat) → RateLimiter → RateLimiter × Bool
  | [], _, limiter => (limiter, true)
  | (key, maxAttempts, window) :: limits, instants, limiter =>
      let checked := limiter.check key maxAttempts window (instants 0)
      if checked.2 then checkAll limits (fun n => instants (n + 1)) checked.1 else checked

namespace App

open Atomic Program
open Auth (Env Headers trim)

/-! ## Requests and answers -/

/-- A request of someone who is not signed in. -/
inductive Attempt where
  | login (headers : Headers) (userCode password : String)
  | forgotPassword (headers : Headers) (identifier : String)
  deriving Repr, DecidableEq

/-- What the server brings to a request: the identifier it gives one that has none, and
what the operations meet. -/
structure Occasion where
  requestId : Uuid
  env : Nat → Env

/-- Nothing fails. -/
def Occasion.Succeeds (o : Occasion) : Prop := ∀ n, (o.env n).fails = false

/-- Two servers that ask the limiter at the same instants. -/
def Occasion.SameTimes (o o' : Occasion) : Prop :=
  ∀ n, (o.env n).instant = (o'.env n).instant

/-- Without the request's identifier. -/
def Reply.anonymous (r : Reply) : Reply :=
  match r.body with
  | .auth (.error e) => { r with body := .auth (.error { e with requestId := "" }) }
  | _ => r

namespace Attempt

variable (d : Deployment)

/-- The handler of a request, given an identifier for it. -/
def handle (requestId : Uuid) : Attempt → Handler Reply
  | .login headers userCode password =>
      answered (Auth.login d.toPlatform { headers with fallbackRequestId := requestId } userCode
        password)
  | .forgotPassword headers identifier =>
      App.forgotPassword d { headers with fallbackRequestId := requestId } identifier

/-- The answer, and the database afterwards. -/
def run (s : Database) (o : Occasion) (a : Attempt) : Reply × Database :=
  (a.handle d o.requestId).run (exec d) o.env s

/-- A login with the password of the account it names. -/
def carriesPassword (s : Database) : Attempt → Bool
  | .login _ userCode password =>
      (s.auth.users.find? fun user =>
        user.userCode == d.toUppercase (trim userCode) && user.deletedAt.isNone).any
          fun user => d.bcryptVerify password user.passwordHash
  | .forgotPassword .. => false

/-- The limits a request is counted under. -/
def limits : Attempt → List (String × Nat × Nat)
  | .login headers userCode _ => Auth.loginLimits d.toPlatform headers userCode
  | .forgotPassword _ identifier =>
      if trim identifier = "" then []
      else [("forgot-password:" ++ d.toLowercase (trim identifier), 5, Auth.quarterHour)]

/-- What is answered to a request, once the limiter has said yes or no. -/
def answer (allowed : Bool) : Attempt → Reply
  | .login .. =>
      if allowed then ⟨401, .auth (.error ⟨"UNAUTHORIZED", "errors.invalidCredentials", ""⟩), none⟩
      else ⟨429, .auth (.error ⟨"RATE_LIMITED", "errors.rateLimited", ""⟩), none⟩
  | .forgotPassword _ identifier =>
      if trim identifier = "" then
        ⟨400, .auth (.error ⟨"VALIDATION_ERROR", "errors.validation", ""⟩), none⟩
      else if allowed then message "auth.forgotPasswordReceived"
      else ⟨429, .auth (.error ⟨"RATE_LIMITED", "errors.rateLimited", ""⟩), none⟩

end Attempt

/-- The answers to a sequence of requests, one after the other. -/
def replies (d : Deployment) : Database → List Attempt → (Nat → Occasion) → List Reply
  | _, [], _ => []
  | s, a :: attempts, ω =>
      (a.run d s (ω 0)).1 :: replies d (a.run d s (ω 0)).2 attempts fun n => ω (n + 1)

/-! ## What neither the limiter nor an account notices -/

/-- Neither counting an attempt nor writing to `users`. -/
def Op.Silent : Op → Prop
  | .auth (.rateCheck ..) => False
  | .db (.createUser _) | .db (.updateUserFlags ..) | .db (.updateUserProfile ..)
  | .db (.updateUserPassword ..) | .db (.deleteUser _) | .db (.softDeleteUser _) => False
  | _ => True

/-- The limiter and the accounts are the same. -/
def Unnoticed (s s' : Database) : Prop :=
  s'.auth.limiter = s.auth.limiter ∧ s'.auth.users = s.auth.users

theorem Op.Silent.not_writes {op : Op} (h : op.Silent) : ¬ op.WritesAccounts := by
  intro hw
  unfold Op.WritesAccounts at hw
  split at hw
  all_goals first | exact h | exact hw

theorem Op.LooksUp.silent {op : Op} (h : op.LooksUp) : op.Silent := by
  unfold Op.LooksUp at h
  split at h
  all_goals trivial

theorem Op.Audits.silent {op : Op} (h : op.Audits) : op.Silent := by
  unfold Op.Audits at h
  split at h
  · trivial
  · exact h.elim

section Silence

variable {d : Deployment}

/-- No statement touches the limiter. -/
theorem limiter_exec {op : Op} (h : op.Silent) (e : Env) (s : Database) :
    (exec d op e s).1.auth.limiter = s.auth.limiter := by
  cases op with
  | auth c =>
      cases c with
      | rateCheck key maxAttempts window => exact h.elim
      | db q =>
          cases hf : e.fails with
          | true => rw [exec_auth, Auth.exec_db_of_fails _ hf]
          | false =>
              rw [exec_auth, Auth.exec_db_of_succeeds _ hf]
              cases q <;> simp only [Auth.Query.perform, Auth.Server.updateMfaCredential,
                Auth.Server.upsertMfaCredential, Auth.Server.setMfaCredential,
                Auth.Server.updateSessions, Auth.Server.revokeSessions]
              all_goals split <;> rfl
      | _ => rfl
  | db q =>
      apply exec_db_store (I := fun s' => s'.auth.limiter = s.auth.limiter) rfl
      intro _ _
      cases q with
      | recordReviewDecision entry =>
          exact record_same (f := fun s => s.auth.limiter) (fun _ _ _ => rfl) s _ entry
      | _ => rfl
  | _ => rfl

theorem unnoticed_exec {op : Op} (h : op.Silent) (e : Env) (s : Database) :
    Unnoticed s (exec d op e s).1 :=
  ⟨limiter_exec h e s, (accounts_exec h.not_writes e s).1⟩

/-- A silent part of a handler, however the database behaves. -/
theorem unnoticed_run {α : Type} {R : α → Prop} {h : Handler α}
    (hh : h.Performs (exec d) Op.Silent R) (ω : Nat → Env) (s : Database) :
    Unnoticed s (h.run (exec d) ω s).2 := by
  apply hh.keeps (T := Unnoticed)
  · exact fun s => ⟨rfl, rfl⟩
  · exact fun h h' => ⟨h'.1.trans h.1, h'.2.trans h.2⟩
  · exact fun op e s hop => unnoticed_exec hop e s

theorem save_silent (r : Audit.AuditRecorder) :
    (save d r).Performs (exec d) Op.Silent fun _ => True :=
  (save_performs r).weaken fun _ h => h.elim Op.LooksUp.silent Op.Audits.silent

end Silence

/-! ## One request -/

section Requests

variable {d : Deployment}

theorem run_checkLimits (limits : List (String × Nat × Nat)) (ω : Nat → Env) (s : Auth.Server) :
    (Auth.checkLimits limits).run (Auth.exec d.toPlatform) ω s =
      ((RateLimiter.checkAll limits (fun n => (ω n).instant) s.limiter).2,
        { s with limiter :=
          (RateLimiter.checkAll limits (fun n => (ω n).instant) s.limiter).1 }) := by
  induction limits generalizing ω s with
  | nil => rfl
  | cons limit limits ih =>
      rcases limit with ⟨key, maxAttempts, window⟩
      unfold Auth.checkLimits RateLimiter.checkAll
      rw [Auth.run_perform_bind]
      have hchecked : (Auth.exec d.toPlatform (.rateCheck key maxAttempts window) (ω 0) s) =
          ({ s with limiter := (s.limiter.check key maxAttempts window (ω 0).instant).1 },
            (s.limiter.check key maxAttempts window (ω 0).instant).2) := rfl
      rw [hchecked]
      dsimp only
      split_ifs with hallowed
      · exact ih _ _
      · exact Prod.ext (eq_false_of_ne_true hallowed).symm rfl

/-- Saving an audit event leaves the limiter alone. -/
theorem run_save_limiter (r : Audit.AuditRecorder) (ω : Nat → Env) (s : Auth.Server) :
    ((Auth.save d.toPlatform r).run (Auth.exec d.toPlatform) ω s).2.limiter = s.limiter := by
  unfold Auth.save
  rw [run_bind, run_resolveOrganizationId, Auth.run_query_bind]
  generalize ω (0 + _) = e
  cases hf : e.fails with
  | true => rw [Auth.exec_db_of_fails _ hf]; rfl
  | false => rw [Auth.exec_db_of_succeeds _ hf]; rfl

/-- A login without the password is refused in the same words whether there is no such
account or another password. -/
theorem run_loginByCode {headers : Headers} {userCode password : String} {ω : Nat → Env}
    {s : Auth.Server} (hω : (ω 0).fails = false)
    (hpassword : (s.users.find? fun user =>
      user.userCode == d.toUppercase (trim userCode) && user.deletedAt.isNone).any
        (fun user => d.bcryptVerify password user.passwordHash) = false) :
    ((Auth.loginByCode d.toPlatform headers userCode password).run (Auth.exec d.toPlatform)
        ω s).1 = (Auth.ApiError.mk "UNAUTHORIZED" "errors.invalidCredentials" "").respond headers ∧
      ((Auth.loginByCode d.toPlatform headers userCode password).run (Auth.exec d.toPlatform)
        ω s).2.limiter = s.limiter := by
  unfold Auth.loginByCode
  rw [Auth.run_query_bind, Auth.exec_db_of_succeeds _ hω]
  simp only [Auth.Query.perform]
  cases hfound : s.users.find? fun user =>
      user.userCode == d.toUppercase (trim userCode) && user.deletedAt.isNone with
  | none =>
      dsimp only
      rw [run_bind]
      exact ⟨rfl, run_save_limiter _ _ s⟩
  | some user =>
      rw [hfound, Option.any_some] at hpassword
      dsimp only
      rw [hpassword]
      simp only [Bool.not_false, if_true, Auth.refuseLogin]
      rw [run_bind]
      exact ⟨rfl, run_save_limiter _ _ s⟩

theorem run_login (headers : Headers) {userCode password : String} {ω : Nat → Env}
    {s : Auth.Server} (hω : ∀ n, (ω n).fails = false)
    (hpassword : (s.users.find? fun user =>
      user.userCode == d.toUppercase (trim userCode) && user.deletedAt.isNone).any
        (fun user => d.bcryptVerify password user.passwordHash) = false) :
    let checked := RateLimiter.checkAll (Auth.loginLimits d.toPlatform headers userCode)
      (fun n => (ω n).instant) s.limiter
    let ended := (Auth.login d.toPlatform headers userCode password).run
      (Auth.exec d.toPlatform) ω s
    (ended.1 = if checked.2 then
        (Auth.ApiError.mk "UNAUTHORIZED" "errors.invalidCredentials" "").respond headers
      else Auth.rateLimited.respond headers) ∧ ended.2.limiter = checked.1 := by
  intro checked ended
  have hended : ended = (Auth.login d.toPlatform headers userCode password).run
      (Auth.exec d.toPlatform) ω s := rfl
  unfold Auth.login at hended
  rw [run_bind, run_checkLimits] at hended
  change ended = (if checked.2 = true then _ else _ : Auth.Handler Auth.Response).run _ _ _ at hended
  by_cases hallowed : checked.2 = true
  · rw [if_pos hallowed] at hended
    rw [if_pos hallowed, hended]
    exact run_loginByCode (hω _) hpassword
  · rw [if_neg hallowed] at hended
    rw [if_neg hallowed, hended]
    exact ⟨rfl, rfl⟩

theorem findByIdentifier_silent (identifier : String) :
    (findByIdentifier d identifier).Performs (exec d) Op.Silent fun _ => True := by
  unfold findByIdentifier loadUserByEmail loadUserByCode
  split
  · apply performs_query
    · trivial
    intro found
    split <;> trivial
  · apply performs_perform
    · trivial
    intro found
    split <;> trivial

theorem createApprovalToken_silent (userId : Uuid) (tokenHash purpose : String)
    (expiresAt : Timestamp) :
    (createApprovalToken d userId tokenHash purpose expiresAt).Performs (exec d) Op.Silent
      fun _ => True := by
  unfold createApprovalToken
  apply performs_perform
  · trivial
  intro id
  apply performs_query
  · trivial
  intro created
  split
  · trivial
  · split
    · trivial
    · apply performs_query
      · trivial
      intro found
      split <;> trivial

theorem sendResetMail_silent (user : Auth.UserRow) :
    (sendResetMail d user).Performs (exec d) Op.Silent fun _ => True := by
  unfold sendResetMail
  split
  · exact ⟨trivial, fun _ _ => trivial⟩
  · apply performs_perform
    · trivial
    intro now
    apply performs_perform
    · trivial
    intro bytes
    apply (createApprovalToken_silent _ _ _ _).bind
    intro created _
    split
    · trivial
    · exact ⟨trivial, fun _ _ => trivial⟩

/-- What `forgot_password` does for an account. -/
theorem requestReset_silent (headers : Headers) (identifier : String) :
    (requestReset d headers identifier).Performs (exec d) Op.Silent fun _ => True := by
  unfold requestReset
  apply (findByIdentifier_silent identifier).bind
  intro found _
  split
  · trivial
  · exact (sendResetMail_silent _).bind fun _ _ => save_silent _

/-- A handler that goes on in silence if the limiter allows it. -/
theorem run_limited {key : String} {maxAttempts window : Nat} {allowed : Handler Reply}
    {reply refused : Reply} (hallowed : allowed.Performs (exec d) Op.Silent (· = reply))
    (ω : Nat → Env) (s : Database) :
    let checked := s.auth.limiter.check key maxAttempts window (ω 0).instant
    let ended := (do
      let yes ← perform (.auth (.rateCheck key maxAttempts window))
      if yes then allowed else return refused : Handler Reply).run (exec d) ω s
    ended.1 = (if checked.2 then reply else refused) ∧
      ended.2.auth.limiter = checked.1 ∧ ended.2.auth.users = s.auth.users := by
  intro checked ended
  have hended : ended = (if checked.2 then allowed else return refused).run (exec d)
    (fun n => ω (n + 1)) { s with auth := { s.auth with limiter := checked.1 } } := rfl
  by_cases hchecked : checked.2 = true
  · rw [if_pos hchecked] at hended
    rw [if_pos hchecked, hended]
    exact ⟨hallowed.run_result _ _, unnoticed_run hallowed _ _⟩
  · rw [if_neg hchecked] at hended
    rw [if_neg hchecked, hended]
    exact ⟨rfl, rfl, rfl⟩

theorem run_forgotPassword {headers : Headers} {identifier : String} (ω : Nat → Env)
    (s : Database) (hidentifier : trim identifier ≠ "") :
    let checked := s.auth.limiter.check
      ("forgot-password:" ++ d.toLowercase (trim identifier)) 5 Auth.quarterHour (ω 0).instant
    let ended := (forgotPassword d headers identifier).run (exec d) ω s
    ended.1 = (if checked.2 then message "auth.forgotPasswordReceived"
      else failure headers "RATE_LIMITED" "errors.rateLimited") ∧
      ended.2.auth.limiter = checked.1 ∧ ended.2.auth.users = s.auth.users := by
  unfold forgotPassword
  -- a variable, or Lean computes with the text
  generalize trim identifier = identifier at hidentifier ⊢
  have hreset : (do
      requestReset d headers identifier
      return message "auth.forgotPasswordReceived" : Handler Reply).Performs (exec d) Op.Silent
      (· = message "auth.forgotPasswordReceived") := by
    apply (requestReset_silent headers identifier).bind
    intro _ _
    rfl
  rw [if_neg hidentifier]
  exact run_limited hreset ω s

/-- **One request**: the answer is a function of the request and of what the limiter says,
the limiter is left as if no account existed, and the accounts are left alone. -/
theorem Attempt.run_eq {a : Attempt} {o : Occasion} {s : Database} (ho : o.Succeeds)
    (ha : a.carriesPassword d s = false) :
    let checked := RateLimiter.checkAll (a.limits d) (fun n => (o.env n).instant) s.auth.limiter
    (a.run d s o).1.anonymous = a.answer checked.2 ∧
      (a.run d s o).2.auth.limiter = checked.1 ∧ (a.run d s o).2.auth.users = s.auth.users := by
  cases a with
  | login headers userCode password =>
      intro checked
      unfold Attempt.run Attempt.handle answered lift
      rw [run_map, (authPart d).run_embed]
      have hrun := run_login { headers with fallbackRequestId := o.requestId } ho ha
      have husers := Auth.run_users (p := d.toPlatform)
        (Auth.login d.toPlatform { headers with fallbackRequestId := o.requestId } userCode
          password) o.env s.auth
      refine ⟨?_, hrun.2, husers⟩
      dsimp only [authPart]
      rw [hrun.1]
      unfold Attempt.answer
      change Reply.anonymous (Reply.ofResponse (if checked.2 = true then _ else _)) = _
      split_ifs <;> rfl
  | forgotPassword headers identifier =>
      unfold Attempt.run Attempt.handle Attempt.limits Attempt.answer
      by_cases hempty : trim identifier = ""
      · unfold App.forgotPassword
        simp only [if_pos hempty]
        exact ⟨rfl, rfl, rfl⟩
      · rcases run_forgotPassword (d := d) o.env s hempty with ⟨hreply, hlimiter, husers⟩
        simp only [if_neg hempty]
        unfold RateLimiter.checkAll RateLimiter.checkAll
        generalize s.auth.limiter.check _ 5 Auth.quarterHour _ = checked at hreply hlimiter ⊢
        dsimp only
        rw [hreply]
        rcases checked with ⟨limiter, _ | _⟩
        · exact ⟨rfl, hlimiter, husers⟩
        · exact ⟨rfl, hlimiter, husers⟩

end Requests

/-! ## A sequence of requests -/

/-- **No account enumeration.** Whatever logins and forgotten-password requests are sent,
two databases over which the limiter starts out the same, and in neither of which a login
carries the password of the account it names, answer them alike: refusals by the limiter
included, the requests' identifiers aside. -/
theorem no_enumeration (d : Deployment) (attempts : List Attempt) (s s' : Database)
    (ω ω' : Nat → Occasion) (hlimiter : s.auth.limiter = s'.auth.limiter)
    (hpassword : ∀ a ∈ attempts, a.carriesPassword d s = false)
    (hpassword' : ∀ a ∈ attempts, a.carriesPassword d s' = false)
    (hω : ∀ n, (ω n).Succeeds) (hω' : ∀ n, (ω' n).Succeeds)
    (htimes : ∀ n, (ω n).SameTimes (ω' n)) :
    (replies d s attempts ω).map Reply.anonymous =
      (replies d s' attempts ω').map Reply.anonymous := by
  induction attempts generalizing s s' ω ω' with
  | nil => rfl
  | cons a attempts ih =>
      have hrun := Attempt.run_eq (hω 0) (hpassword a (List.mem_cons_self ..))
      have hrun' := Attempt.run_eq (hω' 0) (hpassword' a (List.mem_cons_self ..))
      have hinstants : (fun n => ((ω 0).env n).instant) = fun n => ((ω' 0).env n).instant :=
        funext (htimes 0)
      rw [← hlimiter, ← hinstants] at hrun'
      have hkeeps : ∀ (b : Attempt) {t t' : Database}, t'.auth.users = t.auth.users →
          b.carriesPassword d t' = b.carriesPassword d t := by
        intro b t t' husers
        unfold Attempt.carriesPassword
        rw [husers]
      simp only [replies, List.map_cons, hrun.1, hrun'.1]
      congr 1
      apply ih
      · exact hrun.2.1.trans hrun'.2.1.symm
      · intro b hb
        rw [hkeeps b hrun.2.2]
        exact hpassword b (List.mem_cons_of_mem _ hb)
      · intro b hb
        rw [hkeeps b hrun'.2.2]
        exact hpassword' b (List.mem_cons_of_mem _ hb)
      · exact fun n => hω (n + 1)
      · exact fun n => hω' (n + 1)
      · exact fun n => htimes (n + 1)

/-- Logins and forgotten passwords of an account and of nobody. -/
def sampleAttempts : List Attempt :=
  [.login Auth.sampleHeaders "op-1" "guess", .forgotPassword Auth.sampleHeaders "op-1",
    .login Auth.sampleHeaders "nobody" "guess",
    .forgotPassword Auth.sampleHeaders "nobody@example.org"]

/-- With five accounts and with none. -/
theorem no_enumeration_sample :
    let d := sampleDeployment .sqlite
    (replies d sampleDatabase sampleAttempts fun _ => ⟨7, Auth.steadily sampleNow 0⟩).map
        Reply.anonymous =
      (replies d { sampleDatabase with auth := { sampleDatabase.auth with users := [] } }
        sampleAttempts fun _ => ⟨8, Auth.steadily sampleNow 0⟩).map Reply.anonymous := by
  apply no_enumeration
  · rfl
  · decide +kernel
  · decide +kernel
  · exact fun _ _ => rfl
  · exact fun _ _ => rfl
  · exact fun _ _ => rfl

end App

end AnatoliaBis
