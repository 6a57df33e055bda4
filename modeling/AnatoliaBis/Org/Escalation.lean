import AnatoliaBis.App.Roles
import AnatoliaBis.App.StaleAccess
import AnatoliaBis.Auth.Issued
import AnatoliaBis.Org.Routes
import Mathlib.Logic.Relation

/-! # Escalation across the organization boundary

Only a `SYSTEM_ADMIN` manages organizations. Whether a user administrator can become
one is a question about runs: what an attacker holds grows with its own requests, by the
sessions they open and by the accounts whose password, e-mail or existence they set.
-/

namespace AnatoliaBis

/-! ## Whose request it is -/

/-- The headers of a request; the retention job has none. -/
def Auth.Request.headers : Auth.Request → Option Auth.Headers
  | .login headers .. | .enroll headers _ | .enrollResend headers | .enrollConfirm headers _
  | .challengeEnroll headers .. | .challengeEnrollResend headers _
  | .challengeRequestCode headers _ | .challengeEnrollConfirm headers ..
  | .challengeVerify headers .. | .disable headers .. | .refresh headers | .logout headers
  | .logoutAll headers | .revokeOwnSession headers _ | .mfaResetRoute headers _ => some headers
  | .purgeExpiredAuthRecords => none

def App.Request.headers : App.Request → Option Auth.Headers
  | .auth request => request.headers
  | .register headers _ | .resetPassword headers .. | .approveUser headers _
  | .rejectUser headers _ | .quickApprove headers _ | .quickReject headers _
  | .banUser headers .. | .unbanUser headers _ | .changeRole headers .. | .deleteUser headers _
  | .createUser headers _ | .updateUser headers .. | .review headers .. | .createCandidate headers _
  | .uploadReferencePhoto headers .. | .revokeTemplate headers .. | .createSearch headers _ =>
      some headers

namespace Org

open Atomic Program
open Auth (Env Headers trim)
open App (Holds Policy)

def Request.headers : Request → Option Headers
  | .app request => request.headers
  | .createOrganization headers _ | .createUnit headers .. | .assignMembership headers ..
  | .removeMembership headers .. => some headers

/-- The request's token meets the policy at this instant. -/
def Meets (headers : Headers) (policy : Policy) (e : Env) : Prop :=
  ∃ claims, headers.authorization = some (.access claims) ∧ Auth.Unexpired claims.exp e.now ∧
    policy.allows claims.role = true

/-! ## The checks of the two routes that edit accounts -/

section Payloads

variable {d : App.Deployment} {headers : Headers}

/-- The payload passes the checks of `create_user_route`. -/
def isValidCreate (d : App.Deployment) (payload : App.CreateUserPayload) : Bool :=
  App.isUserCode (d.toUppercase (trim payload.userCode)) &&
    !decide (payload.password.utf8ByteSize < 8) && App.isNationalId (trim payload.nationalId) &&
    d.toLowercase (trim payload.email) != ""

/-- The payload passes the checks of `update_user_route`. -/
def isValidUpdate (payload : App.UpdateUserPayload) : Bool :=
  (App.given payload.nationalId).all App.isNationalId &&
    (payload.password.filter (· != "")).all fun password => !decide (password.utf8ByteSize < 8)

/-- The payload has a password or an e-mail address to set. -/
def setsCredential (payload : App.UpdateUserPayload) : Bool :=
  (payload.password.filter (· != "")).isSome || (App.given payload.email).isSome

theorem createUserRoute_of_invalid {payload : App.CreateUserPayload}
    (h : isValidCreate d payload = false) :
    App.createUserRoute d headers payload =
      App.adminOnly headers (.done (App.invalid headers)) := by
  unfold App.createUserRoute
  dsimp only
  rw [if_pos]
  · rfl
  · simp only [isValidCreate, Bool.and_eq_false_iff, Bool.not_eq_false', bne_eq_false_iff_eq] at h
    simp only [Bool.or_eq_true, Bool.not_eq_true', decide_eq_true_eq, beq_iff_eq]
    simpa only [decide_eq_true_eq] using h

theorem nextNationalId_wp (payload : App.UpdateUserPayload) (current : App.Account)
    (s : App.Database) :
    (App.nextNationalId d payload current).wp (App.exec d) (fun _ => True)
      (fun _ columns _ => columns = none ∨
        (App.given payload.nationalId).all App.isNationalId = true) s := by
  unfold App.nextNationalId
  split
  next hgiven => exact Or.inr (by rw [hgiven]; rfl)
  next value hgiven =>
    split_ifs with hvalue
    · exact fun _ _ => Or.inr (by rw [hgiven]; exact hvalue)
    · exact Or.inl rfl

theorem nextPasswordHash_wp {payload : App.UpdateUserPayload}
    (h : ((payload.password.filter (· != "")).all fun password =>
      !decide (password.utf8ByteSize < 8)) = false) (current : App.Account) (s : App.Database) :
    (App.nextPasswordHash d headers payload current).wp (App.exec d) (fun _ => True)
      (fun _ hashed _ => hashed = .error (App.invalid headers)) s := by
  unfold App.nextPasswordHash
  split
  next hgiven =>
    rw [hgiven] at h
    cases h
  next password hgiven =>
    rw [hgiven] at h
    have hshort : password.utf8ByteSize < 8 := by simpa using h
    rw [if_pos hshort]
    rfl

/-- A payload that fails the checks is not accepted. -/
theorem updateUserRoute_refuses {id : String} {payload : App.UpdateUserPayload}
    (h : isValidUpdate payload = false) (s : App.Database) :
    (App.updateUserRoute d headers id payload).wp (App.exec d) (fun _ => True)
      (fun _ reply _ => ¬ reply.status < 400) s := by
  refine wp_bind_of (wp_true _ _) fun _ allowed s _ => ?_
  split_ifs
  · refine wp_bind_of (wp_true _ _) fun _ current s _ => ?_
    split
    · exact App.failure_status headers _ _
    · refine wp_bind_of (nextNationalId_wp payload _ s) fun _ columns s hcolumns => ?_
      split
      · exact App.failure_status headers _ _
      · rcases hcolumns with hnone | hnational
        · cases hnone
        · unfold isValidUpdate at h
          rw [hnational, Bool.true_and] at h
          refine wp_bind_of (nextPasswordHash_wp h _ s) fun _ hashed s hhashed => ?_
          rw [hhashed]
          exact App.failure_status headers _ _
  · exact App.failure_status headers _ _

end Payloads

/-! ## What the attacker holds -/

/-- Accounts it controls, and access tokens it was given. -/
structure Attacker where
  accounts : Set Uuid
  tokens : Set Auth.Claims

/-- The access token in a body. -/
def Body.accessClaims : Body → Option Auth.Claims
  | .app (.auth (.session (.access claims) _ _)) => some claims
  | _ => none

/-- The account whose password, e-mail or existence an accepted request has set. -/
def Request.Sets (d : App.Deployment) (s s' : Directory) : Request → Uuid → Prop
  | .app (.createUser ..), u | .app (.register ..), u =>
      (∀ user ∈ s.app.auth.users, user.id ≠ u) ∧ ∃ user ∈ s'.app.auth.users, user.id = u
  | .app (.updateUser _ id payload), u => setsCredential payload = true ∧ d.Names id u
  | .app (.resetPassword _ token _), u =>
      ∃ row ∈ s.app.approvalTokens, row.tokenHash = d.sha256Hex (trim token) ∧ row.userId = u
  | _, _ => False

/-- Only the routes of authentication hand out tokens. -/
def Request.asksForSession : Request → Prop
  | .app (.auth _) => True
  | _ => False

section Attack

variable (d : App.Deployment) (a : Attacker) (s : Directory) (v : Visit Request Env)

/-- The request is answered with a success. -/
def Accepted : Prop :=
  ∃ reply, v.answer (exec d) (handle d) s = some reply ∧ reply.status < 400

/-- The store once the request is handled. -/
abbrev storeAfter : Directory := v.after (exec d) (handle d) s

/-- The request is made with what the attacker holds: with its tokens, for sessions of its
accounts, and with links sent to them. -/
structure Attacker.Makes (request : Request) : Prop where
  token : ∀ headers ∈ request.headers, ∀ claims,
    headers.authorization = some (.access claims) → claims ∈ a.tokens
  session : ∀ r, request = .app (.auth r) → ∀ user, Auth.Current s.app.auth.users user →
    r.SignsIn d.toPlatform user → user.id ∈ a.accounts
  link : ∀ headers token newPassword, request = .app (.resetPassword headers token newPassword) →
    ∀ row ∈ s.app.approvalTokens, row.tokenHash = d.sha256Hex (trim token) →
      row.userId ∈ a.accounts

/-- What it holds once its request is handled. -/
def Attacker.after : Attacker where
  accounts := a.accounts ∪ {u | Accepted d s v ∧ v.request.Sets d s (storeAfter d s v) u}
  tokens := a.tokens ∪ {claims | v.request.asksForSession ∧
    ∃ reply, v.answer (exec d) (handle d) s = some reply ∧ reply.body.accessClaims = some claims}

/-- The requests of a user administrator that would carry the boundary away: one that makes
a `SYSTEM_ADMIN`, one that gives the role to an account of the attacker's, and one that sets
the password or the e-mail of an account that has it. -/
def Attacker.Spares : Prop :=
  match v.request with
  | .app (.createUser headers payload) =>
      Meets headers .administerUsers (v.env 0) → isValidCreate d payload = true →
        payload.isAdmin = false
  | .app (.changeRole headers id role) =>
      Meets headers .administerUsers (v.env 0) → role = App.Role.systemAdmin →
        ∀ u ∈ a.accounts, d.Names id u → ∀ old, ¬ Holds s.app u old
  | .app (.updateUser headers id payload) =>
      Meets headers .administerUsers (v.env 0) → isValidUpdate payload = true →
        setsCredential payload = true →
          ∀ u, d.Names id u → ¬ Holds s.app u App.Role.systemAdmin
  | _ => True

end Attack

/-! ## One request of the attacker's -/

section Step

variable {d : App.Deployment} {a : Attacker} {s : Directory} {v : Visit Request Env} {u : Uuid}
  {headers : Headers} {ω : Nat → Env}

/-- A request to `App` is handled there. -/
theorem run_app (r : App.Request) (ω : Nat → Env) (s : Directory) :
    (handle d (.app r)).run (exec d) ω s =
      (((App.handle d r).run (App.exec d) ω s.app).1.map Reply.ofApp,
        { s with app := ((App.handle d r).run (App.exec d) ω s.app).2 }) := by
  show ((lift (App.handle d r)).map _).run (exec d) ω s = _
  rw [run_map]
  unfold lift
  rw [(appPart d).run_embed]
  rfl

/-- Nothing happens to a request that is not a system administrator's. -/
theorem run_orgAdminOnly_of_not_meets {route : Handler Reply}
    (h : ¬ Meets headers .manageOrganizations (ω 0)) (s : Directory) :
    (orgAdminOnly headers route).run (exec d) ω s = (.ofApp (App.forbidden headers), s) := by
  have hrun : (lift (App.requireRole headers .manageOrganizations)).run (exec d) ω s =
      (false, s) := by
    unfold lift
    rw [(appPart d).run_embed]
    refine Prod.ext (App.run_requireRole_of_refused h _) ?_
    dsimp only
    rw [App.run_requireRole_snd]
    rfl
  unfold orgAdminOnly
  rw [run_bind, hrun]
  rfl

/-- Nor to one that is no user administrator's. -/
theorem run_adminOnly_map_of_not_meets {route : App.Handler App.Reply} (s : App.Database)
    (h : ¬ Meets headers .administerUsers (ω 0)) :
    ((App.adminOnly headers route).map some).run (App.exec d) ω s =
      (some (App.forbidden headers), s) := by
  rw [run_map, App.run_adminOnly_of_refused h]

/-- A creation with a payload that fails the checks changes nothing. -/
theorem run_createUserRoute_of_invalid {payload : App.CreateUserPayload}
    (h : isValidCreate d payload = false) (s : App.Database) :
    (((App.createUserRoute d headers payload).map some).run (App.exec d) ω s).2 = s := by
  rw [run_map, createUserRoute_of_invalid h]
  unfold App.adminOnly
  rw [run_bind, App.run_requireRole_snd]
  split_ifs <;> rfl

/-- A `SYSTEM_ADMIN` among the attacker's accounts was one before the request. -/
theorem holds_before {r : App.Request} (hspares : a.Spares d s ⟨.app r, ω⟩)
    (hu : u ∈ (a.after d s ⟨.app r, ω⟩).accounts)
    (h : Holds ((App.handle d r).run (App.exec d) ω s.app).2 u App.Role.systemAdmin) :
    Holds s.app u App.Role.systemAdmin := by
  rcases App.handle_bestows d r ω s.app u _ h with hbefore | ⟨hgives, hcreates⟩
  · exact hbefore
  · cases r with
    | register headers payload =>
        have hrole : App.Role.systemAdmin = App.Role.pending := hgives
        exact absurd hrole (by decide)
    | approveUser headers id =>
        have hrole : App.Role.systemAdmin = App.Role.defaultApproved := hgives
        exact absurd hrole (by decide)
    | quickApprove headers token =>
        have hrole : App.Role.systemAdmin = App.Role.defaultApproved := hgives
        exact absurd hrole (by decide)
    | createUser headers payload =>
        by_cases hmeets : Meets headers .administerUsers (ω 0)
        · cases hvalid : isValidCreate d payload with
          | true =>
              have hadmin : payload.isAdmin = false := hspares hmeets hvalid
              have hrole : App.Role.systemAdmin = App.Role.defaultApproved := by
                simpa [App.Request.gives, hadmin] using hgives
              exact absurd hrole (by decide)
          | false =>
              unfold App.handle at h
              rwa [run_createUserRoute_of_invalid hvalid] at h
        · unfold App.handle App.createUserRoute at h
          rwa [run_adminOnly_map_of_not_meets s.app hmeets] at h
    | changeRole headers id role =>
        by_cases hmeets : Meets headers .administerUsers (ω 0)
        · have haccount : u ∈ a.accounts := hu.resolve_right fun hsets => hsets.2
          rcases hcreates with hcreates | ⟨old, hold⟩
          · exact hcreates.elim
          · exact absurd hold (hspares hmeets hgives.2.symm u haccount hgives.1 old)
        · unfold App.handle App.changeRole at h
          rwa [run_adminOnly_map_of_not_meets s.app hmeets] at h
    | _ => exact hgives.elim

/-- An accepted request to `App` is accepted there. -/
theorem Accepted.of_app {r : App.Request} (h : Accepted d s ⟨.app r, ω⟩) :
    ∃ reply, ((App.handle d r).run (App.exec d) ω s.app).1 = some reply ∧ reply.status < 400 := by
  rcases h with ⟨reply, hreply, hstatus⟩
  have hrun : ((handle d (.app r)).run (exec d) ω s).1 = some reply := hreply
  rw [run_app] at hrun
  rcases Option.map_eq_some_iff.mp hrun with ⟨reply', hreply', rfl⟩
  exact ⟨reply', hreply', hstatus⟩

theorem not_accepted_of_forbidden {route : App.Handler App.Reply}
    (h : ¬ Meets headers .administerUsers (ω 0)) (s : App.Database) :
    ¬ ∃ reply, (((App.adminOnly headers route).map some).run (App.exec d) ω s).1 = some reply ∧
      reply.status < 400 := by
  rintro ⟨reply, hreply, hstatus⟩
  rw [run_adminOnly_map_of_not_meets s h] at hreply
  rcases Option.some.inj hreply with rfl
  exact App.failure_status headers _ _ hstatus

/-- The attacker's accounts stay without a `SYSTEM_ADMIN`. -/
theorem not_holds_after_app {r : App.Request} (hmakes : a.Makes d s (.app r))
    (hspares : a.Spares d s ⟨.app r, ω⟩)
    (hsafe : ∀ u ∈ a.accounts, ¬ Holds s.app u App.Role.systemAdmin)
    (hu : u ∈ (a.after d s ⟨.app r, ω⟩).accounts) :
    ¬ Holds ((App.handle d r).run (App.exec d) ω s.app).2 u App.Role.systemAdmin := by
  intro h
  have hbefore := holds_before hspares hu h
  rcases hu with hu | ⟨haccepted, hsets⟩
  · exact hsafe u hu hbefore
  · have hanswer := haccepted.of_app
    have hnew : ¬ ∀ user ∈ s.app.auth.users, user.id ≠ u := by
      rcases hbefore with ⟨user, huser, hid, -⟩
      exact fun hnone => hnone user huser hid
    cases r with
    | register headers payload => exact hnew hsets.1
    | createUser headers payload => exact hnew hsets.1
    | resetPassword headers token newPassword =>
        rcases hsets with ⟨row, hrow, hhash, rfl⟩
        exact hsafe _ (hmakes.link _ _ _ rfl row hrow hhash) hbefore
    | updateUser headers id payload =>
        by_cases hmeets : Meets headers .administerUsers (ω 0)
        · cases hvalid : isValidUpdate payload with
          | true => exact hspares hmeets hvalid hsets.1 u hsets.2 hbefore
          | false =>
              rcases hanswer with ⟨reply, hreply, hstatus⟩
              unfold App.handle at hreply
              rw [run_map] at hreply
              rcases Option.some.inj hreply with rfl
              have hrefused : (App.updateUserRoute d headers id payload).wp (App.exec d) _ _ s.app :=
                updateUserRoute_refuses hvalid s.app
              exact wp_run hrefused (ω := ω) (fun _ => trivial) hstatus
        · exact not_accepted_of_forbidden hmeets s.app hanswer
    | _ => exact hsets

/-- An access token of the answer is in the role of one of the attacker's accounts. -/
theorem token_of_answer {request : Request} {claims : Auth.Claims} {reply : Reply}
    (hmakes : a.Makes d s request) (hasks : request.asksForSession)
    (hreply : ((handle d request).run (exec d) ω s).1 = some reply)
    (hclaims : reply.body.accessClaims = some claims) :
    ∃ u ∈ a.accounts, Holds s.app u claims.role := by
  unfold Request.asksForSession at hasks
  split at hasks
  next r =>
    rw [run_app] at hreply
    rcases Option.map_eq_some_iff.mp hreply with ⟨appReply, happ, rfl⟩
    unfold App.handle App.lift at happ
    rw [run_map, (App.authPart d).run_embed] at happ
    rcases Option.map_eq_some_iff.mp happ with ⟨response, hresponse, rfl⟩
    have hvouched := Auth.handle_vouched d.toPlatform s.app.auth.users r ω s.app.auth rfl
      response hresponse
    cases hbody : response.body with
    | session token user codes =>
        rw [hbody] at hvouched
        rcases hvouched with ⟨claims', row, rfl, ⟨⟨hcurrent, -⟩, hsigns⟩, -, hrole⟩
        have hsame : claims' = claims := by
          simpa [Reply.ofApp, App.Reply.ofResponse, hbody, Body.accessClaims] using hclaims
        refine ⟨row.id, hmakes.session r rfl row hcurrent hsigns, row, hcurrent.1, rfl,
          hcurrent.2, ?_⟩
        rw [← hrole, hsame]
    | _ => simp [Reply.ofApp, App.Reply.ofResponse, hbody, Body.accessClaims] at hclaims
  · exact hasks.elim

end Step

/-! ## Runs -/

/-- The attacker, and the store it faces. -/
structure World where
  attacker : Attacker
  store : Directory

/-- Nobody else acts on the attacker's accounts. -/
def Attacker.IsLeftAlone (a : Attacker) (s s' : Directory) : Prop :=
  ∀ u ∈ a.accounts, ∀ role, Holds s'.app u role → Holds s.app u role

/-- A turn of a run: a request of the attacker's, under a condition, or whatever the others
do. -/
inductive Turn (d : App.Deployment) (C : World → Visit Request Env → Prop) : World → World → Prop
  | own {w : World} (v : Visit Request Env) (hmakes : w.attacker.Makes d w.store v.request)
      (hv : C w v) : Turn d C w ⟨w.attacker.after d w.store v, storeAfter d w.store v⟩
  | others {w : World} (s : Directory) (h : w.attacker.IsLeftAlone w.store s) :
      Turn d C w ⟨w.attacker, s⟩

/-- No account and no token of the attacker's is a `SYSTEM_ADMIN`'s. -/
structure World.IsSafe (w : World) : Prop where
  accounts : ∀ u ∈ w.attacker.accounts, ¬ Holds w.store.app u App.Role.systemAdmin
  tokens : ∀ claims ∈ w.attacker.tokens, claims.role ≠ App.Role.systemAdmin

/-- The request is not authorised as `SYSTEM_ADMIN`, and no accepted request about
organizations. -/
structure Confined (d : App.Deployment) (s : Directory) (v : Visit Request Env) : Prop where
  role : ∀ headers ∈ v.request.headers, ∀ claims,
    ((App.lift (Auth.authUserFromHeaders headers)).run (App.exec d) v.env s.app).1 = some claims →
      claims.role ≠ App.Role.systemAdmin
  refused : (∀ r, v.request ≠ .app r) → ¬ Accepted d s v
  organizations : (storeAfter d s v).organizations = s.organizations
  units : (storeAfter d s v).units = s.units
  memberships : (storeAfter d s v).memberships = s.memberships

section Runs

variable {d : App.Deployment} {w w' : World} {v : Visit Request Env} {headers : Headers}

/-- None of its tokens manages organizations. -/
theorem World.IsSafe.not_meets (h : w.IsSafe) (hmakes : w.attacker.Makes d w.store v.request)
    (hheaders : headers ∈ v.request.headers) (e : Env) : ¬ Meets headers .manageOrganizations e := by
  rintro ⟨claims, hauth, -, hallows⟩
  refine h.tokens claims (hmakes.token headers hheaders claims hauth) ?_
  simpa [Policy.allows, Policy.roles] using hallows

/-- Its requests about organizations are refused. -/
theorem World.IsSafe.run_org (h : w.IsSafe) (hmakes : w.attacker.Makes d w.store v.request)
    (horg : ∀ r, v.request ≠ .app r) :
    ∃ headers, (handle d v.request).run (exec d) v.env w.store =
      (some (.ofApp (App.forbidden headers)), w.store) := by
  have hrefused : ∀ headers ∈ v.request.headers, ∀ route : Handler Reply,
      ((orgAdminOnly headers route).map some).run (exec d) v.env w.store =
        (some (.ofApp (App.forbidden headers)), w.store) := by
    intro headers hheaders route
    rw [run_map, run_orgAdminOnly_of_not_meets (h.not_meets hmakes hheaders _)]
  rcases v with ⟨request, ω⟩
  cases request with
  | app r => exact absurd rfl (horg r)
  | createOrganization headers name => exact ⟨headers, hrefused headers rfl _⟩
  | createUnit headers organizationId name parentUnitId => exact ⟨headers, hrefused headers rfl _⟩
  | assignMembership headers userId organizationId organizationUnitId =>
      exact ⟨headers, hrefused headers rfl _⟩
  | removeMembership headers userId organizationId => exact ⟨headers, hrefused headers rfl _⟩

/-- What the request is authorised by is one of its tokens. -/
theorem World.IsSafe.not_systemAdmin (h : w.IsSafe)
    (hmakes : w.attacker.Makes d w.store v.request) (hheaders : headers ∈ v.request.headers)
    {claims : Auth.Claims} (hclaims : ((App.lift (Auth.authUserFromHeaders headers)).run
      (App.exec d) v.env w.store.app).1 = some claims) :
    claims.role ≠ App.Role.systemAdmin := by
  cases hauth : headers.authorization with
  | none =>
      unfold Auth.authUserFromHeaders at hclaims
      rw [hauth] at hclaims
      cases hclaims
  | some token =>
      cases token with
      | access claims' =>
          rw [App.run_authUserFromHeaders hauth] at hclaims
          rcases (Option.ite_none_right_eq_some.mp hclaims).2 with ⟨⟩
          exact h.tokens _ (hmakes.token headers hheaders _ hauth)
      | _ =>
          unfold Auth.authUserFromHeaders at hclaims
          rw [hauth] at hclaims
          cases hclaims

/-- A request of the attacker's, made with what it holds, is confined. -/
theorem World.IsSafe.confined (h : w.IsSafe) (hmakes : w.attacker.Makes d w.store v.request) :
    Confined d w.store v := by
  have hrole : ∀ headers ∈ v.request.headers, ∀ claims,
      ((App.lift (Auth.authUserFromHeaders headers)).run (App.exec d) v.env w.store.app).1 =
        some claims → claims.role ≠ App.Role.systemAdmin :=
    fun headers hheaders claims => h.not_systemAdmin hmakes hheaders
  by_cases horg : ∀ r, v.request ≠ .app r
  · rcases h.run_org hmakes horg with ⟨headers, hrun⟩
    have hstore : storeAfter d w.store v = w.store := congrArg Prod.snd hrun
    refine ⟨hrole, fun _ => ?_, by rw [hstore], by rw [hstore], by rw [hstore]⟩
    rintro ⟨reply, hreply, hstatus⟩
    have hforbidden : some (Reply.ofApp (App.forbidden headers)) = some reply :=
      (congrArg Prod.fst hrun).symm.trans hreply
    rcases Option.some.inj hforbidden with rfl
    exact App.failure_status headers "FORBIDDEN" "errors.forbidden" hstatus
  · push Not at horg
    rcases horg with ⟨r, hr⟩
    have hstore : storeAfter d w.store v =
        { w.store with app := ((App.handle d r).run (App.exec d) v.env w.store.app).2 } := by
      show ((handle d v.request).run (exec d) v.env w.store).2 = _
      rw [hr, run_app]
    exact ⟨hrole, fun horg => absurd hr (horg r), by rw [hstore], by rw [hstore], by rw [hstore]⟩

/-- A spared turn leaves the attacker without a `SYSTEM_ADMIN`. -/
theorem Turn.keeps (hturn : Turn d (fun w v => w.attacker.Spares d w.store v) w w')
    (h : w.IsSafe) : w'.IsSafe := by
  cases hturn with
  | others s hleft =>
      exact ⟨fun u hu hholds => h.accounts u hu (hleft u hu _ hholds), h.tokens⟩
  | own v hmakes hspares =>
      refine ⟨fun u hu => ?_, fun claims hclaims => ?_⟩
      · by_cases horg : ∀ r, v.request ≠ .app r
        · rcases h.run_org hmakes horg with ⟨headers, hrun⟩
          have hstore : storeAfter d w.store v = w.store := congrArg Prod.snd hrun
          dsimp only
          rw [hstore]
          refine h.accounts u (hu.resolve_right fun hgained => ?_)
          exact (h.confined hmakes).refused horg hgained.1
        · push Not at horg
          rcases v with ⟨request, ω⟩
          rcases horg with ⟨r, rfl⟩
          have hstore : (storeAfter d w.store ⟨.app r, ω⟩).app =
              ((App.handle d r).run (App.exec d) ω w.store.app).2 := by
            show ((handle d (.app r)).run (exec d) ω w.store).2.app = _
            rw [run_app]
          dsimp only
          rw [hstore]
          exact not_holds_after_app hmakes hspares h.accounts hu
      · rcases hclaims with hclaims | ⟨hasks, reply, hreply, hbody⟩
        · exact h.tokens claims hclaims
        · rcases token_of_answer hmakes hasks hreply hbody with ⟨u, hu, hholds⟩
          rintro hrole
          rw [hrole] at hholds
          exact h.accounts u hu hholds

/-- **Where the user-administration routes are not used against the boundary, no run takes the
attacker across it.** -/
theorem no_escalation (d : App.Deployment) {w w' : World} (hstart : w.IsSafe)
    (hrun : Relation.ReflTransGen (Turn d fun w v => w.attacker.Spares d w.store v) w w') :
    (∀ u ∈ w'.attacker.accounts, ¬ Holds w'.store.app u App.Role.systemAdmin) ∧
      ∀ v : Visit Request Env, w'.attacker.Makes d w'.store v.request →
        Confined d w'.store v := by
  have hsafe : w'.IsSafe := by
    induction hrun with
    | refl => exact hstart
    | tail _ hturn ih => exact hturn.keeps ih
  exact ⟨hsafe.accounts, fun v hmakes => hsafe.confined hmakes⟩

end Runs

/-! ## An attack -/

/-- No role is made to enroll a second factor. -/
def sampleDeployment : App.Deployment :=
  { App.sampleDeployment .sqlite with
    mfaRequiredRoles := []
    bcryptVerify := fun password hash =>
      password == "Abcdef1!" && hash == App.samplePasswordHash }

def sampleSecurity : Auth.UserRow := App.sampleAccount 8 "SEC-1" App.Role.securityAdmin

def sampleDirectory : Directory where
  app := { App.sampleDatabase with
    auth := { App.sampleDatabase.auth with users := [App.sampleAdmin, sampleSecurity] } }
  organizations := []
  units := []
  memberships := []

/-- The attacker is signed in as the security administrator. -/
def sampleAttacker : Attacker where
  accounts := {8}
  tokens := {⟨8, "SEC-1", "", App.Role.securityAdmin, 1111112009⟩}

def sampleEnv : Nat → Env := Auth.steadily App.sampleNow 0

/-- It creates an account, as an administrator's or not. -/
def sampleCreation (isAdmin : Bool) : Visit Request Env :=
  ⟨.app (.createUser (App.sampleBearer sampleSecurity)
    ⟨"ROOT1", "Abcdef1!", none, none, "12345678901", "root@bis.test", isAdmin⟩), sampleEnv⟩

/-- It signs in there, -/
def sampleLogin : Visit Request Env :=
  ⟨.app (.auth (.login Auth.sampleHeaders "ROOT1" "Abcdef1!")), sampleEnv⟩

def sampleClaims : Auth.Claims :=
  ⟨16, "ROOT1", "root@bis.test", App.Role.systemAdmin, 1111112009⟩

/-- and founds an organization. -/
def sampleFounding : Visit Request Env :=
  ⟨.createOrganization { Auth.sampleHeaders with authorization := some (.access sampleClaims) }
    "Acme", sampleEnv⟩

def sampleWorld : World := ⟨sampleAttacker, sampleDirectory⟩

/-- The world once a request of the attacker's is handled. -/
def World.next (w : World) (v : Visit Request Env) : World :=
  ⟨w.attacker.after sampleDeployment w.store v, storeAfter sampleDeployment w.store v⟩

theorem sampleWorld_isSafe : sampleWorld.IsSafe := by
  constructor
  · rintro u (rfl : u = 8) ⟨user, huser, hid, -, hrole⟩
    have hnone : ∀ user ∈ sampleDirectory.app.auth.users, user.id = 8 →
        user.role ≠ App.Role.systemAdmin := by decide
    exact hnone user huser hid hrole
  · rintro claims rfl
    decide

theorem sampleCreation_makes (isAdmin : Bool) :
    sampleAttacker.Makes sampleDeployment sampleDirectory (sampleCreation isAdmin).request := by
  constructor
  · rintro headers ⟨⟩ claims ⟨⟩
    rfl
  · rintro r ⟨⟩
  · rintro headers token newPassword ⟨⟩

/-- The world after the creation of an administrator. -/
def sampleAfterCreation : World := sampleWorld.next (sampleCreation true)

theorem sampleLogin_makes : sampleAfterCreation.attacker.Makes sampleDeployment
    sampleAfterCreation.store sampleLogin.request := by
  constructor
  · rintro headers ⟨⟩ claims ⟨⟩
  · rintro r ⟨⟩ user hcurrent hsigns
    have hid : ∀ user ∈ sampleAfterCreation.store.app.auth.users,
        user.userCode = sampleDeployment.toUppercase (trim "ROOT1") → user.id = 16 := by
      decide +kernel
    rw [hid user hcurrent.1 hsigns.1]
    have hstatus : ((sampleCreation true).answer (exec sampleDeployment)
        (handle sampleDeployment) sampleDirectory).map (·.status) = some 200 := by decide +kernel
    rcases Option.map_eq_some_iff.mp hstatus with ⟨reply, hreply, hok⟩
    refine Or.inr ⟨⟨reply, hreply, by rw [hok]; decide⟩, ?_, ?_⟩
    · decide
    · decide +kernel
  · rintro headers token newPassword ⟨⟩

/-- The world after the login. -/
def sampleAfterLogin : World := sampleAfterCreation.next sampleLogin

theorem sampleFounding_makes : sampleAfterLogin.attacker.Makes sampleDeployment
    sampleAfterLogin.store sampleFounding.request := by
  constructor
  · rintro headers ⟨⟩ claims ⟨⟩
    have hclaims : (sampleLogin.answer (exec sampleDeployment) (handle sampleDeployment)
        sampleAfterCreation.store).bind (·.body.accessClaims) = some sampleClaims := by
      decide +kernel
    rcases Option.bind_eq_some_iff.mp hclaims with ⟨reply, hreply, hbody⟩
    exact Or.inr ⟨trivial, reply, hreply, hbody⟩
  · rintro r ⟨⟩
  · rintro headers token newPassword ⟨⟩

/-- A user administrator makes a `SYSTEM_ADMIN`, signs in as it and founds an organization. -/
theorem escalates : ¬ ∀ (d : App.Deployment) (w w' : World), w.IsSafe →
    Relation.ReflTransGen (Turn d fun _ _ => True) w w' →
      ∀ v : Visit Request Env, w'.attacker.Makes d w'.store v.request →
        Confined d w'.store v := by
  intro h
  have hrun : Relation.ReflTransGen (Turn sampleDeployment fun _ _ => True) sampleWorld
      sampleAfterLogin :=
    (Relation.ReflTransGen.single (.own _ (sampleCreation_makes true) trivial)).tail
      (.own _ sampleLogin_makes trivial)
  have hconfined := (h sampleDeployment sampleWorld sampleAfterLogin sampleWorld_isSafe hrun
    sampleFounding sampleFounding_makes).organizations
  have hfounded : (storeAfter sampleDeployment sampleAfterLogin.store
      sampleFounding).organizations.length ≠ sampleAfterLogin.store.organizations.length := by
    decide +kernel
  exact hfounded (congrArg List.length hconfined)

theorem no_escalation_sample :
    (∀ u ∈ (sampleWorld.next (sampleCreation false)).attacker.accounts,
      ¬ Holds (sampleWorld.next (sampleCreation false)).store.app u App.Role.systemAdmin) ∧
    ∀ v : Visit Request Env, (sampleWorld.next (sampleCreation false)).attacker.Makes
      sampleDeployment (sampleWorld.next (sampleCreation false)).store v.request →
        Confined sampleDeployment (sampleWorld.next (sampleCreation false)).store v :=
  no_escalation sampleDeployment sampleWorld_isSafe
    (Relation.ReflTransGen.single (.own _ (sampleCreation_makes false) fun _ _ => rfl))

end Org

end AnatoliaBis
