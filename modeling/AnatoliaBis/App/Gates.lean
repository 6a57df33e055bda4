import AnatoliaBis.App.Listing
import AnatoliaBis.App.Requests

/-! # Gates and failing look-ups

Four decisions rest on a look-up in the store: whether a login needs a second
factor, whether an account is the last administrator, and which rows the search
list and the audit list may show. What each of them permits when the look-up
fails, against what it permits after every success.
-/

namespace AnatoliaBis.App

open Atomic Program Select

/-- The statements of the gate fail. -/
def StatementsFail (e : Auth.Env) : Prop := e.fails = true

theorem statementsFail_exists : ∃ e, StatementsFail e := ⟨⟨0, 0, 0, true⟩, rfl⟩

/-- An environment without failures. -/
def calm : Auth.Env := ⟨0, 0, 0, false⟩

theorem calm_not_fails : ¬ StatementsFail calm := Bool.false_ne_true

/-! ## The second factor -/

section SecondFactor

variable {p : Auth.Platform} {user : Auth.UserRow}

/-- `login_mfa_outcome` from the outcome of the look-up on. -/
def mfaDecision (p : Auth.Platform) (user : Auth.UserRow)
    (found : Except DbError (Option Auth.MfaCredentialRow)) : Auth.LoginMfaOutcome :=
  match Auth.enabledCredential found with
  | some credential => .challengeRequired credential.method
  | none => if p.mfaRequiredRoles.contains user.role then .enrollmentRequired else .notRequired

theorem loginMfaOutcome_eq :
    Auth.loginMfaOutcome p user =
      .call (.db (.findMfaCredential user.id)) fun found => .done (mfaDecision p user found) := by
  unfold Auth.loginMfaOutcome mfaDecision
  refine congrArg (Program.call (Auth.Call.db (.findMfaCredential user.id))) (funext fun found => ?_)
  show (match Auth.enabledCredential found with
    | some credential => _
    | none => _) = _
  cases Auth.enabledCredential found with
  | some credential => rfl
  | none =>
      dsimp only
      split_ifs <;> rfl

/-- An enabled credential. -/
def enabledTotp : Auth.MfaCredentialRow := ⟨"", .totp, none, none, some 0, none⟩

/-- Whoever must have a second factor is never let in without one. -/
theorem loginMfaOutcome_failsClosed :
    (Auth.loginMfaOutcome p user).FailsClosed (Auth.exec p) StatementsFail (· = .notRequired) ↔
      user.role ∈ p.mfaRequiredRoles := by
  have hfailure : ∀ e s, StatementsFail e →
      (Auth.exec p (.db (.findMfaCredential user.id)) e s).2 = .error .failed := by
    intro e s he
    rw [Auth.exec_db_of_fails s he]
  rw [loginMfaOutcome_eq, failsClosed_call hfailure statementsFail_exists]
  unfold mfaDecision
  by_cases hrole : user.role ∈ p.mfaRequiredRoles
  · have hcontains : p.mfaRequiredRoles.contains user.role = true := by simpa using hrole
    refine iff_of_true (fun hpermits => ?_) hrole
    rw [hcontains] at hpermits
    cases hpermits
  · have hcontains : p.mfaRequiredRoles.contains user.role = false := by simpa using hrole
    refine iff_of_false (fun h => ?_) hrole
    -- a store in which a second factor is enabled
    let s : Auth.Server := { Auth.sampleServer with mfaCredentials := fun _ => some enabledTotp }
    have hopen := h (by rw [hcontains]; rfl) calm s calm_not_fails
    cases hopen

end SecondFactor

/-! ## The last administrator -/

section LastAdmin

variable {d : Deployment}

theorem isLastAdmin_eq :
    isLastAdmin = .call (.db .countActiveSystemAdmins) fun found => .done
      (match found with
        | .ok count => decide (count ≤ 1)
        | .error _ => false) := by
  unfold isLastAdmin
  refine congrArg (Program.call (Op.db .countActiveSystemAdmins)) (funext fun found => ?_)
  show (match found with
    | .ok count => _
    | .error _ => _) = _
  cases found with
  | ok count => rfl
  | error err => rfl

/-- Counting administrators is not safe against failure: an error counts as
enough of them. -/
theorem isLastAdmin_not_failsClosed :
    ¬ isLastAdmin.FailsClosed (exec d) StatementsFail (· = false) := by
  have hfailure : ∀ e s, StatementsFail e →
      (exec d (.db .countActiveSystemAdmins) e s).2 = .error .failed := by
    intro e s he
    rw [exec_db_of_fails he]
  rw [isLastAdmin_eq, failsClosed_call hfailure statementsFail_exists]
  intro h
  -- a single administrator
  let s : Database := { sampleDatabase with auth := { sampleDatabase.auth with
    users := [sampleAdmin] } }
  have hopen := h rfl calm s calm_not_fails
  rw [exec_db_of_succeeds rfl rfl] at hopen
  cases hopen

theorem wouldRemoveLastAdmin_failsClosed (target : Account) :
    (wouldRemoveLastAdmin target).FailsClosed (exec d) StatementsFail (· = false) ↔
      target.role ≠ Role.systemAdmin ∨ target.isBanned = true := by
  unfold wouldRemoveLastAdmin
  by_cases hexempt : (target.role != Role.systemAdmin || target.isBanned) = true
  · rw [if_pos hexempt]
    refine iff_of_true (failsClosed_done false) ?_
    simpa using hexempt
  · rw [if_neg hexempt]
    refine iff_of_false isLastAdmin_not_failsClosed ?_
    simpa using hexempt

theorem demotesLastAdmin_failsClosed (target : Account) (role : String) :
    (demotesLastAdmin target role).FailsClosed (exec d) StatementsFail (· = false) ↔
      target.role ≠ Role.systemAdmin ∨ role = Role.systemAdmin := by
  unfold demotesLastAdmin
  by_cases hdemotes : (target.role == Role.systemAdmin && role != Role.systemAdmin) = true
  · rw [if_pos hdemotes]
    refine iff_of_false isLastAdmin_not_failsClosed ?_
    simpa using hdemotes
  · rw [if_neg hdemotes]
    refine iff_of_true (failsClosed_done false) ?_
    have hnot : ¬ (target.role = Role.systemAdmin ∧ role ≠ Role.systemAdmin) := by
      simpa using hdemotes
    by_cases hrole : target.role = Role.systemAdmin
    · exact Or.inr (not_not.mp fun h => hnot ⟨hrole, h⟩)
    · exact Or.inl hrole

end LastAdmin

/-! ## The scope of a list -/

/-- `org_scope` in `list_searches_route` and `list_audit_events_route`. -/
def listOrgScope (d : Deployment) (claims : Auth.Claims) : Handler (Option (List String)) :=
  if claims.role = Role.systemAdmin then return none
  else do
    let lookup ← userOrganizationIds d claims.id
    return orgScope claims.role lookup

section Scope

variable {d : Deployment} {claims : Auth.Claims} {α : Type} {org : α → Option String} {row : α}

/-- Without a scope everything is shown. -/
theorem meets_unscoped (backend : Backend) : meets (pushOrgScope backend org none) row = true := by
  cases backend with
  | postgres => rfl
  | sqlite => rfl

/-- Without a membership only what has no owner is. -/
theorem meets_noMembership (backend : Backend) :
    meets (pushOrgScope backend org (some [])) row = (org row).isNone := by
  cases backend with
  | postgres =>
      show meets [_] row = _
      unfold Cond.within
      rw [meets_singleton, Cond.holds_or, Cond.holds_isNull, Cond.holds_compare]
      cases org row with
      | none => rfl
      | some o => simp
  | sqlite => exact (meets_singleton _ row).trans (Cond.holds_isNull _ row)

/-- What has no owner is shown under every scope. -/
theorem meets_unowned (backend : Backend) (scope : Option (List String)) (hrow : org row = none) :
    meets (pushOrgScope backend org scope) row = true := by
  cases scope with
  | none => exact meets_unscoped backend
  | some ids =>
      cases backend with
      | postgres =>
          show meets [_] row = _
          rw [meets_singleton, Cond.holds_or, Cond.holds_isNull, hrow]
          rfl
      | sqlite =>
          rw [pushOrgScope, meets_orgScopeSqlite, hrow]
          rfl

/-- The gate by itself: one look-up, if there is one to make. -/
theorem listOrgScope_eq {key : Auth.Key} (hrole : claims.role ≠ Role.systemAdmin)
    (hkey : d.key claims.id.text = some key) :
    listOrgScope d claims =
      .call (.auth (.db (.userOrganizationIds key))) fun lookup => .done lookup.toOption := by
  unfold listOrgScope userOrganizationIds
  rw [if_neg hrole, hkey]
  refine congrArg (Program.call (Op.auth (.db (.userOrganizationIds key)))) (funext fun lookup => ?_)
  exact congrArg Program.done (if_neg hrole)

/-- A list is opened by a failing look-up exactly where somebody owns the row. -/
theorem listOrgScope_failsClosed (owner : Option String) (shown : Option (List String) → Bool)
    (hunscoped : shown none = true)
    (hnone : shown (some []) = owner.isNone)
    (hunowned : owner = none → ∀ scope, shown scope = true) :
    (listOrgScope d claims).FailsClosed (exec d) StatementsFail (fun scope => shown scope = true) ↔
      claims.role = Role.systemAdmin ∨ d.key claims.id.text = none ∨ owner = none := by
  by_cases hrole : claims.role = Role.systemAdmin
  · refine iff_of_true ?_ (Or.inl hrole)
    unfold listOrgScope
    rw [if_pos hrole]
    exact failsClosed_done none
  · cases hkey : d.key claims.id.text with
    | none =>
        refine iff_of_true ?_ (Or.inr (Or.inl rfl))
        unfold listOrgScope userOrganizationIds
        rw [if_neg hrole, hkey]
        exact failsClosed_done _
    | some key =>
        have hfailure : ∀ e s, StatementsFail e →
            (exec d (.auth (.db (.userOrganizationIds key))) e s).2 = .error .failed := by
          intro e s he
          rw [exec_auth, Auth.exec_db_of_fails s.auth he]
        rw [listOrgScope_eq hrole hkey, failsClosed_call hfailure statementsFail_exists]
        cases horg : owner with
        | none =>
            refine iff_of_true (fun _ e s _ => hunowned horg _) (Or.inr (Or.inr rfl))
        | some o =>
            refine iff_of_false (fun h => ?_) ?_
            · -- an actor without memberships
              have hshown := h hunscoped calm sampleDatabase calm_not_fails
              rw [exec_auth, Auth.exec_db_of_succeeds sampleDatabase.auth rfl] at hshown
              have hempty : shown (some []) = true := hshown
              rw [hnone, horg] at hempty
              cases hempty
            · intro h
              rcases h with h | h | h
              · exact hrole h
              · cases h
              · cases h

end Scope

/-- The audit list's other filters and its scope are separate conditions. -/
theorem meets_pushAuditFilter_scope (backend : Backend) (toRfc3339 : Instant → String)
    (filter : AuditEventFilter) (scope : Option (List String)) (row : StoredAuditEvent) :
    meets (pushAuditFilter backend toRfc3339 { filter with orgScope := scope }) row =
      (meets (pushAuditFilter backend toRfc3339 { filter with orgScope := none }) row &&
        meets (pushOrgScope backend (fun row : StoredAuditEvent => row.organizationId) scope)
          row) := by
  cases backend with
  | postgres =>
      show meets (pushAuditFilterPg _) row = (meets (pushAuditFilterPg _) row && _)
      unfold pushAuditFilterPg
      simp only [meets_append, meets_unscoped, Bool.and_true]
      rfl
  | sqlite =>
      show meets (pushAuditFilterSqlite _ _) row = (meets (pushAuditFilterSqlite _ _) row && _)
      unfold pushAuditFilterSqlite
      simp only [meets_append, meets_unscoped, Bool.and_true]
      rfl

/-! ## All gates -/

/-- An operator's claims. -/
def sampleOperator : Auth.Claims := ⟨1, "OP-1", "", Role.operator, 1111112009⟩

/-- A search that an organization owns. -/
def sampleOwned : SearchRow :=
  ⟨⟨"V-1", "ID", 1, "Ada Demir", none, none, 5, some (Uuid.text 1)⟩, 7, .queued, 10⟩

end AnatoliaBis.App
