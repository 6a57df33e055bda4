import AnatoliaBis.App.Requests
import AnatoliaBis.Auth.Mediation

/-! # The gates of the application

What the routes of administration, review and enrollment ask for. The routes of
authentication bring their own gates; registration and the mailed links have none.
-/

namespace AnatoliaBis.App

open Atomic Program
open Auth (Gate Headers)

/-! ## Gates -/

/-- An access token of a role that meets the policy. -/
def Policy.gate (policy : Policy) (headers : Headers) : Gate := .bearer headers policy.allows

/-- The gate of a route. -/
def Request.gate : Request → Gate
  | .auth request => request.gate
  | .register .. | .resetPassword .. | .quickApprove .. | .quickReject .. => .open
  | .approveUser headers _ | .rejectUser headers _ | .banUser headers _ _ | .unbanUser headers _
  | .changeRole headers _ _ | .deleteUser headers _ | .createUser headers _
  | .updateUser headers _ _ => Policy.administerUsers.gate headers
  | .review headers _ _ _ => Policy.reviewCandidate.gate headers
  | .createCandidate headers _ | .uploadReferencePhoto headers _ _
  | .revokeTemplate headers _ _ => Policy.manageCandidates.gate headers
  | .createSearch headers _ => Policy.createSearch.gate headers

section Guards

variable {d : Deployment} {α : Type} {h : List Step} {headers : Headers} {policy : Policy}

/-- Without a token that meets the policy, none is returned that does. -/
theorem authUserFromHeaders_guarded :
    (policy.gate headers).Guards (exec d) (.auth .utcNow)
      (fun found => ∀ c ∈ found, policy.allows c.role = false)
      (lift (Auth.authUserFromHeaders headers)) h :=
  Auth.authUserFromHeaders_guarded.embed (authPart d) h

theorem requireRole_guarded :
    (policy.gate headers).Guards (exec d) (.auth .utcNow) (fun allowed => allowed = false)
      (requireRole headers policy) h := by
  unfold requireRole
  apply Mediated.bind authUserFromHeaders_guarded
  intro found h hnone
  apply mediated_done
  cases found with
  | none => rfl
  | some claims => exact hnone claims rfl

/-- The refusals of these routes. -/
theorem refuses_forbidden : (policy.gate headers).Refuses (forbidden headers).status := Or.inr rfl

theorem adminOnly_guarded {route : Handler Reply} :
    (Policy.administerUsers.gate headers).Guards (exec d) (.auth .utcNow)
      (fun r => (Policy.administerUsers.gate headers).Refuses r.status)
      (adminOnly headers route) [] := by
  apply Mediated.bind requireRole_guarded
  intro allowed h hallowed
  rw [if_neg (by rw [hallowed]; exact Bool.false_ne_true)]
  exact mediated_done refuses_forbidden

theorem signedIn_guarded {route : Auth.Claims → Handler Reply} :
    (policy.gate headers).Guards (exec d) (.auth .utcNow)
      (fun r => (policy.gate headers).Refuses r.status) (signedIn headers policy route) [] := by
  apply Mediated.bind authUserFromHeaders_guarded
  intro found h hnone
  cases found with
  | none => exact mediated_done (Or.inl rfl)
  | some claims =>
      have hrefused := hnone claims rfl
      dsimp only
      rw [if_neg (by rw [hrefused]; exact Bool.false_ne_true)]
      exact mediated_done refuses_forbidden

/-- A review looks at the token twice. -/
theorem review_guarded (candidateId : String) (payload : ReviewPayload) (decision : Decision) :
    (Policy.reviewCandidate.gate headers).Guards (exec d) (.auth .utcNow)
      (fun r => (Policy.reviewCandidate.gate headers).Refuses r.status)
      (review d headers candidateId payload decision) [] := by
  apply Mediated.bind authUserFromHeaders_guarded
  intro found h _
  cases found with
  | none => exact mediated_done (Or.inl rfl)
  | some claims =>
      apply Mediated.bind requireRole_guarded
      intro allowed h hallowed
      rw [if_neg (by rw [hallowed]; exact Bool.false_ne_true)]
      exact mediated_done refuses_forbidden

end Guards

/-- Every request is mediated by its gate. -/
theorem handle_guarded (d : Deployment) (request : Request) :
    request.gate.Guards (exec d) (.auth .utcNow)
      (fun answer => ∀ r ∈ answer, request.gate.Refuses r.status) (handle d request) [] := by
  cases request with
  | auth request =>
      apply Mediated.map ((Auth.handle_guarded d.toPlatform request).embed (authPart d) [])
      intro answer hanswer r hr
      rcases Option.map_eq_some_iff.mp hr with ⟨response, hresponse, rfl⟩
      exact hanswer response hresponse
  | register headers payload => exact Auth.open_guards _ _
  | resetPassword headers token newPassword => exact Auth.open_guards _ _
  | quickApprove headers token => exact Auth.open_guards _ _
  | quickReject headers token => exact Auth.open_guards _ _
  | approveUser headers id => exact Gate.Guards.some adminOnly_guarded
  | rejectUser headers id => exact Gate.Guards.some adminOnly_guarded
  | banUser headers id reason => exact Gate.Guards.some adminOnly_guarded
  | unbanUser headers id => exact Gate.Guards.some adminOnly_guarded
  | changeRole headers id role => exact Gate.Guards.some adminOnly_guarded
  | deleteUser headers id => exact Gate.Guards.some adminOnly_guarded
  | createUser headers payload => exact Gate.Guards.some adminOnly_guarded
  | updateUser headers id payload => exact Gate.Guards.some adminOnly_guarded
  | review headers candidateId payload decision =>
      exact Gate.Guards.some (review_guarded candidateId payload decision)
  | createCandidate headers payload => exact Gate.Guards.some signedIn_guarded
  | uploadReferencePhoto headers candidateId image => exact Gate.Guards.some signedIn_guarded
  | revokeTemplate headers candidateId templateId => exact Gate.Guards.some signedIn_guarded
  | createSearch headers form => exact Gate.Guards.some signedIn_guarded

end AnatoliaBis.App
