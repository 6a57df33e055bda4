import AnatoliaBis.App.Mediation
import AnatoliaBis.Org.Routes

/-! # Complete mediation

Requests to the whole application, handled side by side. Behind the gate of a route
nothing is read, written or sent before the request itself has looked at the clock and
found what the gate asks for.
-/

namespace AnatoliaBis.Org

open Atomic Program
open Auth (Env Gate Headers Sealed)

/-- The gate of a route. -/
def Request.gate : Request → Gate
  | .app request => request.gate
  | .createOrganization headers _ | .createUnit headers _ _ _ | .assignMembership headers _ _ _
  | .removeMembership headers _ _ => App.Policy.manageOrganizations.gate headers

/-- `Utc::now`. -/
def clock : Op := .app (.auth .utcNow)

/-- Requests handled at the same time on one database. -/
def requestPool {ι : Type} (d : App.Deployment) (requests : ι → Request) (s : Directory) :
    Pool ι Op Op.Res (Option Reply) Directory :=
  ⟨fun i => handle d (requests i), s⟩

section Guards

variable {d : App.Deployment} {headers : Headers} {route : Handler Reply}

theorem orgAdminOnly_guarded :
    (App.Policy.manageOrganizations.gate headers).Guards (exec d) clock
      (fun r => (App.Policy.manageOrganizations.gate headers).Refuses r.status)
      (orgAdminOnly headers route) [] := by
  apply Mediated.bind (App.requireRole_guarded.embed (appPart d) [])
  intro allowed h hallowed
  rw [if_neg (by rw [hallowed]; exact Bool.false_ne_true)]
  exact mediated_done App.refuses_forbidden

end Guards

/-- Every request is mediated by its gate. -/
theorem handle_guarded (d : App.Deployment) (request : Request) :
    request.gate.Guards (exec d) clock (fun answer => ∀ r ∈ answer, request.gate.Refuses r.status)
      (handle d request) [] := by
  cases request with
  | app request =>
      apply Mediated.map ((App.handle_guarded d request).embed (appPart d) [])
      intro answer hanswer r hr
      rcases Option.map_eq_some_iff.mp hr with ⟨reply, hreply, rfl⟩
      exact hanswer reply hreply
  | createOrganization headers name => exact Gate.Guards.some orgAdminOnly_guarded
  | createUnit headers organizationId name parentUnitId =>
      exact Gate.Guards.some orgAdminOnly_guarded
  | assignMembership headers userId organizationId organizationUnitId =>
      exact Gate.Guards.some orgAdminOnly_guarded
  | removeMembership headers userId organizationId =>
      exact Gate.Guards.some orgAdminOnly_guarded

end AnatoliaBis.Org
