import AnatoliaBis.App.Mediation
import AnatoliaBis.Cases.ReadIsolation
import AnatoliaBis.Cases.CandidateWrites

/-! # The gates in front of searches and candidates

Whoever reads a search, a candidate or its evidence, or writes any of them, shows an access
token first; the task of a search is started by the server itself.
-/

namespace AnatoliaBis.Cases

open Atomic Program
open Auth (Env Gate Headers Sealed)

/-! ## Requests -/

/-- A request about searches or candidates. -/
inductive CaseRequest where
  | search (request : SearchRequest)
  | read (headers : Headers) (request : CandidateRead)
  | write (headers : Headers) (request : CandidateWrite)

/-- The handler of a request. -/
def CaseRequest.handle (d : Deployment) : CaseRequest → Handler (Option Reply)
  | .search request => request.handle d
  | .read headers request => (request.handle d headers).map some
  | .write headers request => (request.handle d headers).map some

/-- The gate of a route. -/
def CaseRequest.gate : CaseRequest → Gate
  | .search (.runQueued _) => .open
  | .search (.status headers _) | .search (.search headers _) | .search (.candidates headers _)
  | .read headers _ => App.Policy.viewSearch.gate headers
  | .search (.review headers _ _ _) | .write headers (.review _ _ _) =>
      App.Policy.reviewCandidate.gate headers
  | .write headers _ => App.Policy.manageCandidates.gate headers

/-- `Utc::now`. -/
def clock : Op := .app (.auth .utcNow)

/-- Requests handled at the same time on one casebook. -/
def casePool {ι : Type} (d : Deployment) (requests : ι → CaseRequest) (s : Casebook) :
    Pool ι Op Op.Res (Option Reply) Casebook :=
  ⟨fun i => (requests i).handle d, s⟩

section Guards

variable {d : Deployment} {headers : Headers} {policy : App.Policy} {g : Gate}

theorem lift_guards {reply : App.Handler App.Reply} {h : List Step}
    (hreply : g.Guards (App.exec d.toDeployment) (.auth .utcNow) (fun r => g.Refuses r.status)
      reply []) :
    g.Guards (exec d) clock (fun r => g.Refuses r.status) ((lift reply).map Reply.ofApp) h :=
  Mediated.map (hreply.embed (appPart d) h) fun _ hr => hr

theorem signedIn_guards {route : Auth.Claims → Handler Reply} :
    (policy.gate headers).Guards (exec d) clock (fun r => (policy.gate headers).Refuses r.status)
      (signedIn headers policy route) [] := by
  apply Mediated.bind (App.authUserFromHeaders_guarded.embed (appPart d) [])
  intro found h hnone
  cases found with
  | none => exact mediated_done (Or.inl rfl)
  | some claims =>
      have hrefused := hnone claims rfl
      dsimp only
      rw [if_neg (by rw [hrefused]; exact Bool.false_ne_true)]
      exact mediated_done App.refuses_forbidden

theorem getCandidateRoute_guarded (id : String) :
    (App.Policy.viewSearch.gate headers).Guards (exec d) clock
      (fun r => (App.Policy.viewSearch.gate headers).Refuses r.status)
      (getCandidateRoute d headers id) [] := by
  apply Mediated.bind (App.authUserFromHeaders_guarded.embed (appPart d) [])
  intro found h _
  cases found with
  | none => exact mediated_done (Or.inl rfl)
  | some claims =>
      apply Mediated.bind (App.requireRole_guarded.embed (appPart d) h)
      intro allowed h hallowed
      rw [if_pos (by rw [hallowed]; rfl)]
      exact mediated_done App.refuses_forbidden

theorem read_guarded (request : CandidateRead) :
    (App.Policy.viewSearch.gate headers).Guards (exec d) clock
      (fun r => (App.Policy.viewSearch.gate headers).Refuses r.status)
      (request.handle d headers) [] := by
  cases request with
  | candidate id => exact getCandidateRoute_guarded id
  | templates candidateId => exact signedIn_guards
  | evidence candidateId => exact signedIn_guards
  | entityGraph candidateId => exact signedIn_guards
  | possibleDuplicates candidateId => exact signedIn_guards

end Guards

/-- Every request is mediated by its gate. -/
theorem handle_guarded (d : Deployment) (request : CaseRequest) :
    request.gate.Guards (exec d) clock (fun answer => ∀ r ∈ answer, request.gate.Refuses r.status)
      (request.handle d) [] := by
  cases request with
  | search request =>
      cases request with
      | runQueued task => exact Auth.open_guards _ _
      | status headers id => exact Gate.Guards.some signedIn_guards
      | search headers id => exact Gate.Guards.some signedIn_guards
      | candidates headers id => exact Gate.Guards.some signedIn_guards
      | review headers candidateId payload decision =>
          have hreply : (App.Policy.reviewCandidate.gate headers).Guards (App.exec d.toDeployment)
              (.auth .utcNow) (fun r => (App.Policy.reviewCandidate.gate headers).Refuses r.status)
              (App.review d.toDeployment headers candidateId payload decision) [] :=
            App.review_guarded candidateId payload decision
          have hreview := Gate.Guards.some (lift_guards (h := []) hreply)
          rw [map_map] at hreview
          exact hreview
  | read headers request => exact Gate.Guards.some (read_guarded request)
  | write headers request =>
      cases request with
      | review candidateId payload decision =>
          exact Gate.Guards.some (lift_guards (App.review_guarded candidateId payload decision))
      | uploadReferencePhoto candidateId image =>
          exact Gate.Guards.some (lift_guards App.signedIn_guarded)
      | collectEvidence candidateId query => exact Gate.Guards.some signedIn_guards
      | addEntityRelation candidateId relationType value =>
          exact Gate.Guards.some signedIn_guards
      | revokeTemplate candidateId templateId =>
          exact Gate.Guards.some (lift_guards App.signedIn_guarded)

/-- **Complete mediation.** However requests about searches and candidates overlap, none but
the task of a search reads, writes or asks a provider for anything, or is answered anything
but a refusal, before it has found a valid token of a role that its route allows. -/
theorem case_requests_sealed {ι : Type} [DecidableEq ι] (d : Deployment)
    (requests : ι → CaseRequest) (s : Casebook) (schedule : List (ι × Env)) :
    Sealed (exec d) clock (fun i => (requests i).gate) Reply.status
      ((casePool d requests s).log (exec d) schedule)
      ((casePool d requests s).after (exec d) schedule) :=
  Auth.sealed_of_guards (fun _ _ => rfl) (fun i => handle_guarded d (requests i)) schedule

end AnatoliaBis.Cases
