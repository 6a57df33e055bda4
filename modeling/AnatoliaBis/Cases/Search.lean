import AnatoliaBis.Cases.Store

/-! # Searches

`search::run_queued_search`, the background half of a search, and the routes that
read a search and its candidates.
-/

namespace AnatoliaBis.Cases

open Atomic
open Auth (Headers withActor withHeaders)
open App (QueryError)

/-! ## Looking up -/

/-- `db::load_search_by_id`. -/
def loadSearchById (d : Deployment) (id : String) :
    Handler (Except QueryError (Option SearchRow)) :=
  match d.key id with
  | none => return .ok none
  | some key => query (.loadSearchById key)

/-- `db::list_search_candidates`. -/
def listSearchCandidates (d : Deployment) (searchId : String) :
    Handler (Except QueryError (List App.SearchCandidateRow)) :=
  match d.key searchId with
  | none => return .ok []
  | some key => lift (App.query (.listSearchCandidates key))

/-- `search::actor_org_ids`. -/
def actorOrgIds (d : Deployment) (claims : Auth.Claims) : Handler (List String) := do
  if claims.role = App.Role.systemAdmin then return []
  else
    match ← lift (App.userOrganizationIds d.toDeployment claims.id) with
    | .ok ids => return ids
    | .error _ => return []

/-! ## The background task -/

/-- `db::finalize_queued_search`. -/
def finalizeQueuedSearch (d : Deployment) (searchId : Uuid) (scored : List (Uuid × Rat)) :
    Handler (Except QueryError (Option SearchRow)) :=
  match d.key searchId.text with
  | none => return .ok none
  | some _ => query (.finalizeQueuedSearch searchId scored)

/-- `db::mark_queued_search_failed`. On PostgreSQL `RETURNING` spares the second
statement. -/
def markQueuedSearchFailed (d : Deployment) (searchId : Uuid)
    (failureCode failureMessageKey : String) : Handler (Except QueryError (Option SearchRow)) :=
  match d.key searchId.text with
  | none => return .ok none
  | some key => do
      match d.backend with
      | .postgres => query (.markQueuedSearchFailed searchId failureCode failureMessageKey)
      | .sqlite =>
          match ← query (.markQueuedSearchFailed searchId failureCode failureMessageKey) with
          | .error err => return .error err
          | .ok _ => query (.loadSearchById key)

/-- What `create_search_route` hands to `run_queued_search`. -/
structure SearchTask where
  searchId : Uuid
  imageBytes : List UInt8
  topK : Int
  claims : Auth.Claims
  headers : Headers
  caseReference : String

/-- The audit event of a task, under the request id `rid` of its own. -/
def SearchTask.recorder (d : Deployment) (task : SearchTask) (rid : Uuid) (action result : String)
    (searchId : Uuid) : Audit.AuditRecorder :=
  { (withHeaders d.toPlatform (withActor (Audit.AuditRecorder.new action result rid.text)
      task.claims) task.headers).resource "search" searchId.text with
    caseReference := some task.caseReference }

/-- `run_queued_search` from the outcome of the finalization on, up to the phase of
external evidence, which starts only once the audit event is stored. -/
def concludeSearch (d : Deployment) (task : SearchTask) (rid : Uuid) :
    Except QueryError (Option SearchRow) → Handler Unit
  | .ok (some search) => do
      let candidateCount :=
        match ← listSearchCandidates d search.id.text with
        | .ok rows => rows.length
        | .error _ => 0
      match ← lift (App.lift (Auth.saveMandatory d.toPlatform
        ((task.recorder d rid "SEARCH_COMPLETED" "success" search.id).withMetadata
          (.object [("candidateCount", .number (.ofInt candidateCount)),
            ("topK", .number (.ofInt task.topK))])))) with
      | .ok _ => return ()
      | .error _ =>
          let _ ← markQueuedSearchFailed d search.id "AUDIT_WRITE_FAILED" "errors.auditWriteFailed"
          return ()
  | .ok none => return ()
  | .error _ => do
      let _ ← markQueuedSearchFailed d task.searchId "SEARCH_PERSIST_FAILED" "errors.internal"
      lift (App.save d.toDeployment (task.recorder d rid "SEARCH_FAILED" "failure" task.searchId))

/-- `search::run_queued_search`. -/
def runQueuedSearch (d : Deployment) (task : SearchTask) : Handler Unit := do
  let rid ← perform (.app (.auth .newId))
  match ← perform (.searchFaces task.imageBytes (task.topK % 2 ^ 64).toNat) with
  | .error err =>
      let _ ← markQueuedSearchFailed d task.searchId err.codes.1 err.codes.2
      lift (App.save d.toDeployment ((task.recorder d rid "SEARCH_FAILED" "failure"
        task.searchId).withMetadata (.object [("failureCode", .string err.codes.1)])))
  | .ok scored =>
      let outcome ← finalizeQueuedSearch d task.searchId scored
      concludeSearch d task rid outcome

/-! ## Routes -/

/-- The bearer token, and a policy it must meet, in front of a route. -/
def signedIn (headers : Headers) (policy : App.Policy) (route : Auth.Claims → Handler Reply) :
    Handler Reply := do
  match ← lift (App.lift (Auth.authUserFromHeaders headers)) with
  | none => return failure headers "UNAUTHORIZED" "errors.unauthorized"
  | some claims => if policy.allows claims.role then route claims else return forbidden headers

/-- A search that the actor may see, in front of a route. -/
def withSearch (d : Deployment) (headers : Headers) (claims : Auth.Claims) (id : String)
    (route : SearchRow → Handler Reply) : Handler Reply := do
  match ← loadSearchById d id with
  | .error _ => return internal headers
  | .ok none => return notFound headers
  | .ok (some search) =>
      let orgIds ← actorOrgIds d claims
      if App.canViewScopedResource claims.role orgIds search.organizationId then route search
      else return forbidden headers

/-- `search::get_search_status_route`. -/
def getSearchStatusRoute (d : Deployment) (headers : Headers) (id : String) : Handler Reply :=
  signedIn headers .viewSearch fun claims =>
    withSearch d headers claims id fun search => do
      match ← listSearchCandidates d search.id.text with
      | .error _ => return internal headers
      | .ok rows => return json (.searchStatus search rows d.autoOsint)

/-- `search::get_search_route`. -/
def getSearchRoute (d : Deployment) (headers : Headers) (id : String) : Handler Reply :=
  signedIn headers .viewSearch fun claims =>
    withSearch d headers claims id fun search => return json (.search search)

/-- `search::get_search_candidates_route`. -/
def getSearchCandidatesRoute (d : Deployment) (headers : Headers) (id : String) : Handler Reply :=
  signedIn headers .viewSearch fun claims =>
    withSearch d headers claims id fun _ => do
      match ← listSearchCandidates d id with
      | .error _ => return internal headers
      | .ok rows => return json (.searchCandidates rows)

/-- `search::get_candidate_route`: the bearer token is decoded twice. -/
def getCandidateRoute (d : Deployment) (headers : Headers) (id : String) : Handler Reply := do
  match ← lift (App.lift (Auth.authUserFromHeaders headers)) with
  | none => return failure headers "UNAUTHORIZED" "errors.unauthorized"
  | some _ =>
      let allowed ← lift (App.requireRole headers .viewSearch)
      if !allowed then return forbidden headers
      else
        match ← lift (App.loadCandidateById d.toDeployment id) with
        | .error _ => return internal headers
        | .ok none => return notFound headers
        | .ok (some candidate) => return json (.candidate (candidateJson candidate))

/-! ## Work on searches -/

/-- A background task, or a request about a search. -/
inductive SearchRequest where
  | runQueued (task : SearchTask)
  | status (headers : Headers) (id : String)
  | search (headers : Headers) (id : String)
  | candidates (headers : Headers) (id : String)
  | review (headers : Headers) (candidateId : String) (payload : App.ReviewPayload)
      (decision : App.Decision)

/-- The handler of a request; a task answers nobody. -/
def SearchRequest.handle (d : Deployment) : SearchRequest → Handler (Option Reply)
  | .runQueued task => (runQueuedSearch d task).map fun _ => none
  | .status headers id => (getSearchStatusRoute d headers id).map some
  | .search headers id => (getSearchRoute d headers id).map some
  | .candidates headers id => (getSearchCandidatesRoute d headers id).map some
  | .review headers candidateId payload decision =>
      (lift (App.review d.toDeployment headers candidateId payload decision)).map
        fun reply => some (.ofApp reply)

/-- Tasks and requests, handled at the same time on one database. -/
def searchPool {ι : Type} (d : Deployment) (requests : ι → SearchRequest) (s : Casebook) :
    Pool ι Op Op.Res (Option Reply) Casebook :=
  ⟨fun i => (requests i).handle d, s⟩

/-! ## A casebook for examples

One search is queued, and the provider ranks one candidate. -/

def sampleDeployment (backend : Backend) : Deployment where
  toDeployment := App.sampleDeployment backend
  searchFaces _ _ _ _ := .ok [(0xab, 9 / 10)]
  collectOutcomes _ _ := []
  textLe a b := decide (a ≤ b)
  jaroWinkler a b := if a = b then 1 else 0

def sampleSearch : App.SearchRow where
  caseReference := "CASE-1"
  purpose := "identification"
  requestedBy := 1
  requestedByName := "Deniz Kaya"
  latitude := none
  longitude := none
  topK := 5
  organizationId := none
  id := 8
  status := .queued
  createdAt := Timestamp.seconds 1111111100

def sampleCasebook : Casebook where
  app := { App.sampleDatabase with searches := [sampleSearch] }
  progress := fun _ => .queued
  evidence := []
  relations := []

/-- The task of that search. -/
def sampleTask : SearchTask :=
  ⟨8, [], 5, ⟨1, "OP-1", "", "OPERATOR", 1111112009⟩, Auth.sampleHeaders, "CASE-1"⟩

end AnatoliaBis.Cases
