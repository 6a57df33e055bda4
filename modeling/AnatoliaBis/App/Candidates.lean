import AnatoliaBis.App.Review

/-! # Candidates and searches

The routes of `candidates.rs` that write, and `search::create_search_route` up to
the moment the background search is started.
-/

namespace AnatoliaBis.App

open Atomic
open Auth (Headers trim requestId withActor)

/-! ## Organizations -/

/-- `db::user_organization_ids` of the user of an access token. -/
def userOrganizationIds (d : Deployment) (userId : Uuid) : Handler (Except DbError (List String)) :=
  match d.key userId.text with
  | none => return .ok []
  | some key => lift (Auth.query (.userOrganizationIds key))

/-- `db::primary_organization_id(…).ok().flatten()`. -/
def primaryOrganizationId (d : Deployment) (userId : Uuid) : Handler (Option String) := do
  match ← userOrganizationIds d userId with
  | .ok ids => return ids.head?
  | .error _ => return none

/-- `authorize_candidate_scope`. -/
def authorizeCandidateScope (d : Deployment) (claims : Auth.Claims) (candidate : CandidateRow) :
    Handler Bool := do
  match ← userOrganizationIds d claims.id with
  | .ok ids => return canViewScopedResource claims.role ids candidate.organizationId
  | .error _ => return canViewScopedResource claims.role [] candidate.organizationId

/-! ## Routes of a signed-in user -/

/-- The bearer token, and a policy it must meet, in front of a route. -/
def signedIn (headers : Headers) (policy : Policy) (route : Auth.Claims → Handler Reply) :
    Handler Reply := do
  match ← lift (Auth.authUserFromHeaders headers) with
  | none => return failure headers "UNAUTHORIZED" "errors.unauthorized"
  | some claims => if policy.allows claims.role then route claims else return forbidden headers

/-- `CreateCandidatePayload`. -/
structure CreateCandidatePayload where
  referenceCode : String
  fullName : String
  notes : Option String
  deriving Repr, DecidableEq

/-- `db::create_candidate`. On PostgreSQL an organization that is no UUID is
dropped, the column default draws the identifier, and `RETURNING` spares the
second statement. -/
def createCandidate (d : Deployment) (referenceCode fullName : String) (notes : Option String)
    (organizationId : Option String) : Handler (Except QueryError CandidateRow) := do
  let id ← perform (.auth .newId)
  match d.backend with
  | .postgres =>
      let row : CandidateRow := ⟨id, referenceCode, fullName, notes,
        (organizationId.bind Uuid.parseStr).map Uuid.text⟩
      match ← query (.createCandidate row) with
      | .error err => return .error err
      | .ok _ => return .ok row
  | .sqlite =>
      match ← query (.createCandidate ⟨id, referenceCode, fullName, notes, organizationId⟩) with
      | .error err => return .error err
      | .ok _ =>
          match ← query (.loadCandidateById (.text (Uuid.text id))) with
          | .ok (some row) => return .ok row
          -- `fetch_one` fails on no row
          | .ok none => return .error .failed
          | .error err => return .error err

/-- `candidates::create_candidate_route`. -/
def createCandidateRoute (d : Deployment) (headers : Headers) (payload : CreateCandidatePayload) :
    Handler Reply :=
  signedIn headers .manageCandidates fun claims =>
    let referenceCode := trim payload.referenceCode
    let fullName := trim payload.fullName
    if referenceCode = "" ∨ fullName = "" then return invalid headers
    else do
      let organizationId ← primaryOrganizationId d claims.id
      match ← createCandidate d referenceCode fullName payload.notes organizationId with
      | .ok candidate =>
          saveMandatory d headers (((withActor (recorder d headers "CANDIDATE_CREATED" "success")
            claims).resource "candidate" candidate.id.text).withMetadata
            (.object [("referenceCode", .string candidate.referenceCode)]))
            (json (.candidate candidate))
      | .error _ => return failure headers "CONFLICT" "errors.candidateReferenceCodeTaken"

/-- `db::load_candidate_by_id`. -/
def loadCandidateById (d : Deployment) (id : String) :
    Handler (Except QueryError (Option CandidateRow)) :=
  match d.key id with
  | none => return .ok none
  | some key => query (.loadCandidateById key)

/-! ## Templates -/

/-- `db::insert_template`. The candidate's column holds the id the path named. On
PostgreSQL the column default draws the identifier, and `RETURNING` spares the
second statement. -/
def insertTemplate (d : Deployment) (candidate : CandidateRow) (enrollment : EnrollmentResult) :
    Handler (Except QueryError (Option BiometricTemplateRow)) := do
  let id ← perform (.auth .newId)
  match ← query (.insertTemplate id candidate.id enrollment) with
  | .error err => return .error err
  | .ok row =>
      match d.backend with
      | .postgres => return .ok (some row)
      | .sqlite => query (.findTemplateById id)

/-- The answer to an enrollment: its close matches are best-effort. -/
def templateReply (d : Deployment) (candidateId : String) (template : BiometricTemplateRow) :
    Handler Reply := do
  match ← query (.listActiveTemplates template.modelName template.modelVersion) with
  | .ok rows =>
      return json (.template template (d.closeMatches
        (rows.filter fun row => row.candidateId.text != candidateId) template))
  | .error _ => return json (.template template [])

/-- `upload_reference_photo_route` once the image is sanitized. -/
def enrollReferencePhoto (d : Deployment) (headers : Headers) (claims : Auth.Claims)
    (candidateId : String) (candidate : CandidateRow) (bytes : List UInt8) : Handler Reply := do
  match ← perform (.enrollImage bytes) with
  | .error err => return failure headers err.codes.1 err.codes.2
  | .ok enrollment =>
      match ← insertTemplate d candidate enrollment with
      | .ok (some template) =>
          match ← lift (Auth.saveMandatory d.toPlatform (((withActor (recorder d headers
            "CANDIDATE_REFERENCE_PHOTO_ENROLLED" "success") claims).resource "candidate"
            candidateId).withMetadata (.object [("modelName", .string template.modelName),
              ("modelVersion", .string template.modelVersion),
              ("qualityScore", .number template.qualityScore),
              ("templateId", .string template.id.text)]))) with
          | .error err => return failure headers err.code err.messageKey
          | .ok _ => templateReply d candidateId template
      | _ => return internal headers

/-- `candidates::upload_reference_photo_route`; `image` is the last field of that
name, or nothing where reading the form failed. -/
def uploadReferencePhoto (d : Deployment) (headers : Headers) (candidateId : String)
    (image : Option (List UInt8)) : Handler Reply :=
  signedIn headers .manageCandidates fun claims => do
    match ← loadCandidateById d candidateId with
    | .error _ => return internal headers
    | .ok none => return notFound headers
    | .ok (some candidate) =>
        let authorized ← authorizeCandidateScope d claims candidate
        if !authorized then return forbidden headers
        else
          match image.filter (· ≠ []) with
          | none => return invalid headers
          | some bytes =>
              match d.sanitizeImage bytes with
              | .error err => return failure headers err.codes.1 err.codes.2
              | .ok bytes => enrollReferencePhoto d headers claims candidateId candidate bytes

/-- `db::revoke_template`. -/
def revokeTemplate (d : Deployment) (templateId : String) : Handler (Except QueryError Bool) :=
  match d.key templateId with
  | none => return .ok false
  | some key => query (.revokeTemplate key)

/-- `candidates::revoke_template_route`. -/
def revokeTemplateRoute (d : Deployment) (headers : Headers) (candidateId templateId : String) :
    Handler Reply :=
  signedIn headers .manageCandidates fun claims => do
    match ← loadCandidateById d candidateId with
    | .ok (some candidate) =>
        let authorized ← authorizeCandidateScope d claims candidate
        if !authorized then return forbidden headers
        else
          match ← revokeTemplate d templateId with
          | .ok true =>
              saveMandatory d headers (((withActor (recorder d headers
                "CANDIDATE_TEMPLATE_REVOKED" "success") claims).resource "candidate"
                candidateId).withMetadata (.object [("templateId", .string templateId)]))
                (json .revoked)
          | .ok false => return notFound headers
          | .error _ => return internal headers
    | _ => return notFound headers

/-! ## Searches -/

/-- The fields of the form of `create_search_route`. -/
structure SearchForm where
  caseReference : Option String
  purpose : Option String
  image : Option (List UInt8)
  latitude : Option Rat
  longitude : Option Rat
  topK : Option Int

/-- Both coordinates and in range, or none. -/
def SearchForm.coordinatesValid (form : SearchForm) : Bool :=
  match form.latitude, form.longitude with
  | some lat, some lon => decide (-90 ≤ lat ∧ lat ≤ 90 ∧ -180 ≤ lon ∧ lon ≤ 180)
  | none, none => true
  | _, _ => false

/-- `top_k`: within the configured limits. -/
def SearchForm.limitedTopK (d : Deployment) (form : SearchForm) : Int :=
  min ((form.topK.filter (0 < ·)).getD d.defaultTopK) d.maxTopK

/-- `db::create_queued_search`. On PostgreSQL an organization that is no UUID is
dropped, the column default draws the identifier, and `RETURNING` spares the
second statement. -/
def createQueuedSearch (d : Deployment) (search : NewSearch) :
    Handler (Except QueryError SearchRow) := do
  let id ← perform (.auth .newId)
  match d.backend with
  | .postgres => query (.createQueuedSearch id { search with
      organizationId := (search.organizationId.bind Uuid.parseStr).map Uuid.text })
  | .sqlite =>
      match ← query (.createQueuedSearch id search) with
      | .error err => return .error err
      | .ok _ =>
          match ← query (.findSearchById id) with
          | .ok (some row) => return .ok row
          | .ok none => return .error .failed
          | .error err => return .error err

/-- `create_search_route` once the form is checked. -/
def queueSearch (d : Deployment) (headers : Headers) (claims : Auth.Claims) (form : SearchForm)
    (caseReference purpose : String) : Handler Reply := do
  let name ← actingName d claims
  let organizationId ← primaryOrganizationId d claims.id
  let topK := form.limitedTopK d
  match ← createQueuedSearch d ⟨caseReference, purpose, claims.id, name, form.latitude,
    form.longitude, topK, organizationId⟩ with
  | .error _ =>
      save d { (withActor (recorder d headers "SEARCH_FAILED" "failure") claims).resource "search"
        "unknown" with caseReference := some caseReference }
      return internal headers
  | .ok queued =>
      save d { ((withActor (recorder d headers "SEARCH_CREATED" "success") claims).resource
        "search" queued.id.text).withMetadata (.object [("topK", .number (.ofInt topK))]) with
        caseReference := some caseReference }
      return ⟨202, .search queued d.autoOsint, none⟩

/-- `search::create_search_route`; `form` is nothing where reading it failed. -/
def createSearch (d : Deployment) (headers : Headers) (form : Option SearchForm) : Handler Reply :=
  signedIn headers .createSearch fun claims =>
    match form with
    | none => return invalid headers
    | some form =>
        let caseReference := trim (form.caseReference.getD "")
        let purpose := trim (form.purpose.getD "")
        match form.image.filter (· ≠ []) with
        | none => return invalid headers
        | some bytes =>
            match d.sanitizeImage bytes with
            | .error err => return failure headers err.codes.1 err.codes.2
            | .ok _ =>
                if caseReference = "" ∨ purpose = "" then return invalid headers
                else if !form.coordinatesValid then
                  return failure headers "VALIDATION_ERROR" "errors.invalidCoordinates"
                else queueSearch d headers claims form caseReference purpose

end AnatoliaBis.App
