import AnatoliaBis.App.Requests

/-! # The data of searches and evidence

What `search.rs`, `evidence.rs`, `entity_graph.rs` and `entity_resolution.rs` read
and write beyond the tables of reviews and enrollment: the progress of a search,
evidence items, and the relations recorded for a candidate.
-/

namespace AnatoliaBis.Cases

open Auth (Headers)

/-! ## Searches -/

/-- The columns of `searches` that are filled after a search is queued. -/
structure SearchProgress where
  startedAt : Option Timestamp
  completedAt : Option Timestamp
  failureCode : Option String
  failureMessageKey : Option String
  externalEvidenceStatus : Option String
  deriving Repr, DecidableEq

/-- The columns of a search that is queued. -/
def SearchProgress.queued : SearchProgress := ⟨none, none, none, none, none⟩

/-- `db::SearchRow`, the whole row of `searches`. -/
structure SearchRow extends App.SearchRow, SearchProgress
  deriving Repr, DecidableEq

/-! ## Evidence -/

/-- `osint::EvidenceDetail`. -/
structure EvidenceDetail where
  key : String
  params : Json.Value

/-- `osint::EvidenceItem`. -/
structure EvidenceItem where
  sourceType : String
  providerName : String
  title : String
  titleKey : Option String
  titleParams : Option Json.Value
  url : Option String
  snippet : Option String
  details : List EvidenceDetail
  confidence : Rat

/-- `osint::ProviderOutcome`. -/
structure ProviderOutcome where
  providerName : String
  items : List EvidenceItem
  error : Option String

/-- `db::EvidenceRow`. -/
structure EvidenceRow where
  id : Uuid
  candidateId : Uuid
  sourceType : String
  providerName : String
  title : String
  titleKey : Option String
  titleParams : Option String
  url : Option String
  snippet : Option String
  details : Option String
  confidenceScore : Rat
  collectedBy : Option Uuid
  createdAt : Timestamp
  deriving Repr, DecidableEq

/-- The text of `details`, if there are any: `serde_json::to_string` of the list. -/
def EvidenceItem.detailsText (item : EvidenceItem) : Option String :=
  if item.details.isEmpty then none
  else some ((Json.Value.array (item.details.map fun detail =>
    .object [("key", .string detail.key), ("params", detail.params)])).text Json.compact)

/-- The row of a `candidate_evidence` insert. -/
def EvidenceItem.row (item : EvidenceItem) (id candidateId : Uuid) (collectedBy : Option Uuid)
    (now : Timestamp) : EvidenceRow where
  id := id
  candidateId := candidateId
  sourceType := item.sourceType
  providerName := item.providerName
  title := item.title
  titleKey := item.titleKey
  titleParams := item.titleParams.map (·.text Json.compact)
  url := item.url
  snippet := item.snippet
  details := item.detailsText
  confidenceScore := item.confidence
  collectedBy := collectedBy
  createdAt := now

/-! ## Relations -/

namespace RelationType

def «alias» : String := "alias"
def username : String := "username"
def organization : String := "organization"
def website : String := "website"

/-- `relation_type::ALL`. -/
def all : List String := [«alias», username, organization, website]

end RelationType

/-- `is_valid_relation_type`. -/
def isValidRelationType (value : String) : Bool := RelationType.all.contains value

/-- `db::EntityRelationRow`. -/
structure EntityRelationRow where
  id : Uuid
  candidateId : Uuid
  relationType : String
  value : String
  evidenceId : Option Uuid
  addedBy : Option Uuid
  createdAt : Timestamp
  revokedAt : Option Timestamp
  deriving Repr, DecidableEq

/-- `entity_resolution::PossibleDuplicate`. -/
structure PossibleDuplicate where
  candidate : App.CandidateRow
  nameSimilarity : Rat
  sharedEvidenceUrls : List String
  matchedSignals : List String
  deriving Repr, DecidableEq

/-! ## Configuration and other crates -/

/-- What these handlers take from the configuration and from other crates. -/
structure Deployment extends App.Deployment where
  /-- `biometric_provider.search`: candidates and scores. -/
  searchFaces : App.Database → List UInt8 → Nat → Auth.Env →
    Except App.BiometricError (List (Uuid × Rat))
  /-- `osint_orchestrator.collect`: what the providers answer to a query. -/
  collectOutcomes : String → Auth.Env → List ProviderOutcome
  /-- The order of texts in the collation of the database. -/
  textLe : String → String → Bool
  /-- `strsim::jaro_winkler`. -/
  jaroWinkler : String → String → Rat

/-! ## Responses -/

/-- The fields of `candidate_json`. -/
structure CandidateItem where
  id : Uuid
  referenceCode : String
  fullName : String
  notes : Option String
  deriving Repr, DecidableEq

/-- `candidate_json`. -/
def candidateJson (candidate : App.CandidateRow) : CandidateItem :=
  ⟨candidate.id, candidate.referenceCode, candidate.fullName, candidate.notes⟩

/-- The fields of an item of `possible_duplicates_route`. -/
structure DuplicateItem where
  candidateId : Uuid
  referenceCode : String
  fullName : String
  nameSimilarity : Rat
  sharedEvidenceUrls : List String
  matchedSignals : List String
  deriving Repr, DecidableEq

/-- An item of `possible_duplicates_route`. -/
def PossibleDuplicate.json (m : PossibleDuplicate) : DuplicateItem :=
  ⟨m.candidate.id, m.candidate.referenceCode, m.candidate.fullName, m.nameSimilarity,
    m.sharedEvidenceUrls, m.matchedSignals⟩

/-- The bodies of the responses. -/
inductive Body where
  /-- An error, or a body of the routes of `App`. -/
  | app (body : App.Body)
  | searchStatus (search : SearchRow) (candidates : List App.SearchCandidateRow)
      (autoOsintEnabled : Bool)
  | search (search : SearchRow)
  | searchCandidates (candidates : List App.SearchCandidateRow)
  | candidate (candidate : CandidateItem)
  | templates (rows : List App.BiometricTemplateRow)
  | evidence (rows : List EvidenceRow)
  | collected (rows : List EvidenceRow) (providerErrors : List (String × String))
  | entityGraph (candidateId : Uuid) (rows : List EntityRelationRow)
  | relation (row : EntityRelationRow)
  | possibleDuplicates (items : List DuplicateItem)

structure Reply where
  status : Nat
  body : Body
  setCookie : Option Auth.SetCookie

/-- A response of the routes of `App`. -/
def Reply.ofApp (r : App.Reply) : Reply := ⟨r.status, .app r.body, r.setCookie⟩

/-- `Json(body).into_response()`. -/
def json (body : Body) : Reply := ⟨200, body, none⟩

/-- `ApiError::new(code, message_key, rid).into_response()`. -/
def failure (headers : Headers) (code messageKey : String) : Reply :=
  .ofApp (App.failure headers code messageKey)

def internal (headers : Headers) : Reply := .ofApp (App.internal headers)

def notFound (headers : Headers) : Reply := .ofApp (App.notFound headers)

def forbidden (headers : Headers) : Reply := .ofApp (App.forbidden headers)

def invalid (headers : Headers) : Reply := .ofApp (App.invalid headers)

end AnatoliaBis.Cases
