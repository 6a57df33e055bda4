import AnatoliaBis.Cases.Search

/-! # Candidates and what is known of them

The routes of `candidates.rs`, `evidence.rs` and `entity_graph.rs` about one
candidate: its templates, its evidence, the relations recorded for it, and the
candidates it may be a duplicate of.
-/

namespace AnatoliaBis.Cases

open Atomic
open Auth (Headers trim withActor)
open App (QueryError)

/-- The `?` operator. -/
def andThen {α β : Type} (h : Handler (Except QueryError α))
    (f : α → Handler (Except QueryError β)) : Handler (Except QueryError β) := do
  match ← h with
  | .error err => return .error err
  | .ok a => f a

/-! ## Rows of a candidate -/

/-- `db::list_templates_for_candidate`. -/
def listTemplatesForCandidate (d : Deployment) (candidateId : String) :
    Handler (Except QueryError (List App.BiometricTemplateRow)) :=
  match d.key candidateId with
  | none => return .ok []
  | some key => query (.listTemplatesForCandidate key)

/-- `db::list_evidence_for_candidate`. -/
def listEvidenceForCandidate (d : Deployment) (candidateId : String) :
    Handler (Except QueryError (List EvidenceRow)) :=
  match d.key candidateId with
  | none => return .ok []
  | some key => query (.listEvidenceForCandidate key)

/-- `db::list_relations_for_candidate`. -/
def listRelationsForCandidate (d : Deployment) (candidateId : String) :
    Handler (Except QueryError (List EntityRelationRow)) :=
  match d.key candidateId with
  | none => return .ok []
  | some key => query (.listRelationsForCandidate key)

/-- `db::insert_evidence_row`. On PostgreSQL the column default draws the identifier,
and `RETURNING` spares the second statement. -/
def insertEvidenceRow (d : Deployment) (candidateId : Uuid) (item : EvidenceItem)
    (collectedBy : Option Uuid) : Handler (Except QueryError (Option EvidenceRow)) :=
  match d.key candidateId.text with
  | none => return .ok none
  | some _ => do
      let id ← perform (.app (.auth .newId))
      match ← query (.insertEvidenceRow id candidateId item collectedBy) with
      | .error err => return .error err
      | .ok row =>
          match d.backend with
          | .postgres => return .ok (some row)
          | .sqlite => query (.findEvidenceById id)

/-- `db::insert_relation`, likewise. -/
def insertRelation (d : Deployment) (candidateId : Uuid) (relationType value : String)
    (evidenceId addedBy : Option Uuid) : Handler (Except QueryError (Option EntityRelationRow)) :=
  match d.key candidateId.text with
  | none => return .ok none
  | some _ => do
      let id ← perform (.app (.auth .newId))
      match ← query (.insertRelation id candidateId relationType value evidenceId addedBy) with
      | .error err => return .error err
      | .ok row =>
          match d.backend with
          | .postgres => return .ok (some row)
          | .sqlite => query (.findRelationById id)

/-- `db::insert_evidence`: a `website` relation for an item with a URL, best-effort. -/
def insertEvidence (d : Deployment) (candidateId : Uuid) (item : EvidenceItem)
    (collectedBy : Option Uuid) : Handler (Except QueryError (Option EvidenceRow)) :=
  andThen (insertEvidenceRow d candidateId item collectedBy) fun row => do
    match row, item.url with
    | some stored, some url =>
        let _ ← insertRelation d candidateId RelationType.website url (some stored.id) collectedBy
        return .ok row
    | _, _ => return .ok row

/-! ## Collecting evidence -/

/-- `str::to_ascii_lowercase`. -/
def toAsciiLowercase (s : String) : String := s.map Char.toLower

/-- `str::trim_end_matches`. -/
def trimEndMatches (c : Char) (s : String) : String :=
  String.ofList (s.toList.reverse.dropWhile (· == c)).reverse

/-- `evidence::dedupe_key`. -/
def dedupeKey (url : Option String) (title : String) : String :=
  match url.filter fun url => trim url ≠ "" with
  | some url => "url:" ++ trimEndMatches '/' (toAsciiLowercase (trim url))
  | none => "title:" ++ toAsciiLowercase (trim title)

/-- `CollectedEvidence`. -/
structure CollectedEvidence where
  stored : List EvidenceRow
  providerErrors : List (String × String)

/-- The items of one provider: what is stored of them, and the keys seen by then. -/
def storeItems (d : Deployment) (candidateId : Uuid) (collectedBy : Option Uuid) :
    List EvidenceItem → List (String × String) →
      Handler (List EvidenceRow × List (String × String))
  | [], seen => return ([], seen)
  | item :: items, seen =>
      let key := (item.providerName, dedupeKey item.url item.title)
      if key ∈ seen then storeItems d candidateId collectedBy items seen
      else do
        let inserted ← insertEvidence d candidateId item collectedBy
        let (stored, seen') ← storeItems d candidateId collectedBy items (key :: seen)
        match inserted with
        | .ok (some row) => return (row :: stored, seen')
        | _ => return (stored, seen')

/-- The loop over the outcomes of `collect_and_store_candidate_evidence`. -/
def storeOutcomes (d : Deployment) (candidateId : Uuid) (collectedBy : Option Uuid) :
    List ProviderOutcome → List (String × String) → Handler CollectedEvidence
  | [], _ => return ⟨[], []⟩
  | outcome :: outcomes, seen =>
      match outcome.error with
      | some error => do
          let rest ← storeOutcomes d candidateId collectedBy outcomes seen
          return ⟨rest.stored, (outcome.providerName, error) :: rest.providerErrors⟩
      | none => do
          let (stored, seen') ← storeItems d candidateId collectedBy outcome.items seen
          let rest ← storeOutcomes d candidateId collectedBy outcomes seen'
          return ⟨stored ++ rest.stored, rest.providerErrors⟩

/-- `evidence::collect_and_store_candidate_evidence`. -/
def collectAndStoreCandidateEvidence (d : Deployment) (candidateId : Uuid)
    (collectedBy : Option Uuid) (outcomes : List ProviderOutcome) : Handler CollectedEvidence := do
  let existing :=
    match ← listEvidenceForCandidate d candidateId.text with
    | .ok rows => rows
    | .error _ => []
  storeOutcomes d candidateId collectedBy outcomes
    (existing.map fun row => (row.providerName, dedupeKey row.url row.title))

/-! ## Routes that write -/

/-- A candidate that the actor may see, in front of a route. -/
def inScope (d : Deployment) (headers : Headers) (claims : Auth.Claims)
    (candidate : App.CandidateRow) (route : Handler Reply) : Handler Reply := do
  let authorized ← lift (App.authorizeCandidateScope d.toDeployment claims candidate)
  if !authorized then return forbidden headers else route

/-- The candidate of a path, not found where the look-up fails. -/
def withCandidate (d : Deployment) (headers : Headers) (claims : Auth.Claims)
    (candidateId : String) (route : App.CandidateRow → Handler Reply) : Handler Reply := do
  match ← lift (App.loadCandidateById d.toDeployment candidateId) with
  | .ok (some candidate) => inScope d headers claims candidate (route candidate)
  | _ => return notFound headers

/-- The errors of the providers, as JSON. -/
def providerErrorsJson (providerErrors : List (String × String)) : Json.Value :=
  .array (providerErrors.map fun (provider, error) =>
    .object [("error", .string error), ("provider", .string provider)])

/-- `evidence::collect_evidence_route`. -/
def collectEvidenceRoute (d : Deployment) (headers : Headers) (candidateId query : String) :
    Handler Reply :=
  signedIn headers .manageCandidates fun claims => do
    match ← lift (App.loadCandidateById d.toDeployment candidateId) with
    | .error _ => return internal headers
    | .ok none => return notFound headers
    | .ok (some candidate) => inScope d headers claims candidate <|
        let query := trim query
        if query = "" then return invalid headers
        else do
          let outcomes ← perform (.collectOutcomes query)
          let collected ← collectAndStoreCandidateEvidence d candidate.id (some claims.id) outcomes
          lift (App.save d.toDeployment (((withActor (App.recorder d.toDeployment headers
            "CANDIDATE_EVIDENCE_COLLECTED" "success") claims).resource "candidate"
            candidateId).withMetadata (.object
              [("itemsStored", .number (.ofInt collected.stored.length)),
                ("providerErrors", providerErrorsJson collected.providerErrors),
                ("query", .string query)])))
          return json (.collected collected.stored collected.providerErrors)

/-- `entity_graph::add_entity_relation_route`. -/
def addEntityRelationRoute (d : Deployment) (headers : Headers)
    (candidateId relationType value : String) : Handler Reply :=
  signedIn headers .manageCandidates fun claims =>
    withCandidate d headers claims candidateId fun candidate =>
      let relationType := d.toLowercase (trim relationType)
      let value := trim value
      if !isValidRelationType relationType || value = "" then return invalid headers
      else do
        match ← insertRelation d candidate.id relationType value none (some claims.id) with
        | .ok (some row) =>
            lift (App.save d.toDeployment (((withActor (App.recorder d.toDeployment headers
              "CANDIDATE_ENTITY_RELATION_ADDED" "success") claims).resource "candidate"
              candidateId).withMetadata (.object [("relationType", .string relationType),
                ("value", .string value)])))
            return json (.relation row)
        | .ok none => return notFound headers
        | .error _ => return internal headers

/-! ## Routes that read -/

/-- `candidates::list_templates_route`. -/
def listTemplatesRoute (d : Deployment) (headers : Headers) (candidateId : String) :
    Handler Reply :=
  signedIn headers .viewSearch fun claims =>
    withCandidate d headers claims candidateId fun _ => do
      match ← listTemplatesForCandidate d candidateId with
      | .ok rows => return json (.templates rows)
      | .error _ => return internal headers

/-- `evidence::list_evidence_route`. -/
def listEvidenceRoute (d : Deployment) (headers : Headers) (candidateId : String) :
    Handler Reply :=
  signedIn headers .viewSearch fun claims =>
    withCandidate d headers claims candidateId fun _ => do
      match ← listEvidenceForCandidate d candidateId with
      | .ok rows => return json (.evidence rows)
      | .error _ => return internal headers

/-- `entity_graph::entity_graph_route`. -/
def entityGraphRoute (d : Deployment) (headers : Headers) (candidateId : String) :
    Handler Reply :=
  signedIn headers .viewSearch fun claims =>
    withCandidate d headers claims candidateId fun candidate => do
      match ← listRelationsForCandidate d candidateId with
      | .ok rows => return json (.entityGraph candidate.id rows)
      | .error _ => return internal headers

/-! ## Possible duplicates -/

/-- `str::split_whitespace`. -/
def splitWhitespace (s : String) : List String :=
  ((s.toList.splitOnP Auth.isWhitespace).filter (· ≠ [])).map String.ofList

/-- `entity_resolution::normalize`. -/
def normalize (d : Deployment) (value : String) : String :=
  d.toLowercase (" ".intercalate (splitWhitespace value))

/-- `entity_resolution::relation_values`. -/
def relationValues (d : Deployment) (candidateId relationType : String) :
    Handler (Except QueryError (List String)) :=
  andThen (listRelationsForCandidate d candidateId) fun rows =>
    return .ok ((rows.filter fun row => row.relationType == relationType).map fun row =>
      normalize d row.value)

/-- What a candidate is compared by. -/
structure Signals where
  urls : List String
  aliases : List String
  usernames : List String
  organizations : List String
  deriving Repr, DecidableEq

/-- The look-ups of `find_possible_duplicates` for one candidate. -/
def signalsOf (d : Deployment) (candidateId : String) : Handler (Except QueryError Signals) :=
  andThen (listEvidenceForCandidate d candidateId) fun evidence =>
    andThen (relationValues d candidateId RelationType.alias) fun aliases =>
      andThen (relationValues d candidateId RelationType.username) fun usernames =>
        andThen (relationValues d candidateId RelationType.organization) fun organizations =>
          return .ok ⟨evidence.filterMap (·.url), aliases, usernames, organizations⟩

/-- The signals of `entity_resolution::signal` that fire. -/
def matchedSignals (threshold similarity : Rat) (target other : Signals) : List String :=
  (if threshold ≤ similarity then ["name_similarity"] else []) ++
    (if other.urls.any target.urls.contains then ["shared_evidence_url"] else []) ++
    (if target.aliases.any other.aliases.contains then ["shared_alias"] else []) ++
    (if target.usernames.any other.usernames.contains then ["shared_username"] else []) ++
    (if target.organizations.any other.organizations.contains then ["shared_organization"] else [])

/-- What is reported of another candidate, if anything. -/
def compareCandidate (d : Deployment) (threshold : Rat) (targetName : String) (target : Signals)
    (candidate : App.CandidateRow) (other : Signals) : Option PossibleDuplicate :=
  let similarity := d.jaroWinkler targetName (normalize d candidate.fullName)
  let signals := matchedSignals threshold similarity target other
  if signals = [] then none
  else some ⟨candidate, similarity, other.urls.filter target.urls.contains, signals⟩

/-- The loop of `find_possible_duplicates` over all candidates. -/
def compareAll (d : Deployment) (threshold : Rat) (targetId : Uuid) (targetName : String)
    (target : Signals) : List App.CandidateRow → Handler (Except QueryError (List PossibleDuplicate))
  | [] => return .ok []
  | candidate :: candidates =>
      if candidate.id = targetId then compareAll d threshold targetId targetName target candidates
      else
        andThen (signalsOf d candidate.id.text) fun other =>
          andThen (compareAll d threshold targetId targetName target candidates) fun rest =>
            return .ok ((compareCandidate d threshold targetName target candidate other).toList ++
              rest)

/-- `entity_resolution::find_possible_duplicates`. -/
def findPossibleDuplicates (d : Deployment) (candidateId : String) (threshold : Rat) :
    Handler (Except QueryError (List PossibleDuplicate)) :=
  andThen (lift (App.loadCandidateById d.toDeployment candidateId)) fun found =>
    match found with
    | none => return .ok []
    | some target =>
        andThen (query .listCandidates) fun candidates =>
          andThen (signalsOf d candidateId) fun signals =>
            andThen (compareAll d threshold target.id (normalize d target.fullName) signals
              candidates) fun duplicates =>
              return .ok (duplicates.mergeSort fun a b =>
                decide (b.nameSimilarity ≤ a.nameSimilarity))

/-- `DEFAULT_NAME_SIMILARITY_THRESHOLD`. -/
def defaultNameSimilarityThreshold : Rat := 9 / 10

/-- `candidates::possible_duplicates_route`. -/
def possibleDuplicatesRoute (d : Deployment) (headers : Headers) (candidateId : String) :
    Handler Reply :=
  signedIn headers .viewSearch fun claims =>
    withCandidate d headers claims candidateId fun _ => do
      match ← findPossibleDuplicates d candidateId defaultNameSimilarityThreshold with
      | .ok duplicates => return json (.possibleDuplicates (duplicates.map (·.json)))
      | .error _ => return internal headers

end AnatoliaBis.Cases
