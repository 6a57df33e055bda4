import AnatoliaBis.App.Admin

/-! # Reviews

`db::record_review_decision` and the review routes of `search.rs`.
-/

namespace AnatoliaBis.App

open Atomic
open Auth (Headers trim requestId withActor)

/-- `db::ReviewDecisionOutcome`. -/
inductive ReviewDecisionOutcome where
  | applied (row : SearchCandidateRow)
  | notFound
  | sameReviewerForbidden
  deriving Repr, DecidableEq

/-- `ReviewPayload`. -/
structure ReviewPayload where
  searchId : String
  reason : Option String
  notes : Option String
  deriving Repr, DecidableEq

/-- The end of `record_review_decision`: the row read back after the commit, and
looked for by the text of the candidate's id. -/
def rereadRow (searchKey : Auth.Key) (candidateId : String) :
    Handler (Except QueryError ReviewDecisionOutcome) := do
  match ← query (.listSearchCandidates searchKey) with
  | .error err => return .error err
  | .ok rows =>
      match rows.find? fun row => row.candidateId.text == candidateId with
      | some row => return .ok (.applied row)
      | none => return .ok .notFound

/-- `db::record_review_decision`. The reviewer is the user of an access token, so
its id always parses. -/
def recordReviewDecision (d : Deployment) (searchId candidateId : String) (decision : Decision)
    (reviewedBy : Uuid) (reviewedByName : String) (reason notes : Option String)
    (requestId : String) : Handler (Except QueryError ReviewDecisionOutcome) :=
  match d.key searchId, d.key candidateId with
  | some searchKey, some candidateKey => do
      let eventId ← perform (.auth .newId)
      match ← query (.recordReviewDecision ⟨searchKey, candidateKey, decision, reviewedBy,
        reviewedByName, reason, notes, requestId, eventId, d.requireSecondReview⟩) with
      | .error err => return .error err
      | .ok .notFound => return .ok .notFound
      | .ok .sameReviewer => return .ok .sameReviewerForbidden
      | .ok .stored => rereadRow searchKey candidateId
  | _, _ => return .ok .notFound

/-- The audit action of a decision that left the row in this status. -/
def reviewAction (decision : Decision) (status : ReviewStatus) : String :=
  match decision with
  | .inconclusive => "CANDIDATE_MARKED_INCONCLUSIVE"
  | .confirmed =>
      if status = .needsSecondReview then "CANDIDATE_FIRST_REVIEW_RECORDED"
      else "CANDIDATE_CONFIRMED"
  | .rejected =>
      if status = .needsSecondReview then "CANDIDATE_FIRST_REVIEW_RECORDED"
      else "CANDIDATE_REJECTED"

/-- The metadata of a review's audit event. -/
def reviewMetadata (candidateId : String) (payload : ReviewPayload) : Json.Value :=
  .object [("candidateId", .string candidateId), ("searchId", .string payload.searchId)]

/-- The name a signed-in user acts under. -/
def actingName (d : Deployment) (claims : Auth.Claims) : Handler String := do
  match ← loadUserById d claims.id.text with
  | .ok (some user) => return trim (user.firstName ++ " " ++ user.lastName)
  | _ => return claims.userCode

/-- `review` from the outcome of the decision on. -/
def answerReview (d : Deployment) (headers : Headers) (candidateId : String)
    (payload : ReviewPayload) (decision : Decision) (claims : Auth.Claims) :
    Except QueryError ReviewDecisionOutcome → Handler Reply
  | .ok (.applied row) =>
      saveMandatory d headers (((withActor (recorder d headers (reviewAction decision row.status)
        "success") claims).resource "search_candidate" row.id.text).withMetadata
        (reviewMetadata candidateId payload)) (json (.searchCandidate row))
  | .ok .notFound => return notFound headers
  | .ok .sameReviewerForbidden => do
      save d ((withActor (recorder d headers "CANDIDATE_SECOND_REVIEW_DENIED" "denied")
        claims).withMetadata (reviewMetadata candidateId payload))
      return failure headers "SAME_REVIEWER_FORBIDDEN" "errors.sameReviewerForbidden"
  | .error _ => return internal headers

/-- `search::review`. -/
def review (d : Deployment) (headers : Headers) (candidateId : String) (payload : ReviewPayload)
    (decision : Decision) : Handler Reply := do
  match ← lift (Auth.authUserFromHeaders headers) with
  | none => return failure headers "UNAUTHORIZED" "errors.unauthorized"
  | some claims =>
      let allowed ← requireRole headers .reviewCandidate
      if allowed then
        let name ← actingName d claims
        let outcome ← recordReviewDecision d payload.searchId candidateId decision claims.id name
          payload.reason payload.notes (requestId headers)
        answerReview d headers candidateId payload decision claims outcome
      else return forbidden headers

/-- `search::verify_candidate_route`. -/
def verifyCandidate (d : Deployment) (headers : Headers) (id : String) (payload : ReviewPayload) :
    Handler Reply :=
  review d headers id payload .confirmed

/-- `search::reject_candidate_route`. -/
def rejectCandidate (d : Deployment) (headers : Headers) (id : String) (payload : ReviewPayload) :
    Handler Reply :=
  review d headers id payload .rejected

/-- `search::mark_candidate_inconclusive_route`. -/
def markCandidateInconclusive (d : Deployment) (headers : Headers) (id : String)
    (payload : ReviewPayload) : Handler Reply :=
  review d headers id payload .inconclusive

end AnatoliaBis.App
