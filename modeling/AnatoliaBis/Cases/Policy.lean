import AnatoliaBis.App.Kept
import AnatoliaBis.Cases.Record

/-! # Decisions under one policy

Every request about searches and candidates records its decisions under the policy of the
deployment; in all of them, only a review records any.
-/

namespace AnatoliaBis.Cases

open Atomic Program
open Auth (Headers)

/-! ## Handlers of `App` -/

section Parts

variable {d : App.Deployment} {α : Type} {headers : Headers}

theorem polices_own {op : App.Op} (h : op.Own) : Polices d op := by
  rintro entry rfl
  exact h.elim

/-- Every decision of the handler is recorded under the policy. -/
def AppFollows (d : App.Deployment) (p : App.Handler α) : Prop :=
  p.Performs (App.exec d) (Polices d) fun _ => True

theorem appFollows_done (a : α) : AppFollows d (.done a : App.Handler α) := trivial

theorem appFollows_bind {β : Type} {p : App.Handler α} {f : α → App.Handler β}
    (hp : AppFollows d p) (hf : ∀ a, AppFollows d (f a)) : AppFollows d (p >>= f) :=
  Performs.bind hp fun a _ => hf a

/-- A part that records no decision. -/
theorem appFollows_of_own {P : App.Op → Prop} {R : α → Prop} {p : App.Handler α}
    (hp : p.Performs (App.exec d) P R) (hP : ∀ op, P op → op.Own) : AppFollows d p :=
  hp.mono (fun op hop => polices_own (hP op hop)) fun _ _ => trivial

theorem appFollows_perform {op : App.Op} {f : op.Res → App.Handler α} (hop : op.Own)
    (hf : ∀ r, AppFollows d (f r)) : AppFollows d (App.perform op >>= f) :=
  App.performs_perform (polices_own hop) hf

theorem appFollows_query {q : App.Query} {f : Except App.QueryError q.Res → App.Handler α}
    (hq : (App.Op.db q).Own) (hf : ∀ r, AppFollows d (f r)) : AppFollows d (App.query q >>= f) :=
  appFollows_perform hq hf

theorem save_appFollows (r : Audit.AuditRecorder) : AppFollows d (App.save d r) :=
  appFollows_of_own (App.save_performs r) fun _ h => h.elim (·.own) (·.own)

theorem saveMandatory_appFollows (r : Audit.AuditRecorder) (reply : App.Reply) :
    AppFollows d (App.saveMandatory d headers r reply) :=
  appFollows_of_own (App.saveMandatory_performs headers r reply) fun _ h =>
    h.elim (·.own) (·.own)

theorem authUserFromHeaders_appFollows :
    AppFollows d (App.lift (Auth.authUserFromHeaders headers)) :=
  appFollows_of_own (App.authUserFromHeaders_draws headers) fun _ h => h.own

theorem requireRole_appFollows (policy : App.Policy) :
    AppFollows d (App.requireRole headers policy) :=
  appFollows_of_own (App.requireRole_draws headers policy) fun _ h => h.own

theorem loadCandidateById_appFollows (id : String) : AppFollows d (App.loadCandidateById d id) := by
  unfold App.loadCandidateById
  split
  · exact appFollows_done _
  · exact appFollows_query trivial fun _ => appFollows_done _

theorem userOrganizationIds_appFollows (userId : Uuid) :
    AppFollows d (App.userOrganizationIds d userId) := by
  unfold App.userOrganizationIds
  split
  · exact appFollows_done _
  · exact appFollows_perform trivial fun _ => appFollows_done _

theorem authorizeCandidateScope_appFollows (claims : Auth.Claims) (candidate : App.CandidateRow) :
    AppFollows d (App.authorizeCandidateScope d claims candidate) := by
  apply appFollows_bind (userOrganizationIds_appFollows _)
  intro ids
  split
  · exact appFollows_done _
  · exact appFollows_done _

theorem signedIn_appFollows {policy : App.Policy} {route : Auth.Claims → App.Handler App.Reply}
    (hroute : ∀ claims, AppFollows d (route claims)) :
    AppFollows d (App.signedIn headers policy route) := by
  apply appFollows_bind authUserFromHeaders_appFollows
  intro found
  split
  · exact appFollows_done _
  · split_ifs
    · exact hroute _
    · exact appFollows_done _

/-- The one that records a decision. -/
theorem review_appFollows (candidateId : String) (payload : App.ReviewPayload)
    (decision : App.Decision) :
    AppFollows d (App.review d headers candidateId payload decision) := by
  apply appFollows_bind authUserFromHeaders_appFollows
  intro found
  split
  · exact appFollows_done _
  next claims =>
    apply appFollows_bind (requireRole_appFollows _)
    intro allowed
    split_ifs
    · apply appFollows_bind
        (appFollows_of_own (App.actingName_performs claims) fun _ h => h.own)
      intro name
      apply appFollows_bind
      · apply (App.program_performs d ⟨payload.searchId, candidateId, decision, claims.id, name,
          payload.reason, payload.notes, Auth.requestId headers⟩).weaken
        rintro op hop entry rfl
        cases hop with
        | record entry h => exact h
      · intro outcome
        unfold App.answerReview
        split
        · exact saveMandatory_appFollows _ _
        · exact appFollows_done _
        · exact appFollows_bind (save_appFollows _) fun _ => appFollows_done _
        · exact appFollows_done _
    · exact appFollows_done _

theorem enrollReferencePhoto_appFollows (claims : Auth.Claims) (candidateId : String)
    (candidate : App.CandidateRow) (bytes : List UInt8) :
    AppFollows d (App.enrollReferencePhoto d headers claims candidateId candidate bytes) := by
  refine appFollows_perform trivial ?_
  intro enrolled
  split
  · exact appFollows_done _
  · apply appFollows_bind
    · refine appFollows_perform trivial ?_
      intro id
      refine appFollows_query trivial ?_
      intro inserted
      split
      · exact appFollows_done _
      · split
        · exact appFollows_done _
        · exact appFollows_query trivial fun _ => appFollows_done _
    · intro inserted
      split
      · apply appFollows_bind (appFollows_of_own (App.lift_saveMandatory_performs _) fun _ h =>
          h.elim (·.own) (·.own))
        intro stored
        split
        · exact appFollows_done _
        · refine appFollows_query trivial ?_
          intro rows
          split
          · exact appFollows_done _
          · exact appFollows_done _
      · exact appFollows_done _

theorem uploadReferencePhoto_appFollows (candidateId : String) (image : Option (List UInt8)) :
    AppFollows d (App.uploadReferencePhoto d headers candidateId image) := by
  apply signedIn_appFollows
  intro claims
  apply appFollows_bind (loadCandidateById_appFollows _)
  intro found
  split
  · exact appFollows_done _
  · exact appFollows_done _
  · apply appFollows_bind (authorizeCandidateScope_appFollows _ _)
    intro authorized
    split_ifs
    · exact appFollows_done _
    · split
      · exact appFollows_done _
      · split
        · exact appFollows_done _
        · exact enrollReferencePhoto_appFollows _ _ _ _

theorem revokeTemplateRoute_appFollows (candidateId templateId : String) :
    AppFollows d (App.revokeTemplateRoute d headers candidateId templateId) := by
  apply signedIn_appFollows
  intro claims
  apply appFollows_bind (loadCandidateById_appFollows _)
  intro found
  split
  · apply appFollows_bind (authorizeCandidateScope_appFollows _ _)
    intro authorized
    split_ifs
    · exact appFollows_done _
    · apply appFollows_bind
      · unfold App.revokeTemplate
        split
        · exact appFollows_done _
        · exact appFollows_query trivial fun _ => appFollows_done _
      · intro revoked
        split
        · exact saveMandatory_appFollows _ _
        · exact appFollows_done _
        · exact appFollows_done _
  · exact appFollows_done _

end Parts

/-! ## Handlers on the casebook -/

section Rules

variable {d : Deployment} {α β : Type} {headers : Headers}

/-- Every decision of the handler is recorded under the policy. -/
def Follows (d : Deployment) (p : Handler α) : Prop :=
  p.Performs (exec d) (Op.FollowsPolicy d) fun _ => True

theorem follows_done (a : α) : Follows d (.done a : Handler α) := trivial

theorem follows_bind {p : Handler α} {f : α → Handler β} (hp : Follows d p)
    (hf : ∀ a, Follows d (f a)) : Follows d (p >>= f) :=
  Performs.bind hp fun a _ => hf a

theorem follows_map {p : Handler α} (f : α → β) (hp : Follows d p) : Follows d (p.map f) :=
  Performs.map hp fun _ _ => trivial

theorem follows_andThen {p : Handler (Except App.QueryError α)}
    {f : α → Handler (Except App.QueryError β)} (hp : Follows d p) (hf : ∀ a, Follows d (f a)) :
    Follows d (andThen p f) := by
  apply follows_bind hp
  intro r
  cases r with
  | error err => exact follows_done _
  | ok a => exact hf a

/-- An operation of the casebook's own records no decision. -/
theorem follows_perform {op : Op} (hop : ∀ op', op ≠ .app op') : Follows d (perform op) :=
  ⟨fun op' h => absurd h (hop op'), fun _ _ => trivial⟩

theorem follows_query (q : Query) : Follows d (query q) :=
  follows_perform fun _ h => by cases h

theorem follows_newId : Follows d (perform (.app (.auth .newId))) := by
  refine ⟨?_, fun _ _ => trivial⟩
  intro op' hop'
  rw [← Op.app.inj hop']
  exact polices_own trivial

theorem follows_lift {p : App.Handler α} (hp : AppFollows d.toDeployment p) : Follows d (lift p) := by
  apply (appPart d).performs_embed hp
  intro op hop op' hop'
  rw [← Op.app.inj hop']
  exact hop

theorem save_follows (r : Audit.AuditRecorder) : Follows d (lift (App.save d.toDeployment r)) :=
  follows_lift (save_appFollows r)

theorem signedIn_follows {policy : App.Policy} {route : Auth.Claims → Handler Reply}
    (hroute : ∀ claims, Follows d (route claims)) : Follows d (signedIn headers policy route) := by
  apply follows_bind (follows_lift authUserFromHeaders_appFollows)
  intro found
  split
  · exact follows_done _
  · split_ifs
    · exact hroute _
    · exact follows_done _

end Rules

section Searches

variable {d : Deployment} {headers : Headers}

theorem loadSearchById_follows (id : String) : Follows d (loadSearchById d id) := by
  unfold loadSearchById
  split
  · exact follows_done _
  · exact follows_query _

theorem listSearchCandidates_follows (id : String) : Follows d (listSearchCandidates d id) := by
  unfold listSearchCandidates
  split
  · exact follows_done _
  · exact follows_lift (appFollows_query trivial fun _ => appFollows_done _)

theorem actorOrgIds_follows (claims : Auth.Claims) : Follows d (actorOrgIds d claims) := by
  unfold actorOrgIds
  split_ifs
  · exact follows_done _
  · apply follows_bind (follows_lift (userOrganizationIds_appFollows _))
    intro ids
    split
    · exact follows_done _
    · exact follows_done _

theorem markQueuedSearchFailed_follows (x : Uuid) (code messageKey : String) :
    Follows d (markQueuedSearchFailed d x code messageKey) := by
  unfold markQueuedSearchFailed
  split
  · exact follows_done _
  · split
    · exact follows_query _
    · apply follows_bind (follows_query _)
      intro marked
      split
      · exact follows_done _
      · exact follows_query _

theorem concludeSearch_follows (task : SearchTask) (rid : Uuid)
    (outcome : Except App.QueryError (Option SearchRow)) :
    Follows d (concludeSearch d task rid outcome) := by
  unfold concludeSearch
  split
  · apply follows_bind (listSearchCandidates_follows _)
    intro rows
    apply follows_bind (follows_lift
      (appFollows_of_own (App.lift_saveMandatory_performs _) fun _ h => h.elim (·.own) (·.own)))
    intro stored
    split
    · exact follows_done _
    · exact follows_bind (markQueuedSearchFailed_follows _ _ _) fun _ => follows_done _
  · exact follows_done _
  · exact follows_bind (markQueuedSearchFailed_follows _ _ _) fun _ => save_follows _

theorem runQueuedSearch_follows (task : SearchTask) : Follows d (runQueuedSearch d task) := by
  apply follows_bind follows_newId
  intro rid
  apply follows_bind (follows_perform fun _ h => by cases h)
  intro outcome
  cases outcome with
  | error err => exact follows_bind (markQueuedSearchFailed_follows _ _ _) fun _ => save_follows _
  | ok scored =>
      apply follows_bind
      · unfold finalizeQueuedSearch
        split
        · exact follows_done _
        · exact follows_query _
      · exact fun outcome => concludeSearch_follows task rid outcome

theorem withSearch_follows {claims : Auth.Claims} {id : String} {route : SearchRow → Handler Reply}
    (hroute : ∀ search, Follows d (route search)) :
    Follows d (withSearch d headers claims id route) := by
  apply follows_bind (loadSearchById_follows id)
  intro found
  split
  · exact follows_done _
  · exact follows_done _
  · apply follows_bind (actorOrgIds_follows claims)
    intro orgIds
    split_ifs
    · exact hroute _
    · exact follows_done _

theorem search_follows (request : SearchRequest) : Follows d (request.handle d) := by
  cases request with
  | runQueued task => exact follows_map _ (runQueuedSearch_follows task)
  | status headers id =>
      apply follows_map
      refine signedIn_follows fun claims => withSearch_follows fun search => ?_
      apply follows_bind (listSearchCandidates_follows _)
      intro rows
      split
      · exact follows_done _
      · exact follows_done _
  | search headers id =>
      apply follows_map
      exact signedIn_follows fun claims => withSearch_follows fun search => follows_done _
  | candidates headers id =>
      apply follows_map
      refine signedIn_follows fun claims => withSearch_follows fun search => ?_
      apply follows_bind (listSearchCandidates_follows _)
      intro rows
      split
      · exact follows_done _
      · exact follows_done _
  | review headers candidateId payload decision =>
      exact follows_map _ (follows_lift (review_appFollows candidateId payload decision))

end Searches

section Candidates

variable {d : Deployment} {headers : Headers} {claims : Auth.Claims}

theorem listEvidenceForCandidate_follows (id : String) :
    Follows d (listEvidenceForCandidate d id) := by
  unfold listEvidenceForCandidate
  split
  · exact follows_done _
  · exact follows_query _

theorem listRelationsForCandidate_follows (id : String) :
    Follows d (listRelationsForCandidate d id) := by
  unfold listRelationsForCandidate
  split
  · exact follows_done _
  · exact follows_query _

theorem insertRelation_follows (c : Uuid) (relationType value : String)
    (evidenceId addedBy : Option Uuid) :
    Follows d (insertRelation d c relationType value evidenceId addedBy) := by
  unfold insertRelation
  split
  · exact follows_done _
  · apply follows_bind follows_newId
    intro id
    apply follows_bind (follows_query _)
    intro inserted
    split
    · exact follows_done _
    · split
      · exact follows_done _
      · exact follows_query _

theorem insertEvidence_follows (c : Uuid) (item : EvidenceItem) (collectedBy : Option Uuid) :
    Follows d (insertEvidence d c item collectedBy) := by
  apply follows_andThen
  · unfold insertEvidenceRow
    split
    · exact follows_done _
    · apply follows_bind follows_newId
      intro id
      apply follows_bind (follows_query _)
      intro inserted
      split
      · exact follows_done _
      · split
        · exact follows_done _
        · exact follows_query _
  · intro row
    split
    · exact follows_bind (insertRelation_follows _ _ _ _ _) fun _ => follows_done _
    · exact follows_done _

/-- The loop over the items of a provider. -/
theorem storeItems_follows (c : Uuid) (collectedBy : Option Uuid) (items : List EvidenceItem)
    (seen : List (String × String)) : Follows d (storeItems d c collectedBy items seen) := by
  induction items generalizing seen with
  | nil => exact follows_done _
  | cons item items ih =>
      unfold storeItems
      dsimp only
      split_ifs
      · exact ih seen
      · apply follows_bind (insertEvidence_follows c item collectedBy)
        intro inserted
        apply follows_bind (ih _)
        intro rest
        split
        · exact follows_done _
        · exact follows_done _

/-- The loop over the providers. -/
theorem storeOutcomes_follows (c : Uuid) (collectedBy : Option Uuid)
    (outcomes : List ProviderOutcome) (seen : List (String × String)) :
    Follows d (storeOutcomes d c collectedBy outcomes seen) := by
  induction outcomes generalizing seen with
  | nil => exact follows_done _
  | cons outcome outcomes ih =>
      unfold storeOutcomes
      split
      · exact follows_bind (ih seen) fun _ => follows_done _
      · apply follows_bind (storeItems_follows c collectedBy outcome.items seen)
        intro stored
        exact follows_bind (ih _) fun _ => follows_done _

theorem inScope_follows {candidate : App.CandidateRow} {route : Handler Reply}
    (hroute : Follows d route) : Follows d (inScope d headers claims candidate route) := by
  apply follows_bind (follows_lift (authorizeCandidateScope_appFollows _ _))
  intro authorized
  split_ifs
  · exact follows_done _
  · exact hroute

theorem withCandidate_follows {candidateId : String} {route : App.CandidateRow → Handler Reply}
    (hroute : ∀ candidate, Follows d (route candidate)) :
    Follows d (withCandidate d headers claims candidateId route) := by
  apply follows_bind (follows_lift (loadCandidateById_appFollows _))
  intro found
  split
  · exact inScope_follows (hroute _)
  · exact follows_done _

theorem collectEvidenceRoute_follows (candidateId query : String) :
    Follows d (collectEvidenceRoute d headers candidateId query) := by
  apply signedIn_follows
  intro claims
  apply follows_bind (follows_lift (loadCandidateById_appFollows _))
  intro found
  split
  · exact follows_done _
  · exact follows_done _
  · apply inScope_follows
    dsimp only
    split_ifs
    · exact follows_done _
    · apply follows_bind (follows_perform fun _ h => by cases h)
      intro outcomes
      apply follows_bind
      · apply follows_bind (listEvidenceForCandidate_follows _)
        exact fun existing => storeOutcomes_follows _ _ _ _
      · exact fun collected => follows_bind (save_follows _) fun _ => follows_done _

theorem addEntityRelationRoute_follows (candidateId relationType value : String) :
    Follows d (addEntityRelationRoute d headers candidateId relationType value) := by
  refine signedIn_follows fun claims => withCandidate_follows fun candidate => ?_
  dsimp only
  split_ifs
  · exact follows_done _
  · apply follows_bind (insertRelation_follows _ _ _ _ _)
    intro inserted
    split
    · exact follows_bind (save_follows _) fun _ => follows_done _
    · exact follows_done _
    · exact follows_done _

theorem relationValues_follows (candidateId relationType : String) :
    Follows d (relationValues d candidateId relationType) :=
  follows_andThen (listRelationsForCandidate_follows candidateId) fun _ => follows_done _

theorem signalsOf_follows (candidateId : String) : Follows d (signalsOf d candidateId) := by
  apply follows_andThen (listEvidenceForCandidate_follows candidateId)
  intro evidence
  apply follows_andThen (relationValues_follows candidateId _)
  intro aliases
  apply follows_andThen (relationValues_follows candidateId _)
  intro usernames
  apply follows_andThen (relationValues_follows candidateId _)
  exact fun organizations => follows_done _

/-- The loop over the other candidates. -/
theorem compareAll_follows (threshold : Rat) (targetId : Uuid) (targetName : String)
    (target : Signals) (candidates : List App.CandidateRow) :
    Follows d (compareAll d threshold targetId targetName target candidates) := by
  induction candidates with
  | nil => exact follows_done _
  | cons candidate candidates ih =>
      unfold compareAll
      split_ifs
      · exact ih
      · apply follows_andThen (signalsOf_follows _)
        intro other
        exact follows_andThen ih fun _ => follows_done _

theorem findPossibleDuplicates_follows (candidateId : String) (threshold : Rat) :
    Follows d (findPossibleDuplicates d candidateId threshold) := by
  apply follows_andThen (follows_lift (loadCandidateById_appFollows _))
  intro found
  split
  · exact follows_done _
  · apply follows_andThen (follows_query _)
    intro candidates
    apply follows_andThen (signalsOf_follows _)
    intro signals
    exact follows_andThen (compareAll_follows _ _ _ _ _) fun _ => follows_done _

theorem read_follows (request : CandidateRead) : Follows d (request.handle d headers) := by
  cases request with
  | candidate id =>
      apply follows_bind (follows_lift authUserFromHeaders_appFollows)
      intro found
      split
      · exact follows_done _
      · apply follows_bind (follows_lift (requireRole_appFollows _))
        intro allowed
        split_ifs
        · exact follows_done _
        · apply follows_bind (follows_lift (loadCandidateById_appFollows _))
          intro found
          split
          · exact follows_done _
          · exact follows_done _
          · exact follows_done _
  | templates candidateId =>
      refine signedIn_follows fun claims => withCandidate_follows fun candidate => ?_
      apply follows_bind
      · unfold listTemplatesForCandidate
        split
        · exact follows_done _
        · exact follows_query _
      · intro rows
        split
        · exact follows_done _
        · exact follows_done _
  | evidence candidateId =>
      refine signedIn_follows fun claims => withCandidate_follows fun candidate => ?_
      apply follows_bind (listEvidenceForCandidate_follows candidateId)
      intro rows
      split
      · exact follows_done _
      · exact follows_done _
  | entityGraph candidateId =>
      refine signedIn_follows fun claims => withCandidate_follows fun candidate => ?_
      apply follows_bind (listRelationsForCandidate_follows candidateId)
      intro rows
      split
      · exact follows_done _
      · exact follows_done _
  | possibleDuplicates candidateId =>
      refine signedIn_follows fun claims => withCandidate_follows fun candidate => ?_
      apply follows_bind (findPossibleDuplicates_follows candidateId _)
      intro duplicates
      split
      · exact follows_done _
      · exact follows_done _

theorem write_follows (request : CandidateWrite) : Follows d (request.handle d headers) := by
  cases request with
  | review candidateId payload decision =>
      exact follows_map _ (follows_lift (review_appFollows candidateId payload decision))
  | uploadReferencePhoto candidateId image =>
      exact follows_map _ (follows_lift (uploadReferencePhoto_appFollows candidateId image))
  | collectEvidence candidateId query => exact collectEvidenceRoute_follows candidateId query
  | addEntityRelation candidateId relationType value =>
      exact addEntityRelationRoute_follows candidateId relationType value
  | revokeTemplate candidateId templateId =>
      exact follows_map _ (follows_lift (revokeTemplateRoute_appFollows candidateId templateId))

end Candidates

/-- Every request records its decisions under the policy of the deployment. -/
theorem handle_follows (d : Deployment) (request : CaseRequest) : Follows d (request.handle d) := by
  cases request with
  | search request => exact search_follows request
  | read headers request => exact follows_map _ (read_follows request)
  | write headers request => exact follows_map _ (write_follows request)

end AnatoliaBis.Cases
