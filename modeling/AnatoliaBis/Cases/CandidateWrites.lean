import AnatoliaBis.Cases.Ownership
import AnatoliaBis.App.FourEyes

/-! # Writes and the organization of the actor

The routes that write rows of a candidate check its organization first, and write
rows of that candidate. A review checks no organization at all, and a revocation
checks the candidate of its path, whichever candidate the template belongs to.
-/

namespace AnatoliaBis.Cases

open Atomic Program
open Auth (Headers Env Key)

/-! ## Requests that write -/

/-- A request to a route that changes what belongs to candidates. -/
inductive CandidateWrite where
  | review (candidateId : String) (payload : App.ReviewPayload) (decision : App.Decision)
  | uploadReferencePhoto (candidateId : String) (image : Option (List UInt8))
  | collectEvidence (candidateId query : String)
  | addEntityRelation (candidateId relationType value : String)
  | revokeTemplate (candidateId templateId : String)

/-- The handler of a request. -/
def CandidateWrite.handle (d : Deployment) (headers : Headers) : CandidateWrite → Handler Reply
  | .review candidateId payload decision =>
      (lift (App.review d.toDeployment headers candidateId payload decision)).map .ofApp
  | .uploadReferencePhoto candidateId image =>
      (lift (App.uploadReferencePhoto d.toDeployment headers candidateId image)).map .ofApp
  | .collectEvidence candidateId query => collectEvidenceRoute d headers candidateId query
  | .addEntityRelation candidateId relationType value =>
      addEntityRelationRoute d headers candidateId relationType value
  | .revokeTemplate candidateId templateId =>
      (lift (App.revokeTemplateRoute d.toDeployment headers candidateId templateId)).map .ofApp

/-- The same reviewer would decide twice, which is refused. -/
def DecidesTwice (d : Deployment) (claims : Auth.Claims) (decision : App.Decision)
    (current : App.SearchCandidate) : Prop :=
  (d.requireSecondReview = true ∧ decision.isFinalizing = true) ∧
    current.status = .needsSecondReview ∧ current.reviewedBy = some claims.id

/-- The rows that a review or a revocation writes belong to what the actor may see;
the other routes check the candidate they write for. -/
def CandidateWrite.Addresses (d : Deployment) (claims : Auth.Claims) (s : Casebook) :
    CandidateWrite → Prop
  | .review candidateId payload decision =>
      App.Policy.reviewCandidate.allows claims.role = true →
        ∀ searchKey candidateKey current, d.key payload.searchId = some searchKey →
          d.key candidateId = some candidateKey →
          s.app.searchCandidates.find searchKey candidateKey = some current →
          ¬ DecidesTwice d claims decision current →
          Sees d s claims (s.ownerOfSearch current.searchId)
  | .revokeTemplate candidateId templateId =>
      App.Policy.manageCandidates.allows claims.role = true →
        ∀ candidate templateKey, s.candidateAt d candidateId = some candidate →
          Sees d s claims candidate.organizationId → d.key templateId = some templateKey →
          ∀ row ∈ s.app.templates, templateKey.isId row.id = true → row.revokedAt = none →
            Sees d s claims (s.ownerOfCandidate row.candidateId)
  | _ => True

theorem Untouched.addresses {d : Deployment} {claims : Auth.Claims} {request : CandidateWrite}
    {s s' : Casebook} (h : Untouched s s') (hs : request.Addresses d claims s) :
    request.Addresses d claims s' := by
  cases request with
  | review candidateId payload decision =>
      intro hallows searchKey candidateKey current hsearch hcandidate hfind hdecides
      unfold App.SearchCandidateTable.find at hfind
      rw [h.searchCandidates] at hfind
      rw [h.owners.sees, h.owners.ownerOfSearch]
      exact hs hallows searchKey candidateKey current hsearch hcandidate hfind hdecides
  | revokeTemplate candidateId templateId =>
      intro hallows candidate templateKey hcandidate hsees htemplate row hrow
      rw [h.owners.candidateAt] at hcandidate
      rw [h.owners.sees] at hsees
      rw [h.templates] at hrow
      rw [h.owners.sees, h.owners.ownerOfCandidate]
      exact hs hallows candidate templateKey hcandidate hsees htemplate row hrow
  | _ => trivial

/-! ## Handlers that stay within a kind of owner -/

/-- From wherever only such rows have been written, the program writes only such. -/
def KeepsTo {α : Type} (d : Deployment) (owns : Option String → Prop) (s₀ : Casebook)
    (p : Handler α) : Prop :=
  ∀ s, Stays owns s₀ s → p.wp (exec d) (fun _ => True) (fun _ _ s' => Stays owns s₀ s') s

section Rules

variable {d : Deployment} {owns : Option String → Prop} {s₀ : Casebook} {α β : Type}

theorem keepsTo_done (a : α) : KeepsTo d owns s₀ (.done a : Handler α) := fun _ h => h

theorem keepsTo_bind {p : Handler α} {f : α → Handler β} (hp : KeepsTo d owns s₀ p)
    (hf : ∀ a, KeepsTo d owns s₀ (f a)) : KeepsTo d owns s₀ (p >>= f) := by
  intro s hs
  refine wp_bind_of (hp s hs) ?_
  exact fun evs a s' hs' => hf a s' hs'

theorem keepsTo_andThen {h : Handler (Except App.QueryError α)}
    {f : α → Handler (Except App.QueryError β)} (hh : KeepsTo d owns s₀ h)
    (hf : ∀ a, KeepsTo d owns s₀ (f a)) : KeepsTo d owns s₀ (andThen h f) := by
  unfold andThen
  refine keepsTo_bind hh fun r => ?_
  cases r with
  | error err => exact keepsTo_done _
  | ok a => exact hf a

theorem keepsTo_of_keepsRows {p : Handler α} {R : α → Prop}
    (hp : p.Performs (exec d) Op.KeepsRows R) : KeepsTo d owns s₀ p := by
  intro s hs
  refine wp_mono ?_ (wp_of_keepsRows hp s)
  exact fun evs a s' h => hs.trans h.2.stays

/-- A single operation. -/
theorem keepsTo_perform {op : Op}
    (hop : ∀ e s, SameOwners s₀ s → Stays owns s (exec d op e s).1) :
    KeepsTo d owns s₀ (perform op) :=
  fun s hs e _ => hs.trans (hop e s hs.owners)

theorem keepsTo_query {q : Query}
    (hq : ∀ e s, SameOwners s₀ s → Stays owns s (exec d (.db q) e s).1) :
    KeepsTo d owns s₀ (query q) :=
  keepsTo_perform hq

/-- An operation between the writes. -/
theorem keepsTo_read {op : Op} (hop : op.KeepsRows) : KeepsTo d owns s₀ (perform op) :=
  keepsTo_perform fun e s _ => stays_of_keepsRows hop e s

theorem keepsTo_lift_auth (h : Auth.Handler α) : KeepsTo d owns s₀ (lift (App.lift h)) :=
  keepsTo_of_keepsRows (lift_auth_keepsRows h)

theorem newId_keepsRows :
    (perform (.app (.auth .newId))).Performs (exec d) Op.KeepsRows fun _ => True :=
  ⟨trivial, fun _ _ => trivial⟩

theorem saveMandatory_keepsRows (headers : Headers) (r : Audit.AuditRecorder)
    (reply : App.Reply) :
    (lift (App.saveMandatory d.toDeployment headers r reply)).Performs (exec d) Op.KeepsRows
      fun _ => True := by
  unfold App.saveMandatory
  rw [lift_bind]
  refine (lift_auth_keepsRows _).bind fun saved _ => ?_
  cases saved with
  | ok _ => trivial
  | error err => trivial

theorem actingName_keepsRows (claims : Auth.Claims) :
    (lift (App.actingName d.toDeployment claims)).Performs (exec d) Op.KeepsRows fun _ => True := by
  have hname : (App.actingName d.toDeployment claims).Performs (App.exec d.toDeployment)
      (fun op => (Op.app op).KeepsRows) fun _ => True := by
    refine ((App.loadUserById_finds _).weaken fun op hop => ?_).bind fun found _ => ?_
    · unfold App.Op.Finds at hop
      split at hop
      · trivial
      · trivial
      · exact hop.elim
    · split <;> trivial
  exact (appPart d).performs_embed hname fun _ hop => hop

end Rules

/-! ## Rows added for a candidate -/

section Inserts

variable {d : Deployment} {owns : Option String → Prop} {s s₀ : Casebook} {c : Uuid}

theorem stays_insertEvidenceRow (hc : owns (s.ownerOfCandidate c)) (id : Uuid)
    (item : EvidenceItem) (collectedBy : Option Uuid) (e : Env) :
    Stays owns s (exec d (.db (.insertEvidenceRow id c item collectedBy)) e s).1 := by
  cases hf : e.fails with
  | true =>
      rw [exec_db_of_fails hf]
      exact Stays.refl owns s
  | false =>
      by_cases hrefers : d.backend = .postgres ∧ !s.hasCandidate c
      · rw [exec_db_of_error (q := .insertEvidenceRow id c item collectedBy) hf (if_pos hrefers)]
        exact Stays.refl owns s
      · rw [exec_db_of_ok (q := .insertEvidenceRow id c item collectedBy) hf (if_neg hrefers)]
        refine ⟨⟨rfl, rfl, rfl, rfl⟩, ⟨.refl _ _, .refl _ _, .refl _ _, ?_, .refl _ _⟩⟩
        apply Changes.within_append.mpr
        intro row hrow
        rw [List.mem_singleton.mp hrow]
        exact hc

theorem stays_insertRelation (hc : owns (s.ownerOfCandidate c)) (id : Uuid)
    (relationType value : String) (evidenceId addedBy : Option Uuid) (e : Env) :
    Stays owns s
      (exec d (.db (.insertRelation id c relationType value evidenceId addedBy)) e s).1 := by
  cases hf : e.fails with
  | true =>
      rw [exec_db_of_fails hf]
      exact Stays.refl owns s
  | false =>
      by_cases hrefers : d.backend = .postgres ∧ (!s.hasCandidate c ||
          evidenceId.any fun evidenceId => !s.evidence.any (·.id == evidenceId))
      · rw [exec_db_of_error (q := .insertRelation id c relationType value evidenceId addedBy) hf
          (if_pos hrefers)]
        exact Stays.refl owns s
      · rw [exec_db_of_ok (q := .insertRelation id c relationType value evidenceId addedBy) hf
          (if_neg hrefers)]
        refine ⟨⟨rfl, rfl, rfl, rfl⟩, ⟨.refl _ _, .refl _ _, .refl _ _, .refl _ _, ?_⟩⟩
        apply Changes.within_append.mpr
        intro row hrow
        rw [List.mem_singleton.mp hrow]
        exact hc

theorem stays_insertTemplate (hc : owns (s.ownerOfCandidate c)) (id : Uuid)
    (enrollment : App.EnrollmentResult) (e : Env) :
    Stays owns s (exec d (.app (.db (.insertTemplate id c enrollment))) e s).1 := by
  have happ : (exec d (.app (.db (.insertTemplate id c enrollment))) e s).1 =
      { s with app := (App.exec d.toDeployment (.db (.insertTemplate id c enrollment)) e
        s.app).1 } := rfl
  rw [happ]
  cases hf : e.fails with
  | true =>
      rw [App.exec_db_of_fails hf]
      exact Stays.refl owns s
  | false =>
      rw [App.exec_db_of_succeeds hf rfl]
      refine ⟨⟨rfl, rfl, rfl, rfl⟩, ⟨.refl _ _, .refl _ _, ?_, .refl _ _, .refl _ _⟩⟩
      apply Changes.within_append.mpr
      intro row hrow
      rw [List.mem_singleton.mp hrow]
      exact hc

theorem insertTemplate_keepsTo {candidate : App.CandidateRow}
    (hc : owns (s₀.ownerOfCandidate candidate.id)) (enrollment : App.EnrollmentResult) :
    KeepsTo d owns s₀ (lift (App.insertTemplate d.toDeployment candidate enrollment)) := by
  unfold App.insertTemplate
  rw [lift_bind]
  refine keepsTo_bind (keepsTo_of_keepsRows newId_keepsRows) fun id => ?_
  rw [lift_bind]
  refine keepsTo_bind (keepsTo_perform fun e s hs => ?_) fun inserted => ?_
  · apply stays_insertTemplate
    rw [hs.ownerOfCandidate]
    exact hc
  · cases inserted with
    | error err => exact keepsTo_done _
    | ok row =>
        dsimp only
        split
        · exact keepsTo_done _
        · exact keepsTo_read (show (Op.app (.db (.findTemplateById id))).KeepsRows from trivial)

variable (hc : owns (s₀.ownerOfCandidate c))
include hc

theorem insertEvidenceRow_keepsTo (item : EvidenceItem) (collectedBy : Option Uuid) :
    KeepsTo d owns s₀ (insertEvidenceRow d c item collectedBy) := by
  unfold insertEvidenceRow
  split
  · exact keepsTo_done _
  · refine keepsTo_bind (keepsTo_of_keepsRows newId_keepsRows) fun id =>
      keepsTo_bind (keepsTo_query fun e s hs => ?_) ?_
    · apply stays_insertEvidenceRow
      rw [hs.ownerOfCandidate]
      exact hc
    · intro inserted
      cases inserted with
      | error err => exact keepsTo_done _
      | ok row =>
          dsimp only
          split
          · exact keepsTo_done _
          · exact keepsTo_read (by trivial)

theorem insertRelation_keepsTo (relationType value : String) (evidenceId addedBy : Option Uuid) :
    KeepsTo d owns s₀ (insertRelation d c relationType value evidenceId addedBy) := by
  unfold insertRelation
  split
  · exact keepsTo_done _
  · refine keepsTo_bind (keepsTo_of_keepsRows newId_keepsRows) fun id =>
      keepsTo_bind (keepsTo_query fun e s hs => ?_) ?_
    · apply stays_insertRelation
      rw [hs.ownerOfCandidate]
      exact hc
    · intro inserted
      cases inserted with
      | error err => exact keepsTo_done _
      | ok row =>
          dsimp only
          split
          · exact keepsTo_done _
          · exact keepsTo_read (by trivial)

theorem insertEvidence_keepsTo (item : EvidenceItem) (collectedBy : Option Uuid) :
    KeepsTo d owns s₀ (insertEvidence d c item collectedBy) := by
  unfold insertEvidence
  refine keepsTo_andThen (insertEvidenceRow_keepsTo hc item collectedBy) fun row => ?_
  split
  · exact keepsTo_bind (insertRelation_keepsTo hc _ _ _ _) fun _ => keepsTo_done _
  · exact keepsTo_done _

theorem storeItems_keepsTo (collectedBy : Option Uuid) (items : List EvidenceItem)
    (seen : List (String × String)) :
    KeepsTo d owns s₀ (storeItems d c collectedBy items seen) := by
  induction items generalizing seen with
  | nil => exact keepsTo_done _
  | cons item items ih =>
      unfold storeItems
      dsimp only
      split_ifs
      · exact ih seen
      · refine keepsTo_bind (insertEvidence_keepsTo hc item collectedBy) fun inserted => ?_
        refine keepsTo_bind (ih _) fun stored => ?_
        split
        · exact keepsTo_done _
        · exact keepsTo_done _

theorem storeOutcomes_keepsTo (collectedBy : Option Uuid) (outcomes : List ProviderOutcome)
    (seen : List (String × String)) :
    KeepsTo d owns s₀ (storeOutcomes d c collectedBy outcomes seen) := by
  induction outcomes generalizing seen with
  | nil => exact keepsTo_done _
  | cons outcome outcomes ih =>
      unfold storeOutcomes
      split
      · exact keepsTo_bind (ih seen) fun _ => keepsTo_done _
      · refine keepsTo_bind (storeItems_keepsTo hc collectedBy _ seen) fun stored => ?_
        exact keepsTo_bind (ih _) fun _ => keepsTo_done _

theorem collectAndStore_keepsTo (collectedBy : Option Uuid) (outcomes : List ProviderOutcome) :
    KeepsTo d owns s₀ (collectAndStoreCandidateEvidence d c collectedBy outcomes) := by
  unfold collectAndStoreCandidateEvidence listEvidenceForCandidate
  refine keepsTo_bind ?_ fun existing => storeOutcomes_keepsTo hc collectedBy outcomes _
  split
  · exact keepsTo_done _
  · exact keepsTo_read (by trivial)

end Inserts

/-! ## The routes that check the candidate they write for -/

section Checked

variable {d : Deployment} {headers : Headers} {claims : Auth.Claims} {s : Casebook}

/-- The rows written are those of a candidate that the actor may see. -/
theorem collectEvidence_stays (hactor : headers.authorization = some (.access claims))
    (candidateId query : String) :
    (collectEvidenceRoute d headers candidateId query).wp (exec d) (fun _ => True)
      (fun _ _ s' => Stays (Sees d s claims) s s') s := by
  unfold collectEvidenceRoute
  refine signedIn_stays hactor fun s₁ h₁ => ?_
  refine wp_bind_of (loadCandidateById_wp candidateId s₁) ?_
  rintro evs found s₂ ⟨h₂, hfound⟩
  cases found with
  | error err => exact h₁.trans h₂.stays
  | ok found =>
      cases found with
      | none => exact h₁.trans h₂.stays
      | some candidate =>
          refine inScope_stays (h₁.trans h₂.stays) fun s₃ h₃ hsees => ?_
          rw [← ownerOfCandidate_of_candidateAt (hfound _ rfl).symm,
            h₁.owners.ownerOfCandidate] at hsees
          dsimp only
          split_ifs
          · exact h₃
          · have hkeeps : KeepsTo d (Sees d s claims) s (perform (.collectOutcomes
                (Auth.trim query))) :=
              keepsTo_read trivial
            refine keepsTo_bind hkeeps (fun outcomes => ?_) s₃ h₃
            refine keepsTo_bind (collectAndStore_keepsTo hsees _ _) fun collected => ?_
            exact keepsTo_bind (keepsTo_lift_auth _) fun _ => keepsTo_done _

theorem addEntityRelation_stays (hactor : headers.authorization = some (.access claims))
    (candidateId relationType value : String) :
    (addEntityRelationRoute d headers candidateId relationType value).wp (exec d) (fun _ => True)
      (fun _ _ s' => Stays (Sees d s claims) s s') s := by
  unfold addEntityRelationRoute
  refine signedIn_stays hactor fun s₁ h₁ => ?_
  refine withCandidate_stays h₁ fun candidate s₂ h₂ hsees => ?_
  dsimp only
  split_ifs
  · exact h₂
  · refine keepsTo_bind (insertRelation_keepsTo hsees _ _ _ _) (fun inserted => ?_) s₂ h₂
    split
    · exact keepsTo_bind (keepsTo_lift_auth _) fun _ => keepsTo_done _
    · exact keepsTo_done _
    · exact keepsTo_done _

/-- Enrolling a photo of a candidate of that kind. -/
theorem enrollReferencePhoto_keepsTo {owns : Option String → Prop} {candidate : App.CandidateRow}
    (hc : owns (s.ownerOfCandidate candidate.id)) (candidateId : String) (bytes : List UInt8) :
    KeepsTo d owns s (lift (App.enrollReferencePhoto d.toDeployment headers claims candidateId
      candidate bytes)) := by
  unfold App.enrollReferencePhoto
  rw [lift_bind]
  refine keepsTo_bind ?_ fun enrolled => ?_
  · exact keepsTo_read (show (Op.app (.enrollImage bytes)).KeepsRows from trivial)
  · cases enrolled with
    | error err => exact keepsTo_done _
    | ok enrollment =>
        dsimp only
        rw [lift_bind]
        refine keepsTo_bind (insertTemplate_keepsTo hc enrollment) fun inserted => ?_
        split
        next template =>
          rw [lift_bind]
          refine keepsTo_bind (keepsTo_lift_auth _) fun saved => ?_
          cases saved with
          | error err => exact keepsTo_done _
          | ok _ =>
              dsimp only
              unfold App.templateReply
              rw [lift_bind]
              refine keepsTo_bind ?_ fun listed => ?_
              · exact keepsTo_read (show (Op.app (.db (.listActiveTemplates template.modelName
                  template.modelVersion))).KeepsRows from trivial)
              · cases listed with
                | error err => exact keepsTo_done _
                | ok rows => exact keepsTo_done _
        next => exact keepsTo_done _

/-- A route of `App`, of a signed-in user. -/
theorem liftSignedIn_stays {owns : Option String → Prop} {policy : App.Policy}
    {route : Auth.Claims → App.Handler App.Reply}
    (hactor : headers.authorization = some (.access claims))
    (hroute : policy.allows claims.role = true → ∀ s', Untouched s s' →
      (lift (route claims)).wp (exec d) (fun _ => True) (fun _ _ s'' => Stays owns s s'') s') :
    (lift (App.signedIn headers policy route)).wp (exec d) (fun _ => True)
      (fun _ _ s' => Stays owns s s') s := by
  unfold App.signedIn
  rw [lift_bind]
  refine wp_bind_of (authUser_wp hactor s) ?_
  rintro evs found s' ⟨hfound, hsame⟩
  cases found with
  | none => exact hsame.stays
  | some c =>
      rcases hfound c rfl with rfl
      dsimp only
      split_ifs with hallows
      · exact hroute hallows s' hsame
      · exact hsame.stays

theorem uploadReferencePhoto_stays (hactor : headers.authorization = some (.access claims))
    (candidateId : String) (image : Option (List UInt8)) :
    (lift (App.uploadReferencePhoto d.toDeployment headers candidateId image)).wp (exec d)
      (fun _ => True) (fun _ _ s' => Stays (Sees d s claims) s s') s := by
  unfold App.uploadReferencePhoto
  refine liftSignedIn_stays hactor fun _ s₁ h₁ => ?_
  rw [lift_bind]
  refine wp_bind_of (loadCandidateById_wp candidateId s₁) ?_
  rintro evs found s₂ ⟨h₂, hfound⟩
  have h : Untouched s s₂ := h₁.trans h₂
  cases found with
  | error err => exact h.stays
  | ok found =>
      cases found with
      | none => exact h.stays
      | some candidate =>
          dsimp only
          rw [lift_bind]
          refine wp_bind_of (authorizeCandidateScope_wp candidate s₂) ?_
          rintro evs authorized s₃ ⟨h₃, hsees⟩
          have h' : Untouched s s₃ := h.trans h₃
          cases authorized with
          | false => exact h'.stays
          | true =>
              have howner := ownerOfCandidate_of_candidateAt (hfound _ rfl).symm
              rw [h₁.owners.ownerOfCandidate] at howner
              have hsees' := hsees rfl
              rw [h.owners.sees, ← howner] at hsees'
              rw [if_neg (by simp)]
              split
              · exact h'.stays
              · split
                · exact h'.stays
                · exact enrollReferencePhoto_keepsTo hsees' candidateId _ s₃ h'.stays

end Checked

/-! ## A review and a revocation -/

section Unchecked

variable {d : Deployment} {headers : Headers} {claims : Auth.Claims} {s : Casebook}

theorem requireRole_wp {E : Env → Prop} (policy : App.Policy)
    (hactor : headers.authorization = some (.access claims)) (s : Casebook) :
    (lift (App.requireRole headers policy)).wp (exec d) E
      (fun _ allowed s' => Untouched s s' ∧ (allowed = true → policy.allows claims.role = true))
      s := by
  unfold App.requireRole
  rw [lift_bind]
  refine wp_bind_of (authUser_wp hactor s) ?_
  rintro evs found s' ⟨hfound, hsame⟩
  refine ⟨hsame, fun hallowed => ?_⟩
  cases found with
  | none => cases hallowed
  | some c =>
      rcases hfound c rfl with rfl
      exact hallowed

/-- Only a second decision of one reviewer is refused. -/
theorem targetStatus_eq_none {entry : App.ReviewEntry} {current : App.SearchCandidate} :
    entry.targetStatus current = none ↔
      (entry.requireSecondReview = true ∧ entry.decision.isFinalizing = true) ∧
        current.status = .needsSecondReview ∧ current.reviewedBy = some entry.reviewedBy := by
  unfold App.ReviewEntry.targetStatus
  cases entry.requireSecondReview with
  | false => simp
  | true =>
      cases entry.decision.isFinalizing with
      | false => simp
      | true => by_cases hstatus : current.status = .needsSecondReview <;> simp [hstatus]

/-- A decision writes a row of the search that it names, and an event about it. -/
theorem stays_recordReviewDecision {owns : Option String → Prop} {entry : App.ReviewEntry}
    (howns : ∀ current, s.app.searchCandidates.find entry.searchId entry.candidateId =
      some current → entry.targetStatus current ≠ none → owns (s.ownerOfSearch current.searchId))
    (e : Env) : Stays owns s (exec d (.app (.db (.recordReviewDecision entry))) e s).1 := by
  have happ : (exec d (.app (.db (.recordReviewDecision entry))) e s).1 =
      { s with app := (App.exec d.toDeployment (.db (.recordReviewDecision entry)) e
        s.app).1 } := rfl
  rw [happ]
  cases hf : e.fails with
  | true =>
      rw [App.exec_db_of_fails hf]
      exact Stays.refl owns s
  | false =>
      rw [App.exec_db_of_succeeds hf rfl]
      have hperform : ((App.Query.recordReviewDecision entry).perform d.toDeployment e.now
          s.app).1 = (s.app.record (d.now e.now) entry).1 := rfl
      rw [hperform]
      rcases App.record_cases s.app (d.now e.now) entry with
        ⟨-, h⟩ | ⟨_, -, -, h⟩ | ⟨current, status, hfind, htarget, h⟩
      · rw [h]
        exact Stays.refl owns s
      · rw [h]
        exact Stays.refl owns s
      · have hcurrent : current ∈ s.app.searchCandidates.rows := List.mem_of_find?_eq_some hfind
        have howner : owns (s.ownerOfSearch current.searchId) := by
          apply howns current hfind
          rw [htarget]
          exact Option.some_ne_none _
        rw [h]
        refine ⟨⟨rfl, rfl, ?_, rfl⟩, ⟨?_, ?_, .refl _ _, .refl _ _, .refl _ _⟩⟩
        · -- the rows keep their ids and their searches
          unfold Casebook.searchOfMatch App.SearchCandidateTable.review
          rw [List.map_map]
          apply List.map_congr_left
          intro row _
          simp only [Function.comp_apply]
          split_ifs <;> rfl
        · apply Changes.within_map.mpr
          intro row hrow
          by_cases hid : row.id = current.id
          · rw [List.inj_on_of_nodup_map s.app.searchCandidates.idKey hrow hcurrent hid]
            simp only [beq_self_eq_true, if_true]
            exact Or.inr howner
          · exact Or.inl (if_neg (by simpa using hid))
        · apply Changes.within_append.mpr
          intro event hevent
          rw [List.mem_singleton.mp hevent]
          show owns (s.ownerOfMatch current.id)
          rw [ownerOfMatch_of_mem hcurrent]
          exact howner

/-- A revocation writes the active rows with that id. -/
theorem stays_revokeTemplate {owns : Option String → Prop} {key : Key}
    (howns : ∀ row ∈ s.app.templates, key.isId row.id = true → row.revokedAt = none →
      owns (s.ownerOfCandidate row.candidateId)) (e : Env) :
    Stays owns s (exec d (.app (.db (.revokeTemplate key))) e s).1 := by
  have happ : (exec d (.app (.db (.revokeTemplate key))) e s).1 =
      { s with app := (App.exec d.toDeployment (.db (.revokeTemplate key)) e s.app).1 } := rfl
  rw [happ]
  cases hf : e.fails with
  | true =>
      rw [App.exec_db_of_fails hf]
      exact Stays.refl owns s
  | false =>
      rw [App.exec_db_of_succeeds hf rfl]
      refine ⟨⟨rfl, rfl, rfl, rfl⟩, ⟨.refl _ _, .refl _ _, ?_, .refl _ _, .refl _ _⟩⟩
      apply Changes.within_map.mpr
      intro row hrow
      split_ifs with hactive
      · rw [Bool.and_eq_true, Option.isNone_iff_eq_none] at hactive
        exact Or.inr (howns row hrow hactive.1 hactive.2)
      · exact Or.inl rfl

theorem rereadRow_keepsRows (searchKey : Key) (candidateId : String) :
    (lift (App.rereadRow searchKey candidateId)).Performs (exec d) Op.KeepsRows
      fun _ => True := by
  have hread : (App.rereadRow searchKey candidateId).Performs (App.exec d.toDeployment)
      (fun op => (Op.app op).KeepsRows) fun _ => True := by
    refine App.performs_query trivial fun listed => ?_
    cases listed with
    | error err => trivial
    | ok rows =>
        dsimp only
        split <;> trivial
  exact (appPart d).performs_embed hread fun _ hop => hop

theorem answerReview_keepsRows (candidateId : String) (payload : App.ReviewPayload)
    (decision : App.Decision) (outcome : Except App.QueryError App.ReviewDecisionOutcome) :
    (lift (App.answerReview d.toDeployment headers candidateId payload decision claims
      outcome)).Performs (exec d) Op.KeepsRows fun _ => True := by
  unfold App.answerReview
  split
  · exact saveMandatory_keepsRows _ _ _
  · trivial
  · rw [lift_bind]
    exact (lift_auth_keepsRows _).bind fun _ _ => trivial
  · trivial

/-- A decision of an actor that may see the search it names. -/
theorem recordReviewDecision_stays {candidateId : String} {payload : App.ReviewPayload}
    {decision : App.Decision} (name requestId : String)
    (hs : (CandidateWrite.review candidateId payload decision).Addresses d claims s)
    (hallows : App.Policy.reviewCandidate.allows claims.role = true) {s' : Casebook}
    (h : Untouched s s') :
    (lift (App.recordReviewDecision d.toDeployment payload.searchId candidateId decision claims.id
      name payload.reason payload.notes requestId)).wp (exec d) (fun _ => True)
      (fun _ _ s'' => Stays (Sees d s claims) s s'') s' := by
  unfold App.recordReviewDecision
  split
  next searchKey candidateKey hsearch hcandidate =>
    rw [lift_bind]
    refine wp_bind_of (wp_of_keepsRows newId_keepsRows s') ?_
    rintro evs eventId s₁ ⟨-, hsame⟩
    have h₁ : Untouched s s₁ := h.trans hsame
    have haddresses := h₁.addresses hs
    rw [lift_bind]
    refine wp_bind_of (S := fun _ _ s'' => Stays (Sees d s claims) s s'') ?_ ?_
    · intro e _
      refine h₁.stays.trans (stays_recordReviewDecision ?_ e)
      intro current hfind htarget
      rw [← h₁.owners.sees]
      refine haddresses hallows searchKey candidateKey current hsearch hcandidate hfind ?_
      exact fun htwice => htarget (targetStatus_eq_none.mpr htwice)
    · intro evs recorded s₂ h₂
      split
      · exact h₂
      · exact h₂
      · exact h₂
      · exact keepsTo_of_keepsRows (rereadRow_keepsRows searchKey candidateId) s₂ h₂
  next => exact h.stays

theorem review_stays {candidateId : String} {payload : App.ReviewPayload}
    {decision : App.Decision} (hactor : headers.authorization = some (.access claims))
    (hs : (CandidateWrite.review candidateId payload decision).Addresses d claims s) :
    (lift (App.review d.toDeployment headers candidateId payload decision)).wp (exec d)
      (fun _ => True) (fun _ _ s' => Stays (Sees d s claims) s s') s := by
  unfold App.review
  rw [lift_bind]
  refine wp_bind_of (authUser_wp hactor s) ?_
  rintro evs found s₁ ⟨hfound, h₁⟩
  cases found with
  | none => exact h₁.stays
  | some c =>
      rcases hfound c rfl with rfl
      dsimp only
      rw [lift_bind]
      refine wp_bind_of (requireRole_wp .reviewCandidate hactor s₁) ?_
      rintro evs allowed s₂ ⟨h₂, hallows⟩
      have h : Untouched s s₂ := h₁.trans h₂
      cases allowed with
      | false => exact h.stays
      | true =>
          rw [if_pos rfl, lift_bind]
          refine wp_bind_of (wp_of_keepsRows (actingName_keepsRows _) s₂) ?_
          rintro evs name s₃ ⟨-, h₃⟩
          rw [lift_bind]
          refine wp_bind_of (recordReviewDecision_stays name _ hs (hallows rfl) (h.trans h₃)) ?_
          intro evs outcome s₄ h₄
          exact keepsTo_of_keepsRows (answerReview_keepsRows candidateId payload decision outcome)
            s₄ h₄

theorem revokeTemplate_stays {candidateId templateId : String}
    (hactor : headers.authorization = some (.access claims))
    (hs : (CandidateWrite.revokeTemplate candidateId templateId).Addresses d claims s) :
    (lift (App.revokeTemplateRoute d.toDeployment headers candidateId templateId)).wp (exec d)
      (fun _ => True) (fun _ _ s' => Stays (Sees d s claims) s s') s := by
  unfold App.revokeTemplateRoute
  refine liftSignedIn_stays hactor fun hallows s₁ h₁ => ?_
  rw [lift_bind]
  refine wp_bind_of (loadCandidateById_wp candidateId s₁) ?_
  rintro evs found s₂ ⟨h₂, hfound⟩
  have h : Untouched s s₂ := h₁.trans h₂
  split
  next candidate =>
    have hcandidate := (hfound _ rfl).symm
    rw [h₁.owners.candidateAt] at hcandidate
    rw [lift_bind]
    refine wp_bind_of (authorizeCandidateScope_wp candidate s₂) ?_
    rintro evs authorized s₃ ⟨h₃, hsees⟩
    have h' : Untouched s s₃ := h.trans h₃
    cases authorized with
    | false => exact h'.stays
    | true =>
        have hsees' := hsees rfl
        rw [h.owners.sees] at hsees'
        rw [if_neg (by simp), lift_bind]
        unfold App.revokeTemplate
        cases hkey : d.key templateId with
        | none => exact h'.stays
        | some key =>
            refine wp_bind_of (S := fun _ _ s'' => Stays (Sees d s claims) s s'') ?_ ?_
            · intro e _
              refine h'.stays.trans (stays_revokeTemplate ?_ e)
              intro row hrow hid hactive
              rw [h'.templates] at hrow
              rw [h'.owners.ownerOfCandidate]
              exact hs hallows candidate key hcandidate hsees' hkey row hrow hid hactive
            · intro evs revoked s₄ h₄
              split
              · exact keepsTo_of_keepsRows (saveMandatory_keepsRows _ _ _) s₄ h₄
              · exact h₄
              · exact h₄
  next => exact h.stays

end Unchecked

end AnatoliaBis.Cases
