import AnatoliaBis.Cases.CandidateWrites

/-! # Write isolation

A request of an actor writes only rows that the actor may see, if and only if the row
it names is one of them: where nothing fails and the token is valid, a review writes
the row it finds, and a revocation every active template with the id it is given.
-/

namespace AnatoliaBis.Cases

open Atomic Program
open Auth (Headers Env Key)

/-! ## A run in which nothing fails -/

section Calm

variable {d : Deployment} {headers : Headers} {claims : Auth.Claims} {s : Casebook}

theorem authUser_calm (hactor : headers.authorization = some (.access claims)) (s : Casebook) :
    (lift (App.lift (Auth.authUserFromHeaders headers))).wp (exec d) (· = calm)
      (fun _ found s' => found = some claims ∧ Untouched s s') s := by
  have hfound : (lift (App.lift (Auth.authUserFromHeaders headers))).wp (exec d) (· = calm)
      (fun _ found _ => found = some claims) s := by
    unfold Auth.authUserFromHeaders
    rw [hactor]
    rintro e rfl
    show (Auth.Token.access claims).accessClaims calm.now = some claims
    exact Auth.Token.accessClaims_eq_some.mpr ⟨rfl, Nat.zero_le _⟩
  refine wp_mono ?_ (wp_and hfound (authUser_wp hactor s))
  rintro evs found s' ⟨h, -, hsame⟩
  exact ⟨h, hsame⟩

theorem requireRole_calm {policy : App.Policy} (hallows : policy.allows claims.role = true)
    (hactor : headers.authorization = some (.access claims)) (s : Casebook) :
    (lift (App.requireRole headers policy)).wp (exec d) (· = calm)
      (fun _ allowed s' => allowed = true ∧ Untouched s s') s := by
  unfold App.requireRole
  rw [lift_bind]
  refine wp_bind_of (authUser_calm hactor s) ?_
  rintro evs found s' ⟨rfl, hsame⟩
  exact ⟨hallows, hsame⟩

theorem loadCandidateById_calm (candidateId : String) (s : Casebook) :
    (lift (App.loadCandidateById d.toDeployment candidateId)).wp (exec d) (· = calm)
      (fun _ found s' => found = .ok (s.candidateAt d candidateId) ∧ Untouched s s') s := by
  have hok : (lift (App.loadCandidateById d.toDeployment candidateId)).wp (exec d) (· = calm)
      (fun _ found _ => ∃ candidate, found = .ok candidate) s := by
    unfold App.loadCandidateById
    split
    · exact ⟨none, rfl⟩
    next key hkey =>
      rintro e rfl
      exact ⟨_, rfl⟩
  refine wp_mono ?_ (wp_and hok (loadCandidateById_wp candidateId s))
  rintro evs found s' ⟨⟨candidate, rfl⟩, hsame, hcandidate⟩
  exact ⟨congrArg _ (hcandidate candidate rfl), hsame⟩

theorem authorizeCandidateScope_calm {candidate : App.CandidateRow}
    (hsees : Sees d s claims candidate.organizationId) :
    (lift (App.authorizeCandidateScope d.toDeployment claims candidate)).wp (exec d) (· = calm)
      (fun _ authorized s' => authorized = true ∧ Untouched s s') s := by
  unfold App.authorizeCandidateScope
  rw [lift_bind]
  have hok : (lift (App.userOrganizationIds d.toDeployment claims.id)).wp (exec d) (· = calm)
      (fun _ found _ => ∃ ids, found = .ok ids) s := by
    unfold App.userOrganizationIds
    split
    · exact ⟨[], rfl⟩
    next key hkey =>
      rintro e rfl
      exact ⟨_, rfl⟩
  refine wp_bind_of (wp_and hok (userOrganizationIds_wp claims.id s)) ?_
  rintro evs found s' ⟨⟨ids, rfl⟩, hsame, hids⟩
  rw [hids ids rfl]
  exact ⟨hsees, hsame⟩

/-- The transaction adds an event about the row. -/
theorem record_calm {entry : App.ReviewEntry} {current : App.SearchCandidate}
    (hfind : s.app.searchCandidates.find entry.searchId entry.candidateId = some current)
    (htarget : entry.targetStatus current ≠ none) :
    (exec d (.app (.db (.recordReviewDecision entry))) calm s).2 = .ok .stored ∧
      ∃ event, event.searchCandidateId = current.id ∧
        (exec d (.app (.db (.recordReviewDecision entry))) calm s).1.app.verificationEvents =
          s.app.verificationEvents ++ [event] := by
  have hexec := App.exec_db_of_succeeds (d := d.toDeployment) (e := calm)
    (q := .recordReviewDecision entry) (s := s.app) rfl rfl
  have hperform : (App.Query.recordReviewDecision entry).perform d.toDeployment calm.now s.app =
      s.app.record (d.now calm.now) entry := rfl
  rw [hperform] at hexec
  rcases App.record_cases s.app (d.now calm.now) entry with
    ⟨hnone, -⟩ | ⟨_, hsome, hrefused, -⟩ | ⟨found, status, hsome, -, h⟩
  · rw [hfind] at hnone
    cases hnone
  · rw [hfind] at hsome
    rcases Option.some.inj hsome with rfl
    exact absurd hrefused htarget
  · rw [hfind] at hsome
    rcases Option.some.inj hsome with rfl
    rw [h] at hexec
    refine ⟨congrArg Prod.snd hexec, entry.event current (d.now calm.now), rfl, ?_⟩
    exact congrArg (fun r => r.1.verificationEvents) hexec

/-- A decision that is not refused adds an event about the row. -/
theorem recordReviewDecision_calm {candidateId : String} {payload : App.ReviewPayload}
    {decision : App.Decision} {current : App.SearchCandidate} {searchKey candidateKey : Key}
    (name requestId : String) (hsearch : d.key payload.searchId = some searchKey)
    (hcandidate : d.key candidateId = some candidateKey)
    (hfind : s.app.searchCandidates.find searchKey candidateKey = some current)
    (honce : ¬ DecidesTwice d claims decision current) :
    (lift (App.recordReviewDecision d.toDeployment payload.searchId candidateId decision claims.id
      name payload.reason payload.notes requestId)).wp (exec d) (· = calm)
      (fun _ _ s' => ∃ event, event.searchCandidateId = current.id ∧
        s'.app.verificationEvents = s.app.verificationEvents ++ [event]) s := by
  unfold App.recordReviewDecision
  rw [hsearch, hcandidate]
  dsimp only
  rw [lift_bind]
  refine wp_bind_of (wp_of_keepsRows newId_keepsRows s) ?_
  rintro evs eventId s₁ ⟨-, h₁⟩
  rw [lift_bind]
  refine wp_bind_of (S := fun _ recorded s' => recorded = .ok .stored ∧ ∃ event,
    event.searchCandidateId = current.id ∧
      s'.app.verificationEvents = s.app.verificationEvents ++ [event]) ?_ ?_
  · rintro e rfl
    have hfind₁ : s₁.app.searchCandidates.find searchKey candidateKey = some current := by
      unfold App.SearchCandidateTable.find
      rw [h₁.searchCandidates]
      exact hfind
    rw [← h₁.verificationEvents]
    exact record_calm hfind₁ fun hrefused => honce (targetStatus_eq_none.mp hrefused)
  · rintro evs recorded s₂ ⟨rfl, event, hid, hevents⟩
    refine wp_mono ?_ (wp_of_keepsRows (rereadRow_keepsRows searchKey candidateId) s₂)
    rintro evs outcome s₃ ⟨-, h₃⟩
    exact ⟨event, hid, h₃.verificationEvents.trans hevents⟩

theorem review_calm {candidateId : String} {payload : App.ReviewPayload}
    {decision : App.Decision} {current : App.SearchCandidate} {searchKey candidateKey : Key}
    (hactor : headers.authorization = some (.access claims))
    (hallows : App.Policy.reviewCandidate.allows claims.role = true)
    (hsearch : d.key payload.searchId = some searchKey)
    (hcandidate : d.key candidateId = some candidateKey)
    (hfind : s.app.searchCandidates.find searchKey candidateKey = some current)
    (honce : ¬ DecidesTwice d claims decision current) :
    (lift (App.review d.toDeployment headers candidateId payload decision)).wp (exec d) (· = calm)
      (fun _ _ s' => ∃ event, event.searchCandidateId = current.id ∧
        s'.app.verificationEvents = s.app.verificationEvents ++ [event]) s := by
  unfold App.review
  rw [lift_bind]
  refine wp_bind_of (authUser_calm hactor s) ?_
  rintro evs found s₁ ⟨rfl, h₁⟩
  dsimp only
  rw [lift_bind]
  refine wp_bind_of (requireRole_calm hallows hactor s₁) ?_
  rintro evs allowed s₂ ⟨rfl, h₂⟩
  rw [if_pos rfl, lift_bind]
  have h : Untouched s s₂ := h₁.trans h₂
  refine wp_bind_of (wp_of_keepsRows (actingName_keepsRows _) s₂) ?_
  rintro evs name s₃ ⟨-, h₃⟩
  have h' : Untouched s s₃ := h.trans h₃
  have hfind₃ : s₃.app.searchCandidates.find searchKey candidateKey = some current := by
    unfold App.SearchCandidateTable.find
    rw [h'.searchCandidates]
    exact hfind
  rw [lift_bind]
  refine wp_bind_of (recordReviewDecision_calm name _ hsearch hcandidate hfind₃ honce) ?_
  rintro evs outcome s₄ ⟨event, hid, hevents⟩
  refine wp_mono ?_ (wp_of_keepsRows (answerReview_keepsRows candidateId payload decision outcome)
    s₄)
  rintro evs reply s₅ ⟨-, h₅⟩
  rw [h'.verificationEvents] at hevents
  exact ⟨event, hid, h₅.verificationEvents.trans hevents⟩

/-- The templates after a revocation. -/
def revoked (now : Timestamp) (key : Key) (templates : List App.BiometricTemplateRow) :
    List App.BiometricTemplateRow :=
  templates.map fun row =>
    if key.isId row.id && row.revokedAt.isNone then { row with revokedAt := some now } else row

theorem revokeTemplateRoute_calm {candidateId templateId : String}
    {candidate : App.CandidateRow} {key : Key}
    (hactor : headers.authorization = some (.access claims))
    (hallows : App.Policy.manageCandidates.allows claims.role = true)
    (hcandidate : s.candidateAt d candidateId = some candidate)
    (hsees : Sees d s claims candidate.organizationId) (hkey : d.key templateId = some key) :
    (lift (App.revokeTemplateRoute d.toDeployment headers candidateId templateId)).wp (exec d)
      (· = calm)
      (fun _ _ s' => s'.app.templates = revoked (d.now calm.now) key s.app.templates) s := by
  unfold App.revokeTemplateRoute App.signedIn
  rw [lift_bind]
  refine wp_bind_of (authUser_calm hactor s) ?_
  rintro evs found s₁ ⟨rfl, h₁⟩
  dsimp only
  rw [if_pos hallows, lift_bind]
  refine wp_bind_of (loadCandidateById_calm candidateId s₁) ?_
  rintro evs found s₂ ⟨rfl, h₂⟩
  rw [h₁.owners.candidateAt, hcandidate]
  dsimp only
  have h : Untouched s s₂ := h₁.trans h₂
  rw [lift_bind]
  refine wp_bind_of (authorizeCandidateScope_calm (h.owners.sees.mpr hsees)) ?_
  rintro evs authorized s₃ ⟨rfl, h₃⟩
  have h' : Untouched s s₃ := h.trans h₃
  rw [if_neg (by simp), lift_bind]
  unfold App.revokeTemplate
  rw [hkey]
  refine wp_bind_of (S := fun _ _ s' => s'.app.templates =
    revoked (d.now calm.now) key s.app.templates) ?_ ?_
  · rintro e rfl
    rw [← h'.templates]
    rfl
  · intro evs done s₄ h₄
    split
    · refine wp_mono ?_ (wp_of_keepsRows (saveMandatory_keepsRows _ _ _) s₄)
      rintro evs reply s₅ ⟨-, h₅⟩
      exact h₅.templates.trans h₄
    · exact h₄
    · exact h₄

end Calm

/-! ## Write isolation -/

/-- **Write isolation.** Whatever happens while a request is handled, every row that it
creates or changes is one that the actor may see, if and only if the row that a review
or a revocation names is. -/
theorem candidate_writes_isolated (d : Deployment) (headers : Headers) (claims : Auth.Claims)
    (hactor : headers.authorization = some (.access claims)) (request : CandidateWrite)
    (s : Casebook) :
    (∀ ω, WritesWithin (Sees d s claims) s ((request.handle d headers).run (exec d) ω s).2) ↔
      request.Addresses d claims s := by
  constructor
  · intro hwrites
    have hcalm := hwrites fun _ => calm
    cases request with
    | review candidateId payload decision =>
        intro hallows searchKey candidateKey current hsearch hcandidate hfind honce
        have hreview := wp_run (ω := fun _ => calm)
          (review_calm hactor hallows hsearch hcandidate hfind honce) (fun _ => rfl)
        rcases hreview with ⟨event, hid, hevents⟩
        have hwithin := hcalm.events
        rw [show CandidateWrite.handle d headers (.review candidateId payload decision) =
          (lift (App.review d.toDeployment headers candidateId payload decision)).map .ofApp
          from rfl, run_map, hevents] at hwithin
        have hsees := Changes.within_append.mp hwithin event (List.mem_singleton_self event)
        rw [hid, ownerOfMatch_of_mem (List.mem_of_find?_eq_some hfind)] at hsees
        exact hsees
    | revokeTemplate candidateId templateId =>
        intro hallows candidate key hcandidate hsees hkey row hrow hid hactive
        have hrevoked := wp_run (ω := fun _ => calm)
          (revokeTemplateRoute_calm hactor hallows hcandidate hsees hkey) (fun _ => rfl)
        have hwithin := hcalm.templates
        rw [show CandidateWrite.handle d headers (.revokeTemplate candidateId templateId) =
          (lift (App.revokeTemplateRoute d.toDeployment headers candidateId templateId)).map .ofApp
          from rfl, run_map, hrevoked] at hwithin
        have hchanged := Changes.within_map.mp hwithin row hrow
        rw [hid, hactive] at hchanged
        rcases hchanged with hsame | howns
        · have hstamp := congrArg App.BiometricTemplateRow.revokedAt hsame
          rw [hactive] at hstamp
          cases hstamp
        · exact howns
    | _ => trivial
  · intro hs ω
    have hstays : (request.handle d headers).wp (exec d) (fun _ => True)
        (fun _ _ s' => Stays (Sees d s claims) s s') s := by
      cases request with
      | review candidateId payload decision => exact wp_map (review_stays hactor hs)
      | uploadReferencePhoto candidateId image =>
          exact wp_map (uploadReferencePhoto_stays hactor candidateId image)
      | collectEvidence candidateId query => exact collectEvidence_stays hactor candidateId query
      | addEntityRelation candidateId relationType value =>
          exact addEntityRelation_stays hactor candidateId relationType value
      | revokeTemplate candidateId templateId => exact wp_map (revokeTemplate_stays hactor hs)
    exact (wp_run hstays fun _ => trivial).writes

/-! ## Two organizations -/

/-- What the access token of an account says. -/
def sampleClaims (user : Auth.UserRow) : Auth.Claims :=
  ⟨user.id, user.userCode, "", user.role, 1111112009⟩

/-- The operator and the reviewer belong to one organization, the search, one candidate
and its template to another one. -/
def sampleShared : Casebook where
  app := { App.sampleDatabase with
    auth := { App.sampleDatabase.auth with memberships := [(1, Uuid.text 0xa), (5, Uuid.text 0xa)] }
    searches := [{ sampleSearch with id := 7, organizationId := some (Uuid.text 0xb) }]
    candidates := [⟨0xab, "C-1", "Ada Demir", none, some (Uuid.text 0xa)⟩,
      ⟨0xcd, "C-2", "Eda Kurt", none, some (Uuid.text 0xb)⟩]
    templates := [⟨0xe, 0xcd, "arcface", "1", 512, "", .ofInt 1, none,
      Timestamp.seconds 1111111100, none⟩] }
  progress := fun _ => .queued
  evidence := []
  relations := []

theorem candidate_writes_isolated_sample :
    WritesWithin (Sees (sampleDeployment .sqlite) sampleShared (sampleClaims Auth.sampleUser))
      sampleShared (((CandidateWrite.addEntityRelation (Uuid.text 0xab) "alias" "Ada").handle
        (sampleDeployment .sqlite) (App.sampleBearer Auth.sampleUser)).run
          (exec (sampleDeployment .sqlite)) (Auth.steadily App.sampleNow 0) sampleShared).2 :=
  (candidate_writes_isolated (sampleDeployment .sqlite) (App.sampleBearer Auth.sampleUser)
    (sampleClaims Auth.sampleUser) rfl (.addEntityRelation (Uuid.text 0xab) "alias" "Ada")
    sampleShared).mpr trivial (Auth.steadily App.sampleNow 0)

/-- The casebook after a request. -/
def sampleWrite (user : Auth.UserRow) (request : CandidateWrite) : Casebook :=
  ((request.handle (sampleDeployment .sqlite) (App.sampleBearer user)).run
    (exec (sampleDeployment .sqlite)) (Auth.steadily App.sampleNow 0) sampleShared).2

/-- The reviewer decides on a candidate of the other organization's search, and the
operator revokes the other organization's template under the path of its own
candidate. -/
theorem foreign_rows_written :
    ¬ WritesWithin (Sees (sampleDeployment .sqlite) sampleShared (sampleClaims App.sampleReviewer))
        sampleShared (sampleWrite App.sampleReviewer
          (.review (Uuid.text 0xab) ⟨Uuid.text 7, none, none⟩ .confirmed)) ∧
      ¬ WritesWithin (Sees (sampleDeployment .sqlite) sampleShared (sampleClaims Auth.sampleUser))
        sampleShared (sampleWrite Auth.sampleUser
          (.revokeTemplate (Uuid.text 0xab) (Uuid.text 0xe))) := by
  constructor
  · intro hwrites
    have hall := Changes.within_nil.mp hwrites.events
    revert hall
    decide +kernel
  · intro hwrites
    have hforeign : ∀ row ∈ (sampleWrite Auth.sampleUser
        (.revokeTemplate (Uuid.text 0xab) (Uuid.text 0xe))).app.templates,
        row.revokedAt.isSome = true ∧ ¬ Sees (sampleDeployment .sqlite) sampleShared
          (sampleClaims Auth.sampleUser) (sampleShared.ownerOfCandidate row.candidateId) := by
      decide +kernel
    have hrow : (sampleWrite Auth.sampleUser
        (.revokeTemplate (Uuid.text 0xab) (Uuid.text 0xe))).app.templates ≠ [] := by
      intro hnil
      have hlength := congrArg List.length hnil
      revert hlength
      decide +kernel
    rcases List.exists_mem_of_ne_nil _ hrow with ⟨row, hmem⟩
    rcases hforeign row hmem with ⟨hrevoked, hhidden⟩
    rcases hwrites.templates.mem row hmem with hold | howns
    · rw [List.mem_singleton.mp hold] at hrevoked
      cases hrevoked
    · exact hhidden howns

end AnatoliaBis.Cases
