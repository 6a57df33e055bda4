import AnatoliaBis.Cases.Candidates
import AnatoliaBis.App.Stamps
import AnatoliaBis.Lib.Changes

/-! # Owners of rows

A template, an evidence item or a relation belongs to the organization of its
candidate, a match or a verification event to that of its search. A request stays
within what an actor may see when every row that it rewrites or adds does.
-/

namespace AnatoliaBis.Cases

open Atomic Program
open Auth (Headers Env Key)

/-! ## Owners -/

namespace Casebook

def ownerOfSearch (s : Casebook) (x : Uuid) : Option String :=
  (s.app.searches.find? fun row => row.id == x).bind (·.organizationId)

def ownerOfCandidate (s : Casebook) (x : Uuid) : Option String :=
  (s.app.candidates.find? fun row => row.id == x).bind (·.organizationId)

/-- The search of each row of `search_candidates`. -/
def searchOfMatch (s : Casebook) : List (Uuid × Uuid) :=
  s.app.searchCandidates.rows.map fun row => (row.id, row.searchId)

/-- The owner of what belongs to a row of `search_candidates`. -/
def ownerOfMatch (s : Casebook) (id : Uuid) : Option String :=
  (s.searchOfMatch.find? fun row => row.1 == id).bind fun row => s.ownerOfSearch row.2

/-- The candidate that a path names. -/
def candidateAt (d : Deployment) (s : Casebook) (candidateId : String) :
    Option App.CandidateRow :=
  (d.key candidateId).bind fun key => s.app.candidates.find? fun row => key.isId row.id

/-- The organizations of the user of an access token. -/
def organizationIds (d : Deployment) (s : Casebook) (userId : Uuid) : List String :=
  ((d.key userId.text).map s.app.organizationsOf).getD []

end Casebook

/-- The actor may see what belongs to this owner. -/
def Sees (d : Deployment) (s : Casebook) (claims : Auth.Claims) (owner : Option String) : Prop :=
  App.canViewScopedResource claims.role (s.organizationIds d claims.id) owner = true

instance (d : Deployment) (s : Casebook) (claims : Auth.Claims) (owner : Option String) :
    Decidable (Sees d s claims owner) :=
  inferInstanceAs (Decidable (_ = true))

/-- Rows that are rewritten or added have an owner of a kind. -/
structure WritesWithin (owns : Option String → Prop) (s s' : Casebook) : Prop where
  matched : Changes.Within (fun row => owns (s.ownerOfSearch row.searchId))
    s.app.searchCandidates.rows s'.app.searchCandidates.rows
  events : Changes.Within (fun event => owns (s.ownerOfMatch event.searchCandidateId))
    s.app.verificationEvents s'.app.verificationEvents
  templates : Changes.Within (fun row => owns (s.ownerOfCandidate row.candidateId))
    s.app.templates s'.app.templates
  evidence : Changes.Within (fun row => owns (s.ownerOfCandidate row.candidateId))
    s.evidence s'.evidence
  relations : Changes.Within (fun row => owns (s.ownerOfCandidate row.candidateId))
    s.relations s'.relations

/-- What owners are computed from. -/
structure SameOwners (s s' : Casebook) : Prop where
  searches : s'.app.searches = s.app.searches
  candidates : s'.app.candidates = s.app.candidates
  searchOfMatch : s'.searchOfMatch = s.searchOfMatch
  memberships : s'.app.auth.memberships = s.app.auth.memberships

/-- Both. -/
structure Stays (owns : Option String → Prop) (s s' : Casebook) : Prop where
  owners : SameOwners s s'
  writes : WritesWithin owns s s'

section Owners

variable {owns : Option String → Prop} {s s' s'' : Casebook}

theorem SameOwners.ownerOfSearch (h : SameOwners s s') : s'.ownerOfSearch = s.ownerOfSearch := by
  funext x
  unfold Casebook.ownerOfSearch
  rw [h.searches]

theorem SameOwners.ownerOfCandidate (h : SameOwners s s') :
    s'.ownerOfCandidate = s.ownerOfCandidate := by
  funext x
  unfold Casebook.ownerOfCandidate
  rw [h.candidates]

theorem SameOwners.ownerOfMatch (h : SameOwners s s') : s'.ownerOfMatch = s.ownerOfMatch := by
  funext x
  unfold Casebook.ownerOfMatch
  rw [h.searchOfMatch, h.ownerOfSearch]

theorem SameOwners.candidateAt (h : SameOwners s s') (d : Deployment) :
    s'.candidateAt d = s.candidateAt d := by
  funext candidateId
  unfold Casebook.candidateAt
  rw [h.candidates]

theorem SameOwners.organizationIds (h : SameOwners s s') (d : Deployment) :
    s'.organizationIds d = s.organizationIds d := by
  funext u
  unfold Casebook.organizationIds App.Database.organizationsOf
  rw [h.memberships]

theorem SameOwners.sees (h : SameOwners s s') {d : Deployment} {claims : Auth.Claims}
    {owner : Option String} : Sees d s' claims owner ↔ Sees d s claims owner := by
  unfold Sees
  rw [h.organizationIds]

theorem Stays.refl (owns : Option String → Prop) (s : Casebook) : Stays owns s s :=
  ⟨⟨rfl, rfl, rfl, rfl⟩, ⟨.refl _ _, .refl _ _, .refl _ _, .refl _ _, .refl _ _⟩⟩

theorem Stays.mono {owns' : Option String → Prop} (h : Stays owns s s')
    (howns : ∀ owner, owns owner → owns' owner) : Stays owns' s s' := by
  rcases h with ⟨ho, hmatched, hevents, htemplates, hevidence, hrelations⟩
  exact ⟨ho, hmatched.mono fun _ => howns _, hevents.mono fun _ => howns _,
    htemplates.mono fun _ => howns _, hevidence.mono fun _ => howns _,
    hrelations.mono fun _ => howns _⟩

theorem Stays.trans (h : Stays owns s s') (h' : Stays owns s' s'') : Stays owns s s'' := by
  rcases h with ⟨ho, hw⟩
  rcases h' with ⟨ho', hw'⟩
  constructor
  · exact ⟨ho'.searches.trans ho.searches, ho'.candidates.trans ho.candidates,
      ho'.searchOfMatch.trans ho.searchOfMatch, ho'.memberships.trans ho.memberships⟩
  · rcases hw' with ⟨hmatched, hevents, htemplates, hevidence, hrelations⟩
    rw [ho.ownerOfSearch] at hmatched
    rw [ho.ownerOfMatch] at hevents
    rw [ho.ownerOfCandidate] at htemplates hevidence hrelations
    exact ⟨hw.matched.trans hmatched, hw.events.trans hevents, hw.templates.trans htemplates,
      hw.evidence.trans hevidence, hw.relations.trans hrelations⟩

/-- None of these rows is written. -/
def Untouched (s s' : Casebook) : Prop := Stays (fun _ => False) s s'

theorem Untouched.stays (h : Untouched s s') : Stays owns s s' := h.mono fun _ => False.elim

theorem Untouched.searchCandidates (h : Untouched s s') :
    s'.app.searchCandidates.rows = s.app.searchCandidates.rows :=
  Changes.within_false.mp h.writes.matched

theorem Untouched.verificationEvents (h : Untouched s s') :
    s'.app.verificationEvents = s.app.verificationEvents :=
  Changes.within_false.mp h.writes.events

theorem Untouched.templates (h : Untouched s s') : s'.app.templates = s.app.templates :=
  Changes.within_false.mp h.writes.templates

/-- A row of `search_candidates` is found under its id. -/
theorem ownerOfMatch_of_mem {row : App.SearchCandidate}
    (hrow : row ∈ s.app.searchCandidates.rows) :
    s.ownerOfMatch row.id = s.ownerOfSearch row.searchId := by
  have hfound : s.searchOfMatch.find? (fun found => found.1 == row.id) =
      some (row.id, row.searchId) := by
    unfold Casebook.searchOfMatch
    rw [List.find?_map]
    cases hfind : s.app.searchCandidates.rows.find?
        ((fun found => found.1 == row.id) ∘ fun row => (row.id, row.searchId)) with
    | none => exact absurd (List.find?_eq_none.mp hfind row hrow) (by simp)
    | some found =>
        have hid : found.id = row.id := by simpa using List.find?_some hfind
        have hmem := List.mem_of_find?_eq_some hfind
        rw [List.inj_on_of_nodup_map s.app.searchCandidates.idKey hmem hrow hid]
        rfl
  unfold Casebook.ownerOfMatch
  rw [hfound]
  rfl

end Owners

/-! ## Operations that write none of these rows -/

/-- The operations between the writes of a request. -/
def Op.KeepsRows : Op → Prop
  | .app (.auth _) | .app (.enrollImage _) | .collectOutcomes _ => True
  | .app (.db (.loadUserById _)) | .app (.db (.loadUserByIdIncludingDeleted _)) => True
  | .app (.db (.loadCandidateById _))
  | .app (.db (.findTemplateById _)) | .app (.db (.listActiveTemplates ..))
  | .app (.db (.listSearchCandidates _)) => True
  | .db (.findEvidenceById _) | .db (.listEvidenceForCandidate _) | .db (.findRelationById _) =>
      True
  | _ => False

section Keeps

variable {d : Deployment} {owns : Option String → Prop} {α : Type} {E : Env → Prop}
  {s : Casebook}

/-- A change of the tables of authentication is none of these rows. -/
theorem stays_of_auth {a : Auth.Server} (h : a.memberships = s.app.auth.memberships) :
    Stays owns s { s with app := { s.app with auth := a } } :=
  ⟨⟨rfl, rfl, rfl, h⟩, ⟨.refl _ _, .refl _ _, .refl _ _, .refl _ _, .refl _ _⟩⟩

/-- A statement of `App` that reads. -/
theorem exec_app_read {q : App.Query} (hunique : ∀ a, q.violatesUnique a = false)
    (hq : ∀ now a, (q.perform d.toDeployment now a).1 = a) (e : Env) (s : Casebook) :
    exec d (.app (.db q)) e s = (s, if e.fails then .error .failed
      else .ok (q.perform d.toDeployment e.now s.app).2) := by
  show ({ s with app := (App.exec d.toDeployment (.db q) e s.app).1 },
    (App.exec d.toDeployment (.db q) e s.app).2) = _
  cases hf : e.fails with
  | true =>
      rw [App.exec_db_of_fails hf]
      rfl
  | false =>
      rw [App.exec_db_of_succeeds hf (hunique _), hq]
      rfl

theorem stays_of_app_read {q : App.Query} (hunique : ∀ a, q.violatesUnique a = false)
    (hq : ∀ now a, (q.perform d.toDeployment now a).1 = a) (e : Env) (s : Casebook) :
    Stays owns s (exec d (.app (.db q)) e s).1 := by
  rw [exec_app_read hunique hq]
  exact Stays.refl owns s

/-- A statement that reads. -/
theorem stays_of_read {q : Query} (hq : ∀ now s, ∃ r, q.perform d now s = .ok (s, r)) (e : Env)
    (s : Casebook) : Stays owns s (exec d (.db q) e s).1 := by
  cases hf : e.fails with
  | true =>
      rw [exec_db_of_fails hf]
      exact Stays.refl owns s
  | false =>
      rcases hq e.now s with ⟨r, hr⟩
      rw [exec_db_of_ok hf hr]
      exact Stays.refl owns s

theorem stays_of_keepsRows {op : Op} (hop : op.KeepsRows) (e : Env) (s : Casebook) :
    Stays owns s (exec d op e s).1 := by
  unfold Op.KeepsRows at hop
  split at hop
  next c => exact stays_of_auth (Auth.exec_memberships c)
  next => exact Stays.refl owns s
  next => exact Stays.refl owns s
  all_goals first
    | exact stays_of_app_read (fun _ => rfl) (fun _ _ => rfl) e s
    | exact stays_of_read (fun _ _ => ⟨_, rfl⟩) e s
    | exact hop.elim

/-- A part of a handler between its writes. -/
theorem wp_of_keepsRows {p : Handler α} {R : α → Prop} (hp : p.Performs (exec d) Op.KeepsRows R)
    (s : Casebook) : p.wp (exec d) E (fun _ a s' => R a ∧ Untouched s s') s := by
  refine wp_mono ?_ (hp.wp (T := Untouched) (Stays.refl _) Stays.trans ?_ s)
  · rintro evs a s' ⟨-, ha, hstays⟩
    exact ⟨ha, hstays⟩
  · exact fun op e s _ hop => stays_of_keepsRows hop e s

/-- Authentication and the audit trail write other tables. -/
theorem lift_auth_keepsRows (h : Auth.Handler α) :
    (lift (App.lift h)).Performs (exec d) Op.KeepsRows fun _ => True := by
  induction h with
  | done a => trivial
  | call op next ih => exact ⟨trivial, fun e s => ih _⟩

theorem lift_bind {β : Type} (h : App.Handler α) (f : α → App.Handler β) :
    lift (h >>= f) = lift h >>= fun a => lift (f a) :=
  embed_bind _ _ _ _

end Keeps

/-- Nothing fails, and the clock stands still before any token has expired. -/
def calm : Env := ⟨Timestamp.seconds 0, Timestamp.seconds 0, 0, false⟩

/-! ## The checks of a route -/

section Checks

variable {d : Deployment} {owns : Option String → Prop} {E : Env → Prop} {s : Casebook}
  {headers : Headers} {claims : Auth.Claims}

theorem canView_mono {role : String} {ids : List String} {owner : Option String}
    (h : App.canViewScopedResource role [] owner = true) :
    App.canViewScopedResource role ids owner = true := by
  unfold App.canViewScopedResource at h ⊢
  cases owner with
  | none => simp
  | some id =>
      simp only [Option.all_some, List.contains_nil, Bool.or_false] at h
      rw [h, Bool.true_or]

/-- The bearer of an access token is its user, or nobody. -/
theorem authUser_wp (hactor : headers.authorization = some (.access claims)) (s : Casebook) :
    (lift (App.lift (Auth.authUserFromHeaders headers))).wp (exec d) E
      (fun _ found s' => (∀ c ∈ found, c = claims) ∧ Untouched s s') s := by
  have hfound : (lift (App.lift (Auth.authUserFromHeaders headers))).Performs (exec d)
      Op.KeepsRows fun found => ∀ c ∈ found, c = claims := by
    unfold Auth.authUserFromHeaders
    rw [hactor]
    refine ⟨trivial, fun e s c hc => ?_⟩
    have haccess : (Auth.Token.access claims).accessClaims e.now = some c := hc
    have hclaims := (Auth.Token.accessClaims_eq_some.mp haccess).1
    injection hclaims with heq
    exact heq.symm
  exact wp_of_keepsRows hfound s

/-- The candidate of a path owns what belongs to its id. -/
theorem ownerOfCandidate_of_candidateAt {candidateId : String} {candidate : App.CandidateRow}
    (h : s.candidateAt d candidateId = some candidate) :
    s.ownerOfCandidate candidate.id = candidate.organizationId := by
  rcases Option.bind_eq_some_iff.mp h with ⟨key, -, hfind⟩
  have hid : key.isId candidate.id = true := by
    have hfound := List.find?_some hfind
    exact hfound
  have hsame : (fun row : App.CandidateRow => row.id == candidate.id) =
      fun row => key.isId row.id := by
    funext row
    rw [Bool.eq_iff_iff, beq_iff_eq]
    constructor
    · intro hrow
      rw [hrow]
      exact hid
    · exact fun hrow => App.isId_unique hrow hid
  unfold Casebook.ownerOfCandidate
  rw [hsame, hfind]
  rfl

/-- The candidate of the path, if the look-up succeeds. -/
theorem loadCandidateById_wp (candidateId : String) (s : Casebook) :
    (lift (App.loadCandidateById d.toDeployment candidateId)).wp (exec d) E
      (fun _ found s' => Untouched s s' ∧ ∀ candidate, found = .ok candidate →
        candidate = s.candidateAt d candidateId) s := by
  unfold App.loadCandidateById Casebook.candidateAt
  cases hkey : d.key candidateId with
  | none => exact ⟨Stays.refl _ s, fun candidate h => (Except.ok.inj h).symm⟩
  | some key =>
      intro e _
      have hop : Op.KeepsRows (.app (.db (.loadCandidateById key))) := trivial
      refine ⟨stays_of_keepsRows hop e s, ?_⟩
      intro candidate hfound
      have hresult : (App.exec d.toDeployment (.db (.loadCandidateById key)) e s.app).2 =
          .ok candidate := hfound
      cases hf : e.fails with
      | true =>
          rw [App.exec_db_of_fails hf] at hresult
          cases hresult
      | false =>
          rw [App.exec_db_of_succeeds hf rfl] at hresult
          exact (Except.ok.inj hresult).symm

/-- The organizations of the actor, if the look-up succeeds. -/
theorem userOrganizationIds_wp (u : Uuid) (s : Casebook) :
    (lift (App.userOrganizationIds d.toDeployment u)).wp (exec d) E
      (fun _ found s' => Untouched s s' ∧ ∀ ids, found = .ok ids →
        ids = s.organizationIds d u) s := by
  unfold App.userOrganizationIds Casebook.organizationIds
  cases hkey : d.key u.text with
  | none => exact ⟨Stays.refl _ s, fun ids h => (Except.ok.inj h).symm⟩
  | some key =>
      intro e _
      refine ⟨stays_of_auth (Auth.exec_memberships _), ?_⟩
      intro ids hfound
      have hresult : (Auth.exec d.toPlatform (.db (.userOrganizationIds key)) e s.app.auth).2 =
          .ok ids := hfound
      cases hf : e.fails with
      | true =>
          rw [Auth.exec_db_of_fails _ hf] at hresult
          cases hresult
      | false =>
          rw [Auth.exec_db_of_succeeds _ hf] at hresult
          exact (Except.ok.inj hresult).symm

/-- `authorize_candidate_scope` says yes only to what the actor may see. -/
theorem authorizeCandidateScope_wp (candidate : App.CandidateRow) (s : Casebook) :
    (lift (App.authorizeCandidateScope d.toDeployment claims candidate)).wp (exec d) E
      (fun _ authorized s' => Untouched s s' ∧
        (authorized = true → Sees d s claims candidate.organizationId)) s := by
  unfold App.authorizeCandidateScope
  rw [lift_bind]
  refine wp_bind_of (userOrganizationIds_wp claims.id s) ?_
  rintro evs found s' ⟨hstays, hids⟩
  cases found with
  | ok ids =>
      rw [hids ids rfl]
      exact ⟨hstays, id⟩
  | error err => exact ⟨hstays, canView_mono⟩

/-- A route of a signed-in user. -/
theorem signedIn_stays {policy : App.Policy} {route : Auth.Claims → Handler Reply}
    (hactor : headers.authorization = some (.access claims))
    (hroute : ∀ s', Stays owns s s' →
      (route claims).wp (exec d) E (fun _ _ s'' => Stays owns s s'') s') :
    (signedIn headers policy route).wp (exec d) E (fun _ _ s' => Stays owns s s') s := by
  unfold signedIn
  refine wp_bind_of (authUser_wp hactor s) ?_
  rintro evs found s' ⟨hfound, hsame⟩
  cases found with
  | none => exact hsame.stays
  | some c =>
      rcases hfound c rfl with rfl
      dsimp only
      split_ifs
      · exact hroute s' hsame.stays
      · exact hsame.stays

/-- A candidate that the actor may see. -/
theorem inScope_stays {candidate : App.CandidateRow} {route : Handler Reply} {s₀ : Casebook}
    (hs : Stays owns s₀ s)
    (hroute : ∀ s', Stays owns s₀ s' → Sees d s₀ claims candidate.organizationId →
      route.wp (exec d) E (fun _ _ s'' => Stays owns s₀ s'') s') :
    (inScope d headers claims candidate route).wp (exec d) E (fun _ _ s' => Stays owns s₀ s') s := by
  unfold inScope
  refine wp_bind_of (authorizeCandidateScope_wp candidate s) ?_
  rintro evs authorized s' ⟨hsame, hsees⟩
  cases authorized with
  | false => exact hs.trans hsame.stays
  | true => exact hroute s' (hs.trans hsame.stays) (hs.owners.sees.mp (hsees rfl))

/-- The candidate of a path, which the actor may see. -/
theorem withCandidate_stays {candidateId : String} {route : App.CandidateRow → Handler Reply}
    {s₀ : Casebook} (hs : Stays owns s₀ s)
    (hroute : ∀ candidate s', Stays owns s₀ s' →
      Sees d s₀ claims (s₀.ownerOfCandidate candidate.id) →
      (route candidate).wp (exec d) E (fun _ _ s'' => Stays owns s₀ s'') s') :
    (withCandidate d headers claims candidateId route).wp (exec d) E
      (fun _ _ s' => Stays owns s₀ s') s := by
  unfold withCandidate
  refine wp_bind_of (loadCandidateById_wp candidateId s) ?_
  rintro evs found s' ⟨hsame, hfound⟩
  cases found with
  | error err => exact hs.trans hsame.stays
  | ok found =>
      cases found with
      | none => exact hs.trans hsame.stays
      | some candidate =>
          refine inScope_stays (hs.trans hsame.stays) fun s'' hs'' hsees => hroute candidate s'' hs'' ?_
          rw [← hs.owners.ownerOfCandidate,
            ownerOfCandidate_of_candidateAt (hfound _ rfl).symm]
          exact hsees

end Checks

end AnatoliaBis.Cases
