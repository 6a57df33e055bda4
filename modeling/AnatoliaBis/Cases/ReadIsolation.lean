import AnatoliaBis.Cases.Ownership
import AnatoliaBis.Lib.TwoRuns
import Mathlib.Data.Option.Basic
import Mathlib.Data.List.Forall2

/-! # Read isolation

Two casebooks agree for an actor when they differ in what belongs to candidates that the
actor may not see. Templates, evidence and the entity graph of a candidate are then the
same in both. The candidate itself is answered without a look at its organization, and
possible duplicates are looked for among all candidates.
-/

namespace AnatoliaBis.Cases

open Atomic Program
open Auth (Headers Env Key)

/-! ## Requests that read -/

/-- A request to a route that reads a candidate, or what belongs to it. -/
inductive CandidateRead where
  | candidate (id : String)
  | templates (candidateId : String)
  | evidence (candidateId : String)
  | entityGraph (candidateId : String)
  | possibleDuplicates (candidateId : String)

/-- The handler of a request. -/
def CandidateRead.handle (d : Deployment) (headers : Headers) : CandidateRead → Handler Reply
  | .candidate id => getCandidateRoute d headers id
  | .templates candidateId => listTemplatesRoute d headers candidateId
  | .evidence candidateId => listEvidenceRoute d headers candidateId
  | .entityGraph candidateId => entityGraphRoute d headers candidateId
  | .possibleDuplicates candidateId => possibleDuplicatesRoute d headers candidateId

/-! ## Agreement -/

/-- The same candidate: under one id, with one owner, and the same row if the actor may
see it. -/
def SameCandidate (d : Deployment) (s : Casebook) (claims : Auth.Claims)
    (a b : App.CandidateRow) : Prop :=
  b.id = a.id ∧ b.organizationId = a.organizationId ∧ (Sees d s claims a.organizationId → b = a)

/-- What belongs to a candidate that the actor may see. -/
def Visible (d : Deployment) (s : Casebook) (claims : Auth.Claims) (candidateId : Uuid) : Bool :=
  decide (Sees d s claims (s.ownerOfCandidate candidateId))

/-- The casebooks differ in the candidates that the actor may not see, and in what
belongs to them. -/
structure AgreesFor (d : Deployment) (claims : Auth.Claims) (s t : Casebook) : Prop where
  rest : t = { s with
    app := { s.app with candidates := t.app.candidates, templates := t.app.templates }
    evidence := t.evidence
    relations := t.relations }
  candidates : List.Forall₂ (SameCandidate d s claims) s.app.candidates t.app.candidates
  templates : (t.app.templates.filter fun row => Visible d s claims row.candidateId) =
    s.app.templates.filter fun row => Visible d s claims row.candidateId
  evidence : (t.evidence.filter fun row => Visible d s claims row.candidateId) =
    s.evidence.filter fun row => Visible d s claims row.candidateId
  relations : (t.relations.filter fun row => Visible d s claims row.candidateId) =
    s.relations.filter fun row => Visible d s claims row.candidateId

section Agreement

variable {d : Deployment} {claims : Auth.Claims} {s t : Casebook}

/-- Lists related row by row have related first elements of a kind. -/
theorem rel_find? {α : Type} {r : α → α → Prop} {p : α → Bool} {l l' : List α}
    (h : List.Forall₂ r l l') (hp : ∀ a b, r a b → p b = p a) :
    Option.Rel r (l.find? p) (l'.find? p) := by
  induction h with
  | nil => exact .none
  | @cons a b l l' hab _ ih =>
      rw [List.find?_cons, List.find?_cons, hp a b hab]
      cases p a with
      | true => exact .some hab
      | false => exact ih

/-- Rows of a kind are the same if they are among the visible ones. -/
theorem filter_of_visible {α : Type} {vis p : α → Bool} {rows rows' : List α}
    (h : rows'.filter vis = rows.filter vis) (hp : ∀ a, p a = true → vis a = true) :
    rows'.filter p = rows.filter p := by
  have hfilter : ∀ rows : List α, rows.filter p = (rows.filter vis).filter p := by
    intro rows
    rw [List.filter_filter]
    apply List.filter_congr
    intro a _
    cases hpa : p a with
    | false => rfl
    | true => simp [hp a hpa]
  rw [hfilter rows', hfilter rows, h]

/-- The candidates of a path. -/
theorem AgreesFor.candidateAt (h : AgreesFor d claims s t) (candidateId : String) :
    (s.candidateAt d candidateId = none ∧ t.candidateAt d candidateId = none) ∨
      ∃ a b, s.candidateAt d candidateId = some a ∧ t.candidateAt d candidateId = some b ∧
        SameCandidate d s claims a b := by
  have hrel : Option.Rel (SameCandidate d s claims) (s.candidateAt d candidateId)
      (t.candidateAt d candidateId) := by
    unfold Casebook.candidateAt
    cases d.key candidateId with
    | none => exact .none
    | some key =>
        apply rel_find? h.candidates
        rintro a b ⟨hid, -⟩
        rw [hid]
  generalize s.candidateAt d candidateId = found at hrel ⊢
  generalize t.candidateAt d candidateId = found' at hrel ⊢
  cases hrel with
  | none => exact Or.inl ⟨rfl, rfl⟩
  | @some a b hab => exact Or.inr ⟨a, b, rfl, rfl, hab⟩

/-- The memberships of the actor. -/
theorem AgreesFor.organizationIds (h : AgreesFor d claims s t) (u : Uuid) :
    t.organizationIds d u = s.organizationIds d u := by
  unfold Casebook.organizationIds App.Database.organizationsOf
  rw [h.rest]

/-- What a visible candidate owns is visible. -/
theorem visible_of_candidateAt {candidateId : String} {candidate : App.CandidateRow} {key : Key}
    {x : Uuid} (hkey : d.key candidateId = some key)
    (hcandidate : s.candidateAt d candidateId = some candidate)
    (hsees : Sees d s claims candidate.organizationId) (hx : key.isId x = true) :
    Visible d s claims x = true := by
  have hfind := hcandidate
  unfold Casebook.candidateAt at hfind
  rw [hkey] at hfind
  have hid : key.isId candidate.id = true := by
    have hfound := List.find?_some hfind
    exact hfound
  rw [App.isId_unique hx hid]
  unfold Visible
  rw [ownerOfCandidate_of_candidateAt hcandidate]
  exact decide_eq_true hsees

/-- Where the actor may see every candidate, nothing differs. -/
theorem AgreesFor.eq (h : AgreesFor d claims s t)
    (hall : ∀ row ∈ s.app.candidates, Sees d s claims row.organizationId) : t = s := by
  have hvisible : ∀ x, Visible d s claims x = true := by
    intro x
    unfold Visible Casebook.ownerOfCandidate
    cases hfind : s.app.candidates.find? fun row => row.id == x with
    | none => simp [Sees, App.canViewScopedResource]
    | some row => exact decide_eq_true (hall row (List.mem_of_find?_eq_some hfind))
  have hcandidates : t.app.candidates = s.app.candidates := by
    have hsame : List.Forall₂ (fun a b => b = a) s.app.candidates t.app.candidates := by
      refine ((List.forall₂_and_left _ _).mpr ⟨hall, h.candidates⟩).imp ?_
      rintro a b ⟨hsees, -, -, heq⟩
      exact heq hsees
    exact (List.forall₂_eq_eq_eq ▸ hsame.flip)
  have htemplates := h.templates
  have hevidence := h.evidence
  have hrelations := h.relations
  simp only [hvisible, List.filter_true] at htemplates hevidence hrelations
  rw [h.rest, hcandidates, htemplates, hevidence, hrelations]

end Agreement

/-! ## Requests on two casebooks -/

/-- The runs are on these two casebooks. -/
def Pinned (s t : Casebook) (s' t' : Casebook) : Prop := s' = s ∧ t' = t

section Requests

variable {d : Deployment} {headers : Headers} {claims : Auth.Claims} {s t : Casebook}

theorem authUser_coupled (hactor : headers.authorization = some (.access claims)) :
    Coupled (exec d) (Pinned s t) (fun a b => b = a ∧ ∀ c ∈ a, c = claims)
      (lift (App.lift (Auth.authUserFromHeaders headers)))
      (lift (App.lift (Auth.authUserFromHeaders headers))) := by
  unfold Auth.authUserFromHeaders
  rw [hactor]
  rintro ω s' t' ⟨rfl, rfl⟩
  refine ⟨⟨rfl, fun c hc => ?_⟩, ⟨rfl, rfl⟩, rfl⟩
  have haccess : (Auth.Token.access claims).accessClaims (ω 0).now = some c := hc
  have hclaims := (Auth.Token.accessClaims_eq_some.mp haccess).1
  injection hclaims with heq
  exact heq.symm

theorem requireRole_coupled {policy : App.Policy}
    (hactor : headers.authorization = some (.access claims)) :
    Coupled (exec d) (Pinned s t)
      (fun a b => b = a ∧ (a = true → policy.allows claims.role = true))
      (lift (App.requireRole headers policy)) (lift (App.requireRole headers policy)) := by
  unfold App.requireRole
  rw [lift_bind]
  refine (authUser_coupled hactor).bind ?_
  rintro _ found ⟨rfl, hfound⟩
  refine coupled_done ⟨rfl, fun hallowed => ?_⟩
  cases found with
  | none => cases hallowed
  | some c =>
      rcases hfound c rfl with rfl
      exact hallowed

/-- One operation that reads. -/
theorem read_coupled (op : Op) {S : op.Res → op.Res → Prop}
    (hread : ∀ e u, (exec d op e u).1 = u) (hS : ∀ e, S (exec d op e s).2 (exec d op e t).2) :
    Coupled (exec d) (Pinned s t) S (perform op) (perform op) := by
  rintro ω s' t' ⟨rfl, rfl⟩
  exact ⟨hS (ω 0), ⟨hread (ω 0) s', hread (ω 0) t'⟩, rfl⟩

/-- A statement that finds the same in both. -/
theorem query_coupled {q : Query} {r : Casebook → q.Res}
    (hq : ∀ now u, q.perform d now u = .ok (u, r u)) (hr : r t = r s) :
    Coupled (exec d) (Pinned s t) (fun a b => b = a) (query q) (query q) := by
  have hexec : ∀ e u, exec d (.db q) e u =
      (u, if e.fails then .error .failed else .ok (r u)) := by
    intro e u
    cases hf : e.fails with
    | true => exact exec_db_of_fails hf
    | false => exact exec_db_of_ok hf (hq e.now u)
  refine read_coupled (.db q) (fun e u => ?_) fun e => ?_
  · rw [hexec]
  · rw [hexec, hexec, hr]

/-- Each run finds the candidate of its own casebook, or both fail. -/
theorem loadCandidateById_coupled (candidateId : String) :
    Coupled (exec d) (Pinned s t)
      (fun a b => (a = .error .failed ∧ b = .error .failed) ∨
        (a = .ok (s.candidateAt d candidateId) ∧ b = .ok (t.candidateAt d candidateId)))
      (lift (App.loadCandidateById d.toDeployment candidateId))
      (lift (App.loadCandidateById d.toDeployment candidateId)) := by
  unfold App.loadCandidateById Casebook.candidateAt
  cases d.key candidateId with
  | none => exact coupled_done (Or.inr ⟨rfl, rfl⟩)
  | some key =>
      have hexec := exec_app_read (d := d) (q := .loadCandidateById key) (fun _ => rfl)
        fun _ _ => rfl
      refine read_coupled (.app (.db (.loadCandidateById key))) (fun e u => ?_) fun e => ?_
      · rw [hexec]
      · rw [hexec, hexec]
        cases e.fails with
        | true => exact Or.inl ⟨rfl, rfl⟩
        | false => exact Or.inr ⟨rfl, rfl⟩

/-- The organizations of the actor are the same in both. -/
theorem userOrganizationIds_coupled (h : AgreesFor d claims s t) (u : Uuid) :
    Coupled (exec d) (Pinned s t)
      (fun a b => b = a ∧ ∀ ids, a = .ok ids → ids = s.organizationIds d u)
      (lift (App.userOrganizationIds d.toDeployment u))
      (lift (App.userOrganizationIds d.toDeployment u)) := by
  have hids := h.organizationIds u
  unfold App.userOrganizationIds
  unfold Casebook.organizationIds at hids ⊢
  cases hkey : d.key u.text with
  | none => exact coupled_done ⟨rfl, fun ids h => (Except.ok.inj h).symm⟩
  | some key =>
      rw [hkey] at hids
      have hexec : ∀ e (v : Casebook), exec d (.app (.auth (.db (.userOrganizationIds key)))) e v =
          (v, if e.fails then .error .failed else .ok (v.app.organizationsOf key)) := by
        intro e v
        show ({ v with app := { v.app with
            auth := (Auth.exec d.toPlatform (.db (.userOrganizationIds key)) e v.app.auth).1 } },
          (Auth.exec d.toPlatform (.db (.userOrganizationIds key)) e v.app.auth).2) = _
        cases hf : e.fails with
        | true =>
            rw [Auth.exec_db_of_fails _ hf]
            rfl
        | false =>
            rw [Auth.exec_db_of_succeeds _ hf]
            rfl
      refine read_coupled (.app (.auth (.db (.userOrganizationIds key)))) (fun e v => ?_)
        fun e => ?_
      · rw [hexec]
      · rw [hexec, hexec]
        cases e.fails with
        | true => exact ⟨rfl, fun ids h => nomatch h⟩
        | false => exact ⟨congrArg Except.ok hids, fun ids h => (Except.ok.inj h).symm⟩

theorem authorizeCandidateScope_coupled (h : AgreesFor d claims s t) {a b : App.CandidateRow}
    (hab : SameCandidate d s claims a b) :
    Coupled (exec d) (Pinned s t)
      (fun x y => y = x ∧ (x = true → Sees d s claims a.organizationId))
      (lift (App.authorizeCandidateScope d.toDeployment claims a))
      (lift (App.authorizeCandidateScope d.toDeployment claims b)) := by
  unfold App.authorizeCandidateScope
  rw [lift_bind, lift_bind]
  refine (userOrganizationIds_coupled h claims.id).bind ?_
  rintro _ found ⟨rfl, hids⟩
  rw [hab.2.1]
  cases found with
  | ok ids =>
      rw [hids ids rfl]
      exact coupled_done ⟨rfl, id⟩
  | error err => exact coupled_done ⟨rfl, canView_mono⟩

/-- A route about a candidate gives the same answers if it does so about one that the actor
may see. -/
theorem withCandidate_coupled (h : AgreesFor d claims s t) {candidateId : String}
    {route : App.CandidateRow → Handler Reply}
    (hroute : ∀ candidate, s.candidateAt d candidateId = some candidate →
      Sees d s claims candidate.organizationId →
      Coupled (exec d) (Pinned s t) (fun a b => b = a) (route candidate) (route candidate)) :
    Coupled (exec d) (Pinned s t) (fun a b => b = a)
      (withCandidate d headers claims candidateId route)
      (withCandidate d headers claims candidateId route) := by
  unfold withCandidate
  refine (loadCandidateById_coupled candidateId).bind ?_
  rintro found found' (⟨rfl, rfl⟩ | ⟨rfl, rfl⟩)
  · exact coupled_done rfl
  · rcases h.candidateAt candidateId with ⟨hs, ht⟩ | ⟨a, b, hs, ht, hab⟩
    · rw [hs, ht]
      exact coupled_done rfl
    · rw [hs, ht]
      refine (authorizeCandidateScope_coupled h hab).bind ?_
      rintro _ authorized ⟨rfl, hsees⟩
      cases authorized with
      | false => exact coupled_done rfl
      | true =>
          have ha := hsees rfl
          rw [hab.2.2 ha]
          exact hroute a hs ha

theorem signedIn_coupled {policy : App.Policy} {route : Auth.Claims → Handler Reply}
    (hactor : headers.authorization = some (.access claims))
    (hroute : policy.allows claims.role = true →
      Coupled (exec d) (Pinned s t) (fun a b => b = a) (route claims) (route claims)) :
    Coupled (exec d) (Pinned s t) (fun a b => b = a) (signedIn headers policy route)
      (signedIn headers policy route) := by
  unfold signedIn
  refine (authUser_coupled hactor).bind ?_
  rintro _ found ⟨rfl, hfound⟩
  cases found with
  | none => exact coupled_done rfl
  | some c =>
      rcases hfound c rfl with rfl
      dsimp only
      split_ifs with hallows
      · exact hroute hallows
      · exact coupled_done rfl

/-- The rows of a visible candidate are the same in both. -/
theorem listTemplates_coupled (h : AgreesFor d claims s t) {candidateId : String}
    {candidate : App.CandidateRow} (hcandidate : s.candidateAt d candidateId = some candidate)
    (hsees : Sees d s claims candidate.organizationId) :
    Coupled (exec d) (Pinned s t) (fun a b => b = a) (listTemplatesForCandidate d candidateId)
      (listTemplatesForCandidate d candidateId) := by
  unfold listTemplatesForCandidate
  split
  · exact coupled_done rfl
  next key hkey =>
    refine query_coupled (q := .listTemplatesForCandidate key) (fun _ _ => rfl) ?_
    apply congrArg (newestFirst App.BiometricTemplateRow.createdAt)
    exact filter_of_visible h.templates fun row hrow =>
      visible_of_candidateAt hkey hcandidate hsees hrow

theorem listEvidence_coupled (h : AgreesFor d claims s t) {candidateId : String}
    {candidate : App.CandidateRow} (hcandidate : s.candidateAt d candidateId = some candidate)
    (hsees : Sees d s claims candidate.organizationId) :
    Coupled (exec d) (Pinned s t) (fun a b => b = a) (listEvidenceForCandidate d candidateId)
      (listEvidenceForCandidate d candidateId) := by
  unfold listEvidenceForCandidate
  split
  · exact coupled_done rfl
  next key hkey =>
    refine query_coupled (q := .listEvidenceForCandidate key) (fun _ _ => rfl) ?_
    apply congrArg (newestFirst EvidenceRow.createdAt)
    exact filter_of_visible h.evidence fun row hrow =>
      visible_of_candidateAt hkey hcandidate hsees hrow

theorem listRelations_coupled (h : AgreesFor d claims s t) {candidateId : String}
    {candidate : App.CandidateRow} (hcandidate : s.candidateAt d candidateId = some candidate)
    (hsees : Sees d s claims candidate.organizationId) :
    Coupled (exec d) (Pinned s t) (fun a b => b = a) (listRelationsForCandidate d candidateId)
      (listRelationsForCandidate d candidateId) := by
  unfold listRelationsForCandidate
  split
  · exact coupled_done rfl
  next key hkey =>
    refine query_coupled (q := .listRelationsForCandidate key) (fun _ _ => rfl) ?_
    apply congrArg (newestFirst EntityRelationRow.createdAt)
    refine filter_of_visible h.relations fun row hrow => ?_
    rw [Bool.and_eq_true] at hrow
    exact visible_of_candidateAt hkey hcandidate hsees hrow.1

theorem listTemplatesRoute_coupled (h : AgreesFor d claims s t)
    (hactor : headers.authorization = some (.access claims)) (candidateId : String) :
    Coupled (exec d) (Pinned s t) (fun a b => b = a) (listTemplatesRoute d headers candidateId)
      (listTemplatesRoute d headers candidateId) := by
  unfold listTemplatesRoute
  refine signedIn_coupled hactor fun _ => withCandidate_coupled h fun candidate hat hsees => ?_
  refine (listTemplates_coupled h hat hsees).bind ?_
  rintro _ found rfl
  cases found with
  | ok rows => exact coupled_done rfl
  | error err => exact coupled_done rfl

theorem listEvidenceRoute_coupled (h : AgreesFor d claims s t)
    (hactor : headers.authorization = some (.access claims)) (candidateId : String) :
    Coupled (exec d) (Pinned s t) (fun a b => b = a) (listEvidenceRoute d headers candidateId)
      (listEvidenceRoute d headers candidateId) := by
  unfold listEvidenceRoute
  refine signedIn_coupled hactor fun _ => withCandidate_coupled h fun candidate hat hsees => ?_
  refine (listEvidence_coupled h hat hsees).bind ?_
  rintro _ found rfl
  cases found with
  | ok rows => exact coupled_done rfl
  | error err => exact coupled_done rfl

theorem entityGraphRoute_coupled (h : AgreesFor d claims s t)
    (hactor : headers.authorization = some (.access claims)) (candidateId : String) :
    Coupled (exec d) (Pinned s t) (fun a b => b = a) (entityGraphRoute d headers candidateId)
      (entityGraphRoute d headers candidateId) := by
  unfold entityGraphRoute
  refine signedIn_coupled hactor fun _ => withCandidate_coupled h fun candidate hat hsees => ?_
  refine (listRelations_coupled h hat hsees).bind ?_
  rintro _ found rfl
  cases found with
  | ok rows => exact coupled_done rfl
  | error err => exact coupled_done rfl

/-- A candidate that the actor may see is answered the same. -/
theorem getCandidateRoute_coupled (h : AgreesFor d claims s t)
    (hactor : headers.authorization = some (.access claims)) {id : String}
    (hsees : App.Policy.viewSearch.allows claims.role = true → ∀ candidate,
      s.candidateAt d id = some candidate → Sees d s claims candidate.organizationId) :
    Coupled (exec d) (Pinned s t) (fun a b => b = a) (getCandidateRoute d headers id)
      (getCandidateRoute d headers id) := by
  unfold getCandidateRoute
  refine (authUser_coupled hactor).bind ?_
  rintro _ found ⟨rfl, -⟩
  cases found with
  | none => exact coupled_done rfl
  | some c =>
      refine (requireRole_coupled hactor).bind ?_
      rintro _ allowed ⟨rfl, hallows⟩
      cases allowed with
      | false => exact coupled_done rfl
      | true =>
          rw [if_neg (by simp)]
          refine (loadCandidateById_coupled id).bind ?_
          rintro found found' (⟨rfl, rfl⟩ | ⟨rfl, rfl⟩)
          · exact coupled_done rfl
          · rcases h.candidateAt id with ⟨hs, ht⟩ | ⟨a, b, hs, ht, hab⟩
            · rw [hs, ht]
              exact coupled_done rfl
            · rw [hs, ht, hab.2.2 (hsees (hallows rfl) a hs)]
              exact coupled_done rfl

end Requests

/-! ## The answers where nothing fails -/

section Answers

variable {d : Deployment} {headers : Headers} {claims : Auth.Claims} {s : Casebook}
  {α β : Type}

/-- A part that only reads, in front of another one. -/
theorem run_calm_bind {p : Handler α} {f : α → Handler β} {a : α}
    (hp : p.run (exec d) (fun _ => calm) s = (a, s)) :
    (p >>= f).run (exec d) (fun _ => calm) s = (f a).run (exec d) (fun _ => calm) s := by
  rw [run_bind, hp]

/-- Where no statement fails, the part reads `a`, whatever the clock shows. -/
def Reads (d : Deployment) (s : Casebook) (p : Handler α) (a : α) : Prop :=
  p.wp (exec d) (fun e => e.fails = false) (fun _ r s' => r = a ∧ s' = s) s

theorem Reads.run {p : Handler α} {a : α} (h : Reads d s p a) {ω : Nat → Env}
    (hω : ∀ n, (ω n).fails = false) : p.run (exec d) ω s = (a, s) := by
  have hp : p.wp (exec d) _ _ s := h
  exact Prod.ext (wp_run hp hω).1 (wp_run hp hω).2

theorem Reads.andThen {p : Handler (Except App.QueryError α)} {a : α}
    {f : α → Handler (Except App.QueryError β)} {b : Except App.QueryError β}
    (hp : Reads d s p (.ok a)) (hf : Reads d s (f a) b) : Reads d s (andThen p f) b := by
  refine wp_bind_of hp ?_
  rintro _ _ _ ⟨rfl, rfl⟩
  exact hf

theorem reads_query {q : Query} {r : q.Res} (hq : ∀ now, q.perform d now s = .ok (s, r)) :
    Reads d s (query q) (.ok r) := by
  intro e he
  have hexec : exec d (.db q) e s = (s, .ok r) := exec_db_of_ok he (hq _)
  show (exec d (.db q) e s).2 = .ok r ∧ (exec d (.db q) e s).1 = s
  rw [hexec]
  exact ⟨rfl, rfl⟩

theorem reads_loadCandidateById (candidateId : String) :
    Reads d s (lift (App.loadCandidateById d.toDeployment candidateId))
      (.ok (s.candidateAt d candidateId)) := by
  unfold App.loadCandidateById Casebook.candidateAt
  cases d.key candidateId with
  | none => exact ⟨rfl, rfl⟩
  | some key =>
      intro e he
      have hexec : App.exec d.toDeployment (.db (.loadCandidateById key)) e s.app =
          (s.app, .ok (s.app.candidates.find? fun row => key.isId row.id)) :=
        App.exec_db_of_succeeds he rfl
      show (App.exec d.toDeployment (.db (.loadCandidateById key)) e s.app).2 = _ ∧
        { s with app := (App.exec d.toDeployment (.db (.loadCandidateById key)) e s.app).1 } = s
      rw [hexec]
      exact ⟨rfl, rfl⟩

theorem authUser_run (hactor : headers.authorization = some (.access claims)) :
    (lift (App.lift (Auth.authUserFromHeaders headers))).run (exec d) (fun _ => calm) s =
      (some claims, s) := by
  unfold Auth.authUserFromHeaders
  rw [hactor]
  show ((Auth.Token.access claims).accessClaims calm.now, s) = _
  rw [Auth.Token.accessClaims_eq_some.mpr ⟨rfl, Nat.zero_le _⟩]

theorem requireRole_run {policy : App.Policy} (hallows : policy.allows claims.role = true)
    (hactor : headers.authorization = some (.access claims)) :
    (lift (App.requireRole headers policy)).run (exec d) (fun _ => calm) s = (true, s) := by
  unfold App.requireRole
  rw [lift_bind, run_calm_bind (authUser_run hactor)]
  show (policy.allows claims.role, s) = _
  rw [hallows]

theorem authorizeCandidateScope_run {candidate : App.CandidateRow}
    (hsees : Sees d s claims candidate.organizationId) :
    (lift (App.authorizeCandidateScope d.toDeployment claims candidate)).run (exec d)
      (fun _ => calm) s = (true, s) := by
  have hids : (lift (App.userOrganizationIds d.toDeployment claims.id)).run (exec d)
      (fun _ => calm) s = (.ok (s.organizationIds d claims.id), s) := by
    unfold App.userOrganizationIds Casebook.organizationIds
    cases d.key claims.id.text with
    | none => rfl
    | some key => rfl
  unfold App.authorizeCandidateScope
  rw [lift_bind, run_calm_bind hids]
  exact congrArg (·, s) hsees

theorem getCandidateRoute_run {id : String} {candidate : App.CandidateRow}
    (hactor : headers.authorization = some (.access claims))
    (hallows : App.Policy.viewSearch.allows claims.role = true)
    (hcandidate : s.candidateAt d id = some candidate) :
    ((getCandidateRoute d headers id).run (exec d) (fun _ => calm) s).1 =
      json (.candidate (candidateJson candidate)) := by
  unfold getCandidateRoute
  rw [run_calm_bind (authUser_run hactor)]
  dsimp only
  rw [run_calm_bind (requireRole_run hallows hactor), if_neg (by simp),
    run_calm_bind ((reads_loadCandidateById id).run fun _ => rfl), hcandidate]
  rfl

/-! ### Possible duplicates -/

/-- The evidence of the candidate of a path. -/
def Casebook.evidenceOf (d : Deployment) (s : Casebook) (candidateId : String) :
    List EvidenceRow :=
  match d.key candidateId with
  | none => []
  | some key => newestFirst (·.createdAt) (s.evidence.filter fun row => key.isId row.candidateId)

/-- Its relations. -/
def Casebook.relationsOf (d : Deployment) (s : Casebook) (candidateId : String) :
    List EntityRelationRow :=
  match d.key candidateId with
  | none => []
  | some key => newestFirst (·.createdAt) (s.relations.filter fun row =>
      key.isId row.candidateId && row.revokedAt.isNone)

/-- The values of its relations of one type. -/
def Casebook.valuesOf (d : Deployment) (s : Casebook) (candidateId relationType : String) :
    List String :=
  ((s.relationsOf d candidateId).filter fun row => row.relationType == relationType).map
    fun row => normalize d row.value

/-- What it is compared by. -/
def Casebook.signals (d : Deployment) (s : Casebook) (candidateId : String) : Signals :=
  ⟨(s.evidenceOf d candidateId).filterMap (·.url), s.valuesOf d candidateId RelationType.alias,
    s.valuesOf d candidateId RelationType.username,
    s.valuesOf d candidateId RelationType.organization⟩

/-- What is reported of a candidate as a duplicate of `target`. -/
def Casebook.duplicateOf (d : Deployment) (s : Casebook) (candidateId : String)
    (target candidate : App.CandidateRow) : Option PossibleDuplicate :=
  if candidate.id = target.id then none
  else compareCandidate d defaultNameSimilarityThreshold (normalize d target.fullName)
    (s.signals d candidateId) candidate (s.signals d candidate.id.text)

/-- The same for any threshold. -/
def Casebook.duplicateWithin (d : Deployment) (s : Casebook) (threshold : Rat)
    (candidateId : String) (target candidate : App.CandidateRow) : Option PossibleDuplicate :=
  if candidate.id = target.id then none
  else compareCandidate d threshold (normalize d target.fullName) (s.signals d candidateId)
    candidate (s.signals d candidate.id.text)

theorem reads_relationValues (candidateId relationType : String) :
    Reads d s (relationValues d candidateId relationType)
      (.ok (s.valuesOf d candidateId relationType)) := by
  have hrows : Reads d s (listRelationsForCandidate d candidateId)
      (.ok (s.relationsOf d candidateId)) := by
    unfold listRelationsForCandidate Casebook.relationsOf
    cases d.key candidateId with
    | none => exact ⟨rfl, rfl⟩
    | some key => exact reads_query fun _ => rfl
  exact hrows.andThen ⟨rfl, rfl⟩

theorem reads_signalsOf (candidateId : String) :
    Reads d s (signalsOf d candidateId) (.ok (s.signals d candidateId)) := by
  have hrows : Reads d s (listEvidenceForCandidate d candidateId)
      (.ok (s.evidenceOf d candidateId)) := by
    unfold listEvidenceForCandidate Casebook.evidenceOf
    cases d.key candidateId with
    | none => exact ⟨rfl, rfl⟩
    | some key => exact reads_query fun _ => rfl
  unfold signalsOf
  refine hrows.andThen ?_
  refine (reads_relationValues _ _).andThen ?_
  refine (reads_relationValues _ _).andThen ?_
  refine (reads_relationValues _ _).andThen ?_
  exact ⟨rfl, rfl⟩

theorem reads_compareAll (threshold : Rat) (candidateId : String) (target : App.CandidateRow)
    (candidates : List App.CandidateRow) :
    Reads d s (compareAll d threshold target.id (normalize d target.fullName)
      (s.signals d candidateId) candidates)
      (.ok (candidates.filterMap (s.duplicateWithin d threshold candidateId target))) := by
  induction candidates with
  | nil => exact ⟨rfl, rfl⟩
  | cons candidate candidates ih =>
      unfold compareAll
      by_cases hid : candidate.id = target.id
      · have hnone : s.duplicateWithin d threshold candidateId target candidate = none := if_pos hid
        rw [if_pos hid, List.filterMap_cons_none hnone]
        exact ih
      · have hfound : s.duplicateWithin d threshold candidateId target candidate =
            compareCandidate d threshold (normalize d target.fullName) (s.signals d candidateId)
              candidate (s.signals d candidate.id.text) := if_neg hid
        rw [if_neg hid]
        refine (reads_signalsOf _).andThen (ih.andThen ?_)
        rw [← hfound, List.filterMap_cons]
        cases s.duplicateWithin d threshold candidateId target candidate with
        | none => exact ⟨rfl, rfl⟩
        | some duplicate => exact ⟨rfl, rfl⟩

theorem reads_findPossibleDuplicates {candidateId : String} {target : App.CandidateRow}
    (htarget : s.candidateAt d candidateId = some target) (threshold : Rat) :
    Reads d s (findPossibleDuplicates d candidateId threshold)
      (.ok (((s.app.candidates.mergeSort fun a b =>
        d.textLe a.referenceCode b.referenceCode).filterMap
          (s.duplicateWithin d threshold candidateId target)).mergeSort fun a b =>
            decide (b.nameSimilarity ≤ a.nameSimilarity))) := by
  have hlisted : Reads d s (query .listCandidates)
      (.ok (s.app.candidates.mergeSort fun a b => d.textLe a.referenceCode b.referenceCode)) :=
    reads_query fun _ => rfl
  unfold findPossibleDuplicates
  refine (reads_loadCandidateById candidateId).andThen ?_
  rw [htarget]
  refine hlisted.andThen ((reads_signalsOf _).andThen ?_)
  exact (reads_compareAll threshold candidateId target _).andThen ⟨rfl, rfl⟩

/-- The items are those of all candidates, in some order. -/
theorem possibleDuplicatesRoute_run {candidateId : String} {target : App.CandidateRow}
    (hactor : headers.authorization = some (.access claims))
    (hallows : App.Policy.viewSearch.allows claims.role = true)
    (htarget : s.candidateAt d candidateId = some target)
    (hsees : Sees d s claims target.organizationId) :
    ∃ items, ((possibleDuplicatesRoute d headers candidateId).run (exec d) (fun _ => calm) s).1 =
        json (.possibleDuplicates items) ∧
      items.Perm ((s.app.candidates.filterMap (s.duplicateOf d candidateId target)).map
        (·.json)) := by
  unfold possibleDuplicatesRoute signedIn
  rw [run_calm_bind (authUser_run hactor)]
  dsimp only
  rw [if_pos hallows]
  unfold withCandidate
  rw [run_calm_bind ((reads_loadCandidateById candidateId).run fun _ => rfl), htarget]
  dsimp only
  unfold inScope
  rw [run_calm_bind (authorizeCandidateScope_run hsees), if_neg (by simp),
    run_calm_bind ((reads_findPossibleDuplicates htarget _).run fun _ => rfl)]
  refine ⟨_, rfl, List.Perm.map _ ?_⟩
  exact (List.mergeSort_perm _ _).trans ((List.mergeSort_perm _ _).filterMap _)

end Answers

/-! ## Another name for a candidate -/

/-- The casebook with another name for a candidate. -/
def Casebook.rename (s : Casebook) (x : Uuid) (fullName : String) : Casebook :=
  { s with app := { s.app with candidates := s.app.candidates.map fun row =>
      if row.id = x then { row with fullName := fullName } else row } }

section Rename

variable {d : Deployment} {claims : Auth.Claims} {s : Casebook} {foreign : App.CandidateRow}
  {fullName : String}

/-- The actor does not notice, if it may not see the candidate. -/
theorem agrees_rename (fullName : String) (hids : (s.app.candidates.map (·.id)).Nodup)
    (hforeign : foreign ∈ s.app.candidates) (hhidden : ¬ Sees d s claims foreign.organizationId) :
    AgreesFor d claims s (s.rename foreign.id fullName) := by
  refine ⟨rfl, ?_, rfl, rfl, rfl⟩
  apply List.forall₂_map_right_iff.mpr
  apply List.forall₂_same.mpr
  intro row hrow
  by_cases hid : row.id = foreign.id
  · have heq := List.inj_on_of_nodup_map hids hrow hforeign hid
    rw [if_pos hid]
    refine ⟨rfl, rfl, fun hsees => ?_⟩
    rw [heq] at hsees
    exact absurd hsees hhidden
  · rw [if_neg hid]
    exact ⟨rfl, rfl, fun _ => rfl⟩

/-- What a path names afterwards. -/
theorem candidateAt_rename (x : Uuid) (candidateId : String) :
    (s.rename x fullName).candidateAt d candidateId =
      (s.candidateAt d candidateId).map fun row =>
        if row.id = x then { row with fullName := fullName } else row := by
  unfold Casebook.candidateAt Casebook.rename
  cases d.key candidateId with
  | none => rfl
  | some key =>
      dsimp only [Option.bind_some]
      rw [List.find?_map]
      congr 2
      funext row
      dsimp only [Function.comp_apply]
      split_ifs <;> rfl

/-- An item shows the name of its candidate. -/
theorem fullName_of_duplicateOf {candidateId : String} {target candidate : App.CandidateRow}
    {duplicate : PossibleDuplicate}
    (h : s.duplicateOf d candidateId target candidate = some duplicate) :
    duplicate.json.fullName = candidate.fullName := by
  unfold Casebook.duplicateOf compareCandidate at h
  split_ifs at h
  dsimp only at h
  split_ifs at h
  rw [← Option.some.inj h]
  rfl

/-- A candidate of the same name is an item. -/
theorem duplicateOf_of_name (hself : ∀ a, d.jaroWinkler a a = 1) {candidateId : String}
    {target candidate : App.CandidateRow} (hid : candidate.id ≠ target.id)
    (hname : candidate.fullName = target.fullName) :
    s.duplicateOf d candidateId target candidate ≠ none := by
  unfold Casebook.duplicateOf compareCandidate
  rw [if_neg hid, hname, hself]
  have hsignal : "name_similarity" ∈ matchedSignals defaultNameSimilarityThreshold 1
      (s.signals d candidateId) (s.signals d candidate.id.text) := by
    unfold matchedSignals defaultNameSimilarityThreshold
    rw [if_pos (by norm_num)]
    simp
  dsimp only
  rw [if_neg (List.ne_nil_of_mem hsignal)]
  exact Option.some_ne_none _

theorem mem_of_candidateAt {candidateId : String} {candidate : App.CandidateRow}
    (h : s.candidateAt d candidateId = some candidate) : candidate ∈ s.app.candidates := by
  rcases Option.bind_eq_some_iff.mp h with ⟨key, -, hfind⟩
  exact List.mem_of_find?_eq_some hfind

theorem ne_append_self (a : String) : a ++ "'" ≠ a := by
  intro h
  have hlength := congrArg String.length h
  rw [String.length_append] at hlength
  simp at hlength

/-- A new name such that the old one or the new one is the given one. -/
theorem exists_other_name (old given : String) :
    ∃ name, name ≠ old ∧ (old = given ∨ name = given) := by
  by_cases h : old = given
  · exact ⟨old ++ "'", ne_append_self old, Or.inl h⟩
  · exact ⟨given, fun hgiven => h hgiven.symm, Or.inr rfl⟩

/-- What a list yields tells what one of its elements yields. -/
theorem filterMap_cancel {α β : Type} {g : α → Option β} {l₁ l₂ : List α} {a b : α}
    (h : ((l₁ ++ a :: l₂).filterMap g).Perm ((l₁ ++ b :: l₂).filterMap g)) : g a = g b := by
  have hone : ∀ c, (l₁ ++ c :: l₂).filterMap g =
      l₁.filterMap g ++ ((g c).toList ++ l₂.filterMap g) := by
    intro c
    rw [List.filterMap_append, List.filterMap_cons]
    cases g c <;> rfl
  rw [hone, hone, List.perm_append_left_iff, List.perm_append_right_iff] at h
  cases ha : g a with
  | none =>
      rw [ha] at h
      cases hb : g b with
      | none => rfl
      | some y =>
          rw [hb] at h
          exact absurd h.length_eq (by simp)
  | some x =>
      rw [ha] at h
      cases hb : g b with
      | none =>
          rw [hb] at h
          exact absurd h.length_eq (by simp)
      | some y =>
          rw [hb] at h
          exact congrArg some (List.singleton_perm_singleton.mp h)

/-- If the items stay the same, so does what is reported of the candidate renamed. -/
theorem duplicateOf_of_rename {g : App.CandidateRow → Option DuplicateItem} (fullName : String)
    (hids : (s.app.candidates.map (·.id)).Nodup) (hforeign : foreign ∈ s.app.candidates)
    (h : (s.app.candidates.filterMap g).Perm
      ((s.rename foreign.id fullName).app.candidates.filterMap g)) :
    g foreign = g { foreign with fullName := fullName } := by
  rcases List.append_of_mem hforeign with ⟨l₁, l₂, hsplit⟩
  have hothers : ∀ row ∈ l₁ ++ l₂, row.id ≠ foreign.id := by
    rw [hsplit, List.map_append, List.map_cons, List.nodup_middle, ← List.map_append,
      List.nodup_cons] at hids
    intro row hrow hid
    exact hids.1 (List.mem_map.mpr ⟨row, hrow, hid⟩)
  have hkept : ∀ l : List App.CandidateRow, (∀ row ∈ l, row.id ≠ foreign.id) →
      l.map (fun row => if row.id = foreign.id then { row with fullName := fullName } else row) =
        l := by
    intro l hl
    refine (List.map_congr_left fun row hrow => ?_).trans (List.map_id l)
    exact if_neg (hl row hrow)
  have hrenamed : (s.rename foreign.id fullName).app.candidates =
      l₁ ++ { foreign with fullName := fullName } :: l₂ := by
    unfold Casebook.rename
    dsimp only
    rw [hsplit, List.map_append, List.map_cons, if_pos rfl,
      hkept l₁ fun row hrow => hothers row (List.mem_append_left _ hrow),
      hkept l₂ fun row hrow => hothers row (List.mem_append_right _ hrow)]
  rw [hrenamed, hsplit] at h
  exact filterMap_cancel h

/-- What is reported shows the name. -/
theorem fullName_of_reported (hself : ∀ a, d.jaroWinkler a a = 1) {candidateId : String}
    {target : App.CandidateRow} (hid : foreign.id ≠ target.id)
    (hname : foreign.fullName = target.fullName ∨ fullName = target.fullName)
    (h : (s.duplicateOf d candidateId target foreign).map (·.json) =
      (s.duplicateOf d candidateId target { foreign with fullName := fullName }).map (·.json)) :
    fullName = foreign.fullName := by
  cases hold : s.duplicateOf d candidateId target foreign with
  | none =>
      rw [hold] at h
      cases hnew : s.duplicateOf d candidateId target { foreign with fullName := fullName } with
      | none =>
          rcases hname with hname | hname
          · exact absurd hold (duplicateOf_of_name hself hid hname)
          · exact absurd hnew (duplicateOf_of_name hself hid hname)
      | some duplicate =>
          rw [hnew] at h
          cases h
  | some duplicate =>
      rw [hold] at h
      cases hnew : s.duplicateOf d candidateId target { foreign with fullName := fullName } with
      | none =>
          rw [hnew] at h
          cases h
      | some duplicate' =>
          rw [hnew] at h
          have hitem := congrArg DuplicateItem.fullName (Option.some.inj h)
          rw [fullName_of_duplicateOf hold, fullName_of_duplicateOf hnew] at hitem
          exact hitem.symm

end Rename

/-! ## Read isolation -/

/-- The candidate that the request is about, or all of them, are those that the actor may
see; templates, evidence and the entity graph check that themselves. -/
def CandidateRead.Scoped (d : Deployment) (claims : Auth.Claims) (s : Casebook) :
    CandidateRead → Prop
  | .candidate id => App.Policy.viewSearch.allows claims.role = true →
      ∀ candidate, s.candidateAt d id = some candidate → Sees d s claims candidate.organizationId
  | .possibleDuplicates candidateId => App.Policy.viewSearch.allows claims.role = true →
      ∀ target, s.candidateAt d candidateId = some target →
        Sees d s claims target.organizationId →
        ∀ candidate ∈ s.app.candidates, Sees d s claims candidate.organizationId
  | _ => True

/-- **Read isolation.** The answers to a request are the same in all casebooks that agree
for the actor, if and only if the actor may see the candidate that it asks for, and may see
every candidate where it asks for duplicates of one that it may see. -/
theorem organization_reads_isolated (d : Deployment) (hself : ∀ a, d.jaroWinkler a a = 1)
    (headers : Headers) (claims : Auth.Claims)
    (hactor : headers.authorization = some (.access claims)) (request : CandidateRead)
    (s : Casebook) (hids : (s.app.candidates.map (·.id)).Nodup) :
    (∀ t, AgreesFor d claims s t → ∀ ω, ((request.handle d headers).run (exec d) ω t).1 =
        ((request.handle d headers).run (exec d) ω s).1) ↔
      request.Scoped d claims s := by
  constructor
  · intro hsame
    cases request with
    | candidate id =>
        intro hallows candidate hcandidate
        by_contra hhidden
        have hmem := mem_of_candidateAt hcandidate
        have hanswers := hsame _ (agrees_rename (candidate.fullName ++ "'") hids hmem hhidden)
          fun _ => calm
        have hrenamed : (s.rename candidate.id (candidate.fullName ++ "'")).candidateAt d id =
            some { candidate with fullName := candidate.fullName ++ "'" } := by
          rw [candidateAt_rename, hcandidate, Option.map_some, if_pos rfl]
        rw [show CandidateRead.handle d headers (.candidate id) = getCandidateRoute d headers id
          from rfl, getCandidateRoute_run hactor hallows hcandidate,
          getCandidateRoute_run hactor hallows hrenamed] at hanswers
        injection hanswers with _ hbody
        injection hbody with hitem
        exact ne_append_self candidate.fullName (congrArg CandidateItem.fullName hitem)
    | possibleDuplicates candidateId =>
        intro hallows target htarget hsees foreign hforeign
        by_contra hhidden
        have hid : foreign.id ≠ target.id := by
          intro hid
          have htargetMem := mem_of_candidateAt htarget
          rw [List.inj_on_of_nodup_map hids hforeign htargetMem hid] at hhidden
          exact hhidden hsees
        rcases exists_other_name foreign.fullName target.fullName with ⟨name, hne, hname⟩
        have hanswers := hsame _ (agrees_rename name hids hforeign hhidden)
          fun _ => calm
        have hrenamed : (s.rename foreign.id name).candidateAt d candidateId = some target := by
          rw [candidateAt_rename, htarget, Option.map_some, if_neg (Ne.symm hid)]
        have hsees' : Sees d (s.rename foreign.id name) claims target.organizationId := hsees
        rcases possibleDuplicatesRoute_run hactor hallows htarget hsees with ⟨items, hrun, hperm⟩
        rcases possibleDuplicatesRoute_run hactor hallows hrenamed hsees' with
          ⟨items', hrun', hperm'⟩
        rw [show CandidateRead.handle d headers (.possibleDuplicates candidateId) =
          possibleDuplicatesRoute d headers candidateId from rfl, hrun, hrun'] at hanswers
        injection hanswers with _ hbody
        injection hbody with hitems
        rw [hitems] at hperm'
        have hreported := duplicateOf_of_rename name hids hforeign
          (g := fun row => (s.duplicateOf d candidateId target row).map (·.json)) (by
            rw [← List.map_filterMap, ← List.map_filterMap]
            exact hperm.symm.trans hperm')
        exact hne (fullName_of_reported hself hid hname hreported)
    | _ => trivial
  · intro hscoped t h ω
    cases request with
    | candidate id =>
        exact (getCandidateRoute_coupled h hactor hscoped ω s t ⟨rfl, rfl⟩).1
    | templates candidateId =>
        exact (listTemplatesRoute_coupled h hactor candidateId ω s t ⟨rfl, rfl⟩).1
    | evidence candidateId =>
        exact (listEvidenceRoute_coupled h hactor candidateId ω s t ⟨rfl, rfl⟩).1
    | entityGraph candidateId =>
        exact (entityGraphRoute_coupled h hactor candidateId ω s t ⟨rfl, rfl⟩).1
    | possibleDuplicates candidateId =>
        by_cases hcompared : App.Policy.viewSearch.allows claims.role = true ∧ ∃ target,
            s.candidateAt d candidateId = some target ∧ Sees d s claims target.organizationId
        · rcases hcompared with ⟨hallows, target, htarget, hsees⟩
          rw [h.eq (hscoped hallows target htarget hsees)]
        · have hcoupled : Coupled (exec d) (Pinned s t) (fun a b => b = a)
              (possibleDuplicatesRoute d headers candidateId)
              (possibleDuplicatesRoute d headers candidateId) := by
            refine signedIn_coupled hactor fun hallows => ?_
            refine withCandidate_coupled h fun target htarget hsees => ?_
            exact absurd ⟨hallows, target, htarget, hsees⟩ hcompared
          exact (hcoupled ω s t ⟨rfl, rfl⟩).1

/-- A candidate of the operator's organization. -/
def sampleOwn : App.CandidateRow := ⟨0xab, "C-1", "Ada Demir", none, some (Uuid.text 0xa)⟩

/-- A candidate of another one. -/
def sampleForeign : App.CandidateRow := ⟨0xcd, "C-2", "Eda Kurt", none, some (Uuid.text 0xb)⟩

def sampleSplit : Casebook :=
  { sampleCasebook with app := { sampleCasebook.app with
    auth := { sampleCasebook.app.auth with memberships := [(1, Uuid.text 0xa)] }
    candidates := [sampleOwn, sampleForeign] } }

/-- The claims of the operator. -/
def sampleOperator : Auth.Claims :=
  ⟨1, Auth.sampleUser.userCode, "", Auth.sampleUser.role, 1111112009⟩

theorem organization_reads_isolated_sample :
    (((CandidateRead.candidate (Uuid.text 0xab)).handle (sampleDeployment .sqlite)
      (App.sampleBearer Auth.sampleUser)).run (exec (sampleDeployment .sqlite)) (fun _ => calm)
        (sampleSplit.rename sampleForeign.id "Ece Kurt")).1 =
    (((CandidateRead.candidate (Uuid.text 0xab)).handle (sampleDeployment .sqlite)
      (App.sampleBearer Auth.sampleUser)).run (exec (sampleDeployment .sqlite)) (fun _ => calm)
        sampleSplit).1 := by
  have hhidden : ¬ Sees (sampleDeployment .sqlite) sampleSplit sampleOperator
      sampleForeign.organizationId := by decide +kernel
  refine (organization_reads_isolated (sampleDeployment .sqlite) (fun a => if_pos rfl)
    (App.sampleBearer Auth.sampleUser) sampleOperator rfl (.candidate (Uuid.text 0xab))
    sampleSplit (by decide)).mpr ?_ _
      (agrees_rename "Ece Kurt" (by decide) (by simp [sampleSplit]) hhidden) (fun _ => calm)
  intro _ candidate hcandidate
  have hat : sampleSplit.candidateAt (sampleDeployment .sqlite) (Uuid.text 0xab) =
      some sampleOwn := by decide +kernel
  rw [hat] at hcandidate
  rw [← Option.some.inj hcandidate]
  decide +kernel

/-- The names that an answer shows. -/
def Reply.names (reply : Reply) : List String :=
  match reply.body with
  | .candidate candidate => [candidate.fullName]
  | .possibleDuplicates items => items.map (·.fullName)
  | _ => []

/-- The names that the operator is shown. -/
def sampleNames (s : Casebook) (request : CandidateRead) : List String :=
  ((request.handle (sampleDeployment .sqlite) (App.sampleBearer Auth.sampleUser)).run
    (exec (sampleDeployment .sqlite)) (fun _ => calm) s).1.names

/-- The names of the duplicates of the operator's own candidate, if there is one. -/
theorem sampleNames_duplicates {s : Casebook} {name : Option String}
    (hown : s.candidateAt (sampleDeployment .sqlite) (Uuid.text 0xab) = some sampleOwn)
    (hsees : Sees (sampleDeployment .sqlite) s sampleOperator sampleOwn.organizationId)
    (hname : (s.app.candidates.filterMap (s.duplicateOf (sampleDeployment .sqlite)
      (Uuid.text 0xab) sampleOwn)).map (·.json.fullName) = name.toList) :
    sampleNames s (.possibleDuplicates (Uuid.text 0xab)) = name.toList := by
  have hactor : (App.sampleBearer Auth.sampleUser).authorization =
      some (.access sampleOperator) := rfl
  rcases possibleDuplicatesRoute_run hactor (by decide) hown hsees with ⟨items, hrun, hperm⟩
  have hitems : sampleNames s (.possibleDuplicates (Uuid.text 0xab)) =
      items.map (·.fullName) := by
    unfold sampleNames CandidateRead.handle
    rw [hrun]
    rfl
  have hmap := hperm.map DuplicateItem.fullName
  rw [List.map_map] at hmap
  rw [hitems]
  have hnames : (items.map (·.fullName)).Perm name.toList := hmap.trans (.of_eq hname)
  cases name with
  | none => exact hnames.eq_nil
  | some name => exact List.perm_singleton.mp hnames

/-- The operator reads the name of the other organization's candidate, and finds it
among the duplicates of its own once it has the same name. -/
theorem foreign_rows_read :
    (∀ fullName, AgreesFor (sampleDeployment .sqlite) sampleOperator sampleSplit
      (sampleSplit.rename 0xcd fullName)) ∧
    sampleNames sampleSplit (.candidate (Uuid.text 0xcd)) = ["Eda Kurt"] ∧
    sampleNames (sampleSplit.rename 0xcd "Ada Demir") (.candidate (Uuid.text 0xcd)) =
      ["Ada Demir"] ∧
    sampleNames sampleSplit (.possibleDuplicates (Uuid.text 0xab)) = [] ∧
    sampleNames (sampleSplit.rename 0xcd "Ada Demir") (.possibleDuplicates (Uuid.text 0xab)) =
      ["Ada Demir"] := by
  refine ⟨fun fullName => ?_, ?_, ?_, ?_, ?_⟩
  · have hforeign : sampleForeign ∈ sampleSplit.app.candidates :=
      List.mem_cons_of_mem _ (List.mem_singleton_self _)
    exact agrees_rename fullName (by decide) hforeign (by decide +kernel)
  · decide +kernel
  · decide +kernel
  · exact sampleNames_duplicates (by decide +kernel) (by decide +kernel)
      (show _ = (none : Option String).toList by decide +kernel)
  · exact sampleNames_duplicates (by decide +kernel) (by decide +kernel)
      (show _ = (some "Ada Demir").toList by decide +kernel)

end AnatoliaBis.Cases
