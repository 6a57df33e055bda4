import AnatoliaBis.Cases.Evidence
import AnatoliaBis.Cases.Failure

/-! # The results of a search

The rows of a search appear in one transaction. Reviews rewrite them, and a poll
reads the search and its rows with two statements, between which the task may finish.
What a poll lists is nothing, or all that the provider has returned to the task.
-/

namespace AnatoliaBis.Cases

open Atomic Program
open Auth (Headers Env)

/-! ## Rankings -/

/-- What is relied on of the provider: it ranks candidates of the database, the best
first. -/
structure Deployment.Ranks (d : Deployment) : Prop where
  known : ∀ a bytes topK e scored, d.searchFaces a bytes topK e = .ok scored →
    ∀ entry ∈ scored, ∃ c ∈ a.candidates, c.id = entry.1
  sorted : ∀ a bytes topK e scored, d.searchFaces a bytes topK e = .ok scored →
    scored.Pairwise fun p q => q.2 ≤ p.2

/-- A candidate and its score. -/
def scoreOf (row : App.SearchCandidate) : Uuid × Rat := (row.candidateId, row.score)

/-- What is stored for a search, in the order of its rows. -/
def Casebook.ranking (s : Casebook) (x : Uuid) : List (Uuid × Rat) :=
  (s.app.searchCandidates.rows.filter fun row => row.searchId == x).map scoreOf

section Steps

variable {d : Deployment} {s : Casebook} {x : Uuid} {e : Env}

/-- A review keeps what a ranking is made of. -/
theorem ranking_review (t : App.SearchCandidateTable) (id : Uuid) (status : App.ReviewStatus)
    (reviewer : Uuid) (name : String) (now : Timestamp) :
    ((t.review id status reviewer name now).rows.filter fun row => row.searchId == x).map scoreOf =
      (t.rows.filter fun row => row.searchId == x).map scoreOf := by
  unfold App.SearchCandidateTable.review
  dsimp only
  rw [List.filter_map, List.map_map]
  have hfilter : t.rows.filter ((fun row : App.SearchCandidate => row.searchId == x) ∘ fun row =>
      if row.id == id then { row with status := status, reviewedBy := some reviewer,
                                      reviewedByName := some name, reviewedAt := some now }
      else row) = t.rows.filter fun row => row.searchId == x := by
    apply List.filter_congr
    intro row _
    dsimp only [Function.comp_apply]
    split_ifs
    · rfl
    · rfl
  rw [hfilter]
  apply List.map_congr_left
  intro row _
  dsimp only [Function.comp_apply]
  split_ifs
  · rfl
  · rfl

/-- No operation of `App` changes a ranking. -/
theorem ranking_app (op : App.Op) (a : App.Database) :
    ((App.exec d.toDeployment op e a).1.searchCandidates.rows.filter fun row =>
        row.searchId == x).map scoreOf =
      (a.searchCandidates.rows.filter fun row => row.searchId == x).map scoreOf := by
  by_cases hop : ∃ entry, op = .db (.recordReviewDecision entry)
  · rcases hop with ⟨entry, rfl⟩
    cases hf : e.fails with
    | true => rw [App.exec_db_of_fails hf]
    | false =>
        rw [App.exec_db_of_succeeds hf rfl]
        show ((a.record (d.now e.now) entry).1.searchCandidates.rows.filter _).map scoreOf = _
        rcases App.record_cases a (d.now e.now) entry with
          ⟨-, h⟩ | ⟨_, -, -, h⟩ | ⟨_, _, -, -, h⟩
        · rw [h]
        · rw [h]
        · rw [h]
          exact ranking_review _ _ _ _ _ _
  · rw [App.searchCandidates_exec fun entry h => hop ⟨entry, h⟩]

/-- A finalization adds the rows of its own search. -/
theorem ranking_insertRows {t table : App.SearchCandidateTable} {firstId : Nat} {y : Uuid}
    {scored : List (Uuid × Rat)} {now : Timestamp}
    (htable : insertRows t (scoredRows firstId y scored now) = some table) :
    (table.rows.filter fun row => row.searchId == x).map scoreOf =
      (t.rows.filter fun row => row.searchId == x).map scoreOf ++ if y = x then scored else [] := by
  unfold insertRows at htable
  split_ifs at htable
  rw [← Option.some.inj htable]
  dsimp only
  rw [List.filter_append, List.map_append]
  congr 1
  have hsearch : ∀ row ∈ scoredRows firstId y scored now, row.searchId = y := by
    intro row hrow
    rcases List.mem_map.mp hrow with ⟨entry, -, rfl⟩
    rfl
  split_ifs with hy
  · have hall : (scoredRows firstId y scored now).filter (fun row => row.searchId == x) =
        scoredRows firstId y scored now := by
      apply List.filter_eq_self.mpr
      intro row hrow
      rw [hsearch row hrow, beq_iff_eq]
      exact hy
    have hscores : ∀ k, (scored.zipIdx k).map (fun entry => entry.1) = scored := by
      intro k
      exact List.zipIdx_map_fst k scored
    rw [hall]
    unfold scoredRows
    rw [List.map_map]
    exact hscores 0
  · rw [List.map_eq_nil_iff, List.filter_eq_nil_iff]
    intro row hrow
    rw [hsearch row hrow, beq_iff_eq]
    exact hy

/-- Only a finalization of the search that commits changes its ranking. -/
theorem ranking_exec (op : Op) :
    (∃ scored, op = .db (.finalizeQueuedSearch x scored) ∧
      Commits d x ⟨op, e, s, (exec d op e s).1⟩ ∧
      (exec d op e s).1.ranking x = s.ranking x ++ scored) ∨
    ¬ Commits d x ⟨op, e, s, (exec d op e s).1⟩ ∧
      (exec d op e s).1.ranking x = s.ranking x := by
  by_cases hcommits : Commits d x ⟨op, e, s, (exec d op e s).1⟩
  · rcases hcommits with ⟨scored, found, hop, hf, hcommit⟩
    rcases finalize_eq_ok hcommit with ⟨table, htable, hs'⟩
    refine Or.inl ⟨scored, hop, ⟨scored, found, hop, hf, hcommit⟩, ?_⟩
    dsimp only at hs'
    rw [hs']
    have hrows := ranking_insertRows (x := x) htable
    rw [if_pos rfl] at hrows
    exact hrows
  · refine Or.inr ⟨hcommits, ?_⟩
    rcases app_exec d op e s with ⟨op', rfl, happ⟩ | ⟨y, scored, found, rfl, hf, hcommit⟩ |
      ⟨y, code, key, f, rfl, -, hs'⟩ | happ
    · unfold Casebook.ranking
      rw [happ]
      exact ranking_app op' s.app
    · -- a finalization of another search
      have hy : y ≠ x := by
        rintro rfl
        exact hcommits ⟨scored, found, rfl, hf, hcommit⟩
      rcases finalize_eq_ok hcommit with ⟨table, htable, hs'⟩
      rw [hs']
      have hrows := ranking_insertRows (x := x) htable
      rw [if_neg hy, List.append_nil] at hrows
      exact hrows
    · rw [hs']
      rfl
    · unfold Casebook.ranking
      rw [happ]

/-- No operation removes a candidate. -/
theorem candidates_exec (op : Op) {c : App.CandidateRow} (hc : c ∈ s.app.candidates) :
    c ∈ (exec d op e s).1.app.candidates := by
  rcases app_exec d op e s with ⟨op', rfl, happ⟩ | ⟨y, scored, found, rfl, -, hcommit⟩ |
    ⟨y, code, key, f, rfl, -, hs'⟩ | happ
  · rw [happ]
    cases op' with
    | db q =>
        apply App.exec_db_store (I := fun a => c ∈ a.candidates) hc
        intro _ _
        cases q with
        | createCandidate candidate => exact List.mem_append_left _ hc
        | recordReviewDecision entry =>
            have hsame := App.record_same (f := App.Database.candidates) (fun _ _ _ => rfl) s.app
              (d.now e.now) entry
            exact hsame ▸ hc
        | _ => exact hc
    | _ => exact hc
  · rcases finalize_eq_ok hcommit with ⟨table, -, hs'⟩
    rw [hs']
    exact hc
  · rw [hs']
    exact hc
  · rw [happ]
    exact hc

theorem candidates_executes {s' : Casebook} {evs : List Step} (h : Executes (exec d) s evs s')
    {ev : Step} (hev : ev ∈ evs) {c : App.CandidateRow} (hc : c ∈ ev.before.app.candidates) :
    c ∈ s'.app.candidates := by
  rcases List.append_of_mem hev with ⟨before, later, rfl⟩
  rcases h.split with ⟨-, hafter, hrest⟩
  have hgrows := hrest.rel (T := fun s s' => ∀ c, c ∈ s.app.candidates → c ∈ s'.app.candidates)
    (fun _ _ hc => hc) (fun h h' c hc => h' c (h c hc)) fun ev _ hafter c hc => by
      rw [hafter]
      exact candidates_exec ev.op hc
  apply hgrows
  rw [hafter]
  exact candidates_exec ev.op hc

end Steps

/-! ## Listing a ranking -/

section Listing

variable {a : App.Database} {x : Uuid}

/-- The join drops no row whose candidate exists. -/
theorem map_joined {rows : List App.SearchCandidate}
    (h : ∀ row ∈ rows, ∃ c ∈ a.candidates, c.id = row.candidateId) :
    (rows.filterMap a.joined).map (fun row => scoreOf row.toSearchCandidate) =
      rows.map scoreOf := by
  induction rows with
  | nil => rfl
  | cons row rows ih =>
      have hjoined : (a.joined row).isSome = true := by
        rw [App.joined_isSome, List.any_eq_true]
        rcases h row (List.mem_cons_self ..) with ⟨c, hc, hid⟩
        exact ⟨c, hc, beq_iff_eq.mpr hid⟩
      rcases Option.isSome_iff_exists.mp hjoined with ⟨found, hfound⟩
      rw [List.filterMap_cons_some hfound, List.map_cons, List.map_cons,
        App.joined_eq_some hfound, ih fun row hrow => h row (List.mem_cons_of_mem _ hrow)]

/-- A ranking of candidates that exist, the best first, is listed as it is. -/
theorem listed_ranking {s : Casebook} {key : Auth.Key} (hkey : key.isId x = true)
    (hknown : ∀ entry ∈ s.ranking x, ∃ c ∈ s.app.candidates, c.id = entry.1)
    (hsorted : (s.ranking x).Pairwise fun p q => q.2 ≤ p.2) :
    (s.app.listed key).map (fun row => scoreOf row.toSearchCandidate) = s.ranking x := by
  have hsame : (s.app.searchCandidates.rows.filter fun row => key.isId row.searchId) =
      s.app.searchCandidates.rows.filter fun row => row.searchId == x := by
    apply List.filter_congr
    intro row _
    rw [Bool.eq_iff_iff, beq_iff_eq]
    constructor
    · intro hid
      exact App.isId_unique hid hkey
    · intro hid
      rw [hid]
      exact hkey
  unfold App.Database.listed
  rw [hsame]
  unfold Casebook.ranking at hknown hsorted ⊢
  rw [List.mergeSort_of_pairwise]
  · apply map_joined
    intro row hrow
    exact hknown (scoreOf row) (List.mem_map_of_mem hrow)
  · rw [List.pairwise_map] at hsorted
    apply hsorted.imp
    intro p q hle
    exact decide_eq_true hle

end Listing

/-! ## What a task and a poll keep to -/

/-- The provider returns this ranking to the task. -/
def Returns (d : Deployment) (task : SearchTask) (scored : List (Uuid × Rat)) (ev : Step) : Prop :=
  ev.op = .searchFaces task.imageBytes (task.topK % 2 ^ 64).toNat ∧
    d.searchFaces ev.before.app task.imageBytes (task.topK % 2 ^ 64).toNat ev.env = .ok scored

/-- A finalization is the first one of a task, of its own search, with what the
provider has returned to it. -/
def Finalizes (d : Deployment) (request : SearchRequest) (h : List Step) (op : Op) : Prop :=
  ∀ x scored, op = .db (.finalizeQueuedSearch x scored) →
    ∃ task, request = .runQueued task ∧ task.searchId = x ∧
      (∃ ev ∈ h, Returns d task scored ev) ∧ ∀ ev ∈ h, ev.op.isPlain = true

/-- The search as it was looked up. -/
def Finds (search : SearchRow) (ev : Step) : Prop :=
  ∃ row ∈ ev.before.app.searches, row.id = search.id ∧ row.status = search.status

/-- The search is looked up, and its rows are read after that. -/
def Lists (h : List Step) (search : SearchRow) (rows : List App.SearchCandidateRow) : Prop :=
  ∃ h₁ ev h₂ ev' h₃, h = h₁ ++ ev :: (h₂ ++ ev' :: h₃) ∧ Finds search ev ∧
    ∃ key : Auth.Key, key.isId search.id = true ∧ rows = ev'.before.app.listed key

/-- A poll shows what it has read. -/
def ShowsListed (h : List Step) (reply : Reply) : Prop :=
  ∀ search rows autoOsint, reply.body = .searchStatus search rows autoOsint →
    search.id < 16 ^ 32 → Lists h search rows

section Requests

variable {d : Deployment} {α : Type} {h : List Step} {request : SearchRequest}

theorem not_isPlain {x : Uuid} {scored : List (Uuid × Rat)} {op : Op} (hop : op.isPlain = true) :
    op ≠ .db (.finalizeQueuedSearch x scored) := by
  rintro rfl
  cases hop

/-- A part of a handler that finalizes nothing. -/
theorem finalizes_of_plain {p : Handler α} {R : α → Prop}
    (hp : p.Performs (exec d) (fun op => op.isPlain = true) R) :
    p.Guarantees (exec d) (Finalizes d request) (fun _ _ => True) h := by
  apply hp.guarantees
  · intro evs op _ hop x scored hfinalize
    exact absurd hfinalize (not_isPlain hop)
  · intro evs a _ _
    trivial

theorem lift_plain (p : App.Handler α) :
    (lift p).Performs (exec d) (fun op => op.isPlain = true) fun _ => True := by
  induction p with
  | done a => trivial
  | call op next ih => exact ⟨rfl, fun e s => ih _⟩

theorem loadSearchById_plain (id : String) :
    (loadSearchById d id).Performs (exec d) (fun op => op.isPlain = true) fun _ => True := by
  unfold loadSearchById
  split
  · trivial
  · exact ⟨rfl, fun _ _ => trivial⟩

theorem listSearchCandidates_plain (id : String) :
    (listSearchCandidates d id).Performs (exec d) (fun op => op.isPlain = true) fun _ => True := by
  unfold listSearchCandidates
  split
  · trivial
  · exact lift_plain _

theorem actorOrgIds_plain (claims : Auth.Claims) :
    (actorOrgIds d claims).Performs (exec d) (fun op => op.isPlain = true) fun _ => True := by
  unfold actorOrgIds
  split_ifs
  · trivial
  · refine (lift_plain _).bind fun found _ => ?_
    cases found with
    | ok ids => trivial
    | error err => trivial

theorem markQueuedSearchFailed_plain (x : Uuid) (code messageKey : String) :
    (markQueuedSearchFailed d x code messageKey).Performs (exec d) (fun op => op.isPlain = true)
      fun _ => True := by
  unfold markQueuedSearchFailed
  split
  · trivial
  · split
    · exact ⟨rfl, fun _ _ => trivial⟩
    · refine performs_query rfl fun r => ?_
      cases r with
      | error err => trivial
      | ok found => exact ⟨rfl, fun _ _ => trivial⟩

theorem concludeSearch_plain (task : SearchTask) (rid : Uuid)
    (outcome : Except App.QueryError (Option SearchRow)) :
    (concludeSearch d task rid outcome).Performs (exec d) (fun op => op.isPlain = true)
      fun _ => True := by
  rcases outcome with err | _ | search
  · exact (markQueuedSearchFailed_plain _ _ _).bind fun _ _ => lift_plain _
  · trivial
  · refine (listSearchCandidates_plain _).bind fun listed _ => ?_
    refine (lift_plain _).bind fun saved _ => ?_
    cases saved with
    | ok _ => trivial
    | error _ => exact (markQueuedSearchFailed_plain _ _ _).bind fun _ _ => trivial

theorem runQueuedSearch_finalizes (task : SearchTask) :
    (runQueuedSearch d task).Guarantees (exec d) (Finalizes d (.runQueued task))
      (fun _ _ => True) [] := by
  have hplain : ∀ {op : Op} {h : List Step}, op.isPlain = true →
      Finalizes d (.runQueued task) h op := by
    intro op h hop x scored hfinalize
    exact absurd hfinalize (not_isPlain hop)
  refine ⟨hplain rfl, fun e s => ⟨hplain rfl, fun e' s' => ?_⟩⟩
  dsimp only [exec]
  cases hfaces : d.searchFaces s'.app task.imageBytes (task.topK % 2 ^ 64).toNat e' with
  | error err =>
      apply finalizes_of_plain
      exact (markQueuedSearchFailed_plain _ _ _).bind fun _ _ => lift_plain _
  | ok scored =>
      unfold finalizeQueuedSearch
      split
      · apply finalizes_of_plain (R := fun _ => True)
        exact concludeSearch_plain task (exec d (.app (.auth .newId)) e s).2 (.ok none)
      · refine guarantees_query ?_ fun e'' s'' => finalizes_of_plain (concludeSearch_plain _ _ _)
        intro x scored' hop
        cases hop
        refine ⟨task, rfl, rfl, ⟨_, List.mem_append_right _ (List.mem_singleton_self _), rfl,
          hfaces⟩, ?_⟩
        intro ev hev
        rcases List.mem_append.mp hev with hev | hev
        · rw [List.mem_singleton.mp hev]
          rfl
        · rw [List.mem_singleton.mp hev]
          rfl

/-- The reads finalize nothing. -/
theorem withSearch_plain {headers : Headers} {claims : Auth.Claims} {id : String}
    {route : SearchRow → Handler Reply}
    (hroute : ∀ search, (route search).Performs (exec d) (fun op => op.isPlain = true)
      fun _ => True) :
    (withSearch d headers claims id route).Performs (exec d) (fun op => op.isPlain = true)
      fun _ => True := by
  refine (loadSearchById_plain id).bind fun found _ => ?_
  rcases found with err | _ | search
  · trivial
  · trivial
  · refine (actorOrgIds_plain claims).bind fun ids _ => ?_
    split
    · exact hroute search
    · trivial

theorem signedIn_plain {headers : Headers} {policy : App.Policy}
    {route : Auth.Claims → Handler Reply}
    (hroute : ∀ claims, (route claims).Performs (exec d) (fun op => op.isPlain = true)
      fun _ => True) :
    (signedIn headers policy route).Performs (exec d) (fun op => op.isPlain = true)
      fun _ => True := by
  refine (lift_plain _).bind fun claims _ => ?_
  cases claims with
  | none => trivial
  | some claims =>
      dsimp only
      split_ifs
      · exact hroute claims
      · trivial

theorem handle_finalizes (request : SearchRequest) :
    (request.handle d).Guarantees (exec d) (Finalizes d request) (fun _ _ => True) [] := by
  cases request with
  | runQueued task => exact (runQueuedSearch_finalizes task).map fun _ _ _ => trivial
  | status headers id =>
      apply finalizes_of_plain (R := fun _ => True)
      refine Performs.map (R := fun _ => True) ?_ fun _ _ => trivial
      refine signedIn_plain fun claims => withSearch_plain fun search => ?_
      refine (listSearchCandidates_plain _).bind fun listed _ => ?_
      cases listed with
      | error err => trivial
      | ok rows => trivial
  | search headers id =>
      apply finalizes_of_plain (R := fun _ => True)
      refine Performs.map (R := fun _ => True) ?_ fun _ _ => trivial
      exact signedIn_plain fun claims => withSearch_plain fun search => trivial
  | candidates headers id =>
      apply finalizes_of_plain (R := fun _ => True)
      refine Performs.map (R := fun _ => True) ?_ fun _ _ => trivial
      refine signedIn_plain fun claims => withSearch_plain fun search => ?_
      refine (listSearchCandidates_plain _).bind fun listed _ => ?_
      cases listed with
      | error err => trivial
      | ok rows => trivial
  | review headers candidateId payload decision =>
      apply finalizes_of_plain (R := fun _ => True)
      exact Performs.map (R := fun _ => True) (lift_plain _) fun _ _ => trivial

end Requests

section Polls

variable {d : Deployment} {h : List Step} {headers : Headers}

/-- A refusal shows no search. -/
theorem showsListed_ofApp (r : App.Reply) : ShowsListed h (.ofApp r) := by
  intro search rows autoOsint hbody
  cases hbody

/-- The look-up in front of a route is in its history. -/
theorem withSearch_finds {claims : Auth.Claims} {id : String} {route : SearchRow → Handler Reply}
    (hroute : ∀ search h₁ ev h₂, Finds search ev →
      (route search).Guarantees (exec d) (fun _ _ => True) ShowsListed (h₁ ++ ev :: h₂)) :
    (withSearch d headers claims id route).Guarantees (exec d) (fun _ _ => True)
      ShowsListed h := by
  unfold withSearch loadSearchById
  split
  · exact showsListed_ofApp _
  next key hkey =>
    refine guarantees_query trivial fun e s => ?_
    cases hf : e.fails with
    | true =>
        rw [exec_db_of_fails hf]
        exact showsListed_ofApp _
    | false =>
        rw [exec_db_of_ok hf rfl]
        dsimp only
        cases hfound : s.findSearch key with
        | none => exact showsListed_ofApp _
        | some search =>
            rcases Option.map_eq_some_iff.mp hfound with ⟨row, hrow, rfl⟩
            refine (guarantees_grows _ _).bind fun h' ids hgrown => ?_
            rcases hgrown with ⟨evs, rfl⟩
            split
            · rw [List.append_assoc]
              apply hroute
              exact ⟨row, List.mem_of_find?_eq_some hrow, rfl, rfl⟩
            · exact showsListed_ofApp _

/-- A route of a signed-in user on a search. -/
theorem signedIn_finds {policy : App.Policy} {id : String}
    {route : SearchRow → Handler Reply}
    (hroute : ∀ search h₁ ev h₂, Finds search ev →
      (route search).Guarantees (exec d) (fun _ _ => True) ShowsListed (h₁ ++ ev :: h₂)) :
    (signedIn headers policy fun claims => withSearch d headers claims id route).Guarantees
      (exec d) (fun _ _ => True) ShowsListed [] := by
  unfold signedIn
  refine (guarantees_grows _ []).bind fun h claims _ => ?_
  cases claims with
  | none => exact showsListed_ofApp _
  | some claims =>
      dsimp only
      split_ifs
      · exact withSearch_finds hroute
      · exact showsListed_ofApp _

theorem getSearchStatusRoute_lists (id : String) :
    (getSearchStatusRoute d headers id).Guarantees (exec d) (fun _ _ => True)
      ShowsListed [] := by
  unfold getSearchStatusRoute
  refine signedIn_finds fun search h₁ ev h₂ hfinds => ?_
  unfold listSearchCandidates
  split
  next hkey =>
    -- no text stands for the search
    intro shown rows autoOsint hbody hsize
    cases hbody
    rcases exists_key d hsize with ⟨key, hsome, -⟩
    rw [hkey] at hsome
    cases hsome
  next key hkey =>
    refine ⟨trivial, fun e s => ?_⟩
    cases hf : e.fails with
    | true =>
        have hresult : (exec d (.app (.db (.listSearchCandidates key))) e s).2 =
            .error .failed :=
          congrArg Prod.snd (App.exec_db_of_fails hf)
        rw [hresult]
        exact showsListed_ofApp _
    | false =>
        have hresult : (exec d (.app (.db (.listSearchCandidates key))) e s).2 =
            .ok (s.app.listed key) :=
          congrArg Prod.snd (App.exec_db_of_succeeds hf rfl)
        rw [hresult]
        intro shown rows autoOsint hbody _
        cases hbody
        have hid : key.isId search.id = true := (App.isId_of_key_text hkey).mpr rfl
        refine ⟨h₁, ev, h₂, ⟨.app (.db (.listSearchCandidates key)), e, s,
          (exec d (.app (.db (.listSearchCandidates key))) e s).1⟩, [], ?_, hfinds, key, hid, rfl⟩
        rw [List.append_assoc, List.cons_append]

theorem getSearchRoute_showsListed (id : String) :
    (getSearchRoute d headers id).Guarantees (exec d) (fun _ _ => True) ShowsListed [] := by
  refine signedIn_finds fun search h₁ ev h₂ _ shown rows autoOsint hbody => ?_
  cases hbody

theorem getSearchCandidatesRoute_showsListed (id : String) :
    (getSearchCandidatesRoute d headers id).Guarantees (exec d) (fun _ _ => True)
      ShowsListed [] := by
  refine signedIn_finds fun search h₁ ev h₂ _ => ?_
  refine (guarantees_grows _ _).bind fun h listed _ => ?_
  cases listed with
  | error err => exact showsListed_ofApp _
  | ok listed =>
      intro shown rows autoOsint hbody
      cases hbody

theorem handle_lists (request : SearchRequest) :
    (request.handle d).Guarantees (exec d) (fun _ _ => True)
      (fun h answer => ∀ reply ∈ answer, ShowsListed h reply) [] := by
  cases request with
  | runQueued task =>
      refine (guarantees_grows (runQueuedSearch d task) []).map fun h answer _ reply hreply => ?_
      cases hreply
  | status headers id =>
      refine (getSearchStatusRoute_lists id).map fun h reply hreply answer hanswer => ?_
      rwa [← Option.some.inj hanswer]
  | search headers id =>
      refine (getSearchRoute_showsListed id).map fun h reply hreply answer hanswer => ?_
      rwa [← Option.some.inj hanswer]
  | candidates headers id =>
      refine (getSearchCandidatesRoute_showsListed id).map fun h reply hreply answer hanswer => ?_
      rwa [← Option.some.inj hanswer]
  | review headers candidateId payload decision =>
      refine (guarantees_grows _ []).map fun h reply _ answer hanswer => ?_
      rw [← Option.some.inj hanswer]
      exact showsListed_ofApp _

end Polls

/-! ## The search over a run -/

/-- The provider has returned this ranking to a task of the search. -/
def Answered {ι : Type} (d : Deployment) (requests : ι → SearchRequest) (x : Uuid)
    (log : List (ι × Step)) (scored : List (Uuid × Rat)) : Prop :=
  ∃ i task ev, requests i = .runQueued task ∧ task.searchId = x ∧ (i, ev) ∈ log ∧
    Returns d task scored ev

/-- Either nothing is stored, or all of what the provider has returned. -/
inductive Stage {ι : Type} (d : Deployment) (requests : ι → SearchRequest) (x : Uuid)
    (log : List (ι × Step)) (s : Casebook) : Prop
  | waiting (hlog : ∀ entry ∈ log, ¬ Commits d x entry.2) (hranking : s.ranking x = [])
      (hcompleted : ¬ s.Completed x)
  | stored (hlog : ∃ entry ∈ log, Commits d x entry.2)
      (hanswered : Answered d requests x log (s.ranking x))

section Run

variable {ι : Type} [DecidableEq ι] {d : Deployment} {requests : ι → SearchRequest} {x : Uuid}
  {s s' : Casebook} {log log' : List (ι × Step)}

omit [DecidableEq ι] in
theorem Answered.append {scored : List (Uuid × Rat)} (h : Answered d requests x log scored) :
    Answered d requests x (log ++ log') scored := by
  rcases h with ⟨i, task, ev, hi, hx, hev, hreturns⟩
  exact ⟨i, task, ev, hi, hx, List.mem_append_left _ hev, hreturns⟩

/-- The search has one task at most. -/
def OneTask (requests : ι → SearchRequest) (x : Uuid) : Prop :=
  ∀ i j task task', requests i = .runQueued task → requests j = .runQueued task' →
    task.searchId = x → task'.searchId = x → i = j

/-- One more operation. -/
theorem Stage.concat (hone : OneTask requests x) {i : ι} {op : Op} {e : Env}
    (h : Stage d requests x log s)
    (hlog : ∀ j ev, (j, ev) ∈ log → Commits d x ev →
      ∃ task, requests j = .runQueued task ∧ task.searchId = x)
    (hfinalizes : Finalizes d (requests i) (Pool.own i log) op) :
    Stage d requests x (log ++ [(i, ⟨op, e, s, (exec d op e s).1⟩)]) (exec d op e s).1 := by
  rcases ranking_exec (d := d) (s := s) (x := x) (e := e) op with
    ⟨scored, hop, hcommits, hadds⟩ | ⟨hquiet, hsame⟩
  · -- the finalization of the search: its task has not performed another one
    rcases hfinalizes x scored hop with ⟨task, hi, hx, ⟨ev, hev, hreturns⟩, hplain⟩
    cases h with
    | waiting hnone hranking hcompleted =>
        apply Stage.stored
        · exact ⟨_, List.mem_append_right _ (List.mem_singleton_self _), hcommits⟩
        · rw [hadds, hranking, List.nil_append]
          exact ⟨i, task, ev, hi, hx, List.mem_append_left _ (Pool.mem_own.mp hev), hreturns⟩
    | stored hcommitted _ =>
        rcases hcommitted with ⟨⟨j, ev'⟩, hentry, hearlier⟩
        rcases hlog j ev' hentry hearlier with ⟨task', hj, hx'⟩
        have hji : j = i := hone j i task' task hj hi hx' hx
        rcases hearlier with ⟨scored', found, hop', -⟩
        rw [hji] at hentry
        exact absurd hop' (not_isPlain (hplain ev' (Pool.mem_own.mpr hentry)))
  · cases h with
    | waiting hnone hranking hcompleted =>
        apply Stage.waiting
        · intro entry hentry
          rcases List.mem_append.mp hentry with hentry | hentry
          · exact hnone entry hentry
          · rw [List.mem_singleton.mp hentry]
            exact hquiet
        · rw [hsame, hranking]
        · intro hafter
          rcases completed_exec hafter with hcommits | ⟨hbefore, -⟩
          · exact hquiet hcommits
          · exact hcompleted hbefore
    | stored hcommitted hanswered =>
        rcases hcommitted with ⟨entry, hentry, hcommits⟩
        apply Stage.stored
        · exact ⟨entry, List.mem_append_left _ hentry, hcommits⟩
        · rw [hsame]
          exact hanswered.append

/-- The search after any schedule. -/
theorem stage_of_log (hone : OneTask requests x) (hranking : s.ranking x = [])
    (hcompleted : ¬ s.Completed x) (h : Executes (exec d) s (log.map Prod.snd) s')
    (hops : ∀ l i ev l', log = l ++ (i, ev) :: l' →
      Finalizes d (requests i) (Pool.own i l) ev.op) :
    Stage d requests x log s' := by
  induction log using List.reverseRecOn generalizing s' with
  | nil =>
      cases h with
      | nil => exact .waiting (fun _ hentry => nomatch hentry) hranking hcompleted
  | append_singleton log entry ih =>
      rcases entry with ⟨i, op, e, t, t'⟩
      rw [List.map_append] at h
      rcases h.split with ⟨hbefore, hafter, hrest⟩
      cases hrest with
      | nil =>
        dsimp only at hafter hbefore
        rw [hafter]
        have hstage : Stage d requests x log t := by
          apply ih hbefore
          intro l j ev l' hl
          apply hops l j ev (l' ++ [(i, ⟨op, e, t, t'⟩)])
          rw [hl]
          simp
        apply hstage.concat hone
        · intro j ev hev hcommits
          rcases List.append_of_mem hev with ⟨l, l', rfl⟩
          rcases hcommits with ⟨scored, found, hop, -⟩
          have hfinalizes := hops l j ev (l' ++ [(i, ⟨op, e, t, t'⟩)]) (by simp)
          rcases hfinalizes x scored hop with ⟨task, hj, hx, -⟩
          exact ⟨task, hj, hx⟩
        · exact hops log i _ [] rfl

omit [DecidableEq ι] in
/-- In either stage the rows are listed as they are stored. -/
theorem Stage.listed {s₀ : Casebook} (hranks : d.Ranks) (h : Stage d requests x log s)
    (hexecutes : Executes (exec d) s₀ (log.map Prod.snd) s) {key : Auth.Key}
    (hkey : key.isId x = true) :
    (s.app.listed key).map (fun row => scoreOf row.toSearchCandidate) = s.ranking x := by
  cases h with
  | waiting _ hranking _ =>
      apply listed_ranking hkey
      · rw [hranking]
        intro entry hentry
        cases hentry
      · rw [hranking]
        exact List.Pairwise.nil
  | stored _ hanswered =>
      rcases hanswered with ⟨i, task, ev, -, -, hev, -, hscored⟩
      apply listed_ranking hkey
      · intro entry hentry
        rcases hranks.known _ _ _ _ _ hscored entry hentry with ⟨c, hc, hid⟩
        exact ⟨c, candidates_executes hexecutes (List.mem_map_of_mem hev) hc, hid⟩
      · exact hranks.sorted _ _ _ _ _ hscored

/-- What a poll can be told of the search. -/
def Told (d : Deployment) (requests : ι → SearchRequest) (x : Uuid) (log : List (ι × Step))
    (reply : Reply) : Prop :=
  ∀ search rows autoOsint, reply.body = .searchStatus search rows autoOsint → search.id = x →
    rows = [] ∧ search.status ≠ .completed ∨
      Answered d requests x log (rows.map fun row => scoreOf row.toSearchCandidate)

end Run

/-- A provider that looks for one candidate in the database. -/
def sampleRanker : Deployment :=
  { sampleDeployment .sqlite with
    searchFaces := fun a _ _ _ =>
      .ok (if a.candidates.any (·.id == 0xab) then [(0xab, 9 / 10)] else []) }

theorem sampleRanker_ranks : sampleRanker.Ranks := by
  have hfaces : ∀ a bytes topK e scored, sampleRanker.searchFaces a bytes topK e = .ok scored →
      scored = if a.candidates.any (·.id == 0xab) then [(0xab, 9 / 10)] else [] :=
    fun _ _ _ _ _ h => (Except.ok.inj h).symm
  constructor
  · intro a bytes topK e scored h entry hentry
    rw [hfaces a bytes topK e scored h] at hentry
    split_ifs at hentry with hany
    · rcases List.any_eq_true.mp hany with ⟨c, hc, hid⟩
      rw [List.mem_singleton.mp hentry]
      exact ⟨c, hc, beq_iff_eq.mp hid⟩
    · cases hentry
  · intro a bytes topK e scored h
    rw [hfaces a bytes topK e scored h]
    split_ifs
    · exact List.pairwise_singleton _ _
    · exact List.Pairwise.nil

/-- The task, with a poll that looks the search up after it. -/
def sampleTurns : List (Bool × Env) :=
  List.replicate 8 (false, sampleTurn false) ++ List.replicate 4 (true, sampleTurn false)

end AnatoliaBis.Cases
