import AnatoliaBis.Cases.Completion
import AnatoliaBis.App.ReviewAudit
import AnatoliaBis.App.ReviewOutcome

/-! # Failed searches and their candidates

A search is marked as failed before its candidates are stored, or after: then its
rows stay where they are, and neither the routes that read them nor a review ask for
the status of the search.
-/

namespace AnatoliaBis.Cases

open Atomic Program
open Auth (Headers Env)

/-! ## Failed and matched -/

/-- A row of the search says `failed`. -/
def Casebook.Failed (s : Casebook) (x : Uuid) : Prop :=
  ∃ row ∈ s.app.searches, row.id = x ∧ row.status = .failed

/-- The search has a row in `search_candidates`. -/
def Casebook.Matched (s : Casebook) (x : Uuid) : Prop :=
  ∃ row ∈ s.app.searchCandidates.rows, row.searchId = x

section Steps

variable {d : Deployment} {s : Casebook} {x : Uuid} {e : Env}

/-- A review rewrites rows, and leaves their searches as they are. -/
theorem searchId_of_review {t : App.SearchCandidateTable} {id reviewer : Uuid}
    {status : App.ReviewStatus} {name : String} {now : Timestamp} {row : App.SearchCandidate}
    (hrow : row ∈ (t.review id status reviewer name now).rows) :
    ∃ old ∈ t.rows, old.searchId = row.searchId := by
  rcases List.mem_map.mp hrow with ⟨old, hold, rfl⟩
  refine ⟨old, hold, ?_⟩
  split_ifs
  · rfl
  · rfl

/-- `App` stores no match. -/
theorem matched_app {op : App.Op} {a : App.Database} {row : App.SearchCandidate}
    (hrow : row ∈ (App.exec d.toDeployment op e a).1.searchCandidates.rows) :
    ∃ old ∈ a.searchCandidates.rows, old.searchId = row.searchId := by
  by_cases hop : ∃ entry, op = .db (.recordReviewDecision entry)
  · rcases hop with ⟨entry, rfl⟩
    cases hf : e.fails with
    | true =>
        rw [App.exec_db_of_fails hf] at hrow
        exact ⟨row, hrow, rfl⟩
    | false =>
        rw [App.exec_db_of_succeeds hf rfl] at hrow
        have hrecorded : row ∈ (a.record (d.now e.now) entry).1.searchCandidates.rows := hrow
        rcases App.record_cases a (d.now e.now) entry with
          ⟨-, h⟩ | ⟨_, -, -, h⟩ | ⟨_, _, -, -, h⟩
        · rw [h] at hrecorded
          exact ⟨row, hrecorded, rfl⟩
        · rw [h] at hrecorded
          exact ⟨row, hrecorded, rfl⟩
        · rw [h] at hrecorded
          exact searchId_of_review hrecorded
  · rw [App.searchCandidates_exec fun entry h => hop ⟨entry, h⟩] at hrow
    exact ⟨row, hrow, rfl⟩

/-- The rows of a finalization are its own search's. -/
theorem searchId_of_insertRows {t table : App.SearchCandidateTable} {firstId : Nat} {y : Uuid}
    {scored : List (Uuid × Rat)} {now : Timestamp}
    (htable : insertRows t (scoredRows firstId y scored now) = some table)
    {row : App.SearchCandidate} (hrow : row ∈ table.rows) : row ∈ t.rows ∨ row.searchId = y := by
  unfold insertRows at htable
  split_ifs at htable
  rw [← Option.some.inj htable] at hrow
  rcases List.mem_append.mp hrow with hrow | hrow
  · exact Or.inl hrow
  · rcases List.mem_map.mp hrow with ⟨entry, -, rfl⟩
    exact Or.inr rfl

/-- No search is failed and matched, if none is marked as failed that is matched. -/
theorem unmatched_exec {op : Op} (hs : ∀ x, s.Failed x → ¬ s.Matched x)
    (hop : ∀ x, Downgrades x ⟨op, e, s, (exec d op e s).1⟩ → ¬ s.Matched x) :
    ∀ x, (exec d op e s).1.Failed x → ¬ (exec d op e s).1.Matched x := by
  rintro x ⟨row, hrow, hid, hstatus⟩ ⟨candidate, hcandidate, hsearch⟩
  rcases app_exec d op e s with ⟨op', rfl, happ⟩ | ⟨y, scored, found, rfl, hf, hcommit⟩ |
    ⟨y, code, key, f, rfl, hf, hs'⟩ | happ
  · -- an operation of `App`
    rw [happ] at hrow hcandidate
    rcases mem_searches_app hrow with hold | hqueued
    · rcases matched_app hcandidate with ⟨old, hmem, hsame⟩
      exact hs x ⟨row, hold, hid, hstatus⟩ ⟨old, hmem, hsame.trans hsearch⟩
    · rw [hqueued] at hstatus
      cases hstatus
  · -- a finalization: its own search is completed, and it adds rows to no other one
    rcases finalize_eq_ok hcommit with ⟨table, htable, hs'⟩
    rw [hs'] at hrow hcandidate
    rcases mem_searches_update hrow with ⟨-, hcompleted⟩ | ⟨hy, hold⟩
    · rw [hcompleted] at hstatus
      cases hstatus
    · rcases searchId_of_insertRows htable hcandidate with hmem | hmem
      · exact hs x ⟨row, hold, hid, hstatus⟩ ⟨candidate, hmem, hsearch⟩
      · exact hy (hid.trans (hsearch.symm.trans hmem))
  · -- a downgrade, of this search or of another one
    have hmatched : s.Matched x := by
      rw [hs'] at hcandidate
      exact ⟨candidate, hcandidate, hsearch⟩
    rw [hs'] at hrow
    rcases mem_searches_update hrow with ⟨hy, -⟩ | ⟨-, hold⟩
    · have hyx : y = x := hy.symm.trans hid
      subst hyx
      exact hop y ⟨hf, code, key, rfl⟩ hmatched
    · exact hs x ⟨row, hold, hid, hstatus⟩ hmatched
  · rw [happ] at hrow hcandidate
    exact hs x ⟨row, hrow, hid, hstatus⟩ ⟨candidate, hcandidate, hsearch⟩

theorem unmatched_executes {s' : Casebook} {evs : List Step} (h : Executes (exec d) s evs s')
    (hs : ∀ x, s.Failed x → ¬ s.Matched x)
    (hevs : ∀ ev ∈ evs, ∀ x, Downgrades x ev → ¬ ev.before.Matched x) :
    ∀ x, s'.Failed x → ¬ s'.Matched x := by
  induction h with
  | nil s => exact hs
  | cons op e s rest ih =>
      apply ih
      · exact unmatched_exec hs (hevs _ (List.mem_cons_self ..))
      · exact fun ev hev => hevs ev (List.mem_cons_of_mem _ hev)

end Steps

/-! ## What the routes show -/

/-- Authentication, and looking a search up. -/
def Op.Peeks : Op → Prop
  | .app (.auth _) | .db (.loadSearchById _) => True
  | _ => False

/-- Searches and matches are the same. -/
def SameMatches (s s' : Casebook) : Prop :=
  s'.app.searches = s.app.searches ∧ s'.app.searchCandidates = s.app.searchCandidates

section Readers

variable {d : Deployment} {s : Casebook} {α : Type}

theorem sameMatches_exec {op : Op} (hop : op.Peeks) (e : Env) (s : Casebook) :
    SameMatches s (exec d op e s).1 := by
  unfold Op.Peeks at hop
  split at hop
  · exact ⟨rfl, rfl⟩
  next key =>
    cases hf : e.fails with
    | true =>
        rw [exec_db_of_fails hf]
        exact ⟨rfl, rfl⟩
    | false =>
        rw [exec_db_of_ok hf rfl]
        exact ⟨rfl, rfl⟩
  · exact hop.elim

/-- A part of a handler that only looks. -/
theorem wp_of_peeks {p : Handler α} {R : α → Prop} (hp : p.Performs (exec d) Op.Peeks R)
    (s : Casebook) :
    p.wp (exec d) (fun _ => True) (fun _ a s' => R a ∧ SameMatches s s') s := by
  refine wp_mono ?_ (hp.wp (T := SameMatches) (fun _ => ⟨rfl, rfl⟩) ?_ ?_ s)
  · rintro evs a s' ⟨-, ha, hsame⟩
    exact ⟨ha, hsame⟩
  · rintro s s' s'' ⟨h, h'⟩ ⟨g, g'⟩
    exact ⟨g.trans h, g'.trans h'⟩
  · exact fun op e s _ hop => sameMatches_exec hop e s

/-- Authentication works on its own tables. -/
theorem lift_auth_peeks (h : Auth.Handler α) :
    (lift (App.lift h)).Performs (exec d) Op.Peeks fun _ => True := by
  induction h with
  | done a => trivial
  | call op next ih => exact ⟨trivial, fun e s => ih _⟩

theorem actorOrgIds_peeks (claims : Auth.Claims) :
    (actorOrgIds d claims).Performs (exec d) Op.Peeks fun _ => True := by
  unfold actorOrgIds App.userOrganizationIds
  split_ifs
  · trivial
  · split
    · trivial
    · refine (lift_auth_peeks _).bind fun found _ => ?_
      cases found with
      | ok ids => trivial
      | error err => trivial

/-- Nothing is listed for a search that has no rows. -/
theorem listed_of_unmatched {a : App.Database} {key : Auth.Key}
    (h : ∀ row ∈ a.searchCandidates.rows, key.isId row.searchId ≠ true) : a.listed key = [] := by
  apply List.eq_nil_iff_forall_not_mem.mpr
  intro row hrow
  rcases App.mem_listed.mp hrow with ⟨base, hbase, hsearch, -⟩
  exact h base hbase hsearch

/-- What `list_search_candidates` returns for such a search. -/
theorem listSearchCandidates_wp {id : String}
    (h : ∀ key, d.key id = some key →
      ∀ row ∈ s.app.searchCandidates.rows, key.isId row.searchId ≠ true) :
    (listSearchCandidates d id).wp (exec d) (fun _ => True)
      (fun _ listed _ => ∀ rows, listed = .ok rows → rows = []) s := by
  unfold listSearchCandidates
  split
  · intro rows hrows
    exact (Except.ok.inj hrows).symm
  next key hkey =>
    intro e _ rows hrows
    cases hf : e.fails with
    | true =>
        have hfailed := App.exec_db_of_fails (d := d.toDeployment)
          (q := .listSearchCandidates key) (s := s.app) hf
        have hresult := congrArg Prod.snd hfailed
        exact absurd (hresult.symm.trans hrows) (fun h => nomatch h)
    | false =>
        have hresult := congrArg Prod.snd (App.exec_db_of_succeeds (d := d.toDeployment)
          (q := .listSearchCandidates key) (s := s.app) hf rfl)
        have hlisted : rows = s.app.listed key := Except.ok.inj (hrows.symm.trans hresult)
        rw [hlisted]
        exact listed_of_unmatched (h key hkey)

/-- What `load_search_by_id` finds is in the table. -/
theorem loadSearchById_wp (id : String) (s : Casebook) :
    (loadSearchById d id).wp (exec d) (fun _ => True)
      (fun _ found s' => SameMatches s s' ∧ ∀ search, found = .ok (some search) →
        ∃ row ∈ s.app.searches, row.id = search.id ∧ row.status = search.status) s := by
  unfold loadSearchById
  split
  · exact ⟨⟨rfl, rfl⟩, fun search hsearch => nomatch Except.ok.inj hsearch⟩
  next key hkey =>
    intro e _
    cases hf : e.fails with
    | true =>
        rw [exec_db_of_fails hf]
        exact ⟨⟨rfl, rfl⟩, fun search hsearch => nomatch hsearch⟩
    | false =>
        rw [exec_db_of_ok hf rfl]
        refine ⟨⟨rfl, rfl⟩, fun search hsearch => ?_⟩
        rcases Option.map_eq_some_iff.mp (Except.ok.inj hsearch) with ⟨row, hrow, rfl⟩
        exact ⟨row, List.mem_of_find?_eq_some hrow, rfl, rfl⟩

variable {headers : Headers} {policy : App.Policy} {P : Reply → Prop}

/-- A route of a signed-in user, on the searches and matches it started with. -/
theorem signedIn_wp {route : Auth.Claims → Handler Reply}
    (hfailure : ∀ code messageKey, P (failure headers code messageKey))
    (hroute : ∀ claims s', SameMatches s s' →
      (route claims).wp (exec d) (fun _ => True) (fun _ reply _ => P reply) s') :
    (signedIn headers policy route).wp (exec d) (fun _ => True) (fun _ reply _ => P reply) s := by
  unfold signedIn
  refine wp_bind_of (wp_of_peeks (lift_auth_peeks _) s) ?_
  rintro evs claims s' ⟨-, hsame⟩
  cases claims with
  | none => exact hfailure _ _
  | some claims =>
      dsimp only
      split_ifs
      · exact hroute claims s' hsame
      · exact hfailure _ _

theorem withSearch_wp {claims : Auth.Claims} {id : String} {route : SearchRow → Handler Reply}
    (hfailure : ∀ code messageKey, P (failure headers code messageKey))
    (hroute : ∀ search s', SameMatches s s' →
      (∃ row ∈ s.app.searches, row.id = search.id ∧ row.status = search.status) →
      (route search).wp (exec d) (fun _ => True) (fun _ reply _ => P reply) s') :
    (withSearch d headers claims id route).wp (exec d) (fun _ => True)
      (fun _ reply _ => P reply) s := by
  unfold withSearch
  refine wp_bind_of (loadSearchById_wp id s) ?_
  rintro evs found s' ⟨hsame, hfound⟩
  cases found with
  | error err => exact hfailure _ _
  | ok found =>
      cases found with
      | none => exact hfailure _ _
      | some search =>
          refine wp_bind_of (wp_of_peeks (actorOrgIds_peeks claims) s') ?_
          rintro evs' ids s'' ⟨-, hsame'⟩
          split
          · refine hroute search s'' ?_ (hfound search rfl)
            exact ⟨hsame'.1.trans hsame.1, hsame'.2.trans hsame.2⟩
          · exact hfailure _ _

end Readers

/-! ## Failed searches are withheld -/

/-- A failed search shows no candidates, and no decision is applied to one. -/
structure Casebook.Withholds (d : Deployment) (s : Casebook) : Prop where
  status : ∀ headers id ω search rows autoOsint,
    ((getSearchStatusRoute d headers id).run (exec d) ω s).1.body =
      .searchStatus search rows autoOsint → search.status = .failed → rows = []
  candidates : ∀ headers id key ω rows x, d.key id = some key → key.isId x = true →
    s.Failed x → ((getSearchCandidatesRoute d headers id).run (exec d) ω s).1.body =
      .searchCandidates rows → rows = []
  decisions : ∀ now entry x, entry.searchId.isId x = true → s.Failed x →
    s.app.record now entry = (s.app, .notFound)

section Withholds

variable {d : Deployment} {s : Casebook}

/-- Under an id that stands for an unmatched search there is no row. -/
theorem isId_ne_of_unmatched {s' : Casebook} {x : Uuid} {key : Auth.Key} (hx : ¬ s.Matched x)
    (hkey : key.isId x = true) (hsame : SameMatches s s') :
    ∀ row ∈ s'.app.searchCandidates.rows, key.isId row.searchId ≠ true := by
  intro row hrow hid
  rw [hsame.2] at hrow
  exact hx ⟨row, hrow, App.isId_unique hid hkey⟩

theorem withholds_status (hs : ∀ x, s.Failed x → ¬ s.Matched x) (headers : Headers) (id : String)
    (ω : Nat → Env) (search : SearchRow) (rows : List App.SearchCandidateRow) (autoOsint : Bool)
    (hbody : ((getSearchStatusRoute d headers id).run (exec d) ω s).1.body =
      .searchStatus search rows autoOsint) (hstatus : search.status = .failed) : rows = [] := by
  have hroute : (getSearchStatusRoute d headers id).wp (exec d) (fun _ => True)
      (fun _ reply _ => ∀ search rows autoOsint, reply.body =
        .searchStatus search rows autoOsint → search.status = .failed → rows = []) s := by
    unfold getSearchStatusRoute
    refine signedIn_wp (fun _ _ _ _ _ => nofun) fun claims s₁ h₁ => ?_
    refine withSearch_wp (fun _ _ _ _ _ => nofun) fun found s₂ h₂ hfound => ?_
    rcases hfound with ⟨row, hrow, hid, hrowStatus⟩
    by_cases hfailed : found.status = .failed
    · -- a failed search has no rows to list
      rw [h₁.1] at hrow
      have hunmatched := hs found.id ⟨row, hrow, hid, hrowStatus.trans hfailed⟩
      have hsame : SameMatches s s₂ := ⟨h₂.1.trans h₁.1, h₂.2.trans h₁.2⟩
      refine wp_bind_of (listSearchCandidates_wp fun key hkey => ?_) ?_
      · exact isId_ne_of_unmatched hunmatched ((App.isId_of_key_text hkey).mpr rfl) hsame
      · intro evs listed s₃ hlisted
        cases listed with
        | error err => exact fun _ _ _ => nofun
        | ok listed =>
            intro search rows autoOsint hbody _
            cases hbody
            exact hlisted _ rfl
    · refine wp_bind_of (wp_true _ s₂) ?_
      intro evs listed s₃ _
      cases listed with
      | error err => exact fun _ _ _ => nofun
      | ok listed =>
          intro search rows autoOsint hbody hsearch
          cases hbody
          exact absurd hsearch hfailed
  exact wp_run hroute (fun _ => trivial) search rows autoOsint hbody hstatus

theorem withholds_candidates (hs : ∀ x, s.Failed x → ¬ s.Matched x) (headers : Headers)
    (id : String) (key : Auth.Key) (ω : Nat → Env) (rows : List App.SearchCandidateRow) (x : Uuid)
    (hkey : d.key id = some key) (hx : key.isId x = true) (hfailed : s.Failed x)
    (hbody : ((getSearchCandidatesRoute d headers id).run (exec d) ω s).1.body =
      .searchCandidates rows) : rows = [] := by
  have hroute : (getSearchCandidatesRoute d headers id).wp (exec d) (fun _ => True)
      (fun _ reply _ => ∀ rows, reply.body = .searchCandidates rows → rows = []) s := by
    unfold getSearchCandidatesRoute
    refine signedIn_wp (fun _ _ _ => nofun) fun claims s₁ h₁ => ?_
    refine withSearch_wp (fun _ _ _ => nofun) fun found s₂ h₂ _ => ?_
    have hsame : SameMatches s s₂ := ⟨h₂.1.trans h₁.1, h₂.2.trans h₁.2⟩
    refine wp_bind_of (listSearchCandidates_wp fun key' hkey' => ?_) ?_
    · rw [hkey] at hkey'
      rw [← Option.some.inj hkey']
      exact isId_ne_of_unmatched (hs x hfailed) hx hsame
    · intro evs listed s₃ hlisted
      cases listed with
      | error err => exact fun _ => nofun
      | ok listed =>
          intro rows hbody
          cases hbody
          exact hlisted _ rfl
  exact wp_run hroute (fun _ => trivial) rows hbody

theorem withholds_decisions (hs : ∀ x, s.Failed x → ¬ s.Matched x) (now : Timestamp)
    (entry : App.ReviewEntry) (x : Uuid) (hx : entry.searchId.isId x = true)
    (hfailed : s.Failed x) : s.app.record now entry = (s.app, .notFound) := by
  have hnone : s.app.searchCandidates.find entry.searchId entry.candidateId = none := by
    apply List.find?_eq_none.mpr
    intro row hrow hfound
    rw [Bool.and_eq_true] at hfound
    exact isId_ne_of_unmatched (hs x hfailed) hx ⟨rfl, rfl⟩ row hrow hfound.1
  unfold App.Database.record
  rw [hnone]

theorem Casebook.Withholds.of_unmatched (d : Deployment) (hs : ∀ x, s.Failed x → ¬ s.Matched x) :
    s.Withholds d :=
  ⟨withholds_status hs, withholds_candidates hs, withholds_decisions hs⟩

end Withholds

/-- **Failed searches.** Among any tasks, reads and reviews on one database, a failed
search shows no candidate and has none decided on, in every state reached, if no
search is marked as failed that has rows in `search_candidates`. -/
theorem failed_search_withheld {ι : Type} [DecidableEq ι] (d : Deployment)
    (requests : ι → SearchRequest) (s : Casebook) (hs : ∀ x, s.Failed x → ¬ s.Matched x)
    (schedule : List (ι × Env))
    (hmarks : ∀ i ev, (i, ev) ∈ (searchPool d requests s).log (exec d) schedule →
      ∀ x, Downgrades x ev → ¬ ev.before.Matched x) :
    ((searchPool d requests s).after (exec d) schedule).store.Withholds d := by
  apply Casebook.Withholds.of_unmatched
  refine unmatched_executes (Pool.executes schedule) hs fun ev hev => ?_
  rcases List.mem_map.mp hev with ⟨entry, hentry, rfl⟩
  exact hmarks entry.1 entry.2 hentry

/-- The provider finds no face. -/
def sampleRefusal : Deployment :=
  { sampleDeployment .sqlite with searchFaces := fun _ _ _ _ => .error .noFaceDetected }

/-- A downgrade of a search without rows, or another operation. -/
def marksUnmatched (ev : Step) : Bool :=
  match ev.op with
  | .db (.markQueuedSearchFailed x _ _) =>
      ev.before.app.searchCandidates.rows.all fun row => row.searchId != x
  | _ => true

theorem failed_search_withheld_sample :
    ((searchPool sampleRefusal sampleRace sampleCasebook).after (exec sampleRefusal)
      (List.replicate 6 (false, sampleTurn false))).store.Withholds sampleRefusal := by
  refine failed_search_withheld sampleRefusal sampleRace sampleCasebook ?_
    (List.replicate 6 (false, sampleTurn false)) ?_
  · rintro x ⟨row, hrow, -, hstatus⟩
    rw [List.mem_singleton.mp hrow] at hstatus
    cases hstatus
  · rintro i ⟨op, e, s, s'⟩ hmem x ⟨-, code, key, hop⟩ ⟨row, hrow, hsearch⟩
    have hall : ((searchPool sampleRefusal sampleRace sampleCasebook).log (exec sampleRefusal)
        (List.replicate 6 (false, sampleTurn false))).all (fun entry =>
          marksUnmatched entry.2) = true := by
      decide +kernel
    have hmarks := List.all_eq_true.mp hall _ hmem
    dsimp only at hop
    subst hop
    have hne := List.all_eq_true.mp hmarks row hrow
    rw [hsearch] at hne
    simp at hne

/-- The casebook after a task whose audit event could not be stored. -/
def sampleDowngraded : Casebook :=
  ((searchPool (sampleDeployment .sqlite) sampleRace sampleCasebook).after
    (exec (sampleDeployment .sqlite)) (List.replicate 5 (false, sampleTurn false) ++
      (false, sampleTurn true) :: List.replicate 2 (false, sampleTurn false))).store

/-- The candidates that a response lists. -/
def Reply.listed (reply : Reply) : List Uuid :=
  match reply.body with
  | .searchStatus _ rows _ | .searchCandidates rows => rows.map (·.candidateId)
  | _ => []

/-- A reviewer's decision on the candidate of that search. -/
def sampleEntry : App.ReviewEntry :=
  ⟨.text (Uuid.text 8), .text (Uuid.text 0xab), .confirmed, 5, "Deniz Kaya", none, none, "req-1",
    99, false⟩

/-- The search is `failed`; both routes list its candidate, and a reviewer can still
confirm it. -/
theorem failed_search_shown :
    sampleDowngraded.app.searches.map (·.status) = [.failed] ∧
      (∀ route ∈ [getSearchStatusRoute, getSearchCandidatesRoute],
        ((route (sampleDeployment .sqlite) (App.sampleBearer App.sampleAdmin) (Uuid.text 8)).run
          (exec (sampleDeployment .sqlite)) (fun _ => sampleTurn false)
            sampleDowngraded).1.listed = [0xab]) ∧
      (sampleDowngraded.app.record App.sampleNow sampleEntry).2 = .stored := by
  refine ⟨?_, ?_, ?_⟩
  · decide +kernel
  · intro route hroute
    rcases List.mem_cons.mp hroute with rfl | hroute
    · decide +kernel
    · rw [List.mem_singleton.mp hroute]
      decide +kernel
  · decide +kernel

end AnatoliaBis.Cases
