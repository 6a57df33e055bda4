import AnatoliaBis.Cases.Search
import AnatoliaBis.App.MandatoryAudit

/-! # Completed searches and their audit events

A search becomes `completed` in one transaction; its audit event is stored by a
later statement, and where that fails a third one downgrades the search. Between
the first and the last of them a poll may look the search up.
-/

namespace AnatoliaBis.Cases

open Atomic Program
open Auth (Headers Env)

/-! ## The two facts about a search -/

/-- A row of the search says `completed`. -/
def Casebook.Completed (s : Casebook) (x : Uuid) : Prop :=
  ∃ row ∈ s.app.searches, row.id = x ∧ row.status = .completed

/-- An event that a completed search owes. -/
def TellsCompletion (x : Uuid) (event : Audit.NewAuditEvent) : Prop :=
  event.action = "SEARCH_COMPLETED" ∧ event.resourceType = some "search" ∧
    event.resourceId = some x.text

/-- The completion of the search is in the audit trail. -/
def Casebook.CompletionAudited (s : Casebook) (x : Uuid) : Prop :=
  ∃ event ∈ s.app.auth.auditEvents, TellsCompletion x event

/-- The operation finalizes the search, and its transaction commits. -/
def Commits (d : Deployment) (x : Uuid) (ev : Step) : Prop :=
  ∃ scored found, ev.op = .db (.finalizeQueuedSearch x scored) ∧ ev.env.fails = false ∧
    ev.before.finalize d (d.now ev.env.now) x scored = .ok (ev.after, found)

/-- The operation marks the search as failed. -/
def Downgrades (x : Uuid) (ev : Step) : Prop :=
  ev.env.fails = false ∧ ∃ failureCode failureMessageKey,
    ev.op = .db (.markQueuedSearchFailed x failureCode failureMessageKey)

/-- The operation stores the audit event of the search. -/
def Audits (x : Uuid) (ev : Step) : Prop :=
  ev.env.fails = false ∧ ∃ event, ev.op = .app (.auth (.db (.insertAuditEvent event))) ∧
    TellsCompletion x event

/-- Of these operations a finalization of the search is the last that took effect:
neither its audit event nor its downgrade has been stored since. -/
def InFlight (d : Deployment) (x : Uuid) (evs : List Step) : Prop :=
  ∃ before ev later, evs = before ++ ev :: later ∧ Commits d x ev ∧
    ∀ ev' ∈ later, ¬ Audits x ev' ∧ ¬ Downgrades x ev'

section Steps

variable {d : Deployment} {s s' : Casebook} {x : Uuid} {e : Env}

/-- `App` only queues searches. -/
theorem mem_searches_app {op : App.Op} {a : App.Database} {row : App.SearchRow}
    (hrow : row ∈ (App.exec d.toDeployment op e a).1.searches) :
    row ∈ a.searches ∨ row.status = .queued := by
  revert hrow
  cases op with
  | db q =>
      apply App.exec_db_store (I := fun a' => row ∈ a'.searches → row ∈ a.searches ∨ _) Or.inl
      intro _ _ hrow
      cases q with
      | createQueuedSearch id search =>
          rcases List.mem_append.mp hrow with hrow | hrow
          · exact Or.inl hrow
          · rw [List.mem_singleton.mp hrow]
            exact Or.inr rfl
      | recordReviewDecision entry =>
          have hsame := App.record_same (f := App.Database.searches) (fun _ _ _ => rfl) a
            (d.now e.now) entry
          exact Or.inl (hsame ▸ hrow)
      | _ => exact Or.inl hrow
  | _ => exact Or.inl

/-- The rows an update of one search leaves behind. -/
theorem mem_searches_update {status : App.SearchStatus} {f : SearchProgress → SearchProgress}
    {y : Uuid} {row : App.SearchRow} (hrow : row ∈ (s.updateSearch y status f).app.searches) :
    row.id = y ∧ row.status = status ∨ row.id ≠ y ∧ row ∈ s.app.searches := by
  rcases List.mem_map.mp hrow with ⟨old, hold, rfl⟩
  by_cases hy : old.id = y
  · rw [if_pos (beq_iff_eq.mpr hy)]
    exact Or.inl ⟨hy, rfl⟩
  · rw [if_neg (by simpa using hy)]
    exact Or.inr ⟨hy, hold⟩

/-- A finalization that commits leaves behind its rows and its status. -/
theorem finalize_eq_ok {now : Timestamp} {y : Uuid} {scored : List (Uuid × Rat)}
    {found : Option SearchRow} (h : s.finalize d now y scored = .ok (s', found)) :
    ∃ table, insertRows s.app.searchCandidates
        (scoredRows s.app.auth.nextId y scored now) = some table ∧
      s' = Casebook.updateSearch { s with app := { s.app with
          searchCandidates := table
          auth := { s.app.auth with nextId := s.app.auth.nextId + scored.length } } }
        y .completed fun progress =>
          { progress with startedAt := some now, completedAt := some now } := by
  unfold Casebook.finalize at h
  split at h
  · cases h
  next table htable =>
    refine ⟨table, htable, ?_⟩
    dsimp only at h
    split at h
    · cases h
    · exact (Prod.mk.inj (Except.ok.inj h)).1.symm

/-- What a statement that is neither a finalization nor a downgrade leaves alone. -/
theorem app_perform {q : Query} {now : Timestamp} {r : q.Res}
    (hfinalize : ∀ y scored, q ≠ .finalizeQueuedSearch y scored)
    (hmark : ∀ y code key, q ≠ .markQueuedSearchFailed y code key)
    (h : q.perform d now s = .ok (s', r)) : s'.app = s.app := by
  cases q with
  | finalizeQueuedSearch y scored => exact absurd rfl (hfinalize y scored)
  | markQueuedSearchFailed y code key => exact absurd rfl (hmark y code key)
  | insertEvidenceRow id candidateId item collectedBy =>
      simp only [Query.perform] at h
      split at h
      · cases h
      · rw [← (Prod.mk.inj (Except.ok.inj h)).1]
  | insertRelation id candidateId relationType value evidenceId addedBy =>
      simp only [Query.perform] at h
      split at h
      · cases h
      · rw [← (Prod.mk.inj (Except.ok.inj h)).1]
  | _ => rw [← (Prod.mk.inj (Except.ok.inj h)).1]

/-- What one operation can do to the tables of `App`. -/
theorem app_exec (d : Deployment) (op : Op) (e : Env) (s : Casebook) :
    (∃ op', op = .app op' ∧
      (exec d op e s).1.app = (App.exec d.toDeployment op' e s.app).1) ∨
    (∃ y scored found, op = .db (.finalizeQueuedSearch y scored) ∧ e.fails = false ∧
      s.finalize d (d.now e.now) y scored = .ok ((exec d op e s).1, found)) ∨
    (∃ y code key f, op = .db (.markQueuedSearchFailed y code key) ∧ e.fails = false ∧
      (exec d op e s).1 = s.updateSearch y .failed f) ∨
    (exec d op e s).1.app = s.app := by
  cases op with
  | app op => exact Or.inl ⟨op, rfl, rfl⟩
  | searchFaces bytes topK => exact Or.inr (Or.inr (Or.inr rfl))
  | collectOutcomes query => exact Or.inr (Or.inr (Or.inr rfl))
  | db q =>
      cases hf : e.fails with
      | true =>
          rw [exec_db_of_fails hf]
          exact Or.inr (Or.inr (Or.inr rfl))
      | false =>
          cases hq : q.perform d e.now s with
          | error err =>
              rw [exec_db_of_error hf hq]
              exact Or.inr (Or.inr (Or.inr rfl))
          | ok after =>
              rcases after with ⟨s', r⟩
              rw [exec_db_of_ok hf hq]
              by_cases hfinalize : ∃ y scored, q = .finalizeQueuedSearch y scored
              · rcases hfinalize with ⟨y, scored, rfl⟩
                exact Or.inr (Or.inl ⟨y, scored, r, rfl, rfl, hq⟩)
              · by_cases hmark : ∃ y code key, q = .markQueuedSearchFailed y code key
                · rcases hmark with ⟨y, code, key, rfl⟩
                  have hs' := (Prod.mk.inj (Except.ok.inj hq)).1.symm
                  exact Or.inr (Or.inr (Or.inl ⟨y, code, key, _, rfl, rfl, hs'⟩))
                · refine Or.inr (Or.inr (Or.inr (app_perform ?_ ?_ hq)))
                  · exact fun y scored h => hfinalize ⟨y, scored, h⟩
                  · exact fun y code key h => hmark ⟨y, code, key, h⟩

theorem exec_markQueuedSearchFailed {code key : String} (hf : e.fails = false) :
    ∃ f, (exec d (.db (.markQueuedSearchFailed x code key)) e s).1 =
      s.updateSearch x .failed f := by
  rw [exec_db_of_ok hf rfl]
  dsimp only
  exact ⟨_, rfl⟩

/-- Only a finalization completes a search, and a downgrade takes that back. -/
theorem completed_exec {op : Op} (h : (exec d op e s).1.Completed x) :
    Commits d x ⟨op, e, s, (exec d op e s).1⟩ ∨
      s.Completed x ∧ ¬ Downgrades x ⟨op, e, s, (exec d op e s).1⟩ := by
  rcases h with ⟨row, hrow, hid, hstatus⟩
  rcases app_exec d op e s with ⟨op', rfl, happ⟩ | ⟨y, scored, found, rfl, hf, hcommit⟩ |
    ⟨y, code, key, f, rfl, hf, hs'⟩ | happ
  · -- an operation of `App`
    rw [happ] at hrow
    rcases mem_searches_app hrow with hrow | hqueued
    · refine Or.inr ⟨⟨row, hrow, hid, hstatus⟩, ?_⟩
      rintro ⟨-, code, key, hop⟩
      cases hop
    · rw [hqueued] at hstatus
      cases hstatus
  · -- a finalization: of this search, or of another one
    rcases finalize_eq_ok hcommit with ⟨table, -, hs'⟩
    rw [hs'] at hrow
    rcases mem_searches_update hrow with ⟨hy, -⟩ | ⟨-, hold⟩
    · have hyx : y = x := hy.symm.trans hid
      subst hyx
      exact Or.inl ⟨scored, found, rfl, hf, hcommit⟩
    · refine Or.inr ⟨⟨row, hold, hid, hstatus⟩, ?_⟩
      rintro ⟨-, code, key, hop⟩
      cases hop
  · -- a downgrade: another search's
    rw [hs'] at hrow
    rcases mem_searches_update hrow with ⟨-, hfailed⟩ | ⟨hy, hold⟩
    · rw [hfailed] at hstatus
      cases hstatus
    · refine Or.inr ⟨⟨row, hold, hid, hstatus⟩, ?_⟩
      rintro ⟨-, code', key', hop⟩
      cases hop
      exact hy hid
  · rw [happ] at hrow
    refine Or.inr ⟨⟨row, hrow, hid, hstatus⟩, ?_⟩
    rintro ⟨hf, code, key, rfl⟩
    rcases exec_markQueuedSearchFailed hf with ⟨f, hs'⟩
    rw [← happ, hs'] at hrow
    rcases mem_searches_update hrow with ⟨-, hfailed⟩ | ⟨hy, -⟩
    · rw [hfailed] at hstatus
      cases hstatus
    · exact hy hid

/-- No operation removes an audit event. -/
theorem auditEvents_subset (op : Op) {event : Audit.NewAuditEvent}
    (h : event ∈ s.app.auth.auditEvents) : event ∈ (exec d op e s).1.app.auth.auditEvents := by
  rcases app_exec d op e s with ⟨op', rfl, happ⟩ | ⟨y, scored, found, rfl, -, hcommit⟩ |
    ⟨y, code, key, f, rfl, -, hs'⟩ | happ
  · rw [happ]
    exact App.auditEvents_mem h
  · rcases finalize_eq_ok hcommit with ⟨table, -, hs'⟩
    rw [hs']
    exact h
  · rw [hs']
    exact h
  · rwa [happ]

theorem completionAudited_exec (op : Op) (h : s.CompletionAudited x) :
    (exec d op e s).1.CompletionAudited x := by
  rcases h with ⟨event, hevent, htells⟩
  exact ⟨event, auditEvents_subset op hevent, htells⟩

/-- The audit event is in the trail once it is inserted. -/
theorem completionAudited_of_audits {op : Op} (h : Audits x ⟨op, e, s, (exec d op e s).1⟩) :
    (exec d op e s).1.CompletionAudited x := by
  rcases h with ⟨hf, event, hop, htells⟩
  dsimp only at hop
  subst hop
  refine ⟨event, ?_, htells⟩
  show event ∈ (Auth.exec d.toPlatform (.db (.insertAuditEvent event)) e
    s.app.auth).1.auditEvents
  rw [Auth.exec_db_of_succeeds _ hf]
  exact List.mem_append_right _ (List.mem_singleton_self event)

end Steps

/-! ## The invariant of a run -/

section Run

variable {d : Deployment} {s s' : Casebook} {x : Uuid} {evs : List Step}

theorem completionAudited_executes (h : Executes (exec d) s evs s') (hs : s.CompletionAudited x) :
    s'.CompletionAudited x := by
  induction h with
  | nil s => exact hs
  | cons op e s rest ih => exact ih (completionAudited_exec op hs)

/-- One more operation either settles the search or leaves it in flight. -/
theorem inFlight_concat {ev : Step} (h : InFlight d x evs) (haudits : ¬ Audits x ev)
    (hdowngrades : ¬ Downgrades x ev) : InFlight d x (evs ++ [ev]) := by
  rcases h with ⟨before, first, later, rfl, hcommits, hlater⟩
  refine ⟨before, first, later ++ [ev], by simp, hcommits, ?_⟩
  intro ev' hev'
  rcases List.mem_append.mp hev' with hev' | hev'
  · exact hlater ev' hev'
  · rw [List.mem_singleton.mp hev']
    exact ⟨haudits, hdowngrades⟩

/-- A completed search has its audit event, or is in flight. -/
theorem audited_or_inFlight (h : Executes (exec d) s evs s')
    (hs : s.Completed x → s.CompletionAudited x) (hcompleted : s'.Completed x) :
    s'.CompletionAudited x ∨ InFlight d x evs := by
  induction evs using List.reverseRecOn generalizing s' with
  | nil =>
      cases h with
      | nil => exact Or.inl (hs hcompleted)
  | append_singleton evs ev ih =>
      rcases h.split with ⟨hbefore, hafter, hrest⟩
      cases hrest with
      | nil =>
        rcases ev with ⟨op, e, t, t'⟩
        dsimp only at hafter hbefore hcompleted
        subst hafter
        rcases completed_exec hcompleted with hcommits | ⟨ht, hdowngrades⟩
        · exact Or.inr ⟨evs, _, [], rfl, hcommits, by simp⟩
        · rcases ih hbefore ht with haudited | hflight
          · exact Or.inl (completionAudited_exec op haudited)
          · by_cases haudits : Audits x ⟨op, e, t, (exec d op e t).1⟩
            · exact Or.inl (completionAudited_of_audits haudits)
            · exact Or.inr (inFlight_concat hflight haudits hdowngrades)

end Run

/-! ## What a poll has seen -/

/-- The search that a response shows. -/
def Body.search? : Body → Option SearchRow
  | .searchStatus found .. | .search found => some found
  | _ => none

/-- The operation looks the search up. -/
def LooksUp (x : Uuid) (ev : Step) : Prop :=
  ∃ key : Auth.Key, ev.op = .db (.loadSearchById key) ∧ key.isId x = true

/-- A response shows a search as a look-up of the request found it. -/
def ShowsFound (h : List Step) (reply : Reply) : Prop :=
  ∀ search, reply.body.search? = some search → ∃ ev ∈ h, LooksUp search.id ev ∧
    ∃ row ∈ ev.before.app.searches, row.id = search.id ∧ row.status = search.status

section Polls

variable {d : Deployment} {h : List Step} {headers : Headers}

theorem showsFound_of_none {reply : Reply} (hreply : reply.body.search? = none) :
    ShowsFound h reply := by
  intro search hsearch
  rw [hreply] at hsearch
  cases hsearch

theorem signedIn_showsFound {policy : App.Policy} {route : Auth.Claims → Handler Reply}
    (hroute : ∀ claims h, (route claims).Guarantees (exec d) (fun _ _ => True) ShowsFound h) :
    (signedIn headers policy route).Guarantees (exec d) (fun _ _ => True) ShowsFound h := by
  unfold signedIn
  refine (guarantees_grows _ h).bind fun h' claims _ => ?_
  cases claims with
  | none => exact showsFound_of_none rfl
  | some claims =>
      dsimp only
      split_ifs
      · exact hroute claims h'
      · exact showsFound_of_none rfl

/-- A route behind a look-up shows at most the search that was found. -/
theorem withSearch_showsFound {claims : Auth.Claims} {id : String}
    {route : SearchRow → Handler Reply}
    (hroute : ∀ search h, (route search).Guarantees (exec d) (fun _ _ => True)
      (fun h' reply => (∃ evs, h' = h ++ evs) ∧
        ∀ shown, reply.body.search? = some shown → shown = search) h) :
    (withSearch d headers claims id route).Guarantees (exec d) (fun _ _ => True)
      ShowsFound h := by
  unfold withSearch loadSearchById
  split
  · exact showsFound_of_none rfl
  next key hkey =>
    refine guarantees_query trivial fun e s => ?_
    cases hf : e.fails with
    | true =>
        rw [exec_db_of_fails hf]
        exact showsFound_of_none rfl
    | false =>
        rw [exec_db_of_ok hf rfl]
        dsimp only
        cases hfound : s.findSearch key with
        | none => exact showsFound_of_none rfl
        | some search =>
            -- the row behind the look-up
            rcases Option.map_eq_some_iff.mp hfound with ⟨row, hrow, rfl⟩
            refine (guarantees_grows _ _).bind fun h₁ ids hgrown => ?_
            rcases hgrown with ⟨evs, rfl⟩
            split
            · refine (hroute _ _).mono (fun _ _ _ => trivial) ?_
              rintro h₂ reply ⟨⟨evs', rfl⟩, hshown⟩ shown hsome
              rw [hshown shown hsome]
              refine ⟨⟨.db (.loadSearchById key), e, s, s⟩, by simp, ⟨key, rfl, ?_⟩, row, ?_,
                rfl, rfl⟩
              · have hid := List.find?_some hrow
                exact hid
              · exact List.mem_of_find?_eq_some hrow
            · exact showsFound_of_none rfl

theorem getSearchStatusRoute_showsFound (id : String) :
    (getSearchStatusRoute d headers id).Guarantees (exec d) (fun _ _ => True) ShowsFound [] := by
  refine signedIn_showsFound fun claims h => withSearch_showsFound fun search h' => ?_
  refine (guarantees_grows _ h').bind fun h'' listed hgrown => ?_
  cases listed with
  | error err => exact ⟨hgrown, fun shown hsome => nomatch hsome⟩
  | ok rows => exact ⟨hgrown, fun shown hsome => (Option.some.inj hsome).symm⟩

theorem getSearchRoute_showsFound (id : String) :
    (getSearchRoute d headers id).Guarantees (exec d) (fun _ _ => True) ShowsFound [] := by
  refine signedIn_showsFound fun claims h => withSearch_showsFound fun search h' => ?_
  exact ⟨⟨[], (List.append_nil h').symm⟩, fun shown hsome => (Option.some.inj hsome).symm⟩

theorem getSearchCandidatesRoute_showsFound (id : String) :
    (getSearchCandidatesRoute d headers id).Guarantees (exec d) (fun _ _ => True)
      ShowsFound [] := by
  refine signedIn_showsFound fun claims h => withSearch_showsFound fun search h' => ?_
  refine (guarantees_grows _ h').bind fun h'' listed hgrown => ?_
  cases listed with
  | error err => exact ⟨hgrown, fun shown hsome => nomatch hsome⟩
  | ok rows => exact ⟨hgrown, fun shown hsome => nomatch hsome⟩

theorem handle_showsFound (request : SearchRequest) :
    (request.handle d).Guarantees (exec d) (fun _ _ => True)
      (fun h answer => ∀ reply ∈ answer, ShowsFound h reply) [] := by
  cases request with
  | runQueued task =>
      refine (guarantees_grows (runQueuedSearch d task) []).map ?_
      intro h' _ _ reply hreply
      cases hreply
  | status headers id =>
      refine (getSearchStatusRoute_showsFound id).map fun h' reply hreply answer hanswer => ?_
      rwa [← Option.some.inj hanswer]
  | search headers id =>
      refine (getSearchRoute_showsFound id).map fun h' reply hreply answer hanswer => ?_
      rwa [← Option.some.inj hanswer]
  | candidates headers id =>
      refine (getSearchCandidatesRoute_showsFound id).map fun h' reply hreply answer hanswer => ?_
      rwa [← Option.some.inj hanswer]
  | review headers candidateId payload decision =>
      refine (guarantees_grows _ []).map fun h' reply _ answer hanswer => ?_
      rw [← Option.some.inj hanswer]
      exact showsFound_of_none rfl

end Polls

/-- **Completed searches.** Among any tasks, polls and reviews on one database, a
request that shows a search as completed shows one whose audit event is stored, if
none of its look-ups of a search comes between a finalization of that search and the
next storing of its audit event or of its downgrade. -/
theorem completed_search_audited {ι : Type} [DecidableEq ι] (d : Deployment)
    (requests : ι → SearchRequest) (s : Casebook)
    (hs : ∀ x, s.Completed x → s.CompletionAudited x) (schedule : List (ι × Env)) (i : ι)
    (hpoll : ∀ before ev later,
      (searchPool d requests s).log (exec d) schedule = before ++ (i, ev) :: later →
        ∀ x, LooksUp x ev → ¬ InFlight d x (before.map Prod.snd)) :
    ∀ reply search, ((searchPool d requests s).after (exec d) schedule).answer i =
        some (some reply) →
      reply.body.search? = some search → search.status = .completed →
        ((searchPool d requests s).after (exec d) schedule).store.CompletionAudited search.id := by
  intro reply search hanswer hshown hstatus
  have hthread := (Pool.guarantees (c := searchPool d requests s)
    (fun i => handle_showsFound (requests i)) schedule).1 i
  rw [Pool.threads_of_answer hanswer] at hthread
  rcases hthread reply rfl search hshown with ⟨ev, hev, hlooks, row, hrow, hid, hrowStatus⟩
  -- the look-up, in its place among all operations
  rcases List.append_of_mem (Pool.mem_own.mp hev) with ⟨before, later, hlog⟩
  have hexecutes : Executes (exec d) (searchPool d requests s).store
      (((searchPool d requests s).log (exec d) schedule).map Prod.snd)
      ((searchPool d requests s).after (exec d) schedule).store :=
    Pool.executes schedule
  rw [hlog, List.map_append, List.map_cons] at hexecutes
  rcases hexecutes.split with ⟨hbefore, hafter, hrest⟩
  have hcompleted : ev.before.Completed search.id := ⟨row, hrow, hid, hrowStatus.trans hstatus⟩
  have haudited : ev.before.CompletionAudited search.id := by
    rcases audited_or_inFlight hbefore (hs search.id) hcompleted with haudited | hflight
    · exact haudited
    · exact absurd hflight (hpoll before ev later hlog search.id hlooks)
  apply completionAudited_executes hrest
  rw [hafter]
  exact completionAudited_exec ev.op haudited

/-- A response shows a search in this status. -/
def Reply.shows (reply : Reply) (status : App.SearchStatus) : Bool :=
  reply.body.search?.any fun search => search.status == status

/-- A statement of the examples, and whether it fails. -/
def sampleTurn (fails : Bool) : Env := ⟨App.sampleNow, App.sampleNow, 0, fails⟩

/-- A poll of that search. -/
def samplePoll : SearchRequest := .status (App.sampleBearer App.sampleAdmin) (Uuid.text 8)

/-- The casebook after the task has run to its end. -/
def sampleFinished : Casebook :=
  ((runQueuedSearch (sampleDeployment .sqlite) sampleTask).run (exec (sampleDeployment .sqlite))
    (fun _ => sampleTurn false) sampleCasebook).2

/-- A poll that comes after the task. -/
def samplePolled : Pool Unit Op Op.Res (Option Reply) Casebook :=
  (searchPool (sampleDeployment .sqlite) (fun _ : Unit => samplePoll) sampleFinished).after
    (exec (sampleDeployment .sqlite)) (List.replicate 3 ((), sampleTurn false))

/-- An operation that finalizes no search. -/
def Op.isPlain : Op → Bool
  | .db (.finalizeQueuedSearch ..) => false
  | _ => true

theorem completed_search_audited_sample :
    ∃ reply search, samplePolled.answer () = some (some reply) ∧
      reply.body.search? = some search ∧ search.status = .completed ∧
        samplePolled.store.CompletionAudited search.id := by
  have hshown : (samplePolled.answer ()).any (fun reply =>
      reply.any (·.shows .completed)) = true := by decide +kernel
  rcases (Option.any_eq_true _ _).mp hshown with ⟨answer, hanswer, hreply⟩
  rcases (Option.any_eq_true _ _).mp hreply with ⟨reply, rfl, hsearch⟩
  rcases (Option.any_eq_true _ _).mp hsearch with ⟨search, hsome, hstatus⟩
  have hcompleted : search.status = .completed := by simpa using hstatus
  refine ⟨reply, search, hanswer, hsome, hcompleted, ?_⟩
  refine completed_search_audited (sampleDeployment .sqlite) (fun _ : Unit => samplePoll)
    sampleFinished ?_ (List.replicate 3 ((), sampleTurn false)) () ?_ reply search hanswer hsome
      hcompleted
  · rintro x ⟨row, hrow, hid, hstatus⟩
    have hrows : ∀ row ∈ sampleFinished.app.searches, row.id = 8 := by decide +kernel
    have haudited : ∃ event ∈ sampleFinished.app.auth.auditEvents,
        event.action = "SEARCH_COMPLETED" ∧ event.resourceType = some "search" ∧
          event.resourceId = some (Uuid.text 8) := by decide +kernel
    rw [← hid, hrows row hrow]
    exact haudited
  · -- the poll finalizes nothing
    intro before ev later hlog x _ hflight
    rcases hflight with ⟨first, commit, rest, hbefore, ⟨scored, found, hop, -⟩, -⟩
    have hplain : ((searchPool (sampleDeployment .sqlite) (fun _ : Unit => samplePoll)
        sampleFinished).log (exec (sampleDeployment .sqlite))
          (List.replicate 3 ((), sampleTurn false))).all (·.2.op.isPlain) = true := by
      decide +kernel
    rw [hlog, List.all_append, Bool.and_eq_true] at hplain
    have hcommit : commit ∈ before.map Prod.snd := by
      rw [hbefore]
      simp
    rcases List.mem_map.mp hcommit with ⟨entry, hentry, rfl⟩
    have hfalse := List.all_eq_true.mp hplain.1 entry hentry
    rw [hop] at hfalse
    cases hfalse

/-- The task and a poll. -/
def sampleRace : Bool → SearchRequest
  | false => .runQueued sampleTask
  | true => samplePoll

/-- A poll right after the finalization, and a poll after a task whose last two
writes have failed. -/
def sampleRaces : List (List (Bool × Env)) :=
  [List.replicate 3 (false, sampleTurn false) ++ List.replicate 3 (true, sampleTurn false),
    List.replicate 5 (false, sampleTurn false) ++ List.replicate 2 (false, sampleTurn true) ++
      List.replicate 3 (true, sampleTurn false)]

/-- No search was completed, the poll is told that one is, and the audit trail says
nothing of it. -/
theorem completed_search_unaudited :
    (∀ row ∈ sampleCasebook.app.searches, row.status ≠ .completed) ∧
      ∀ schedule ∈ sampleRaces,
        let after := (searchPool (sampleDeployment .sqlite) sampleRace sampleCasebook).after
          (exec (sampleDeployment .sqlite)) schedule
        (after.answer true).any (fun reply => reply.any (·.shows .completed)) = true ∧
          after.store.app.auth.auditEvents = [] := by
  constructor
  · decide
  · decide +kernel

end AnatoliaBis.Cases
