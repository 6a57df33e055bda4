import AnatoliaBis.App.ReviewOutcome
import AnatoliaBis.Cases.Policy
import AnatoliaBis.Cases.Evidence

/-! # The history of a match

`search::get_candidate_history_route`, beside all other requests about searches and
candidates. It lists every decision on a match, and no decision ever leaves that list.
-/

namespace AnatoliaBis.Cases

open Atomic Program
open Auth (Env Headers Key)

/-! ## The route -/

/-- The operations of the casebook, and the statement of a history. -/
inductive HistoryOp where
  | case (op : Op)
  | listVerificationEvents (searchCandidateId : Key)

@[reducible] def HistoryOp.Res : HistoryOp → Type
  | .case op => op.Res
  | .listVerificationEvents _ => Except App.QueryError (List App.VerificationEvent)

/-- `ORDER BY created_at ASC`. -/
def oldestFirst (events : List App.VerificationEvent) : List App.VerificationEvent :=
  events.mergeSort fun a b => decide (a.createdAt ≤ b.createdAt)

/-- `SELECT … FROM verification_events WHERE search_candidate_id = …`. -/
def Casebook.eventsOf (s : Casebook) (id : Key) : List App.VerificationEvent :=
  oldestFirst (s.app.verificationEvents.filter fun event => id.isId event.searchCandidateId)

/-- One operation. -/
def execHistory (d : Deployment) : (op : HistoryOp) → Env → Casebook → Casebook × op.Res
  | .case op, e, s => exec d op e s
  | .listVerificationEvents id, e, s =>
      (s, if e.fails then .error .failed else .ok (s.eventsOf id))

abbrev HistoryHandler (α : Type) := Program HistoryOp HistoryOp.Res α

abbrev HistoryStep := Event HistoryOp Env Casebook

/-- A handler on the casebook. -/
def liftCase {α : Type} (h : Handler α) : HistoryHandler α := h.embed HistoryOp.case fun _ r => r

def casePart (d : Deployment) : Part HistoryOp.case (fun _ r => r) (exec d) (execHistory d) where
  get s := s
  put s _ := s
  get_put _ _ := rfl
  put_put _ _ _ := rfl
  put_get _ := rfl
  after _ _ _ := rfl
  result _ _ _ := rfl

/-- `db::list_verification_events`. -/
def listVerificationEvents (d : Deployment) (searchCandidateId : Uuid) :
    HistoryHandler (Except App.QueryError (List App.VerificationEvent)) :=
  match d.key searchCandidateId.text with
  | none => return .ok []
  | some key => .call (.listVerificationEvents key) .done

/-- The fields of `verification_event_json`. -/
structure VerificationEventItem where
  id : Uuid
  reviewerName : String
  decision : App.Decision
  reason : Option String
  notes : Option String
  createdAt : Timestamp
  deriving Repr, DecidableEq

/-- `verification_event_json`. -/
def verificationEventJson (event : App.VerificationEvent) : VerificationEventItem :=
  ⟨event.id, event.reviewerName, event.decision, event.reason, event.notes, event.createdAt⟩

/-- A response of the casebook's routes, or a history. -/
inductive HistoryReply where
  | reply (r : Reply)
  | history (events : List VerificationEventItem)

/-- `get_candidate_history_route` from the list of the matches on; the candidate is looked for by
the text of its id. -/
def historyOfMatch (d : Deployment) (headers : Headers) (candidateId : String)
    (rows : List App.SearchCandidateRow) : HistoryHandler HistoryReply :=
  match rows.find? fun row => row.candidateId.text == candidateId with
  | none => return .reply (notFound headers)
  | some row => do
      match ← listVerificationEvents d row.id with
      | .error _ => return .reply (internal headers)
      | .ok events => return .history (events.map verificationEventJson)

/-- `search::get_candidate_history_route`. -/
def getCandidateHistoryRoute (d : Deployment) (headers : Headers) (searchId candidateId : String) :
    HistoryHandler HistoryReply := do
  match ← liftCase (lift (App.lift (Auth.authUserFromHeaders headers))) with
  | none => return .reply (failure headers "UNAUTHORIZED" "errors.unauthorized")
  | some claims =>
      if !App.Policy.viewSearch.allows claims.role then return .reply (forbidden headers)
      else
        match ← liftCase (loadSearchById d searchId) with
        | .error _ => return .reply (internal headers)
        | .ok none => return .reply (notFound headers)
        | .ok (some search) =>
            let orgIds ← liftCase (actorOrgIds d claims)
            if !App.canViewScopedResource claims.role orgIds search.organizationId then
              return .reply (forbidden headers)
            else
              match ← liftCase (listSearchCandidates d searchId) with
              | .error _ => return .reply (internal headers)
              | .ok rows => historyOfMatch d headers candidateId rows

/-- A request about searches and candidates. -/
inductive HistoryRequest where
  | case (request : CaseRequest)
  | history (headers : Headers) (searchId candidateId : String)

/-- The handler of a request. -/
def HistoryRequest.handle (d : Deployment) : HistoryRequest → HistoryHandler (Option HistoryReply)
  | .case request => (liftCase (request.handle d)).map (Option.map .reply)
  | .history headers searchId candidateId =>
      (getCandidateHistoryRoute d headers searchId candidateId).map some

/-- Requests handled at the same time on one casebook. -/
def historyPool {ι : Type} (d : Deployment) (requests : ι → HistoryRequest) (s : Casebook) :
    Pool ι HistoryOp HistoryOp.Res (Option HistoryReply) Casebook :=
  ⟨fun i => (requests i).handle d, s⟩

/-! ## What is listed -/

/-- The match that a path names. -/
def IsNamed (d : Deployment) (searchId candidateId : String) (row : App.SearchCandidate) : Prop :=
  (∃ key, d.key searchId = some key ∧ key.isId row.searchId = true) ∧
    row.candidateId.text = candidateId

/-- All decisions on the match that a path names. -/
def ListsAll (d : Deployment) (searchId candidateId : String) (s : Casebook)
    (events : List VerificationEventItem) : Prop :=
  ∃ row ∈ s.app.searchCandidates.rows, IsNamed d searchId candidateId row ∧
    events = (oldestFirst (s.app.history row.id)).map verificationEventJson

/-- The match is looked up, and its decisions are read after that. -/
def ReadsAll (d : Deployment) (searchId candidateId : String) (h : List HistoryStep)
    (events : List VerificationEventItem) : Prop :=
  ∃ h₁ ev h₂ ev' row key, h = h₁ ++ ev :: (h₂ ++ [ev']) ∧
    row ∈ ev.before.app.searchCandidates.rows ∧ IsNamed d searchId candidateId row ∧
    d.key row.id.text = some key ∧ events = (ev'.before.eventsOf key).map verificationEventJson

/-- An answer with a history, of a match whose id the database knows it by. -/
def ShowsAll (d : Deployment) (searchId candidateId : String) (h : List HistoryStep)
    (reply : HistoryReply) : Prop :=
  ∀ events, reply = .history events → ReadsAll d searchId candidateId h events ∨
    ∃ h₁ ev h₂ row, h = h₁ ++ ev :: h₂ ∧ row ∈ ev.before.app.searchCandidates.rows ∧
      d.key row.id.text = none

section Route

variable {d : Deployment} {headers : Headers} {searchId candidateId : String}
  {h : List HistoryStep}

theorem showsAll_reply (r : Reply) : ShowsAll d searchId candidateId h (.reply r) := by
  intro events hevents
  cases hevents

/-- From the list of the matches on. -/
theorem historyOfMatch_showsAll {key : Key} {ev : HistoryStep} (hkey : d.key searchId = some key) :
    (historyOfMatch d headers candidateId (ev.before.app.listed key)).Guarantees (execHistory d)
      (fun _ _ => True) (ShowsAll d searchId candidateId) (h ++ [ev]) := by
  unfold historyOfMatch
  cases hfound : (ev.before.app.listed key).find? fun row =>
      row.candidateId.text == candidateId with
  | none => exact showsAll_reply _
  | some row =>
      rcases App.mem_listed.mp (List.mem_of_find?_eq_some hfound) with
        ⟨base, hbase, hsearch, hjoined⟩
      have htext := List.find?_some hfound
      rcases App.joined_eq_some hjoined with rfl
      have hnamed : IsNamed d searchId candidateId row.toSearchCandidate :=
        ⟨⟨key, hkey, hsearch⟩, beq_iff_eq.mp htext⟩
      dsimp only
      unfold listVerificationEvents
      cases hid : d.key row.id.text with
      | none =>
          intro events _
          exact Or.inr ⟨h, ev, [], row.toSearchCandidate, rfl, hbase, hid⟩
      | some id =>
          refine ⟨trivial, fun e s => ?_⟩
          cases hf : e.fails with
          | true =>
              have hresult : (execHistory d (.listVerificationEvents id) e s).2 =
                  .error .failed := by
                simp only [execHistory, hf, if_true]
              rw [hresult]
              exact showsAll_reply _
          | false =>
              have hresult : (execHistory d (.listVerificationEvents id) e s).2 =
                  .ok (s.eventsOf id) := by
                simp only [execHistory, hf, Bool.false_eq_true, if_false]
              rw [hresult]
              intro events hevents
              cases hevents
              refine Or.inl ⟨h, ev, [], ⟨.listVerificationEvents id, e, s, s⟩,
                row.toSearchCandidate, id, ?_, hbase, hnamed, hid, rfl⟩
              rw [List.append_assoc]
              rfl

/-- A part that is looked at for no more than its result. -/
theorem showsAll_bind {α : Type} {p : HistoryHandler α} {f : α → HistoryHandler HistoryReply}
    (hf : ∀ a h, (f a).Guarantees (execHistory d) (fun _ _ => True)
      (ShowsAll d searchId candidateId) h) (h : List HistoryStep) :
    (p >>= f).Guarantees (execHistory d) (fun _ _ => True)
      (ShowsAll d searchId candidateId) h :=
  (guarantees_grows p h).bind fun h' a _ => hf a h'

theorem getCandidateHistoryRoute_showsAll :
    (getCandidateHistoryRoute d headers searchId candidateId).Guarantees (execHistory d)
      (fun _ _ => True) (ShowsAll d searchId candidateId) h := by
  unfold getCandidateHistoryRoute
  refine showsAll_bind (fun found h => ?_) h
  split
  · exact showsAll_reply _
  next claims =>
    split_ifs
    · exact showsAll_reply _
    · refine showsAll_bind (fun found h => ?_) h
      split
      · exact showsAll_reply _
      · exact showsAll_reply _
      · refine showsAll_bind (fun orgIds h => ?_) h
        split_ifs
        · exact showsAll_reply _
        · unfold listSearchCandidates
          cases hkey : d.key searchId with
          | none => exact showsAll_reply _
          | some key =>
              refine ⟨trivial, fun e s => ?_⟩
              cases hf : e.fails with
              | true =>
                  have hresult : (execHistory d (.case (.app (.db (.listSearchCandidates key)))) e
                      s).2 = .error .failed :=
                    congrArg Prod.snd (App.exec_db_of_fails hf)
                  rw [hresult]
                  exact showsAll_reply _
              | false =>
                  have hresult : (execHistory d (.case (.app (.db (.listSearchCandidates key)))) e
                      s).2 = .ok (s.app.listed key) :=
                    congrArg Prod.snd (App.exec_db_of_succeeds hf rfl)
                  rw [hresult]
                  let ev : HistoryStep := ⟨.case (.app (.db (.listSearchCandidates key))), e, s,
                    (execHistory d (.case (.app (.db (.listSearchCandidates key)))) e s).1⟩
                  show (historyOfMatch d headers candidateId
                    (ev.before.app.listed key)).Guarantees _ _ _ (h ++ [ev])
                  exact historyOfMatch_showsAll hkey

end Route

/-- Only a request for a history is shown one. -/
theorem handle_showsAll (d : Deployment) (request : HistoryRequest) :
    (request.handle d).Guarantees (execHistory d) (fun _ _ => True)
      (fun h answer => ∀ headers searchId candidateId,
        request = .history headers searchId candidateId →
          ∀ reply ∈ answer, ShowsAll d searchId candidateId h reply) [] := by
  cases request with
  | case request =>
      refine (guarantees_grows _ _).mono (fun _ _ _ => trivial) ?_
      intro h answer _ headers searchId candidateId hrequest
      cases hrequest
  | history headers searchId candidateId =>
      apply getCandidateHistoryRoute_showsAll.map
      intro h reply hreply headers' searchId' candidateId' hrequest reply' hanswer
      cases hrequest
      rw [← Option.some.inj hanswer]
      exact hreply

/-! ## The policy -/

/-- A decision comes with the policy of the deployment. -/
def HistoryOp.FollowsPolicy (d : Deployment) (op : HistoryOp) : Prop :=
  ∀ op', op = .case op' → op'.FollowsPolicy d

section Policy

variable {d : Deployment} {α : Type}

theorem liftCase_follows {p : Handler α} (hp : Follows d p) :
    (liftCase p).Performs (execHistory d) (HistoryOp.FollowsPolicy d) fun _ => True := by
  apply (casePart d).performs_embed hp
  intro op hop op' hop'
  rw [← HistoryOp.case.inj hop']
  exact hop

theorem historyOfMatch_follows (headers : Headers) (candidateId : String)
    (rows : List App.SearchCandidateRow) :
    (historyOfMatch d headers candidateId rows).Performs (execHistory d)
      (HistoryOp.FollowsPolicy d) fun _ => True := by
  unfold historyOfMatch
  split
  · trivial
  next row hrow =>
    unfold listVerificationEvents
    split
    · trivial
    · refine ⟨fun op' hop' => ?_, fun e s => ?_⟩
      · cases hop'
      · dsimp only
        cases (execHistory d (.listVerificationEvents _) e s).2 with
        | error err => trivial
        | ok events => trivial

theorem getCandidateHistoryRoute_follows (headers : Headers) (searchId candidateId : String) :
    (getCandidateHistoryRoute d headers searchId candidateId).Performs (execHistory d)
      (HistoryOp.FollowsPolicy d) fun _ => True := by
  unfold getCandidateHistoryRoute
  apply (liftCase_follows (follows_lift authUserFromHeaders_appFollows)).bind
  intro found _
  split
  · trivial
  · split_ifs
    · trivial
    · apply (liftCase_follows (loadSearchById_follows searchId)).bind
      intro found _
      split
      · trivial
      · trivial
      · apply (liftCase_follows (actorOrgIds_follows _)).bind
        intro orgIds _
        split_ifs
        · trivial
        · apply (liftCase_follows (listSearchCandidates_follows searchId)).bind
          intro rows _
          split
          · trivial
          · exact historyOfMatch_follows _ _ _

/-- Every request records its decisions under the policy of the deployment. -/
theorem historyRequest_follows (request : HistoryRequest) :
    (request.handle d).Performs (execHistory d) (HistoryOp.FollowsPolicy d) fun _ => True := by
  cases request with
  | case request => exact (liftCase_follows (handle_follows d request)).map fun _ _ => trivial
  | history headers searchId candidateId =>
      exact (getCandidateHistoryRoute_follows headers searchId candidateId).map fun _ _ => trivial

end Policy

/-! ## Runs -/

section Run

variable {d : Deployment} {s s' : Casebook} {evs : List HistoryStep}

theorem grows_execHistory (op : HistoryOp) (e : Env) (s : Casebook) :
    Grows s (execHistory d op e s).1 := by
  cases op with
  | case op => exact grows_exec op s
  | listVerificationEvents id => exact Grows.refl s

theorem grows_executes (h : Executes (execHistory d) s evs s') : Grows s s' := by
  apply h.rel Grows.refl Grows.trans
  intro ev _ hafter
  rw [hafter]
  exact grows_execHistory ev.op ev.env ev.before

theorem chronicled_executes (h : Executes (execHistory d) s evs s')
    (hops : ∀ ev ∈ evs, ev.op.FollowsPolicy d) (hs : Chronicled d.requireSecondReview s.app) :
    Chronicled d.requireSecondReview s'.app := by
  have hkeeps : Chronicled d.requireSecondReview s.app →
      Chronicled d.requireSecondReview s'.app := by
    refine h.rel (T := fun s s' => Chronicled d.requireSecondReview s.app →
      Chronicled d.requireSecondReview s'.app) (fun _ => id) ?_ ?_
    · intro _ _ _ hfirst hsecond hbefore
      exact hsecond (hfirst hbefore)
    · intro ev hev hafter hbefore
      rw [hafter]
      cases hop : ev.op with
      | case op => exact hbefore.exec (hops ev hev op hop) ev.env
      | listVerificationEvents id => exact hbefore
  exact hkeeps hs

/-- No decision leaves the list of a match. -/
theorem ListsAll.subset {searchId candidateId : String} {events events' : List VerificationEventItem}
    (h : ListsAll d searchId candidateId s events) (h' : ListsAll d searchId candidateId s' events')
    (hgrows : Grows s s') : events ⊆ events' := by
  rcases h with ⟨row, hrow, ⟨⟨key, hkey, hsearch⟩, htext⟩, rfl⟩
  rcases h' with ⟨row', hrow', ⟨⟨key', hkey', hsearch'⟩, htext'⟩, rfl⟩
  -- the match is still there, and no other has its search and candidate
  rcases List.mem_map.mp (hgrows.found.subset (List.mem_map_of_mem hrow)) with
    ⟨later, hlater, hfound⟩
  have hsearchId := congrArg App.SearchCandidate.searchId hfound
  have hcandidateId := congrArg App.SearchCandidate.candidateId hfound
  have hid : (asFound later).id = (asFound row).id := congrArg App.SearchCandidate.id hfound
  rw [hkey] at hkey'
  rw [← Option.some.inj hkey'] at hsearch'
  have hsame : later = row' := by
    apply List.inj_on_of_nodup_map s'.app.searchCandidates.searchCandidateKey hlater hrow'
    apply Prod.ext
    · exact hsearchId.trans (App.isId_unique hsearch hsearch')
    · exact hcandidateId.trans (Uuid.text_injective (htext.trans htext'.symm))
  rw [← hsame, show later.id = row.id from hid]
  apply List.map_subset
  intro event hevent
  have hmem := (List.mem_mergeSort.mp hevent)
  apply List.mem_mergeSort.mpr
  exact (hgrows.decisions.filter _).subset hmem

end Run

/-- What holds of a run: at any time every match shows what its decisions replay to, nothing
that was filed is gone at any later time, and each answered history is the whole list of one
moment, of which later lists hold everything. -/
structure OnRecord {ι : Type} (d : Deployment) (requests : ι → HistoryRequest) (s : Casebook)
    (log : List (ι × HistoryStep))
    (after : Pool ι HistoryOp HistoryOp.Res (Option HistoryReply) Casebook) : Prop where
  states : ∀ l i ev l', log = l ++ (i, ev) :: l' →
    Chronicled d.requireSecondReview ev.before.app ∧ Grows s ev.before ∧
      (∀ entry ∈ l', Grows ev.before entry.2.before) ∧ Grows ev.before after.store
  last : Chronicled d.requireSecondReview after.store.app ∧ Grows s after.store
  answers : ∀ i headers searchId candidateId events,
    requests i = .history headers searchId candidateId →
    after.answer i = some (some (.history events)) →
      ∃ ev, (i, ev) ∈ log ∧ ListsAll d searchId candidateId ev.before events
  agree : ∀ i j headers headers' searchId candidateId events events',
    requests i = .history headers searchId candidateId →
    requests j = .history headers' searchId candidateId →
    after.answer i = some (some (.history events)) →
    after.answer j = some (some (.history events')) → events ⊆ events' ∨ events' ⊆ events

section Pool

variable {ι : Type} {d : Deployment} {s s' : Casebook} {log : List (ι × HistoryStep)}

/-- The states of a run, in the order in which they are reached. -/
theorem states_of_log (hs : Chronicled d.requireSecondReview s.app)
    (hexecutes : Executes (execHistory d) s (log.map Prod.snd) s')
    (hops : ∀ entry ∈ log, entry.2.op.FollowsPolicy d) {l l' : List (ι × HistoryStep)} {i : ι}
    {ev : HistoryStep} (hlog : log = l ++ (i, ev) :: l') :
    Chronicled d.requireSecondReview ev.before.app ∧ Grows s ev.before ∧
      (∀ entry ∈ l', Grows ev.before entry.2.before) ∧ Grows ev.before s' := by
  rw [hlog, List.map_append, List.map_cons] at hexecutes
  rcases hexecutes.split with ⟨hbefore, hafter, hrest⟩
  have hstep : Grows ev.before ev.after := by
    rw [hafter]
    exact grows_execHistory ev.op ev.env ev.before
  refine ⟨?_, grows_executes hbefore, ?_, hstep.trans (grows_executes hrest)⟩
  · apply chronicled_executes hbefore _ hs
    intro ev' hev'
    rcases List.mem_map.mp hev' with ⟨entry, hentry, rfl⟩
    apply hops
    rw [hlog]
    exact List.mem_append_left _ hentry
  · intro entry hentry
    rcases List.append_of_mem hentry with ⟨m, m', rfl⟩
    rw [List.map_append, List.map_cons] at hrest
    exact hstep.trans (grows_executes hrest.split.1)

variable [DecidableEq ι]

/-- What was read, in its place among all operations. -/
theorem listsAll_of_readsAll {i : ι} {searchId candidateId : String}
    {events : List VerificationEventItem}
    (hexecutes : Executes (execHistory d) s (log.map Prod.snd) s')
    (h : ReadsAll d searchId candidateId (Pool.own i log) events) :
    ∃ ev, (i, ev) ∈ log ∧ ListsAll d searchId candidateId ev.before events := by
  rcases h with ⟨h₁, ev, h₂, ev', row, key, hown, hrow, ⟨hsearch, htext⟩, hid, hevents⟩
  rcases Pool.own_eq_append hown with ⟨l, l', rfl, -, hown'⟩
  rcases Pool.own_eq_append hown' with ⟨m, m', rfl, -, -⟩
  refine ⟨ev', by simp, ?_⟩
  rw [List.map_append, List.map_cons] at hexecutes
  rcases hexecutes.split with ⟨-, hafter, hrest⟩
  rw [List.map_append, List.map_cons] at hrest
  have hgrows : Grows ev.before ev'.before := by
    refine Grows.trans ?_ (grows_executes hrest.split.1)
    rw [hafter]
    exact grows_execHistory ev.op ev.env ev.before
  rcases List.mem_map.mp (hgrows.found.subset (List.mem_map_of_mem hrow)) with
    ⟨later, hlater, hfound⟩
  have hsame : later.id = row.id ∧ later.searchId = row.searchId ∧
      later.candidateId = row.candidateId := by
    have hcore : (asFound later).id = (asFound row).id ∧
        (asFound later).searchId = (asFound row).searchId ∧
        (asFound later).candidateId = (asFound row).candidateId := by
      rw [hfound]
      exact ⟨rfl, rfl, rfl⟩
    exact hcore
  refine ⟨later, hlater, ⟨?_, ?_⟩, ?_⟩
  · rw [hsame.2.1]
    exact hsearch
  · rw [hsame.2.2]
    exact htext
  · rw [hevents, hsame.1]
    unfold Casebook.eventsOf App.Database.history
    congr 2
    apply List.filter_congr
    intro event _
    rw [Bool.eq_iff_iff, App.isId_of_key_text hid, beq_iff_eq]

end Pool

/-! ## An example -/

/-- A decision, and a history that is asked for. -/
def sampleReviewed : Bool → HistoryRequest
  | false => .case (.search (.review (App.sampleBearer App.sampleReviewer) (Uuid.text 0xab)
      ⟨Uuid.text 7, none, none⟩ .confirmed))
  | true => .history (App.sampleBearer App.sampleReviewer) (Uuid.text 7) (Uuid.text 0xab)

/-- The search of the sample's match. -/
def sampleFiled : Casebook :=
  { sampleCasebook with app := { App.sampleDatabase with
      searches := [{ sampleSearch with id := 7 }] } }

/-- One after the other. -/
def sampleReading : List (Bool × Env) :=
  List.replicate 8 (false, sampleTurn false) ++ List.replicate 5 (true, sampleTurn false)

/-- The history, where the answer is one. -/
def HistoryReply.events? : HistoryReply → Option (List VerificationEventItem)
  | .reply _ => none
  | .history events => some events

end AnatoliaBis.Cases
