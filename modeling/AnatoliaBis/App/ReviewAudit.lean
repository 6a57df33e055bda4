import AnatoliaBis.App.Footprint
import AnatoliaBis.App.ReviewOutcome

/-! # Reviews at the same time

Any number of review requests, their operations interleaved. The audit action is
derived from a row read after the transaction has committed, so it is that of the
request's own transition as long as nobody has moved the row on in between.
-/

namespace AnatoliaBis.App

open Atomic Program
open Auth (Env Headers)

/-! ## What a request did -/

/-- The status a transaction gave its row. -/
def transition (ev : Step) : Option ReviewStatus :=
  match ev.op with
  | .db (.recordReviewDecision entry) =>
      if ev.env.fails then none
      else (ev.before.searchCandidates.find entry.searchId entry.candidateId).bind
        entry.targetStatus
  | _ => none

/-- The row a request read back. -/
def readBack (candidateId : String) (ev : Step) : Option SearchCandidateRow :=
  match ev.op with
  | .db (.listSearchCandidates searchKey) =>
      if ev.env.fails then none
      else (ev.before.listed searchKey).find? fun row => row.candidateId.text == candidateId
  | _ => none

/-- The action of an audit event of success that was stored. -/
def audited (ev : Step) : Option String :=
  match ev.op with
  | .auth (.db (.insertAuditEvent event)) =>
      if ev.env.fails || event.result != "success" then none else some event.action
  | _ => none

/-- What a request did: its transitions, the rows it read back, and the actions it
recorded. -/
structure Trail where
  transitions : List ReviewStatus
  rows : List SearchCandidateRow
  actions : List String

def trail (candidateId : String) (h : List Step) : Trail :=
  ⟨h.filterMap transition, h.filterMap (readBack candidateId), h.filterMap audited⟩

/-- For a confirmation or a rejection, the rows read back await a second review
exactly if the request's own transition made them wait. -/
def Trail.InTime (decision : Decision) (t : Trail) : Prop :=
  decision.isFinalizing → ∀ row ∈ t.rows, ∀ status ∈ t.transitions,
    (row.status = .needsSecondReview ↔ status = .needsSecondReview)

/-- The actions that go with the transitions. -/
def Trail.due (decision : Decision) (t : Trail) : List String :=
  t.transitions.map (reviewAction decision)

/-- Two statuses mean the same action exactly if both or neither awaits a second
review; an inconclusive decision has one action only. -/
theorem reviewAction_eq_iff {decision : Decision} {a b : ReviewStatus} :
    reviewAction decision a = reviewAction decision b ↔
      (decision.isFinalizing → (a = .needsSecondReview ↔ b = .needsSecondReview)) := by
  cases decision <;> by_cases ha : a = .needsSecondReview <;>
    by_cases hb : b = .needsSecondReview <;> simp [reviewAction, Decision.isFinalizing, ha, hb]

section Trails

variable {candidateId : String} {h h' : List Step}

theorem trail_append : trail candidateId (h ++ h') =
    ⟨(trail candidateId h).transitions ++ (trail candidateId h').transitions,
      (trail candidateId h).rows ++ (trail candidateId h').rows,
      (trail candidateId h).actions ++ (trail candidateId h').actions⟩ := by
  unfold trail
  simp only [List.filterMap_append]

/-- Looking up, or recording a refusal. -/
def Silent (op : Op) : Prop :=
  op.Reads ∨ ∃ event, op = .auth (.db (.insertAuditEvent event)) ∧ event.result ≠ "success"

theorem trail_of_silent_op {ev : Step} (candidateId : String) (hop : Silent ev.op) :
    transition ev = none ∧ readBack candidateId ev = none ∧ audited ev = none := by
  rcases ev with ⟨op, e, s, s'⟩
  rcases hop with hop | ⟨event, rfl, hresult⟩
  · have hnot : ∀ q, op = .db q → transition ⟨.db q, e, s, s'⟩ = none ∧
        readBack candidateId ⟨.db q, e, s, s'⟩ = none := by
      rintro q rfl
      rcases hop with hop | hop
      · cases q <;> first | exact ⟨rfl, rfl⟩ | exact hop.elim
      · exact hop.elim
    cases op with
    | auth c =>
        refine ⟨rfl, rfl, ?_⟩
        cases c with
        | db q => rcases hop with hop | hop <;> cases q <;> first | rfl | exact hop.elim
        | _ => rfl
    | db q => exact ⟨(hnot q rfl).1, (hnot q rfl).2, rfl⟩
    | _ => exact ⟨rfl, rfl, rfl⟩
  · refine ⟨rfl, rfl, ?_⟩
    unfold audited
    simp [hresult]

/-- Neither leaves a trail. -/
theorem trail_of_silent (candidateId : String) (hh : ∀ ev ∈ h', Silent ev.op) :
    trail candidateId (h ++ h') = trail candidateId h := by
  rw [trail_append]
  unfold trail
  rw [List.filterMap_eq_nil_iff.mpr fun ev hev => (trail_of_silent_op candidateId (hh ev hev)).1,
    List.filterMap_eq_nil_iff.mpr fun ev hev => (trail_of_silent_op candidateId (hh ev hev)).2.1,
    List.filterMap_eq_nil_iff.mpr fun ev hev => (trail_of_silent_op candidateId (hh ev hev)).2.2]
  simp only [List.append_nil]

end Trails

/-! ## One request among others -/

/-- The transaction of a decision on the row with these keys. -/
def Decides (d : Deployment) (searchKey : Auth.Key) (candidateId : String) (ev : Step) : Prop :=
  ∃ entry, ev.op = .db (.recordReviewDecision entry) ∧ entry.searchId = searchKey ∧
    d.key candidateId = some entry.candidateId ∧ transition ev ≠ none

/-- Until it ends a request has recorded nothing, it decides once, and it reads rows
back only after that. -/
structure ReviewStep (d : Deployment) (candidateId : String) (h : List Step) (op : Op) : Prop where
  unrecorded : (trail candidateId h).actions = []
  undecided : ∀ entry, op = .db (.recordReviewDecision entry) →
    (trail candidateId h).transitions = []
  decided : ∀ searchKey, op = .db (.listSearchCandidates searchKey) →
    ∃ ev ∈ h, Decides d searchKey candidateId ev

/-- An outcome reports the row read back after one transition. -/
def Reported (candidateId : String) (h : List Step)
    (outcome : Except QueryError ReviewDecisionOutcome) : Prop :=
  (trail candidateId h).actions = [] ∧ ∀ row, outcome = .ok (.applied row) →
    ∃ status, trail candidateId h = ⟨[status], [row], []⟩

/-- A success is answered after one transition, and the action recorded is that of
the row read back. -/
def Answered (candidateId : String) (decision : Decision) (h : List Step) (r : Reply) : Prop :=
  ((trail candidateId h).actions = [] ∧ r.status ≠ 200) ∨
    ∃ status row, trail candidateId h = ⟨[status], [row], [reviewAction decision row.status]⟩

section Guarantee

variable {d : Deployment} {candidateId : String} {α : Type} {h : List Step}

theorem guarantees_of_silent {prog : Handler α} {R : α → Prop}
    (hp : prog.Performs (exec d) Silent R) (hh : (trail candidateId h).actions = []) :
    prog.Guarantees (exec d) (ReviewStep d candidateId)
      (fun h' _ => trail candidateId h' = trail candidateId h) h := by
  refine hp.guarantees (fun evs op hevs hop => ⟨?_, ?_, ?_⟩) fun evs _ hevs _ => trail_of_silent _ hevs
  · rw [trail_of_silent _ hevs]
    exact hh
  · rintro entry rfl
    rcases hop with (hop | hop) | ⟨event, hop, -⟩
    · exact hop.elim
    · exact hop.elim
    · cases hop
  · rintro searchKey rfl
    rcases hop with (hop | hop) | ⟨event, hop, -⟩
    · exact hop.elim
    · exact hop.elim
    · cases hop

theorem guarantees_of_reads {prog : Handler α} {R : α → Prop}
    (hp : prog.Performs (exec d) Op.Reads R) (hh : (trail candidateId h).actions = []) :
    prog.Guarantees (exec d) (ReviewStep d candidateId)
      (fun h' _ => trail candidateId h' = trail candidateId h) h :=
  guarantees_of_silent (hp.weaken fun _ hop => Or.inl hop) hh

theorem guarantees_of_lookups {prog : Handler α} {R : α → Prop}
    (hp : prog.Performs (exec d) Op.LooksUp R) (hh : (trail candidateId h).actions = []) :
    prog.Guarantees (exec d) (ReviewStep d candidateId)
      (fun h' _ => trail candidateId h' = trail candidateId h) h :=
  guarantees_of_reads (hp.weaken fun _ hop => hop.reads) hh

theorem failure_status_ne (headers : Headers) (code messageKey : String) :
    (failure headers code messageKey).status ≠ 200 := by
  intro h
  exact failure_status headers code messageKey (h.trans_lt (by decide))

/-- A statement that failed leaves no trail. -/
theorem trail_of_fails {q : Query} {e : Env} {s s' : Database} (hf : e.fails = true) :
    trail candidateId (h ++ [⟨.db q, e, s, s'⟩]) = trail candidateId h := by
  have hnone : trail candidateId [⟨.db q, e, s, s'⟩] = ⟨[], [], []⟩ := by
    unfold trail
    cases q <;> simp [transition, readBack, audited, hf]
  rw [trail_append, hnone]
  simp only [List.append_nil]

theorem rereadRow_guarantees (searchKey : Auth.Key) (status : ReviewStatus)
    (hh : trail candidateId h = ⟨[status], [], []⟩)
    (hdecides : ∃ ev ∈ h, Decides d searchKey candidateId ev) :
    (rereadRow searchKey candidateId).Guarantees (exec d) (ReviewStep d candidateId)
      (Reported candidateId) h := by
  have hact : (trail candidateId h).actions = [] := by rw [hh]
  refine guarantees_query ⟨hact, nofun, fun searchKey' h' => ?_⟩ fun e s => ?_
  · rcases Query.listSearchCandidates.inj (Op.db.inj h') with rfl
    exact hdecides
  cases hf : e.fails with
  | true =>
      rw [exec_db_of_fails hf]
      refine ⟨?_, nofun⟩
      rw [trail_of_fails hf]
      exact hact
  | false =>
      rw [exec_db_of_succeeds hf rfl]
      have hread : readBack candidateId ⟨.db (.listSearchCandidates searchKey), e, s, s⟩ =
          (s.listed searchKey).find? fun row => row.candidateId.text == candidateId := by
        unfold readBack
        simp only [hf, Bool.false_eq_true, if_false]
      have htrail : trail candidateId (h ++ [⟨.db (.listSearchCandidates searchKey), e, s, s⟩]) =
          ⟨[status], ((s.listed searchKey).find? fun row =>
            row.candidateId.text == candidateId).toList, []⟩ := by
        rw [trail_append, hh]
        unfold trail
        rw [List.filterMap_cons, List.filterMap_cons, List.filterMap_cons, hread]
        cases List.find? _ (s.listed searchKey) <;> rfl
      have hperform : Query.perform d e.now (.listSearchCandidates searchKey) s =
          (s, s.listed searchKey) := rfl
      rw [hperform]
      dsimp only
      cases hfind : (s.listed searchKey).find? fun row => row.candidateId.text == candidateId with
      | some row =>
          rw [hfind] at htrail
          refine ⟨by rw [htrail], fun row' hrow' => ?_⟩
          rcases ReviewDecisionOutcome.applied.inj (Except.ok.inj hrow') with rfl
          exact ⟨status, htrail⟩
      | none =>
          rw [hfind] at htrail
          exact ⟨by rw [htrail], nofun⟩

theorem trail_of_record {e : Env} {s : Database} (hh : trail candidateId h = ⟨[], [], []⟩)
    (hf : e.fails = false) (entry : ReviewEntry) (s' : Database) :
    trail candidateId (h ++ [⟨.db (.recordReviewDecision entry), e, s, s'⟩]) =
      ⟨((s.searchCandidates.find entry.searchId entry.candidateId).bind
        entry.targetStatus).toList, [], []⟩ := by
  have htransition : transition ⟨.db (.recordReviewDecision entry), e, s, s'⟩ =
      (s.searchCandidates.find entry.searchId entry.candidateId).bind entry.targetStatus := by
    unfold transition
    simp only [hf, Bool.false_eq_true, if_false]
  rw [trail_append, hh]
  unfold trail
  rw [List.filterMap_cons, List.filterMap_cons, List.filterMap_cons, htransition]
  cases Option.bind _ entry.targetStatus <;> rfl

theorem recordReviewDecision_guarantees (c : ReviewCall) (hid : c.candidateId = candidateId)
    (hh : trail candidateId h = ⟨[], [], []⟩) :
    (c.program d).Guarantees (exec d) (ReviewStep d candidateId) (Reported candidateId) h := by
  have hact : (trail candidateId h).actions = [] := by rw [hh]
  unfold ReviewCall.program recordReviewDecision
  rw [hid]
  split
  next searchKey candidateKey _ hcandidate =>
    refine guarantees_perform ⟨hact, nofun, nofun⟩ fun e s => ?_
    have hsilent : ∀ ev ∈ ([⟨.auth .newId, e, s, (exec d (.auth .newId) e s).1⟩] : List Step),
        Silent ev.op := by
      simp [Silent, Op.Reads, Op.Draws]
    have hdrawn := trail_of_silent (h := h) candidateId hsilent
    generalize h ++ [_] = h₁ at *
    rw [hh] at hdrawn
    have hact₁ : (trail candidateId h₁).actions = [] := by rw [hdrawn]
    refine guarantees_query ⟨hact₁, fun _ _ => by rw [hdrawn], nofun⟩ fun e₁ s₁ => ?_
    generalize hentry : ReviewEntry.mk _ _ _ _ _ _ _ _ _ _ = entry
    cases hf : e₁.fails with
    | true =>
        rw [exec_db_of_fails hf]
        refine ⟨?_, nofun⟩
        rw [trail_of_fails hf]
        exact hact₁
    | false =>
        have hexec : exec d (.db (.recordReviewDecision entry)) e₁ s₁ =
            ((s₁.record (d.now e₁.now) entry).1, .ok (s₁.record (d.now e₁.now) entry).2) :=
          exec_db_of_succeeds hf rfl
        have htrail := trail_of_record (s := s₁) hdrawn hf entry (s₁.record (d.now e₁.now) entry).1
        rw [hexec]
        rcases record_cases s₁ (d.now e₁.now) entry with
          ⟨hfind, hr⟩ | ⟨current, hfind, htarget, hr⟩ | ⟨current, status, hfind, htarget, hr⟩
        · rw [hr] at htrail ⊢
          exact ⟨by rw [htrail], nofun⟩
        · rw [hr] at htrail ⊢
          exact ⟨by rw [htrail], nofun⟩
        · rw [hr] at htrail ⊢
          refine rereadRow_guarantees searchKey status ?_ ?_
          · rw [htrail, hfind, Option.bind_some, htarget]
            rfl
          · refine ⟨_, List.mem_append_right _ (List.mem_singleton_self _), entry, rfl, ?_, ?_, ?_⟩
            · rw [← hentry]
            · rw [← hentry]
              exact hcandidate
            · unfold transition
              simp only [hf, Bool.false_eq_true, if_false]
              rw [hfind, Option.bind_some, htarget]
              nofun
  · exact ⟨hact, nofun⟩

/-- Storing an audit event leaves its action in the trail, or fails. -/
theorem lift_saveMandatory_guarantees {r : Audit.AuditRecorder} (hr : r.result = "success")
    (hh : (trail candidateId h).actions = []) :
    (lift (Auth.saveMandatory d.toPlatform r)).Guarantees (exec d) (ReviewStep d candidateId)
      (fun h' stored => match stored with
        | .error _ => trail candidateId h' = trail candidateId h
        | .ok _ => trail candidateId h' = { trail candidateId h with actions := [r.action] }) h := by
  unfold lift Auth.saveMandatory
  rw [embed_bind]
  refine (guarantees_of_lookups (resolveOrganizationId_performs r) hh).bind fun h' org hh' => ?_
  rw [← hh'] at hh ⊢
  refine ⟨⟨hh, nofun, nofun⟩, fun e s => ?_⟩
  have hevent : ∀ s', audited ⟨.auth (.db (.insertAuditEvent (r.toNewEvent org))), e, s, s'⟩ =
      if e.fails then none else some r.action := by
    intro s'
    unfold audited Audit.AuditRecorder.toNewEvent
    simp [hr]
  have htrail : ∀ s', trail candidateId (h' ++ [⟨.auth (.db (.insertAuditEvent (r.toNewEvent org))),
      e, s, s'⟩]) = { trail candidateId h' with
        actions := (if e.fails then none else some r.action).toList } := by
    intro s'
    rw [trail_append, hh]
    unfold trail
    rw [List.filterMap_cons, List.filterMap_cons, List.filterMap_cons, hevent]
    cases e.fails <;> simp [transition, readBack]
  cases hf : e.fails with
  | true =>
      have hexec : exec d (.auth (.db (.insertAuditEvent (r.toNewEvent org)))) e s =
          (s, .error .failed) := by
        show ({ s with auth := (Auth.exec _ _ e s.auth).1 }, (Auth.exec _ _ e s.auth).2) = _
        rw [Auth.exec_db_of_fails _ hf]
      rw [hexec]
      refine (htrail s).trans ?_
      rw [hf, if_pos rfl]
      show Trail.mk _ _ [] = _
      rw [← hh]
  | false =>
      have hexec : exec d (.auth (.db (.insertAuditEvent (r.toNewEvent org)))) e s =
          ({ s with auth := { s.auth with
            auditEvents := s.auth.auditEvents ++ [r.toNewEvent org] } }, .ok ()) := by
        show ({ s with auth := (Auth.exec _ _ e s.auth).1 }, (Auth.exec _ _ e s.auth).2) = _
        rw [Auth.exec_db_of_succeeds _ hf]
        rfl
      rw [hexec]
      refine (htrail _).trans ?_
      rw [hf, if_neg Bool.false_ne_true]
      rfl

/-- A refusal that is recorded leaves no trail. -/
theorem save_performs_silent {r : Audit.AuditRecorder} (hr : r.result ≠ "success") :
    (save d r).Performs (exec d) Silent fun _ => True := by
  unfold save lift Auth.save
  rw [embed_bind]
  refine ((resolveOrganizationId_performs r).weaken fun _ h => Or.inl h.reads).bind fun _ _ => ?_
  exact ⟨Or.inr ⟨_, rfl, hr⟩, fun _ _ => trivial⟩

theorem answerReview_guarantees {headers : Headers} {payload : ReviewPayload} {decision : Decision}
    {claims : Auth.Claims} {outcome : Except QueryError ReviewDecisionOutcome}
    (hh : Reported candidateId h outcome) :
    (answerReview d headers candidateId payload decision claims outcome).Guarantees (exec d)
      (ReviewStep d candidateId) (Answered candidateId decision) h := by
  rcases hh with ⟨hact, happlied⟩
  match outcome with
  | .error err => exact Or.inl ⟨hact, failure_status_ne _ _ _⟩
  | .ok .notFound => exact Or.inl ⟨hact, failure_status_ne _ _ _⟩
  | .ok .sameReviewerForbidden =>
      refine (guarantees_of_silent (save_performs_silent ?_) hact).bind fun h' _ hh' => ?_
      · show "denied" ≠ "success"
        decide
      · exact Or.inl ⟨by rw [hh', hact], failure_status_ne _ _ _⟩
  | .ok (.applied row) =>
      rcases happlied row rfl with ⟨status, htrail⟩
      refine (lift_saveMandatory_guarantees rfl hact).bind fun h' stored hh' => ?_
      cases stored with
      | error err => exact Or.inl ⟨by rw [hh', hact], failure_status_ne _ _ _⟩
      | ok _ =>
          refine Or.inr ⟨status, row, ?_⟩
          rw [hh', htrail]
          rfl

/-- **One review request**, whatever the others do. -/
theorem review_guarantees {headers : Headers} {payload : ReviewPayload} {decision : Decision} :
    (review d headers candidateId payload decision).Guarantees (exec d) (ReviewStep d candidateId)
      (Answered candidateId decision) [] := by
  unfold review
  refine (guarantees_of_reads (authUserFromHeaders_performs headers) rfl).bind
    fun h₁ claims hh₁ => ?_
  have hact₁ : (trail candidateId h₁).actions = [] := by rw [hh₁]; rfl
  cases claims with
  | none => exact Or.inl ⟨hact₁, failure_status_ne _ _ _⟩
  | some claims =>
      refine (guarantees_of_reads (requireRole_performs headers _) hact₁).bind
        fun h₂ allowed hh₂ => ?_
      rw [hh₁] at hh₂
      have hact₂ : (trail candidateId h₂).actions = [] := by rw [hh₂]; rfl
      cases allowed with
      | false => exact Or.inl ⟨hact₂, failure_status_ne _ _ _⟩
      | true =>
          refine (guarantees_of_lookups (actingName_performs claims) hact₂).bind
            fun h₃ name hh₃ => ?_
          refine (recordReviewDecision_guarantees ⟨payload.searchId, candidateId, decision,
            claims.id, name, payload.reason, payload.notes, Auth.requestId headers⟩ rfl
            (hh₃.trans hh₂)).bind fun h₄ outcome hh₄ => ?_
          exact answerReview_guarantees hh₄

end Guarantee

/-! ## Interleavings -/

/-- The arguments of a review request. -/
structure ReviewRequest where
  headers : Headers
  candidateId : String
  payload : ReviewPayload
  decision : Decision

/-- Review requests, and the database they meet. -/
def reviews {ι : Type} (d : Deployment) (requests : ι → ReviewRequest) (s : Database) :
    Pool ι Op Op.Res Reply Database :=
  ⟨fun i => review d (requests i).headers (requests i).candidateId (requests i).payload
    (requests i).decision, s⟩

/-! ## A row while others decide -/

/-- The row a transaction is about. -/
def decidedRow (ev : Step) : Option Uuid :=
  match ev.op with
  | .db (.recordReviewDecision entry) =>
      (ev.before.searchCandidates.find entry.searchId entry.candidateId).map (·.id)
  | _ => none

/-- The operation stores no decision on this row. -/
def LeavesRow (id : Uuid) (ev : Step) : Prop := transition ev = none ∨ decidedRow ev ≠ some id

section Row

variable {d : Deployment} {row : SearchCandidate} {s s' : Database}

/-- Only decisions write `search_candidates`. -/
theorem searchCandidates_exec {op : Op} {e : Env}
    (hop : ∀ entry, op ≠ .db (.recordReviewDecision entry)) :
    (exec d op e s).1.searchCandidates = s.searchCandidates := by
  cases op with
  | db q =>
      apply exec_db_store (I := fun s' => s'.searchCandidates = s.searchCandidates) rfl
      intro _ _
      cases q with
      | recordReviewDecision entry => exact absurd rfl (hop entry)
      | _ => rfl
  | _ => rfl

theorem mem_exec {op : Op} {e : Env} (hrow : row ∈ s.searchCandidates.rows)
    (hleaves : LeavesRow row.id ⟨op, e, s, (exec d op e s).1⟩) :
    row ∈ (exec d op e s).1.searchCandidates.rows := by
  by_cases hop : ∃ entry, op = .db (.recordReviewDecision entry)
  · rcases hop with ⟨entry, rfl⟩
    cases hf : e.fails with
    | true =>
        rw [exec_db_of_fails hf]
        exact hrow
    | false =>
        rw [exec_db_of_succeeds hf rfl]
        show row ∈ (s.record (d.now e.now) entry).1.searchCandidates.rows
        rcases record_cases s (d.now e.now) entry with
          ⟨-, hr⟩ | ⟨current, -, -, hr⟩ | ⟨current, status, hfind, htarget, hr⟩
        · rwa [hr]
        · rwa [hr]
        · -- another row is rewritten
          have hne : row.id ≠ current.id := by
            rintro hid
            rcases hleaves with h | h
            · simp [transition, hf, hfind, htarget] at h
            · simp [decidedRow, hfind, hid] at h
          rw [hr]
          refine List.mem_map.mpr ⟨row, hrow, ?_⟩
          rw [if_neg (by simpa using hne)]
  · rw [searchCandidates_exec fun entry h => hop ⟨entry, h⟩]
    exact hrow

theorem mem_of_executes {evs : List Step} (h : Executes (exec d) s evs s')
    (hrow : row ∈ s.searchCandidates.rows) (hleaves : ∀ ev ∈ evs, LeavesRow row.id ev) :
    row ∈ s'.searchCandidates.rows := by
  induction h with
  | nil s => exact hrow
  | cons op e s rest ih =>
      refine ih (mem_exec hrow (hleaves _ (List.mem_cons_self ..))) fun ev hev => ?_
      exact hleaves ev (List.mem_cons_of_mem _ hev)

/-- Right after a decision its row has the status decided on. -/
theorem mem_of_transition {ev : Step} (hev : ev.after = (exec d ev.op ev.env ev.before).1)
    {entry : ReviewEntry} (hop : ev.op = .db (.recordReviewDecision entry)) {status : ReviewStatus}
    (hstatus : transition ev = some status) :
    ∃ row ∈ ev.after.searchCandidates.rows, decidedRow ev = some row.id ∧
      entry.searchId.isId row.searchId = true ∧ entry.candidateId.isId row.candidateId = true ∧
      row.status = status := by
  rcases ev with ⟨op, e, s, s'⟩
  dsimp only at hev hop
  subst hop
  unfold transition at hstatus
  dsimp only at hstatus
  split_ifs at hstatus with hf
  rcases Option.bind_eq_some_iff.mp hstatus with ⟨current, hfind, htarget⟩
  have hkeys := List.find?_some hfind
  simp only [Bool.and_eq_true] at hkeys
  rw [Bool.not_eq_true] at hf
  have hafter : s' = (s.record (d.now e.now) entry).1 := by
    rw [hev, exec_db_of_succeeds hf rfl]
    rfl
  unfold Database.record at hafter
  simp only [hfind, htarget] at hafter
  rcases mem_review (t := s.searchCandidates) (List.mem_of_find?_eq_some hfind) status
    entry.reviewedBy entry.reviewedByName (d.now e.now)
    with ⟨row, hrow, hid, hrowSearch, hrowCandidate, hrowStatus⟩
  rw [← hrowSearch, ← hrowCandidate] at hkeys
  refine ⟨row, ?_, ?_, hkeys.1, hkeys.2, hrowStatus⟩
  · dsimp only
    rw [hafter]
    exact hrow
  · unfold decidedRow
    dsimp only
    rw [hfind, Option.map_some, hid]

end Row

section Interleaved

variable {ι : Type} [DecidableEq ι] (d : Deployment) (requests : ι → ReviewRequest) (s : Database)

/-- The trail of a request in an interleaving. -/
def trailOf (i : ι) (schedule : List (ι × Env)) : Trail :=
  trail (requests i).candidateId (Pool.own i ((reviews d requests s).log (exec d) schedule))

/-- Whatever the schedule, a request that is not done has recorded nothing, and one
that is done has answered for what it did. -/
theorem reviews_trail (schedule : List (ι × Env)) (i : ι) :
    match ((reviews d requests s).after (exec d) schedule).answer i with
    | none => (trailOf d requests s i schedule).actions = []
    | some r => Answered (requests i).candidateId (requests i).decision
        (Pool.own i ((reviews d requests s).log (exec d) schedule)) r := by
  have hall : ∀ i, ((reviews d requests s).threads i).Guarantees (exec d)
      (ReviewStep d (requests i).candidateId)
      (Answered (requests i).candidateId (requests i).decision) [] := fun i => review_guarantees
  have hi := (Pool.guarantees hall schedule).1 i
  unfold Pool.answer
  cases hthread : ((reviews d requests s).after (exec d) schedule).threads i with
  | done r =>
      rw [hthread] at hi
      exact hi
  | call op next =>
      rw [hthread] at hi
      exact hi.1.unrecorded

/-- Between a decision of the request and its reading the row back nobody else
decides on that row. -/
def Undisturbed (i : ι) (log : List (ι × Step)) : Prop :=
  ∀ l first m second l', log = l ++ (i, first) :: (m ++ (i, second) :: l') →
    ∀ id, decidedRow first = some id → ∀ j ev, (j, ev) ∈ m → j ≠ i → LeavesRow id ev

theorem readBack_eq_some {candidateId : String} {ev : Step} {row : SearchCandidateRow}
    (h : readBack candidateId ev = some row) :
    ∃ searchKey, ev.op = .db (.listSearchCandidates searchKey) ∧
      row ∈ ev.before.listed searchKey ∧ row.candidateId.text = candidateId := by
  rcases ev with ⟨op, e, s, s'⟩
  unfold readBack at h
  split at h
  next searchKey hop =>
    split_ifs at h
    exact ⟨searchKey, hop, List.mem_of_find?_eq_some h, by simpa using List.find?_some h⟩
  · cases h

/-- After its decision a request makes no further one. -/
theorem transition_later (candidateId : ι → String) {l l' : List (ι × Step)} {i : ι} {first : Step}
    (hsteps : ∀ k j ev k', l ++ (i, first) :: l' = k ++ (j, ev) :: k' →
      ReviewStep d (candidateId j) (Pool.own j k) ev.op) (hfirst : transition first ≠ none) :
    ∀ ev, (i, ev) ∈ l' → transition ev = none := by
  intro ev hev
  by_contra hne
  rcases List.append_of_mem hev with ⟨m, k', rfl⟩
  have hstep := hsteps (l ++ (i, first) :: m) i ev k' (by simp)
  have hop : ∃ entry, ev.op = .db (.recordReviewDecision entry) := by
    unfold transition at hne
    split at hne
    next entry hop => exact ⟨entry, hop⟩
    · exact absurd rfl hne
  rcases hop with ⟨entry, hop⟩
  have hnone := hstep.undecided entry hop
  rcases Option.ne_none_iff_exists'.mp hfirst with ⟨status, hstatus⟩
  have hmem : status ∈ (trail (candidateId i) (Pool.own i (l ++ (i, first) :: m))).transitions :=
    List.mem_filterMap.mpr ⟨first, by simp, hstatus⟩
  rw [hnone] at hmem
  cases hmem

/-- A row that nobody disturbs is read in time. -/
theorem inTime_of_undisturbed (schedule : List (ι × Env)) (i : ι)
    (h : Undisturbed i ((reviews d requests s).log (exec d) schedule)) :
    (trailOf d requests s i schedule).InTime (requests i).decision := by
  have hall : ∀ i, ((reviews d requests s).threads i).Guarantees (exec d)
      (ReviewStep d (requests i).candidateId)
      (Answered (requests i).candidateId (requests i).decision) [] := fun i => review_guarantees
  have hsteps := (Pool.guarantees hall schedule).2
  have hexec : Executes (exec d) s (((reviews d requests s).log (exec d) schedule).map Prod.snd)
      ((reviews d requests s).after (exec d) schedule).store :=
    Pool.executes (c := reviews d requests s) schedule
  unfold trailOf
  generalize (reviews d requests s).log (exec d) schedule = log at *
  -- the row that was read back, and the decision before it
  intro _ row hrow status hstatus
  rcases List.mem_filterMap.mp hrow with ⟨second, hsecond, hread⟩
  rcases List.append_of_mem (Pool.mem_own.mp hsecond) with ⟨before, l', rfl⟩
  rcases readBack_eq_some hread with ⟨searchKey, hop, hlisted, htext⟩
  rcases (hsteps before i second l' rfl).decided searchKey hop with ⟨first, hfirst, hdecides⟩
  rcases List.append_of_mem (Pool.mem_own.mp hfirst) with ⟨l, m, rfl⟩
  rcases hdecides with ⟨entry, hentry, rfl, hcandidate, hdecided⟩
  rcases Option.ne_none_iff_exists'.mp hdecided with ⟨status', hstatus'⟩
  simp only [List.append_assoc, List.cons_append] at hsteps hstatus hexec h
  have hlater := transition_later d (fun i => (requests i).candidateId) hsteps hdecided
  -- it is the request's only one
  have hsame : status = status' := by
    rcases List.mem_filterMap.mp hstatus with ⟨ev, hev, hevStatus⟩
    rcases List.mem_append.mp (Pool.mem_own.mp hev) with hev | hev
    · have hnone := (hsteps l i first _ rfl).undecided entry hentry
      have hmem : status ∈ (trail (requests i).candidateId (Pool.own i l)).transitions :=
        List.mem_filterMap.mpr ⟨ev, Pool.mem_own.mpr hev, hevStatus⟩
      rw [hnone] at hmem
      cases hmem
    · rcases List.mem_cons.mp hev with hev | hev
      · rcases Prod.mk.inj hev with ⟨-, rfl⟩
        exact Option.some.inj (hevStatus.symm.trans hstatus')
      · rw [hlater ev hev] at hevStatus
        cases hevStatus
  -- so the row stays as it was decided
  rw [List.map_append, List.map_cons, List.map_append, List.map_cons] at hexec
  rcases hexec.split with ⟨-, hafter, hrest⟩
  rcases mem_of_transition hafter hentry hstatus' with
    ⟨decided, hdecidedMem, hid, hsearchKey, hcandidateKey, hdecidedStatus⟩
  have hmem := mem_of_executes hrest.split.1 hdecidedMem fun ev hev => by
    rcases List.mem_map.mp hev with ⟨⟨j, ev'⟩, hev', rfl⟩
    by_cases hj : j = i
    · rw [hj] at hev'
      exact Or.inl (hlater ev' (List.mem_append_left _ hev'))
    · exact h l first m second l' rfl decided.id hid j ev' hev' hj
  have hrowEq := eq_of_mem_listed hcandidate hmem hsearchKey hcandidateKey hlisted htext
  rw [hsame, ← hdecidedStatus, ← hrowEq]

end Interleaved

/-- Two reviewers at the sample's match: a confirmation and a rejection. -/
def samplePair (second : Bool) : ReviewRequest where
  headers := sampleBearer (if second then sampleReviewer' else sampleReviewer)
  candidateId := Uuid.text 0xab
  payload := ⟨Uuid.text 7, none, none⟩
  decision := if second then .rejected else .confirmed

/-- The second request comes between the first one's decision and its reading the
row back. -/
def sampleOvertaking : List (Bool × Env) :=
  (List.replicate 5 false ++ List.replicate 8 true ++ List.replicate 3 false).map fun i =>
    (i, Auth.steadily sampleNow 0 0)

end AnatoliaBis.App
