import AnatoliaBis.App.Requests

/-! # Four-eyes review

`record_review_decision` under `require_second_review`. The rule is stated first,
for a list of verification events; the table is then shown to follow it in every
state that decisions, one transaction after the other, lead to.
-/

namespace AnatoliaBis.App

open Atomic Program
open Auth (Env)

/-! ## The rule -/

/-- What the row of a candidate says about its review. -/
structure ReviewState where
  status : ReviewStatus
  reviewedBy : Option Uuid
  deriving Repr, DecidableEq

namespace ReviewState

/-- Nobody has decided yet. -/
def unreviewed : ReviewState := ⟨.pending, none⟩

/-- One more decision: the first of two only asks for the second. -/
def next (st : ReviewState) (event : VerificationEvent) : ReviewState where
  status :=
    if !event.decision.isFinalizing || st.status = .needsSecondReview then
      .decided event.decision
    else .needsSecondReview
  reviewedBy := some event.reviewerUserId

end ReviewState

/-- Decisions of which no second one is by the reviewer of the first, and where
they lead. -/
inductive Reviewed : List VerificationEvent → ReviewState → Prop
  | nil : Reviewed [] .unreviewed
  | snoc {events : List VerificationEvent} {st : ReviewState} (event : VerificationEvent)
      (before : Reviewed events st)
      (other : event.decision.isFinalizing → st.status = .needsSecondReview →
        st.reviewedBy ≠ some event.reviewerUserId) :
      Reviewed (events ++ [event]) (st.next event)

namespace Reviewed

variable {events : List VerificationEvent} {st : ReviewState}

theorem foldl (h : Reviewed events st) :
    events.foldl ReviewState.next .unreviewed = st := by
  induction h with
  | nil => rfl
  | snoc event before other ih => rw [List.foldl_append, ih]; rfl

/-- Whoever asked for a second review made the last decision. -/
theorem awaiting (h : Reviewed events st) (hst : st.status = .needsSecondReview) :
    ∃ earlier event, events = earlier ++ [event] ∧ event.decision.isFinalizing ∧
      st.reviewedBy = some event.reviewerUserId := by
  cases h with
  | nil => cases hst
  | @snoc events st event before other =>
      refine ⟨events, event, rfl, ?_, rfl⟩
      unfold ReviewState.next at hst
      dsimp only at hst
      split_ifs at hst with hcond
      simp only [Bool.or_eq_true, not_or] at hcond
      simpa using hcond.1

/-- A final decision is the second of two, by two reviewers. -/
theorem final (h : Reviewed events st) {decision : Decision} (hfinal : decision.isFinalizing)
    (hst : st.status = .decided decision) :
    ∃ earlier first second, events = earlier ++ [first, second] ∧ first.decision.isFinalizing ∧
      second.decision = decision ∧ first.reviewerUserId ≠ second.reviewerUserId := by
  cases h with
  | nil => cases hst
  | @snoc events st event before other =>
      unfold ReviewState.next at hst
      dsimp only at hst
      split_ifs at hst with hcond
      rcases ReviewStatus.decided.inj hst with rfl
      have hwaiting : st.status = .needsSecondReview := by
        simpa [hfinal] using hcond
      rcases before.awaiting hwaiting with ⟨earlier, first, rfl, hfirst, hby⟩
      refine ⟨earlier, first, event, by simp, hfirst, rfl, fun hsame => ?_⟩
      exact other hfinal hwaiting (hby.trans (congrArg some hsame))

end Reviewed

/-! ## One transaction -/

/-- The verification events of a row of `search_candidates`. -/
def Database.history (s : Database) (id : Uuid) : List VerificationEvent :=
  s.verificationEvents.filter fun event => event.searchCandidateId == id

def SearchCandidate.state (row : SearchCandidate) : ReviewState := ⟨row.status, row.reviewedBy⟩

section Record

variable {s : Database} {now : Timestamp} {entry : ReviewEntry}

/-- Everything a transaction can do. -/
theorem record_cases (s : Database) (now : Timestamp) (entry : ReviewEntry) :
    (s.searchCandidates.find entry.searchId entry.candidateId = none ∧
      s.record now entry = (s, .notFound)) ∨
    (∃ current, s.searchCandidates.find entry.searchId entry.candidateId = some current ∧
      entry.targetStatus current = none ∧ s.record now entry = (s, .sameReviewer)) ∨
    ∃ current status, s.searchCandidates.find entry.searchId entry.candidateId = some current ∧
      entry.targetStatus current = some status ∧
      s.record now entry = ({ s with
        verificationEvents := s.verificationEvents ++ [entry.event current now]
        searchCandidates := s.searchCandidates.review current.id status entry.reviewedBy
          entry.reviewedByName now }, .stored) := by
  unfold Database.record
  cases hfind : s.searchCandidates.find entry.searchId entry.candidateId with
  | none => exact Or.inl ⟨rfl, rfl⟩
  | some current =>
      cases htarget : entry.targetStatus current with
      | none => exact Or.inr (Or.inl ⟨current, rfl, htarget, by simp only [htarget]⟩)
      | some status =>
          exact Or.inr (Or.inr ⟨current, status, rfl, htarget, by simp only [htarget]⟩)

/-- Under four-eyes review the target status is the one of the rule, and a second
decision is by another reviewer. -/
theorem targetStatus_eq_some {current : SearchCandidate} {status : ReviewStatus}
    (hrequire : entry.requireSecondReview = true) (h : entry.targetStatus current = some status)
    (now : Timestamp) :
    ⟨status, some entry.reviewedBy⟩ = current.state.next (entry.event current now) ∧
      (entry.decision.isFinalizing → current.status = .needsSecondReview →
        current.reviewedBy ≠ some entry.reviewedBy) := by
  unfold ReviewEntry.targetStatus at h
  rw [hrequire] at h
  cases hfinal : entry.decision.isFinalizing with
  | false =>
      simp only [hfinal, Bool.not_true, Bool.not_false, Bool.or_true, if_true,
        Option.some.injEq] at h
      simp [ReviewState.next, ReviewEntry.event, hfinal, ← h]
  | true =>
      simp only [hfinal, Bool.not_true, Bool.or_self, Bool.false_eq_true, if_false] at h
      by_cases hwaiting : current.status = .needsSecondReview
      · rw [if_pos hwaiting] at h
        split_ifs at h with hsame
        rcases Option.some.inj h with rfl
        refine ⟨?_, fun _ _ => hsame⟩
        simp [ReviewState.next, ReviewEntry.event, SearchCandidate.state, hwaiting]
      · rw [if_neg hwaiting] at h
        rcases Option.some.inj h with rfl
        refine ⟨?_, fun _ h => absurd h hwaiting⟩
        simp [ReviewState.next, ReviewEntry.event, SearchCandidate.state, hwaiting, hfinal]

theorem history_append (s : Database) (event : VerificationEvent) (t : SearchCandidateTable)
    (id : Uuid) :
    Database.history { s with verificationEvents := s.verificationEvents ++ [event],
                              searchCandidates := t } id =
      s.history id ++ if event.searchCandidateId = id then [event] else [] := by
  unfold Database.history
  simp only [List.filter_append, List.filter_singleton, Bool.cond_eq_ite, beq_iff_eq]

/-- Every row is reviewed by the rule. -/
def Database.FourEyes (s : Database) : Prop :=
  ∀ row ∈ s.searchCandidates.rows, Reviewed (s.history row.id) row.state

theorem fourEyes_record (hrequire : entry.requireSecondReview = true) (hs : s.FourEyes) :
    (s.record now entry).1.FourEyes := by
  rcases record_cases s now entry with
    ⟨-, h⟩ | ⟨current, -, -, h⟩ | ⟨current, status, hfind, htarget, h⟩
  · rwa [h]
  · rwa [h]
  · have hcurrent : current ∈ s.searchCandidates.rows := List.mem_of_find?_eq_some hfind
    rw [h]
    intro row hrow
    rw [history_append]
    rcases List.mem_map.mp hrow with ⟨old, hold, rfl⟩
    by_cases hid : old.id = current.id
    · -- the row decided on
      rcases List.inj_on_of_nodup_map s.searchCandidates.idKey hold hcurrent hid with rfl
      rcases targetStatus_eq_some hrequire htarget now with ⟨hnext, hother⟩
      simp only [beq_self_eq_true, if_true]
      have hsnoc := (hs old hold).snoc (entry.event old now) hother
      rw [← hnext] at hsnoc
      rwa [if_pos (show (entry.event old now).searchCandidateId = old.id from rfl)]
    · simp only [beq_iff_eq, hid, if_false]
      rw [if_neg (show ¬ (entry.event current now).searchCandidateId = old.id from Ne.symm hid),
        List.append_nil]
      exact hs old hold

theorem verificationEvents_record :
    ∃ events, (s.record now entry).1.verificationEvents = s.verificationEvents ++ events := by
  rcases record_cases s now entry with ⟨-, h⟩ | ⟨current, -, -, h⟩ | ⟨current, status, -, -, h⟩
  · exact ⟨[], by simp [h]⟩
  · exact ⟨[], by simp [h]⟩
  · exact ⟨[entry.event current now], by rw [h]⟩

end Record

/-! ## Sequences of decisions -/

/-- The arguments of a call of `record_review_decision`. -/
structure ReviewCall where
  searchId : String
  candidateId : String
  decision : Decision
  reviewedBy : Uuid
  reviewedByName : String
  reason : Option String
  notes : Option String
  requestId : String
  deriving Repr, DecidableEq

/-- The call. -/
def ReviewCall.program (d : Deployment) (c : ReviewCall) :
    Handler (Except QueryError ReviewDecisionOutcome) :=
  recordReviewDecision d c.searchId c.candidateId c.decision c.reviewedBy c.reviewedByName c.reason
    c.notes c.requestId

/-- The operations of `record_review_decision`. -/
inductive ReviewOp (d : Deployment) : Op → Prop
  | newId : ReviewOp d (.auth .newId)
  | record (entry : ReviewEntry) (h : entry.requireSecondReview = d.requireSecondReview) :
      ReviewOp d (.db (.recordReviewDecision entry))
  | list (searchId : Auth.Key) : ReviewOp d (.db (.listSearchCandidates searchId))

theorem rereadRow_performs {d : Deployment} (searchKey : Auth.Key) (candidateId : String) :
    (rereadRow searchKey candidateId).Performs (exec d) (ReviewOp d) fun _ => True := by
  unfold rereadRow
  refine performs_query (.list searchKey) fun r => ?_
  split
  · trivial
  · split <;> trivial

theorem program_performs (d : Deployment) (c : ReviewCall) :
    (c.program d).Performs (exec d) (ReviewOp d) fun _ => True := by
  unfold ReviewCall.program recordReviewDecision
  split
  · refine performs_perform .newId fun eventId => performs_query (.record _ rfl) fun r => ?_
    split
    · trivial
    · trivial
    · trivial
    · exact rereadRow_performs _ _
  · trivial

/-- What decisions may do: the rule goes on holding, and events are only added at
the end. -/
def Extends (s s' : Database) : Prop :=
  (s.FourEyes → s'.FourEyes) ∧
    ∃ events, s'.verificationEvents = s.verificationEvents ++ events

theorem Extends.refl (s : Database) : Extends s s := ⟨id, [], (List.append_nil _).symm⟩

theorem Extends.trans {s s' s'' : Database} (h : Extends s s') (h' : Extends s' s'') :
    Extends s s'' := by
  rcases h with ⟨hrule, events, hevents⟩
  rcases h' with ⟨hrule', events', hevents'⟩
  exact ⟨hrule' ∘ hrule, events ++ events', by rw [hevents', hevents, List.append_assoc]⟩

section Runs

variable {d : Deployment} (hd : d.requireSecondReview = true)

include hd in
theorem extends_exec {op : Op} (hop : ReviewOp d op) (e : Env) (s : Database) :
    Extends s (exec d op e s).1 := by
  cases hop with
  | newId => exact ⟨id, [], (List.append_nil _).symm⟩
  | list searchId =>
      simp only [exec]
      split_ifs <;> exact Extends.refl s
  | record entry h =>
      simp only [exec]
      split_ifs
      · exact Extends.refl s
      · exact Extends.refl s
      · exact ⟨fourEyes_record (h.trans hd), verificationEvents_record⟩

include hd in
theorem extends_stateAfter (s : Database) (run : List (Visit ReviewCall Env)) :
    Extends s (stateAfter (exec d) (ReviewCall.program d) s run) := by
  refine stateAfter_invariant (Extends.refl s) fun s' v _ hs' => hs'.trans ?_
  exact (program_performs d v.request).keeps Extends.refl Extends.trans
    (fun op e s hop => extends_exec hd hop e s) v.env s'

end Runs

/-- Nothing has been decided yet. -/
def Database.Unreviewed (s : Database) : Prop :=
  ∀ row ∈ s.searchCandidates.rows, row.state = .unreviewed ∧ s.history row.id = []

theorem Database.Unreviewed.fourEyes {s : Database} (h : s.Unreviewed) : s.FourEyes := by
  intro row hrow
  rw [(h row hrow).1, (h row hrow).2]
  exact .nil

/-- Under four-eyes review, from unreviewed candidates on: a final status is the
second of two decisions in a row by two reviewers, a candidate that waits for the
second names the reviewer of the first, status and reviewer are the fold of the
candidate's events, and events are only added at the end. -/
theorem four_eyes {d : Deployment} (hd : d.requireSecondReview = true) {s : Database}
    (hs : s.Unreviewed) (run : List (Visit ReviewCall Env)) :
    let after := stateAfter (exec d) (ReviewCall.program d) s
    (∀ row ∈ (after run).searchCandidates.rows,
      (∀ decision : Decision, decision.isFinalizing → row.status = .decided decision →
        ∃ earlier first second, (after run).history row.id = earlier ++ [first, second] ∧
          first.decision.isFinalizing ∧ second.decision = decision ∧
          first.reviewerUserId ≠ second.reviewerUserId) ∧
      (row.status = .needsSecondReview →
        ∃ earlier event, (after run).history row.id = earlier ++ [event] ∧
          event.decision.isFinalizing ∧ row.reviewedBy = some event.reviewerUserId) ∧
      ((after run).history row.id).foldl ReviewState.next .unreviewed =
        ⟨row.status, row.reviewedBy⟩) ∧
    ∀ later id, ∃ events, (after (run ++ later)).history id = (after run).history id ++ events := by
  intro after
  have hrule : (after run).FourEyes := (extends_stateAfter hd s run).1 hs.fourEyes
  refine ⟨fun row hrow => ⟨?_, ?_, ?_⟩, ?_⟩
  · intro decision hfinal hstatus
    exact (hrule row hrow).final hfinal hstatus
  · intro hstatus
    exact (hrule row hrow).awaiting hstatus
  · exact (hrule row hrow).foldl
  · intro later id
    rcases (extends_stateAfter hd (after run) later).2 with ⟨events, hevents⟩
    refine ⟨events.filter fun event => event.searchCandidateId == id, ?_⟩
    show List.filter _ (stateAfter _ _ s (run ++ later)).verificationEvents = _
    rw [stateAfter_append, hevents, List.filter_append]
    rfl

/-- Two reviewers in turn on the one match of the sample database. -/
def sampleReviews : List (Visit ReviewCall Env) :=
  [⟨⟨Uuid.text 7, Uuid.text 0xab, .confirmed, 5, "Deniz Kaya", none, none, "req-1"⟩,
      Auth.steadily sampleNow 0⟩,
    ⟨⟨Uuid.text 7, Uuid.text 0xab, .rejected, 6, "Deniz Kaya", none, none, "req-2"⟩,
      Auth.steadily sampleNow 0⟩]

theorem four_eyes_sample :
    let after := stateAfter (exec (sampleDeployment .postgres))
      (ReviewCall.program (sampleDeployment .postgres)) sampleDatabase
    ((after sampleReviews).searchCandidates.rows.map (·.status) = [.decided .rejected]) ∧
    (∀ row ∈ (after sampleReviews).searchCandidates.rows,
      (∀ decision : Decision, decision.isFinalizing → row.status = .decided decision →
        ∃ earlier first second, (after sampleReviews).history row.id = earlier ++ [first, second] ∧
          first.decision.isFinalizing ∧ second.decision = decision ∧
          first.reviewerUserId ≠ second.reviewerUserId) ∧
      (row.status = .needsSecondReview →
        ∃ earlier event, (after sampleReviews).history row.id = earlier ++ [event] ∧
          event.decision.isFinalizing ∧ row.reviewedBy = some event.reviewerUserId) ∧
      ((after sampleReviews).history row.id).foldl ReviewState.next .unreviewed =
        ⟨row.status, row.reviewedBy⟩) ∧
    ∀ later id, ∃ events,
      (after (sampleReviews ++ later)).history id = (after sampleReviews).history id ++ events :=
  ⟨by decide +kernel, four_eyes rfl (by unfold Database.Unreviewed; decide +kernel) sampleReviews⟩

end AnatoliaBis.App
