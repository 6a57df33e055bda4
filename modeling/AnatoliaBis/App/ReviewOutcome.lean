import AnatoliaBis.App.FourEyes

/-! # What a review reports

`record_review_decision` stores a decision in one transaction and builds its
result afterwards, from the rows of the search and the text it was given for the
candidate. Whether the result tells what was stored therefore depends on that
text being the one the table prints.
-/

namespace AnatoliaBis.App

open Atomic Program
open Auth (Env Headers Key)

/-! ## Reading the row back -/

/-- The answer of `list_search_candidates`. -/
def Database.listed (s : Database) (searchKey : Key) : List SearchCandidateRow :=
  ((s.searchCandidates.rows.filter fun row => searchKey.isId row.searchId).mergeSort
    fun a b => decide (b.score ≤ a.score)).filterMap s.joined

/-- The result built from it. -/
def Database.reread (s : Database) (searchKey : Key) (candidateId : String) :
    ReviewDecisionOutcome :=
  match (s.listed searchKey).find? fun row => row.candidateId.text == candidateId with
  | some row => .applied row
  | none => .notFound

section Reread

variable {d : Deployment} {s : Database} {searchKey candidateKey : Key} {candidateId : String}
  {current : SearchCandidate}

theorem mem_listed {row : SearchCandidateRow} :
    row ∈ s.listed searchKey ↔ ∃ base ∈ s.searchCandidates.rows,
      searchKey.isId base.searchId = true ∧ s.joined base = some row := by
  unfold Database.listed
  simp only [List.mem_filterMap, List.mem_mergeSort, List.mem_filter]
  constructor
  · rintro ⟨base, ⟨hmem, hsearch⟩, hrow⟩
    exact ⟨base, hmem, hsearch, hrow⟩
  · rintro ⟨base, hmem, hsearch, hrow⟩
    exact ⟨base, ⟨hmem, hsearch⟩, hrow⟩

theorem joined_eq_some {base : SearchCandidate} {row : SearchCandidateRow}
    (h : s.joined base = some row) : row.toSearchCandidate = base := by
  rcases Option.map_eq_some_iff.mp h with ⟨c, -, rfl⟩
  rfl

theorem joined_isSome {base : SearchCandidate} :
    (s.joined base).isSome = s.candidates.any fun c => c.id == base.candidateId := by
  unfold Database.joined
  rw [Option.isSome_map, Bool.eq_iff_iff, List.find?_isSome, List.any_eq_true]

/-- Under the keys of a row nothing but that row is read back. -/
theorem eq_of_mem_listed (hkey : d.key candidateId = some candidateKey)
    (hmem : current ∈ s.searchCandidates.rows) (hsearch : searchKey.isId current.searchId = true)
    (hcandidate : candidateKey.isId current.candidateId = true) {row : SearchCandidateRow}
    (hrow : row ∈ s.listed searchKey) (htext : row.candidateId.text = candidateId) :
    row.toSearchCandidate = current := by
  rcases mem_listed.mp hrow with ⟨base, hbase, hbaseSearch, hjoined⟩
  rcases joined_eq_some hjoined with rfl
  rw [← htext] at hkey
  have hsame : row.candidateId = current.candidateId :=
    ((isId_of_key_text hkey).mp hcandidate).symm
  refine List.inj_on_of_nodup_map s.searchCandidates.searchCandidateKey hbase hmem ?_
  exact Prod.ext (isId_unique hbaseSearch hsearch) hsame

/-- The row that a transaction found is found again exactly under its own text. -/
theorem reread_of_mem (hkey : d.key candidateId = some candidateKey)
    (hmem : current ∈ s.searchCandidates.rows) (hsearch : searchKey.isId current.searchId = true)
    (hcandidate : candidateKey.isId current.candidateId = true) :
    s.reread searchKey candidateId =
      match if candidateId = current.candidateId.text then s.joined current else none with
      | some row => .applied row
      | none => .notFound := by
  have hself : ∀ row ∈ s.listed searchKey, row.candidateId.text = candidateId →
      candidateId = current.candidateId.text ∧ s.joined current = some row := by
    intro row hrow htext
    have hsame := eq_of_mem_listed hkey hmem hsearch hcandidate hrow htext
    rcases mem_listed.mp hrow with ⟨base, -, -, hjoined⟩
    rw [← hsame]
    rcases joined_eq_some hjoined with rfl
    exact ⟨htext.symm, hjoined⟩
  unfold Database.reread
  cases hfind : (s.listed searchKey).find? fun row => row.candidateId.text == candidateId with
  | some row =>
      have htext : row.candidateId.text = candidateId := by
        simpa using List.find?_some hfind
      rcases hself row (List.mem_of_find?_eq_some hfind) htext with ⟨htext', hjoined⟩
      rw [if_pos htext', hjoined]
  | none =>
      split_ifs with htext
      · cases hjoined : s.joined current with
        | none => rfl
        | some row =>
            have hrow : row ∈ s.listed searchKey :=
              mem_listed.mpr ⟨current, hmem, hsearch, hjoined⟩
            have hnot := List.find?_eq_none.mp hfind row hrow
            rw [joined_eq_some hjoined] at hnot
            exact absurd (beq_iff_eq.mpr htext.symm) hnot
      · rfl

end Reread

/-! ## One call -/

/-- The entry of a call whose texts are these keys. -/
def ReviewCall.entry (d : Deployment) (c : ReviewCall) (searchKey candidateKey : Key)
    (eventId : Uuid) : ReviewEntry :=
  ⟨searchKey, candidateKey, c.decision, c.reviewedBy, c.reviewedByName, c.reason, c.notes,
    c.requestId, eventId, d.requireSecondReview⟩

section Call

variable {d : Deployment} {c : ReviewCall} {ω : Nat → Env} {s : Database}
  {searchKey candidateKey : Key}

/-- Drawing the event's id. -/
def Database.drawn (s : Database) : Database :=
  { s with auth := { s.auth with nextId := s.auth.nextId + 1 } }

theorem run_rereadRow (candidateId : String) :
    (rereadRow searchKey candidateId).run (exec d) ω s =
      (if (ω 0).fails then .error .failed else .ok (s.reread searchKey candidateId), s) := by
  unfold rereadRow query Database.reread
  simp only [call_bind, done_bind, pure_eq_done, run_call]
  cases hf : (ω 0).fails with
  | true => rw [exec_db_of_fails hf]; rfl
  | false =>
      rw [exec_db_of_succeeds hf rfl]
      show Program.run _ (match List.find? _ (s.listed searchKey) with
        | some row => _
        | none => _) _ _ = _
      simp only [Bool.false_eq_true, if_false]
      split <;> rfl

/-- What a call does whose texts name rows of either kind. -/
theorem run_program (hsearch : d.key c.searchId = some searchKey)
    (hcandidate : d.key c.candidateId = some candidateKey) :
    (c.program d).run (exec d) ω s =
      if (ω 1).fails then (.error .failed, s.drawn)
      else
        match s.drawn.record (d.now (ω 1).now)
          (c.entry d searchKey candidateKey s.auth.nextId) with
        | (s', .notFound) => (.ok .notFound, s')
        | (s', .sameReviewer) => (.ok .sameReviewerForbidden, s')
        | (s', .stored) =>
            (if (ω 2).fails then .error .failed else .ok (s'.reread searchKey c.candidateId), s') := by
  have hdrawn : exec d (.auth .newId) (ω 0) s = (s.drawn, s.auth.nextId) := rfl
  unfold ReviewCall.program recordReviewDecision perform query
  simp only [hsearch, hcandidate, call_bind, done_bind, pure_eq_done, run_call]
  rw [hdrawn]
  cases hf : (ω 1).fails with
  | true => rw [exec_db_of_fails hf]; rfl
  | false =>
      rcases hrecord : s.drawn.record (d.now (ω 1).now)
        (c.entry d searchKey candidateKey s.auth.nextId) with ⟨s', recorded⟩
      have hexec : exec d (.db (.recordReviewDecision (c.entry d searchKey candidateKey
          s.auth.nextId))) (ω 1) s.drawn = (s', .ok recorded) := by
        rw [exec_db_of_succeeds hf rfl]
        exact congrArg (fun r => (r.1, Except.ok r.2)) hrecord
      unfold ReviewCall.entry at hexec
      dsimp only
      rw [hexec]
      cases recorded with
      | notFound => rfl
      | sameReviewer => rfl
      | stored => exact run_rereadRow c.candidateId

end Call

/-! ## What the result tells -/

/-- The tables are the same; identifiers may have been drawn. -/
def Database.SameTables (s s' : Database) : Prop :=
  s' = { s with auth := { s.auth with nextId := s'.auth.nextId } }

/-- The result of a decision tells what happened to the tables. -/
structure ToldExactly (s : Database) (outcome : Except QueryError ReviewDecisionOutcome)
    (s' : Database) : Prop where
  /-- A refusal changes nothing. -/
  refused : outcome = .ok .notFound ∨ outcome = .ok .sameReviewerForbidden → s.SameTables s'
  /-- A stored decision is reported, short of a database error. -/
  stored : ¬ s.SameTables s' →
    (∃ err, outcome = .error err) ∨ ∃ row, outcome = .ok (.applied row)
  /-- The row reported is the one decided on, as it is now. -/
  applied : ∀ row, outcome = .ok (.applied row) →
    row.toSearchCandidate ∈ s'.searchCandidates.rows ∧
      ∃ event, s'.verificationEvents = s.verificationEvents ++ [event] ∧
        event.searchCandidateId = row.id

/-- If a decision gets stored and the rows are read back, the candidate was named
the way its id is printed, and its record exists. -/
def ReviewCall.IsReadBack (d : Deployment) (ω : Nat → Env) (s : Database) (c : ReviewCall) : Prop :=
  ∀ searchKey candidateKey current, d.key c.searchId = some searchKey →
    d.key c.candidateId = some candidateKey →
    s.searchCandidates.find searchKey candidateKey = some current →
    (c.entry d searchKey candidateKey s.auth.nextId).targetStatus current ≠ none →
    (ω 1).fails = false → (ω 2).fails = false →
    c.candidateId = current.candidateId.text ∧
      s.candidates.any (fun row => row.id == current.candidateId) = true

/-- The row decided on, as the transaction leaves it. -/
theorem mem_review {t : SearchCandidateTable} {current : SearchCandidate} (h : current ∈ t.rows)
    (status : ReviewStatus) (reviewer : Uuid) (reviewerName : String) (now : Timestamp) :
    ∃ row ∈ (t.review current.id status reviewer reviewerName now).rows,
      row.id = current.id ∧ row.searchId = current.searchId ∧
        row.candidateId = current.candidateId ∧ row.status = status := by
  refine ⟨_, List.mem_map_of_mem h, ?_⟩
  rw [if_pos (beq_self_eq_true current.id)]
  exact ⟨rfl, rfl, rfl, rfl⟩

section Told

variable {d : Deployment} {c : ReviewCall} {ω : Nat → Env} {s s' : Database}

/-- Where no decision is stored there is nothing to tell. -/
theorem told_of_sameTables {outcome : Except QueryError ReviewDecisionOutcome}
    (hsame : s.SameTables s') (hnot : ∀ row, outcome ≠ .ok (.applied row)) :
    ToldExactly s outcome s' :=
  ⟨fun _ => hsame, fun h => absurd hsame h, fun row h => absurd h (hnot row)⟩

theorem not_sameTables {event : VerificationEvent}
    (h : s'.verificationEvents = s.verificationEvents ++ [event]) : ¬ s.SameTables s' := by
  intro hsame
  rw [hsame] at h
  simp at h

/-- A stored decision is told exactly when the row is read back. -/
theorem told_stored_iff {searchKey candidateKey : Key} {current : SearchCandidate}
    {event : VerificationEvent} (hkey : d.key c.candidateId = some candidateKey)
    (hmem : current ∈ s'.searchCandidates.rows)
    (hsearch : searchKey.isId current.searchId = true)
    (hcandidate : candidateKey.isId current.candidateId = true)
    (hevents : s'.verificationEvents = s.verificationEvents ++ [event])
    (hid : event.searchCandidateId = current.id) :
    ToldExactly s (.ok (s'.reread searchKey c.candidateId)) s' ↔
      c.candidateId = current.candidateId.text ∧
        s'.candidates.any (fun row => row.id == current.candidateId) = true := by
  rw [reread_of_mem hkey hmem hsearch hcandidate, ← joined_isSome]
  have hnot := not_sameTables hevents
  by_cases htext : c.candidateId = current.candidateId.text
  · rw [if_pos htext]
    cases hjoined : s'.joined current with
    | none =>
        simp only [Option.isSome_none, Bool.false_eq_true, and_false, iff_false]
        exact fun h => hnot (h.refused (Or.inl rfl))
    | some row =>
        have hrow : row.toSearchCandidate = current := joined_eq_some hjoined
        refine iff_of_true ⟨?_, fun _ => Or.inr ⟨row, rfl⟩, ?_⟩ ⟨htext, rfl⟩
        · rintro (h | h) <;> cases h
        · rintro row' h
          rcases ReviewDecisionOutcome.applied.inj (Except.ok.inj h) with rfl
          exact ⟨by rwa [hrow], event, hevents, by rw [hid, hrow]⟩
  · rw [if_neg htext]
    exact iff_of_false (fun h => hnot (h.refused (Or.inl rfl))) fun h => htext h.1

/-- A text that is no identifier names nothing. -/
theorem run_program_of_none (h : d.key c.searchId = none ∨ d.key c.candidateId = none) :
    (c.program d).run (exec d) ω s = (.ok .notFound, s) := by
  unfold ReviewCall.program recordReviewDecision
  rcases h with h | h
  · rw [h]
    rfl
  · rw [h]
    cases d.key c.searchId <;> rfl

theorem told_of_no_key (h : d.key c.searchId = none ∨ d.key c.candidateId = none) :
    ToldExactly s ((c.program d).run (exec d) ω s).1 ((c.program d).run (exec d) ω s).2 ∧
      c.IsReadBack d ω s := by
  rw [run_program_of_none h]
  refine ⟨told_of_sameTables rfl nofun, ?_⟩
  intro searchKey candidateKey _ hsearch hcandidate
  rcases h with h | h
  · rw [hsearch] at h
    cases h
  · rw [hcandidate] at h
    cases h

theorem told_iff_of_keys {searchKey candidateKey : Key}
    (hsearch : d.key c.searchId = some searchKey)
    (hcandidate : d.key c.candidateId = some candidateKey) :
    ToldExactly s ((c.program d).run (exec d) ω s).1 ((c.program d).run (exec d) ω s).2 ↔
      c.IsReadBack d ω s := by
  -- the keys are these, so the condition is about one row
  have hcond : c.IsReadBack d ω s ↔ ∀ current,
      s.searchCandidates.find searchKey candidateKey = some current →
      (c.entry d searchKey candidateKey s.auth.nextId).targetStatus current ≠ none →
      (ω 1).fails = false → (ω 2).fails = false → c.candidateId = current.candidateId.text ∧
        s.candidates.any (fun row => row.id == current.candidateId) = true := by
    constructor
    · intro h current
      exact h searchKey candidateKey current hsearch hcandidate
    · intro h searchKey' candidateKey' current hsearch' hcandidate'
      rcases Option.some.inj (hsearch.symm.trans hsearch') with rfl
      rcases Option.some.inj (hcandidate.symm.trans hcandidate') with rfl
      exact h current
  rw [hcond, run_program hsearch hcandidate]
  cases hf : (ω 1).fails with
  | true =>
      refine iff_of_true (told_of_sameTables rfl nofun) ?_
      intro _ _ _ h
      cases h
  | false =>
      rw [if_neg Bool.false_ne_true]
      rcases record_cases s.drawn (d.now (ω 1).now) (c.entry d searchKey candidateKey s.auth.nextId)
        with ⟨hfind, h⟩ | ⟨current, hfind, htarget, h⟩ | ⟨current, status, hfind, htarget, h⟩
      · rw [h]
        refine iff_of_true (told_of_sameTables rfl nofun) ?_
        intro current hcurrent
        cases hfind.symm.trans hcurrent
      · rw [h]
        refine iff_of_true (told_of_sameTables rfl nofun) ?_
        intro current' hcurrent hstored
        rcases Option.some.inj (hfind.symm.trans hcurrent) with rfl
        exact absurd htarget hstored
      · rw [h]
        have hmem : current ∈ s.searchCandidates.rows := List.mem_of_find?_eq_some hfind
        have hkeys := List.find?_some hfind
        simp only [Bool.and_eq_true] at hkeys
        rcases mem_review hmem status c.reviewedBy c.reviewedByName (d.now (ω 1).now) with
          ⟨reviewed, hreviewed, hid, hrowSearch, hrowCandidate, -⟩
        rw [← hrowSearch, ← hrowCandidate] at hkeys
        cases hf2 : (ω 2).fails with
        | true =>
            refine iff_of_true ⟨?_, fun _ => Or.inl ⟨_, rfl⟩, nofun⟩ ?_
            · rintro (h | h) <;> cases h
            · intro _ _ _ _ h
              cases h
        | false =>
            refine (told_stored_iff hcandidate hreviewed hkeys.1 hkeys.2 rfl hid.symm).trans ?_
            rw [hrowCandidate]
            constructor
            · intro hread current' hcurrent _ _ _
              rcases Option.some.inj (hfind.symm.trans hcurrent) with rfl
              exact hread
            · intro hread
              exact hread current hfind (by rw [htarget]; nofun) rfl rfl

/-- The route answers a reported row once its audit event is stored. -/
theorem answerReview_audits (headers : Headers) (payload : ReviewPayload) (claims : Auth.Claims)
    (row : SearchCandidateRow) :
    ((answerReview d headers c.candidateId payload c.decision claims
        (.ok (.applied row))).run (exec d) ω s).1 = auditWriteFailed headers ∨
      ∃ event, ((answerReview d headers c.candidateId payload c.decision claims
          (.ok (.applied row))).run (exec d) ω s).2.auth.auditEvents =
            s.auth.auditEvents ++ [event] ∧
        event.action = reviewAction c.decision row.status ∧
        event.actorUserId = some claims.id.text ∧ event.resourceId = some row.id.text := by
  unfold answerReview
  rcases run_saveMandatory d headers (((Auth.withActor (recorder d headers
    (reviewAction c.decision row.status) "success") claims).resource "search_candidate"
    row.id.text).withMetadata (reviewMetadata c.candidateId payload)) (json (.searchCandidate row))
    ω s with ⟨organizationId, e, hrun⟩
  rw [hrun]
  split_ifs
  · exact Or.inl rfl
  · exact Or.inr ⟨_, rfl, rfl, rfl, rfl⟩

end Told

/-- **What a review reports.** The outcome tells exactly what happened if and only
if a stored decision is read back; and for a reported row the route goes on to
store the audit event, or fails. -/
theorem told_exactly_iff (d : Deployment) (c : ReviewCall) (ω : Nat → Env) (s : Database) :
    (ToldExactly s ((c.program d).run (exec d) ω s).1 ((c.program d).run (exec d) ω s).2 ↔
      c.IsReadBack d ω s) ∧
    ∀ headers payload claims row,
      let audited := (answerReview d headers c.candidateId payload c.decision claims
        (.ok (.applied row))).run (exec d) ω s
      audited.1 = auditWriteFailed headers ∨
        ∃ event, audited.2.auth.auditEvents = s.auth.auditEvents ++ [event] ∧
          event.action = reviewAction c.decision row.status ∧
          event.actorUserId = some claims.id.text ∧ event.resourceId = some row.id.text := by
  refine ⟨?_, fun headers payload claims row => answerReview_audits headers payload claims row⟩
  cases hsearch : d.key c.searchId with
  | none =>
      have htold := told_of_no_key (c := c) (ω := ω) (s := s) (Or.inl hsearch)
      exact iff_of_true htold.1 htold.2
  | some searchKey =>
      cases hcandidate : d.key c.candidateId with
      | none =>
          have htold := told_of_no_key (c := c) (ω := ω) (s := s) (Or.inr hcandidate)
          exact iff_of_true htold.1 htold.2
      | some candidateKey => exact told_iff_of_keys hsearch hcandidate

/-- The candidate of the sample's one match, its id in upper case. -/
def upperCaseReview : ReviewCall :=
  ⟨Uuid.text 7, "00000000-0000-0000-0000-0000000000AB", .confirmed, 5, "Deniz Kaya", none, none,
    "req-1"⟩

/-- The decision is stored, and reported as not found. -/
theorem upper_case_review_untold :
    ((upperCaseReview.program (sampleDeployment .postgres)).run (exec (sampleDeployment .postgres))
      (Auth.steadily sampleNow 0) sampleDatabase).2.verificationEvents.length = 1 ∧
    ¬ ToldExactly sampleDatabase
      ((upperCaseReview.program (sampleDeployment .postgres)).run
        (exec (sampleDeployment .postgres)) (Auth.steadily sampleNow 0) sampleDatabase).1
      ((upperCaseReview.program (sampleDeployment .postgres)).run
        (exec (sampleDeployment .postgres)) (Auth.steadily sampleNow 0) sampleDatabase).2 := by
  have hevents : ((upperCaseReview.program (sampleDeployment .postgres)).run
      (exec (sampleDeployment .postgres)) (Auth.steadily sampleNow 0)
      sampleDatabase).2.verificationEvents.length = 1 := by decide +kernel
  have houtcome : ((upperCaseReview.program (sampleDeployment .postgres)).run
      (exec (sampleDeployment .postgres)) (Auth.steadily sampleNow 0) sampleDatabase).1 =
        .ok .notFound := by decide +kernel
  refine ⟨hevents, fun h => ?_⟩
  rw [h.refused (Or.inl houtcome)] at hevents
  cases hevents

end AnatoliaBis.App
