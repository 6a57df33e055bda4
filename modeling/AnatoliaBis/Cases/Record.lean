import AnatoliaBis.App.MandatoryAudit
import AnatoliaBis.Cases.Completion
import AnatoliaBis.Cases.Mediation

/-! # What is on record

Searches, matches, decisions, evidence and audit events are filed once: the tables only
grow, and what is filed is not rewritten. The columns in which a match shows its review are
the exception; they are what its verification events replay to.
-/

namespace AnatoliaBis.Cases

open Atomic Program
open Auth (Env Headers)

/-! ## Replaying decisions -/

/-- The columns of a match that a review writes. -/
structure ReviewRecord where
  status : App.ReviewStatus
  reviewedBy : Option Uuid
  reviewedByName : Option String
  reviewedAt : Option Timestamp
  deriving Repr, DecidableEq

namespace ReviewRecord

/-- A match that nobody has reviewed. -/
def unreviewed : ReviewRecord := ⟨.pending, none, none, none⟩

/-- One more decision; where a second review is required, the first one only asks for it. -/
def next (requireSecondReview : Bool) (r : ReviewRecord) (event : App.VerificationEvent) :
    ReviewRecord where
  status :=
    if requireSecondReview && event.decision.isFinalizing && r.status != .needsSecondReview then
      .needsSecondReview
    else .decided event.decision
  reviewedBy := some event.reviewerUserId
  reviewedByName := some event.reviewerName
  reviewedAt := some event.createdAt

end ReviewRecord

/-- What decisions, one after the other, lead to. -/
def replay (requireSecondReview : Bool) (events : List App.VerificationEvent) : ReviewRecord :=
  events.foldl (ReviewRecord.next requireSecondReview) .unreviewed

theorem replay_concat (requireSecondReview : Bool) (events : List App.VerificationEvent)
    (event : App.VerificationEvent) :
    replay requireSecondReview (events ++ [event]) =
      (replay requireSecondReview events).next requireSecondReview event :=
  List.foldl_concat ..

def reviewRecord (row : App.SearchCandidate) : ReviewRecord :=
  ⟨row.status, row.reviewedBy, row.reviewedByName, row.reviewedAt⟩

/-- Every event is about a match, and every match shows what its events replay to. -/
structure Chronicled (requireSecondReview : Bool) (s : App.Database) : Prop where
  known : ∀ event ∈ s.verificationEvents,
    ∃ row ∈ s.searchCandidates.rows, row.id = event.searchCandidateId
  replays : ∀ row ∈ s.searchCandidates.rows,
    reviewRecord row = replay requireSecondReview (s.history row.id)

/-! ## Growing tables -/

/-- A search as it was filed. -/
def asFiled (row : App.SearchRow) : App.SearchRow := { row with status := .queued }

/-- A match as it was found. -/
def asFound (row : App.SearchCandidate) : App.SearchCandidate :=
  { row with status := .pending, reviewedBy := none, reviewedByName := none, reviewedAt := none }

/-- A template as it was enrolled. -/
def asEnrolled (row : App.BiometricTemplateRow) : App.BiometricTemplateRow :=
  { row with revokedAt := none }

/-- Rows are added at the end, and nothing that was filed is removed or rewritten. -/
structure Grows (s s' : Casebook) : Prop where
  searches : s.app.searches.map asFiled <+: s'.app.searches.map asFiled
  candidates : s.app.candidates <+: s'.app.candidates
  found : s.app.searchCandidates.rows.map asFound <+: s'.app.searchCandidates.rows.map asFound
  decisions : s.app.verificationEvents <+: s'.app.verificationEvents
  templates : s.app.templates.map asEnrolled <+: s'.app.templates.map asEnrolled
  revoked : ∀ row ∈ s.app.templates, row.revokedAt.isSome → row ∈ s'.app.templates
  audit : s.app.auth.auditEvents <+: s'.app.auth.auditEvents
  evidence : s.evidence <+: s'.evidence
  relations : s.relations <+: s'.relations

theorem Grows.refl (s : Casebook) : Grows s s where
  searches := List.prefix_refl _
  candidates := List.prefix_refl _
  found := List.prefix_refl _
  decisions := List.prefix_refl _
  templates := List.prefix_refl _
  revoked _ hrow _ := hrow
  audit := List.prefix_refl _
  evidence := List.prefix_refl _
  relations := List.prefix_refl _

theorem Grows.trans {s s' s'' : Casebook} (h : Grows s s') (h' : Grows s' s'') : Grows s s'' where
  searches := h.searches.trans h'.searches
  candidates := h.candidates.trans h'.candidates
  found := h.found.trans h'.found
  decisions := h.decisions.trans h'.decisions
  templates := h.templates.trans h'.templates
  revoked row hrow hrevoked := h'.revoked row (h.revoked row hrow hrevoked) hrevoked
  audit := h.audit.trans h'.audit
  evidence := h.evidence.trans h'.evidence
  relations := h.relations.trans h'.relations

section Operations

variable {d : Deployment} {s s' : Casebook} {e : Env}

/-- Only an insert writes audit events, and it adds one. -/
theorem audit_grows (op : App.Op) (a : App.Database) :
    a.auth.auditEvents <+: (App.exec d.toDeployment op e a).1.auth.auditEvents := by
  by_cases hop : op.Audits
  · unfold App.Op.Audits at hop
    split at hop
    next event =>
      show a.auth.auditEvents <+: (Auth.exec d.toPlatform (.db (.insertAuditEvent event)) e
        a.auth).1.auditEvents
      cases hf : e.fails with
      | true => rw [Auth.exec_db_of_fails _ hf]
      | false =>
          rw [Auth.exec_db_of_succeeds _ hf]
          exact List.prefix_append _ _
    · exact hop.elim
  · rw [App.auditEvents_exec hop]

/-- The review columns are no part of a match as it was found. -/
theorem map_asFound_review (t : App.SearchCandidateTable) (id : Uuid) (status : App.ReviewStatus)
    (reviewer : Uuid) (name : String) (now : Timestamp) :
    (t.review id status reviewer name now).rows.map asFound = t.rows.map asFound := by
  unfold App.SearchCandidateTable.review
  dsimp only
  rw [List.map_map]
  apply List.map_congr_left
  intro row _
  dsimp only [Function.comp_apply]
  split_ifs
  · rfl
  · rfl

theorem map_asFiled_updateSearch (s : Casebook) (id : Uuid) (status : App.SearchStatus)
    (f : SearchProgress → SearchProgress) :
    (s.updateSearch id status f).app.searches.map asFiled = s.app.searches.map asFiled := by
  unfold Casebook.updateSearch
  dsimp only
  rw [List.map_map]
  apply List.map_congr_left
  intro row _
  dsimp only [Function.comp_apply]
  split_ifs
  · rfl
  · rfl

/-- A revocation leaves revoked templates alone. -/
theorem revokeTemplate_grows (key : Auth.Key) (now : Timestamp)
    (templates : List App.BiometricTemplateRow) :
    (templates.map fun row =>
        if key.isId row.id && row.revokedAt.isNone then { row with revokedAt := some now }
        else row).map asEnrolled = templates.map asEnrolled ∧
      ∀ row ∈ templates, row.revokedAt.isSome → row ∈ templates.map fun row =>
        if key.isId row.id && row.revokedAt.isNone then { row with revokedAt := some now }
        else row := by
  constructor
  · rw [List.map_map]
    apply List.map_congr_left
    intro row _
    dsimp only [Function.comp_apply]
    split_ifs
    · rfl
    · rfl
  · intro row hrow hrevoked
    refine List.mem_map.mpr ⟨row, hrow, ?_⟩
    rw [if_neg]
    rw [Option.isNone_eq_false_iff.mpr hrevoked, Bool.and_false]
    exact Bool.false_ne_true

theorem grows_app (op : App.Op) (s : Casebook) :
    Grows s { s with app := (App.exec d.toDeployment op e s.app).1 } := by
  have haudit := audit_grows (d := d) (e := e) op s.app
  cases op with
  | auth c =>
      constructor
      case audit => exact haudit
      case revoked => exact fun _ hrow _ => hrow
      all_goals exact List.prefix_refl _
  | db q =>
      revert haudit
      apply App.exec_db_store (I := fun a => s.app.auth.auditEvents <+: a.auth.auditEvents →
        Grows s { s with app := a }) (fun _ => Grows.refl s)
      intro _ _ haudit
      cases q with
      | recordReviewDecision entry =>
          show Grows s { s with app := (s.app.record (d.now e.now) entry).1 }
          rcases App.record_cases s.app (d.now e.now) entry with
            ⟨-, h⟩ | ⟨current, -, -, h⟩ | ⟨current, status, -, -, h⟩
          · rw [h]
            exact Grows.refl s
          · rw [h]
            exact Grows.refl s
          · rw [h]
            constructor
            case found =>
              dsimp only
              rw [map_asFound_review]
            case decisions => exact List.prefix_append _ _
            case revoked => exact fun _ hrow _ => hrow
            all_goals exact List.prefix_refl _
      | createQueuedSearch id search =>
          constructor
          case searches =>
            show _ <+: (s.app.searches ++ [_]).map asFiled
            rw [List.map_append]
            exact List.prefix_append _ _
          case revoked => exact fun _ hrow _ => hrow
          all_goals exact List.prefix_refl _
      | createCandidate candidate =>
          constructor
          case candidates => exact List.prefix_append _ _
          case revoked => exact fun _ hrow _ => hrow
          all_goals exact List.prefix_refl _
      | insertTemplate id candidateId enrollment =>
          constructor
          case templates =>
            show _ <+: (s.app.templates ++ [_]).map asEnrolled
            rw [List.map_append]
            exact List.prefix_append _ _
          case revoked => exact fun _ hrow _ => List.mem_append_left _ hrow
          all_goals exact List.prefix_refl _
      | revokeTemplate key =>
          have hrevoke := revokeTemplate_grows key (d.now e.now) s.app.templates
          constructor
          case templates =>
            show _ <+: List.map asEnrolled (List.map _ s.app.templates)
            rw [hrevoke.1]
          case revoked => exact hrevoke.2
          all_goals exact List.prefix_refl _
      | _ =>
          constructor
          case revoked => exact fun _ hrow _ => hrow
          case audit => exact haudit
          all_goals exact List.prefix_refl _
  | send mail =>
      constructor
      case revoked => exact fun _ hrow _ => hrow
      all_goals exact List.prefix_refl _
  | enrollImage bytes => exact Grows.refl s

/-- What a search is filed with stays when its status changes. -/
theorem grows_updateSearch (s : Casebook) (id : Uuid) (status : App.SearchStatus)
    (f : SearchProgress → SearchProgress) : Grows s (s.updateSearch id status f) := by
  constructor
  case searches => rw [map_asFiled_updateSearch]
  case revoked => exact fun _ hrow _ => hrow
  all_goals exact List.prefix_refl _

theorem rows_insertRows {t table : App.SearchCandidateTable} {rows : List App.SearchCandidate}
    (h : insertRows t rows = some table) : table.rows = t.rows ++ rows := by
  unfold insertRows at h
  split_ifs at h
  rw [← Option.some.inj h]

theorem grows_finalize {now : Timestamp} {y : Uuid} {scored : List (Uuid × Rat)}
    {found : Option SearchRow} (h : s.finalize d now y scored = .ok (s', found)) :
    Grows s s' := by
  rcases finalize_eq_ok h with ⟨table, htable, rfl⟩
  refine Grows.trans ?_ (grows_updateSearch _ _ _ _)
  constructor
  case found =>
    dsimp only
    rw [rows_insertRows htable, List.map_append]
    exact List.prefix_append _ _
  case revoked => exact fun _ hrow _ => hrow
  all_goals exact List.prefix_refl _

/-- Evidence and relations are only added. -/
theorem grows_query (q : Query) (s : Casebook) : Grows s (exec d (.db q) e s).1 := by
  cases hf : e.fails with
  | true =>
      rw [exec_db_of_fails hf]
      exact Grows.refl s
  | false =>
      cases hq : q.perform d e.now s with
      | error err =>
          rw [exec_db_of_error hf hq]
          exact Grows.refl s
      | ok after =>
          rcases after with ⟨s', r⟩
          rw [exec_db_of_ok hf hq]
          dsimp only
          cases q with
          | finalizeQueuedSearch y scored => exact grows_finalize hq
          | markQueuedSearchFailed y code key =>
              rw [← (Prod.mk.inj (Except.ok.inj hq)).1]
              exact grows_updateSearch _ _ _ _
          | insertEvidenceRow id c item collectedBy =>
              unfold Query.perform at hq
              dsimp only at hq
              split_ifs at hq
              rw [← (Prod.mk.inj (Except.ok.inj hq)).1]
              constructor
              case evidence => exact List.prefix_append _ _
              case revoked => exact fun _ hrow _ => hrow
              all_goals exact List.prefix_refl _
          | insertRelation id c relationType value evidenceId addedBy =>
              unfold Query.perform at hq
              dsimp only at hq
              split_ifs at hq
              rw [← (Prod.mk.inj (Except.ok.inj hq)).1]
              constructor
              case relations => exact List.prefix_append _ _
              case revoked => exact fun _ hrow _ => hrow
              all_goals exact List.prefix_refl _
          | _ =>
              rw [← (Prod.mk.inj (Except.ok.inj hq)).1]
              exact Grows.refl s

/-- **Append-only.** No operation removes or rewrites what is filed. -/
theorem grows_exec (op : Op) (s : Casebook) : Grows s (exec d op e s).1 := by
  cases op with
  | app op => exact grows_app op s
  | db q => exact grows_query q s
  | searchFaces bytes topK => exact Grows.refl s
  | collectOutcomes query => exact Grows.refl s

end Operations

/-! ## The review columns -/

section Reviews

variable {d : Deployment} {e : Env} {s : Casebook} {a a' : App.Database} {require : Bool}

/-- Both tables are the same. -/
theorem Chronicled.same (ha : Chronicled require a)
    (hevents : a'.verificationEvents = a.verificationEvents)
    (hrows : a'.searchCandidates.rows = a.searchCandidates.rows) : Chronicled require a' := by
  constructor
  · rw [hevents, hrows]
    exact ha.known
  · unfold App.Database.history
    rw [hevents, hrows]
    exact ha.replays

/-- The target status is that of the rule. -/
theorem targetStatus_replays {entry : App.ReviewEntry} {current : App.SearchCandidate}
    {status : App.ReviewStatus} (h : entry.targetStatus current = some status) (now : Timestamp) :
    (reviewRecord current).next entry.requireSecondReview (entry.event current now) =
      ⟨status, some entry.reviewedBy, some entry.reviewedByName, some now⟩ := by
  unfold App.ReviewEntry.targetStatus at h
  unfold ReviewRecord.next reviewRecord App.ReviewEntry.event
  cases hrequire : entry.requireSecondReview with
  | false =>
      rw [hrequire] at h
      simpa using h
  | true =>
      cases hfinal : entry.decision.isFinalizing with
      | false =>
          rw [hrequire, hfinal] at h
          simpa [hfinal] using h
      | true =>
          rw [hrequire, hfinal] at h
          by_cases hwaiting : current.status = .needsSecondReview
          · simp only [Bool.not_true, Bool.or_self, Bool.false_eq_true, if_false,
              if_pos hwaiting] at h
            split_ifs at h
            simpa [hfinal, hwaiting] using h
          · simp only [Bool.not_true, Bool.or_self, Bool.false_eq_true, if_false,
              if_neg hwaiting] at h
            simpa [hfinal, hwaiting] using h

/-- A decision under the policy. -/
theorem Chronicled.record {entry : App.ReviewEntry} (ha : Chronicled require a)
    (hrequire : entry.requireSecondReview = require) (now : Timestamp) :
    Chronicled require (a.record now entry).1 := by
  rcases App.record_cases a now entry with
    ⟨-, h⟩ | ⟨current, -, -, h⟩ | ⟨current, status, hfind, htarget, h⟩
  · rw [h]
    exact ha
  · rw [h]
    exact ha
  · have hcurrent : current ∈ a.searchCandidates.rows := List.mem_of_find?_eq_some hfind
    have hreviewed : ∀ row : App.SearchCandidate, row ∈ (a.searchCandidates.review current.id
        status entry.reviewedBy entry.reviewedByName now).rows → ∃ old ∈ a.searchCandidates.rows,
        old.id = row.id ∧ (old.id ≠ current.id → row = old) ∧
          (old.id = current.id → reviewRecord row =
            ⟨status, some entry.reviewedBy, some entry.reviewedByName, some now⟩) := by
      intro row hrow
      rcases List.mem_map.mp hrow with ⟨old, hold, rfl⟩
      refine ⟨old, hold, ?_, ?_, ?_⟩
      · split_ifs <;> rfl
      · intro hid
        rw [if_neg (by simpa using hid)]
      · intro hid
        rw [if_pos (by simpa using hid)]
        rfl
    rw [h]
    constructor
    · intro event hevent
      rcases List.mem_append.mp hevent with hevent | hevent
      · rcases ha.known event hevent with ⟨row, hrow, hid⟩
        refine ⟨_, List.mem_map_of_mem hrow, ?_⟩
        split_ifs <;> exact hid
      · rw [List.mem_singleton.mp hevent]
        refine ⟨_, List.mem_map_of_mem hcurrent, ?_⟩
        split_ifs <;> rfl
    · intro row hrow
      rcases hreviewed row hrow with ⟨old, hold, hid, hother, hsame⟩
      rw [App.history_append]
      by_cases hdecided : old.id = current.id
      · -- the row decided on
        rcases List.inj_on_of_nodup_map a.searchCandidates.idKey hold hcurrent hdecided with rfl
        rw [hsame hdecided, if_pos (show (entry.event old now).searchCandidateId = row.id from hid),
          replay_concat, ← hid, ← ha.replays old hold, ← hrequire]
        exact (targetStatus_replays htarget now).symm
      · rw [if_neg (fun heq : (entry.event current now).searchCandidateId = row.id =>
          hdecided (hid.trans heq.symm)), List.append_nil, hother hdecided]
        exact ha.replays old hold

/-- New matches are unreviewed, and no event is about them yet. -/
theorem Chronicled.insertRows {table : App.SearchCandidateTable} {firstId : Nat} {y : Uuid}
    {scored : List (Uuid × Rat)} {now : Timestamp} (ha : Chronicled require a)
    (htable : insertRows a.searchCandidates (scoredRows firstId y scored now) = some table)
    (hevents : a'.verificationEvents = a.verificationEvents)
    (hrows : a'.searchCandidates = table) : Chronicled require a' := by
  have hadded := rows_insertRows htable
  have hnodup : ((a.searchCandidates.rows ++ scoredRows firstId y scored now).map (·.id)).Nodup := by
    rw [← hadded]
    exact table.idKey
  rw [List.map_append] at hnodup
  constructor
  · intro event hevent
    rw [hevents] at hevent
    rcases ha.known event hevent with ⟨row, hrow, hid⟩
    refine ⟨row, ?_, hid⟩
    rw [hrows, hadded]
    exact List.mem_append_left _ hrow
  · intro row hrow
    have hhistory : a'.history row.id = a.history row.id := by
      unfold App.Database.history
      rw [hevents]
    rw [hrows, hadded] at hrow
    rw [hhistory]
    rcases List.mem_append.mp hrow with hrow | hrow
    · exact ha.replays row hrow
    · have hnone : a.history row.id = [] := by
        unfold App.Database.history
        apply List.filter_eq_nil_iff.mpr
        intro event hevent hid
        rcases ha.known event hevent with ⟨old, hold, hknown⟩
        have hsame : old.id = row.id := hknown.trans (beq_iff_eq.mp hid)
        exact List.disjoint_of_nodup_append hnodup (List.mem_map_of_mem hold)
          (hsame ▸ List.mem_map_of_mem hrow)
      rw [hnone]
      rcases List.mem_map.mp hrow with ⟨entry, -, rfl⟩
      rfl

end Reviews

/-! ## The policy

Every decision is recorded under the policy that the deployment was started with. -/

/-- A decision comes with the policy of the deployment. -/
def Polices (d : App.Deployment) (op : App.Op) : Prop :=
  ∀ entry, op = .db (.recordReviewDecision entry) →
    entry.requireSecondReview = d.requireSecondReview

/-- The same, of an operation on the casebook. -/
def Op.FollowsPolicy (d : Deployment) (op : Op) : Prop :=
  ∀ op', op = .app op' → Polices d.toDeployment op'

/-- Decisions under the policy keep the review columns as they should be. -/
theorem Chronicled.exec {d : Deployment} {op : Op} {s : Casebook} (hop : op.FollowsPolicy d)
    (hs : Chronicled d.requireSecondReview s.app) (e : Env) :
    Chronicled d.requireSecondReview (exec d op e s).1.app := by
  rcases app_exec d op e s with ⟨op', rfl, happ⟩ | ⟨y, scored, found, -, -, hcommit⟩ |
    ⟨y, code, key, f, -, -, hs'⟩ | happ
  · rw [happ]
    cases op' with
    | auth c => exact hs.same rfl rfl
    | db q =>
        apply App.exec_db_store (I := Chronicled d.requireSecondReview) hs
        intro _ _
        cases q with
        | recordReviewDecision entry => exact hs.record (hop _ rfl entry rfl) (d.now e.now)
        | _ => exact hs.same rfl rfl
    | send mail => exact hs.same rfl rfl
    | enrollImage bytes => exact hs
  · rcases finalize_eq_ok hcommit with ⟨table, htable, hs'⟩
    rw [hs']
    exact hs.insertRows htable rfl rfl
  · rw [hs']
    exact hs.same rfl rfl
  · rw [happ]
    exact hs

end AnatoliaBis.Cases
