import AnatoliaBis.Cases.Types

/-! # Searches and evidence in the database

The database of `App` with the progress of its searches, the evidence and the
relations. The transaction of `finalize_queued_search` is a single operation: its
first statement locks the row of the search.
-/

namespace AnatoliaBis.Cases

open Atomic
open Auth (Key Env)
open App (QueryError)

/-! ## State -/

structure Casebook where
  app : App.Database
  /-- The other columns of the search with this id. -/
  progress : Uuid → SearchProgress
  evidence : List EvidenceRow
  relations : List EntityRelationRow

namespace Casebook

/-- The whole row of a search. -/
def search (s : Casebook) (row : App.SearchRow) : SearchRow := ⟨row, s.progress row.id⟩

/-- `SELECT … FROM searches WHERE id = …`. -/
def findSearch (s : Casebook) (id : Key) : Option SearchRow :=
  (s.app.searches.find? fun row => id.isId row.id).map s.search

/-- `UPDATE searches SET status = …, … WHERE id = …`. -/
def updateSearch (s : Casebook) (id : Uuid) (status : App.SearchStatus)
    (f : SearchProgress → SearchProgress) : Casebook :=
  { s with
    app := { s.app with searches := s.app.searches.map fun row =>
      if row.id == id then { row with status := status } else row }
    progress := fun u =>
      if u = id ∧ s.app.searches.any (·.id == id) then f (s.progress u) else s.progress u }

/-- A row of `candidates` with this id. -/
def hasCandidate (s : Casebook) (id : Uuid) : Bool := s.app.candidates.any (·.id == id)

end Casebook

/-- The rows of the `search_candidates` inserts of a finalization, their ids drawn
from `firstId` on. -/
def scoredRows (firstId : Nat) (searchId : Uuid) (scored : List (Uuid × Rat)) (now : Timestamp) :
    List App.SearchCandidate :=
  scored.zipIdx.map fun ((candidateId, score), i) =>
    ⟨firstId + i, searchId, candidateId, score, .pending, none, none, none, now⟩

/-- `INSERT INTO search_candidates`, unless a unique index forbids it. -/
def insertRows (t : App.SearchCandidateTable) (rows : List App.SearchCandidate) :
    Option App.SearchCandidateTable :=
  if h : ((t.rows ++ rows).map (·.id)).Nodup ∧
      ((t.rows ++ rows).map fun row => (row.searchId, row.candidateId)).Nodup then
    some ⟨t.rows ++ rows, h.1, h.2⟩
  else none

/-! ## SQL statements -/

/-- The statements of the `db` functions that `App` does not have. -/
inductive Query where
  | loadSearchById (id : Key)
  | finalizeQueuedSearch (searchId : Uuid) (scored : List (Uuid × Rat))
  | markQueuedSearchFailed (searchId : Uuid) (failureCode failureMessageKey : String)
  | listTemplatesForCandidate (candidateId : Key)
  | insertEvidenceRow (id candidateId : Uuid) (item : EvidenceItem) (collectedBy : Option Uuid)
  | findEvidenceById (id : Uuid)
  | listEvidenceForCandidate (candidateId : Key)
  | insertRelation (id candidateId : Uuid) (relationType value : String)
      (evidenceId addedBy : Option Uuid)
  | findRelationById (id : Uuid)
  | listRelationsForCandidate (candidateId : Key)
  | listCandidates

/-- What a statement returns when it succeeds. -/
@[reducible] def Query.Res : Query → Type
  | .loadSearchById _ | .finalizeQueuedSearch .. | .markQueuedSearchFailed .. => Option SearchRow
  | .listTemplatesForCandidate _ => List App.BiometricTemplateRow
  | .insertEvidenceRow .. => EvidenceRow
  | .findEvidenceById _ => Option EvidenceRow
  | .listEvidenceForCandidate _ => List EvidenceRow
  | .insertRelation .. => EntityRelationRow
  | .findRelationById _ => Option EntityRelationRow
  | .listRelationsForCandidate _ => List EntityRelationRow
  | .listCandidates => List App.CandidateRow

/-- The transaction of `finalize_queued_search`. Where there is no such search,
`fetch_one` fails on PostgreSQL and rolls the inserts back, and SQLite commits them. -/
def Casebook.finalize (d : Deployment) (s : Casebook) (now : Timestamp) (searchId : Uuid)
    (scored : List (Uuid × Rat)) : Except QueryError (Casebook × Option SearchRow) :=
  match insertRows s.app.searchCandidates
      (scoredRows s.app.auth.nextId searchId scored now) with
  | none => .error .unique
  | some table =>
      let s' := { s with app := { s.app with
        searchCandidates := table
        auth := { s.app.auth with nextId := s.app.auth.nextId + scored.length } } }
      let done := s'.updateSearch searchId .completed fun progress =>
        { progress with startedAt := some now, completedAt := some now }
      match d.backend, done.findSearch (.uuid searchId) with
      | .postgres, none => .error .failed
      | _, found => .ok (done, found)

/-- `ORDER BY created_at DESC`. -/
def newestFirst {α : Type} (createdAt : α → Timestamp) (rows : List α) : List α :=
  rows.mergeSort fun a b => decide (createdAt b ≤ createdAt a)

/-- One statement at the instant `now`, or why it failed. On PostgreSQL evidence and
relations refer to a candidate, and a relation to its evidence. -/
def Query.perform (d : Deployment) (now : Timestamp) :
    (q : Query) → Casebook → Except QueryError (Casebook × q.Res)
  | .loadSearchById id, s => .ok (s, s.findSearch id)
  | .finalizeQueuedSearch searchId scored, s => s.finalize d (d.now now) searchId scored
  | .markQueuedSearchFailed searchId failureCode failureMessageKey, s =>
      let s' := s.updateSearch searchId .failed fun progress =>
        { progress with completedAt := some (d.now now), failureCode := some failureCode,
                        failureMessageKey := some failureMessageKey }
      .ok (s', s'.findSearch (.uuid searchId))
  | .listTemplatesForCandidate candidateId, s =>
      .ok (s, newestFirst (·.createdAt) (s.app.templates.filter fun row =>
        candidateId.isId row.candidateId))
  | .insertEvidenceRow id candidateId item collectedBy, s =>
      let row := item.row id candidateId collectedBy (d.now now)
      if d.backend = .postgres ∧ !s.hasCandidate candidateId then .error .failed
      else .ok ({ s with evidence := s.evidence ++ [row] }, row)
  | .findEvidenceById id, s => .ok (s, s.evidence.find? fun row => row.id == id)
  | .listEvidenceForCandidate candidateId, s =>
      .ok (s, newestFirst (·.createdAt) (s.evidence.filter fun row =>
        candidateId.isId row.candidateId))
  | .insertRelation id candidateId relationType value evidenceId addedBy, s =>
      let row : EntityRelationRow :=
        ⟨id, candidateId, relationType, value, evidenceId, addedBy, d.now now, none⟩
      if d.backend = .postgres ∧ (!s.hasCandidate candidateId ||
          evidenceId.any fun evidenceId => !s.evidence.any (·.id == evidenceId)) then
        .error .failed
      else .ok ({ s with relations := s.relations ++ [row] }, row)
  | .findRelationById id, s => .ok (s, s.relations.find? fun row => row.id == id)
  | .listRelationsForCandidate candidateId, s =>
      .ok (s, newestFirst (·.createdAt) (s.relations.filter fun row =>
        candidateId.isId row.candidateId && row.revokedAt.isNone))
  | .listCandidates, s =>
      .ok (s, s.app.candidates.mergeSort fun a b => d.textLe a.referenceCode b.referenceCode)

/-! ## Operations -/

/-- The operations of a handler. -/
inductive Op where
  /-- An operation of `App`. -/
  | app (op : App.Op)
  | db (q : Query)
  /-- `state.biometric_provider.search`. -/
  | searchFaces (bytes : List UInt8) (topK : Nat)
  /-- `state.osint_orchestrator.collect`. -/
  | collectOutcomes (query : String)

@[reducible] def Op.Res : Op → Type
  | .app op => op.Res
  | .db q => Except QueryError q.Res
  | .searchFaces .. => Except App.BiometricError (List (Uuid × Rat))
  | .collectOutcomes _ => List ProviderOutcome

/-- One operation. A statement that fails changes nothing. -/
def exec (d : Deployment) : (op : Op) → Env → Casebook → Casebook × op.Res
  | .app op, e, s =>
      ({ s with app := (App.exec d.toDeployment op e s.app).1 },
        (App.exec d.toDeployment op e s.app).2)
  | .db q, e, s =>
      if e.fails then (s, .error .failed)
      else
        match q.perform d e.now s with
        | .ok (s', r) => (s', .ok r)
        | .error err => (s, .error err)
  | .searchFaces bytes topK, e, s => (s, d.searchFaces s.app bytes topK e)
  | .collectOutcomes query, e, s => (s, d.collectOutcomes query e)

/-- A handler, or a part of one. -/
abbrev Handler (α : Type) := Program Op Op.Res α

/-- One executed operation of a handler. -/
abbrev Step := Event Op Env Casebook

/-- A single operation as a handler. -/
def perform (op : Op) : Handler op.Res := .call op .done

/-- A single statement as a handler. -/
def query (q : Query) : Handler (Except QueryError q.Res) := .call (.db q) .done

/-- A handler of `App`. -/
def lift {α : Type} (h : App.Handler α) : Handler α := h.embed Op.app fun _ r => r

/-- `App` works on its own tables. -/
def appPart (d : Deployment) :
    Part Op.app (fun _ r => r) (App.exec d.toDeployment) (exec d) where
  get s := s.app
  put a s := { s with app := a }
  get_put _ _ := rfl
  put_put _ _ _ := rfl
  put_get _ := rfl
  after _ _ _ := rfl
  result _ _ _ := rfl

/-! ## One operation in front of a handler -/

section Front

variable {d : Deployment} {α : Type} {P : Op → Prop} {R : α → Prop} {J : List Step → Op → Prop}
  {Q : List Step → α → Prop} {h : List Step}

theorem performs_perform {op : Op} {f : op.Res → Handler α} (hop : P op)
    (hf : ∀ r, (f r).Performs (exec d) P R) : (perform op >>= f).Performs (exec d) P R :=
  ⟨hop, fun _ _ => hf _⟩

theorem performs_query {q : Query} {f : Except QueryError q.Res → Handler α} (hq : P (.db q))
    (hf : ∀ r, (f r).Performs (exec d) P R) : (query q >>= f).Performs (exec d) P R :=
  ⟨hq, fun _ _ => hf _⟩

theorem guarantees_query {q : Query} {f : Except QueryError q.Res → Handler α} (hJ : J h (.db q))
    (hf : ∀ e s, (f (exec d (.db q) e s).2).Guarantees (exec d) J Q
      (h ++ [⟨.db q, e, s, (exec d (.db q) e s).1⟩])) :
    (query q >>= f).Guarantees (exec d) J Q h :=
  ⟨hJ, hf⟩

variable {e : Env} {s : Casebook}

theorem exec_db_of_fails {q : Query} (h : e.fails = true) :
    exec d (.db q) e s = (s, .error .failed) := by
  simp only [exec, h, if_true]

theorem exec_db_of_ok {q : Query} {s' : Casebook} {r : q.Res} (h : e.fails = false)
    (hq : q.perform d e.now s = .ok (s', r)) : exec d (.db q) e s = (s', .ok r) := by
  simp only [exec, h, hq, Bool.false_eq_true, if_false]

theorem exec_db_of_error {q : Query} {err : QueryError} (h : e.fails = false)
    (hq : q.perform d e.now s = .error err) : exec d (.db q) e s = (s, .error err) := by
  simp only [exec, h, hq, Bool.false_eq_true, if_false]

end Front

end AnatoliaBis.Cases
