import AnatoliaBis.Uuid
import AnatoliaBis.Basic
import AnatoliaBis.Lib.TopK
import Mathlib.Algebra.BigOperators.Group.List.Basic
import Mathlib.Algebra.Order.Field.Basic
import Mathlib.Data.List.ReduceOption
import Mathlib.Order.WithBot

/-! # Templates and matching

`db/biometric.rs` on PostgreSQL, with the vector column present, and
`embedding::cosine_similarity`. Arithmetic is exact: the numbers are those of any
ordered field, with a square root on it.
-/

namespace AnatoliaBis.Biometric

/-! ## Rows -/

/-- `EMBEDDING_DIM`. -/
def embeddingDim : Nat := 128

/-- `db::BiometricTemplateRow`, and the vector column. -/
structure TemplateRow (K : Type) where
  id : Uuid
  candidateId : Uuid
  modelName : String
  modelVersion : String
  embeddingDimension : Nat
  /-- The JSON array; a number that is not finite is written as `null`. -/
  embedding : List (Option K)
  qualityScore : K
  sourceReference : Option String
  createdAt : Timestamp
  revokedAt : Option Timestamp
  embeddingVector : Option (List K)

/-- The numbers of a list, if all of them are finite. -/
def finite {K : Type} (xs : List (Option K)) : Option (List K) :=
  if xs.all (·.isSome) then some xs.reduceOption else none

/-- `BiometricTemplateRow::embedding_vec`. -/
def TemplateRow.embeddingVec {K : Type} (row : TemplateRow K) : List K :=
  (finite row.embedding).getD []

/-- The table, and the candidates that its rows refer to. -/
structure TemplateStore (K : Type) where
  candidates : List Uuid
  rows : List (TemplateRow K)

/-- What the database decides on while a statement runs. -/
structure Turn where
  now : Timestamp
  /-- `gen_random_uuid()`. -/
  id : Uuid
  fails : Bool

/-! ## Writing -/

/-- The arguments of `db::insert_template`; an embedding is of `f32`, which need not be
finite. -/
structure NewTemplate (K : Type) where
  candidateId : String
  modelName : String
  modelVersion : String
  embedding : List (Option K)
  qualityScore : K
  sourceReference : Option String
  pgvectorReady : Bool

/-- The vector column of an insert: NULL, or a vector that the server may refuse because
a number is not finite. -/
def NewTemplate.vector {K : Type} (new : NewTemplate K) : Option (Option (List K)) :=
  if new.embedding.length = embeddingDim ∧ new.pgvectorReady = true then
    (finite new.embedding).map some
  else some none

/-- The row of an insert. -/
def NewTemplate.row {K : Type} (new : NewTemplate K) (turn : Turn) (candidateId : Uuid)
    (vector : Option (List K)) : TemplateRow K where
  id := turn.id
  candidateId := candidateId
  modelName := new.modelName
  modelVersion := new.modelVersion
  embeddingDimension := new.embedding.length
  embedding := new.embedding
  qualityScore := new.qualityScore
  sourceReference := new.sourceReference
  createdAt := turn.now
  revokedAt := none
  embeddingVector := vector

/-- `db::insert_template`. -/
def insertTemplate {K : Type} (s : TemplateStore K) (turn : Turn) (new : NewTemplate K) :
    TemplateStore K × Except DbError (Option (TemplateRow K)) :=
  match Uuid.parseStr new.candidateId with
  | none => (s, .ok none)
  | some candidateId =>
      match new.vector with
      | none => (s, .error .failed)
      | some vector =>
          if turn.fails || !s.candidates.contains candidateId || s.rows.any (·.id == turn.id) then
            (s, .error .failed)
          else
            let row := new.row turn candidateId vector
            ({ s with rows := s.rows ++ [row] }, .ok (some row))

/-- `db::revoke_template`. -/
def revokeTemplate {K : Type} (s : TemplateStore K) (turn : Turn) (templateId : String) :
    TemplateStore K × Except DbError Bool :=
  match Uuid.parseStr templateId with
  | none => (s, .ok false)
  | some id =>
      if turn.fails then (s, .error .failed)
      else
        ({ s with rows := s.rows.map fun row =>
            if row.id == id && row.revokedAt.isNone then { row with revokedAt := some turn.now }
            else row },
          .ok (s.rows.any fun row => row.id == id && row.revokedAt.isNone))

/-- A call of one of the two. -/
inductive Call (K : Type) where
  | insertTemplate (new : NewTemplate K)
  | revokeTemplate (templateId : String)

/-- The store after a call. -/
def Call.after {K : Type} (call : Call K) (turn : Turn) (s : TemplateStore K) :
    TemplateStore K :=
  match call with
  | .insertTemplate new => (Biometric.insertTemplate s turn new).1
  | .revokeTemplate templateId => (Biometric.revokeTemplate s turn templateId).1

/-- The store after calls one after another, from an empty table on. -/
def afterCalls {K : Type} (candidates : List Uuid) (calls : List (Call K × Turn)) :
    TemplateStore K :=
  calls.foldl (fun s call => call.1.after call.2 s) ⟨candidates, []⟩

/-! ## Similarity -/

section Similarity

variable {K : Type} [Field K] [LinearOrder K] (sqrt : K → K)

/-- `a.iter().zip(b).map(|(x, y)| x * y).sum()`. -/
def dot (a b : List K) : K := (List.zipWith (· * ·) a b).sum

/-- The Euclidean norm. -/
def norm (a : List K) : K := sqrt ((a.map (· ^ 2)).sum)

/-- `1e-12`. -/
def negligible : K := 1 / 10 ^ 12

/-- `embedding::cosine_similarity`. -/
def cosineSimilarity (a b : List K) : K :=
  if a.length ≠ b.length ∨ a = [] then 0
  else if norm sqrt a ≤ negligible ∨ norm sqrt b ≤ negligible then 0
  else max (-1) (min 1 (dot a b / (norm sqrt a * norm sqrt b)))

/-- pgvector's `<=>`, with NaN as the greatest number: the cosine distance. -/
def cosineDistance (a b : List K) : WithTop K :=
  if norm sqrt a = 0 ∨ norm sqrt b = 0 then ⊤
  else ↑(1 - dot a b / (norm sqrt a * norm sqrt b))

end Similarity

/-! ## Matching -/

/-- `db::CandidateMatch`; the score is a `float8`, with NaN as the greatest, as
PostgreSQL orders it. -/
abbrev CandidateMatch (K : Type) := Uuid × WithTop K

section Matching

variable {K : Type} [Field K] [LinearOrder K] (sqrt : K → K)

/-- What sorting matches by score, highest first, may do. -/
abbrev Ranking (K : Type) [LinearOrder K] :=
  Select.Arrangement fun a b : CandidateMatch K => b.2 ≤ a.2

/-- `db::list_active_templates`. -/
def listActiveTemplates (s : TemplateStore K) (modelName modelVersion : String) :
    List (TemplateRow K) :=
  s.rows.filter fun row =>
    row.modelName == modelName && row.modelVersion == modelVersion && row.revokedAt.isNone

/-- `db::top_k_matches`; the order in which the map is iterated is part of the
ranking. -/
def topKMatches (ranking : Ranking K) (templates : List (TemplateRow K)) (probe : List K)
    (topK : Nat) : List (CandidateMatch K) :=
  let best := TopK.bestScores (·.candidateId)
    (fun row => cosineSimilarity sqrt row.embeddingVec probe) templates
  (ranking.run (best.map fun (candidateId, score) => (candidateId, ↑score))).take topK

/-- `as i64`. -/
def asI64 (n : Nat) : Int := if n < 2 ^ 63 then n else n - 2 ^ 64

/-- `1 - distance`. -/
def similarityOf (distance : WithTop K) : WithTop K := distance.map (1 - ·)

/-- `db::search_top_k_indexed`. A negative `LIMIT` is an error. -/
def searchTopKIndexed (ranking : Ranking K) (s : TemplateStore K) (modelName modelVersion : String)
    (probe : List K) (topK : Nat) : Except DbError (List (CandidateMatch K)) :=
  let indexed := (listActiveTemplates s modelName modelVersion).filterMap fun row =>
    row.embeddingVector.map fun vector => (row.candidateId, cosineDistance sqrt vector probe)
  let ranked := (TopK.distinctOn Prod.fst Prod.snd indexed).map fun (candidateId, distance) =>
    (candidateId, similarityOf distance)
  if asI64 topK < 0 then .error .failed
  else .ok ((ranking.run ranked).take (asI64 topK).toNat)

/-- `db::search_top_k`. -/
def searchTopK (ranking : Ranking K) (s : TemplateStore K) (modelName modelVersion : String)
    (probe : List K) (topK : Nat) (pgvectorReady : Bool) :
    Except DbError (List (CandidateMatch K)) :=
  if pgvectorReady = true ∧ probe.length = embeddingDim then
    searchTopKIndexed sqrt ranking s modelName modelVersion probe topK
  else .ok (topKMatches sqrt ranking (listActiveTemplates s modelName modelVersion) probe topK)

end Matching

end AnatoliaBis.Biometric
