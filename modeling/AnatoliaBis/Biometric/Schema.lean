import AnatoliaBis.Biometric.Matching

/-! # Enrollment without pgvector

A start on PostgreSQL tries to create the extension, the vector column and its
index, and goes on when it cannot. Every insert names the vector column, whether
the start was successful or not; `enrolls_iff` says which enrollments go through.
-/

namespace AnatoliaBis.Biometric

variable {K : Type}

/-! ## The schema -/

/-- What the statements of `ensure_pgvector_index` have left behind. -/
structure Schema where
  extension : Bool
  embeddingVector : Bool
  hnswIndex : Bool
  deriving Repr, DecidableEq

/-- The schema of `migrate_pg` alone. -/
def Schema.migrated : Schema := ⟨false, false, false⟩

/-- Which statements of a start fail. -/
structure StartFailures where
  createExtension : Bool
  alterTable : Bool
  createIndex : Bool
  deriving Repr, DecidableEq

/-- `ensure_pgvector_index`. -/
def ensurePgvectorIndex (schema : Schema) (fails : StartFailures) : Schema × Bool :=
  if fails.createExtension then (schema, false)
  else if fails.alterTable then ({ schema with extension := true }, false)
  else if fails.createIndex then
    ({ schema with extension := true, embeddingVector := true }, false)
  else (⟨true, true, true⟩, true)

/-! ## The server -/

/-- The database, and the flag `pgvector_search_ready` of the last start. -/
structure Server (K : Type) where
  schema : Schema
  store : TemplateStore K
  pgvectorReady : Bool

/-- `insert_template`, with the flag of the running server. Without the vector
column the statement fails. -/
def Server.insertTemplate (s : Server K) (turn : Turn) (new : NewTemplate K) :
    TemplateStore K × Except DbError (Option (TemplateRow K)) :=
  if s.schema.embeddingVector then
    Biometric.insertTemplate s.store turn { new with pgvectorReady := s.pgvectorReady }
  else
    match Uuid.parseStr new.candidateId with
    | none => (s.store, .ok none)
    | some _ => (s.store, .error .failed)

/-- `search_top_k`. The indexed query names the vector column, the scan does not. -/
def Server.searchTopK [Field K] [LinearOrder K] (sqrt : K → K) (s : Server K) (ranking : Ranking K)
    (modelName modelVersion : String) (probe : List K) (topK : Nat) :
    Except DbError (List (CandidateMatch K)) :=
  if s.pgvectorReady ∧ probe.length = embeddingDim ∧ ¬ s.schema.embeddingVector then .error .failed
  else Biometric.searchTopK sqrt ranking s.store modelName modelVersion probe topK s.pgvectorReady

/-- What happens to the server: starts, enrollments and revocations. -/
inductive Event (K : Type) where
  | start (fails : StartFailures)
  | insertTemplate (new : NewTemplate K) (turn : Turn)
  | revokeTemplate (templateId : String) (turn : Turn)

def Event.after (s : Server K) : Event K → Server K
  | .start fails =>
      { s with schema := (ensurePgvectorIndex s.schema fails).1,
               pgvectorReady := (ensurePgvectorIndex s.schema fails).2 }
  | .insertTemplate new turn => { s with store := (s.insertTemplate turn new).1 }
  | .revokeTemplate templateId turn =>
      { s with store := (Biometric.revokeTemplate s.store turn templateId).1 }

/-- The server after a history, from the migrated schema and an empty table on. -/
def serverAfter (candidates : List Uuid) (events : List (Event K)) : Server K :=
  events.foldl Event.after ⟨.migrated, ⟨candidates, []⟩, false⟩

theorem serverAfter_concat (candidates : List Uuid) (events : List (Event K)) (ev : Event K) :
    serverAfter candidates (events ++ [ev]) = ev.after (serverAfter candidates events) := by
  rw [serverAfter, List.foldl_append]
  rfl

/-! ## What the starts have done -/

/-- A start that got as far as the vector column. -/
def Event.AddsColumn : Event K → Prop
  | .start fails => fails.createExtension = false ∧ fails.alterTable = false
  | _ => False

/-- The failures of a start. -/
def Event.failures : Event K → Option StartFailures
  | .start fails => some fails
  | _ => none

/-- The last start, if there was one. -/
def lastStart (events : List (Event K)) : Option StartFailures :=
  (events.filterMap Event.failures).getLast?

/-- A start without failures. -/
def StartFailures.absent : StartFailures := ⟨false, false, false⟩

theorem lastStart_concat (events : List (Event K)) (ev : Event K) :
    lastStart (events ++ [ev]) = ev.failures.or (lastStart events) := by
  unfold lastStart
  rw [List.filterMap_append]
  cases ev with
  | start fails => simp [Event.failures]
  | _ => simp [Event.failures]

/-- The column is there once a start has added it, and stays. -/
theorem embeddingVector_serverAfter (candidates : List Uuid) (events : List (Event K)) :
    (serverAfter candidates events).schema.embeddingVector = true ↔
      ∃ ev ∈ events, ev.AddsColumn := by
  induction events using List.reverseRecOn with
  | nil => simp [serverAfter, Schema.migrated]
  | append_singleton events ev ih =>
      rw [serverAfter_concat]
      simp only [List.mem_append, List.mem_singleton, or_and_right, exists_or, exists_eq_left,
        ← ih]
      cases ev with
      | start fails =>
          simp only [Event.after, ensurePgvectorIndex, Event.AddsColumn]
          split_ifs with hext halter hindex <;> simp_all
      | _ => simp [Event.after, Event.AddsColumn]

/-- The flag says whether the last start went through. -/
theorem pgvectorReady_serverAfter (candidates : List Uuid) (events : List (Event K)) :
    (serverAfter candidates events).pgvectorReady = true ↔ lastStart events = some .absent := by
  induction events using List.reverseRecOn with
  | nil => simp [serverAfter, lastStart]
  | append_singleton events ev ih =>
      rw [serverAfter_concat, lastStart_concat]
      cases ev with
      | start fails =>
          rcases fails with ⟨ext, alter, index⟩
          simp only [Event.after, ensurePgvectorIndex, Event.failures, StartFailures.absent,
            Option.some_or, Option.some.injEq, StartFailures.mk.injEq]
          split_ifs <;> simp_all
      | _ => simpa [Event.after, Event.failures] using ih

/-! ## Enrollments and searches -/

/-- An enrollment the database has no reason of its own to refuse: the candidate
exists, the identifier is new, the connection holds. -/
def Ordinary (s : Server K) (new : NewTemplate K) (turn : Turn) : Prop :=
  (∃ c ∈ s.store.candidates, Uuid.parseStr new.candidateId = some c) ∧
    (∀ row ∈ s.store.rows, row.id ≠ turn.id) ∧ turn.fails = false

/-- The search ranks the candidate of every stored, unrevoked template of the model,
by no less than that template's similarity. -/
def TakesAll [Field K] [LinearOrder K] (sqrt : K → K) (s : Server K) : Prop :=
  ∀ (ranking : Ranking K) (modelName modelVersion : String) (probe : List K) (topK : Nat),
    ∃ ranked : List (CandidateMatch K),
      s.searchTopK sqrt ranking modelName modelVersion probe topK =
          .ok ((ranking.run ranked).take topK) ∧
        ∀ row ∈ s.store.rows, row.modelName = modelName → row.modelVersion = modelVersion →
          row.revokedAt = none → ∃ x : K, (row.candidateId, ↑x) ∈ ranked ∧
            cosineSimilarity sqrt row.embeddingVec probe ≤ x

/-- The promise of the soft failure: every enrollment succeeds, and while the last
start was unsuccessful a search takes every template into account. -/
structure Enrolls [Field K] [LinearOrder K] (sqrt : K → K) (candidates : List Uuid)
    (events : List (Event K)) : Prop where
  inserts : ∀ before new turn rest, events = before ++ .insertTemplate new turn :: rest →
    ∃ row, ((serverAfter candidates before).insertTemplate turn new).2 = .ok (some row)
  searches : ∀ before rest, events = before ++ rest → lastStart before ≠ some .absent →
    TakesAll sqrt (serverAfter candidates before)

/-- Every enrollment comes after a start that got as far as the vector column, and
while the last start was successful full-dimension embeddings are finite. -/
def Prepared (events : List (Event K)) : Prop :=
  ∀ before new turn rest, events = before ++ .insertTemplate new turn :: rest →
    (∃ ev ∈ before, ev.AddsColumn) ∧
      (lastStart before = some .absent → new.embedding.length = embeddingDim →
        (finite new.embedding).isSome)

/-- When one enrollment succeeds. -/
theorem insertTemplate_succeeds_iff {s : Server K} {new : NewTemplate K} {turn : Turn}
    (h : Ordinary s new turn) :
    (∃ row, (s.insertTemplate turn new).2 = .ok (some row)) ↔
      s.schema.embeddingVector = true ∧
        (s.pgvectorReady = true → new.embedding.length = embeddingDim →
          (finite new.embedding).isSome) := by
  rcases h with ⟨⟨c, hc, hparse⟩, hid, hfails⟩
  have hfresh : (s.store.rows.any fun row => row.id == turn.id) = false := by
    rw [List.any_eq_false]
    intro row hrow
    simpa using hid row hrow
  have hcandidate : s.store.candidates.contains c = true := by simpa using hc
  unfold Server.insertTemplate
  cases hcolumn : s.schema.embeddingVector with
  | false => simp [hparse]
  | true =>
      simp only [if_true, Biometric.insertTemplate, hparse, hfails, hcandidate, hfresh,
        NewTemplate.vector, Bool.not_true, Bool.or_false, true_and, Bool.false_eq_true, if_false]
      by_cases hvector : new.embedding.length = embeddingDim ∧ s.pgvectorReady = true
      · rw [if_pos hvector]
        cases hfinite : finite new.embedding with
        | none => simp [hvector]
        | some v => simp
      · rw [if_neg hvector]
        simp only [Except.ok.injEq, Option.some.injEq, exists_eq', true_iff]
        exact fun hready hlength => absurd ⟨hlength, hready⟩ hvector

/-- A server that did not start cleanly scans everything. -/
theorem takesAll_of_not_ready [Field K] [LinearOrder K] {sqrt : K → K} {s : Server K}
    (h : s.pgvectorReady = false) : TakesAll sqrt s := by
  intro ranking modelName modelVersion probe topK
  refine ⟨scanned sqrt (listActiveTemplates s.store modelName modelVersion) probe, ?_, ?_⟩
  · unfold Server.searchTopK
    rw [if_neg (by simp [h]), h]
    exact searchTopK_scan ranking topK
  · rintro row hrow rfl rfl hrevoked
    have hactive : row ∈ listActiveTemplates s.store row.modelName row.modelVersion := by
      refine List.mem_filter.mpr ⟨hrow, ?_⟩
      simp [hrevoked]
    have hexists : ∃ x, TopK.IsBest (·.candidateId)
        (fun row => cosineSimilarity sqrt row.embeddingVec probe)
        (listActiveTemplates s.store row.modelName row.modelVersion) row.candidateId x :=
      TopK.exists_isBest _ hactive rfl
    rcases hexists with ⟨x, hbest⟩
    exact ⟨x, mem_scanned.mpr ⟨x, hbest, rfl⟩, hbest.2 row hactive rfl⟩

/-- **When enrollment works without pgvector**: exactly in the histories in which
every enrollment finds the vector column, and none brings the index a number that is
not finite. -/
theorem enrolls_iff [Field K] [LinearOrder K] (sqrt : K → K) (candidates : List Uuid)
    (events : List (Event K))
    (hordinary : ∀ before new turn rest, events = before ++ .insertTemplate new turn :: rest →
      Ordinary (serverAfter candidates before) new turn) :
    Enrolls sqrt candidates events ↔ Prepared events := by
  have hone : ∀ before new turn rest, events = before ++ .insertTemplate new turn :: rest →
      ((∃ row, ((serverAfter candidates before).insertTemplate turn new).2 = .ok (some row)) ↔
        (∃ ev ∈ before, ev.AddsColumn) ∧
          (lastStart before = some .absent → new.embedding.length = embeddingDim →
            (finite new.embedding).isSome)) := by
    intro before new turn rest hevents
    rw [insertTemplate_succeeds_iff (hordinary before new turn rest hevents),
      embeddingVector_serverAfter, pgvectorReady_serverAfter]
  constructor
  · intro h before new turn rest hevents
    exact (hone before new turn rest hevents).mp (h.inserts before new turn rest hevents)
  · intro h
    refine ⟨fun before new turn rest hevents => ?_, fun before rest _ hlast => ?_⟩
    · exact (hone before new turn rest hevents).mpr (h before new turn rest hevents)
    · refine takesAll_of_not_ready (Bool.eq_false_iff.mpr fun hready => hlast ?_)
      exact (pgvectorReady_serverAfter candidates before).mp hready

/-! ## A host without the extension -/

/-- One enrollment of a stored candidate. -/
def sampleEnrollment : Event ℝ :=
  .insertTemplate ⟨Uuid.text 0xab, "sface", "2021dec", sampleEmbedding.map some, 1, none, false⟩
    ⟨1111111109, 1, false⟩

theorem sampleEnrollment_ordinary (fails : StartFailures) :
    Ordinary (serverAfter [0xab] [.start fails])
      ⟨Uuid.text 0xab, "sface", "2021dec", sampleEmbedding.map some, 1, none, false⟩
      ⟨1111111109, 1, false⟩ :=
  ⟨⟨0xab, List.mem_singleton_self _, Uuid.parseStr_text (by norm_num)⟩,
    fun _ h => (nomatch h), rfl⟩

/-- After a start on a host without the extension the enrollment fails. -/
theorem enrollment_fails_without_extension :
    ¬ Enrolls Real.sqrt [0xab] [.start ⟨true, false, false⟩, sampleEnrollment] := by
  intro h
  rcases h.inserts [.start ⟨true, false, false⟩] _ _ [] rfl with ⟨row, hrow⟩
  have hsucceeds := (insertTemplate_succeeds_iff (sampleEnrollment_ordinary _)).mp ⟨row, hrow⟩
  have hcolumn : (serverAfter [0xab] [Event.start (K := ℝ) ⟨true, false, false⟩]).schema =
      .migrated := rfl
  rw [hcolumn] at hsucceeds
  exact absurd hsucceeds.1 (by decide)

/-- After a start that only failed to create the index it succeeds. -/
theorem enrolls_iff_sample :
    Enrolls Real.sqrt [0xab] [.start ⟨false, false, true⟩, sampleEnrollment] := by
  have hinsert : ∀ before new turn rest,
      [.start ⟨false, false, true⟩, sampleEnrollment] =
        before ++ Event.insertTemplate (K := ℝ) new turn :: rest →
      before = [.start ⟨false, false, true⟩] ∧
        Event.insertTemplate new turn = sampleEnrollment := by
    intro before new turn rest hevents
    cases before with
    | nil => cases hevents
    | cons first before =>
        cases before with
        | nil =>
            rcases List.cons.inj hevents with ⟨rfl, hrest⟩
            exact ⟨rfl, (List.cons.inj hrest).1.symm⟩
        | cons second before => simp at hevents
  refine (enrolls_iff Real.sqrt [0xab] _ ?_).mpr ?_
  · intro before new turn rest hevents
    rcases hinsert before new turn rest hevents with ⟨rfl, hnew⟩
    cases hnew
    exact sampleEnrollment_ordinary _
  · intro before new turn rest hevents
    rcases hinsert before new turn rest hevents with ⟨rfl, hnew⟩
    refine ⟨⟨_, List.mem_singleton_self _, rfl, rfl⟩, fun hlast => ?_⟩
    exact absurd hlast (by decide)

end AnatoliaBis.Biometric
