import AnatoliaBis.Biometric.Templates
import Mathlib.Algebra.BigOperators.Fin
import Mathlib.Algebra.Order.BigOperators.Ring.Finset
import Mathlib.Algebra.Order.Ring.Abs
import Mathlib.Analysis.Real.Sqrt

/-! # The two ways of matching

The scan of all templates and the query over the vector column are compared as sets
of scored candidates; where these are equal, so are the rankings, up to ties. They are
equal where a best template of each candidate is one that the index ranks by the same
score.
-/

namespace AnatoliaBis.Biometric

section Agreement

variable {K : Type} [Field K] [LinearOrder K] {sqrt : K → K} {s : TemplateStore K}
  {rows : List (TemplateRow K)} {modelName modelVersion : String} {probe : List K} {c : Uuid}
  {x : K} {d : WithTop K} {y : WithTop K}

/-! ## What is ranked -/

/-- `x` is the score that the scan gives the candidate. -/
abbrev Scores (sqrt : K → K) (rows : List (TemplateRow K)) (probe : List K) (c : Uuid) (x : K) :
    Prop :=
  TopK.IsBest (·.candidateId) (fun row => cosineSimilarity sqrt row.embeddingVec probe) rows c x

/-- `d` is the distance of the candidate's closest vector. -/
def Nearest (sqrt : K → K) (rows : List (TemplateRow K)) (probe : List K) (c : Uuid)
    (d : WithTop K) : Prop :=
  (∃ row ∈ rows, row.candidateId = c ∧
    ∃ v, row.embeddingVector = some v ∧ cosineDistance sqrt v probe = d) ∧
  ∀ row ∈ rows, row.candidateId = c →
    ∀ v, row.embeddingVector = some v → d ≤ cosineDistance sqrt v probe

/-- The candidate has a template of its best score with that score in the index too, and
no vector that is closer. -/
def Represented (sqrt : K → K) (rows : List (TemplateRow K)) (probe : List K) (c : Uuid) : Prop :=
  ∃ x, Scores sqrt rows probe c x ∧ Nearest sqrt rows probe c ↑(1 - x)

/-- The candidates that `top_k_matches` ranks. -/
def scanned (sqrt : K → K) (rows : List (TemplateRow K)) (probe : List K) :
    List (CandidateMatch K) :=
  (TopK.bestScores (·.candidateId) (fun row => cosineSimilarity sqrt row.embeddingVec probe)
    rows).map fun (candidateId, score) => (candidateId, ↑score)

/-- The candidates that `search_top_k_indexed` ranks. -/
def indexed (sqrt : K → K) (rows : List (TemplateRow K)) (probe : List K) :
    List (CandidateMatch K) :=
  (TopK.distinctOn Prod.fst Prod.snd (rows.filterMap fun row =>
    row.embeddingVector.map fun vector =>
      (row.candidateId, cosineDistance sqrt vector probe))).map fun (candidateId, distance) =>
    (candidateId, similarityOf distance)

theorem searchTopK_scan (ranking : Ranking K) (k : Nat) :
    searchTopK sqrt ranking s modelName modelVersion probe k false = .ok ((ranking.run
      (scanned sqrt (listActiveTemplates s modelName modelVersion) probe)).take k) := by
  unfold searchTopK
  rw [if_neg fun h => Bool.false_ne_true h.1]
  rfl

theorem searchTopK_index (ranking : Ranking K) {k : Nat} (hprobe : probe.length = embeddingDim)
    (hk : k < 2 ^ 63) :
    searchTopK sqrt ranking s modelName modelVersion probe k true = .ok ((ranking.run
      (indexed sqrt (listActiveTemplates s modelName modelVersion) probe)).take k) := by
  have hlimit : asI64 k = k := if_pos hk
  unfold searchTopK searchTopKIndexed
  rw [if_pos ⟨rfl, hprobe⟩, hlimit]
  dsimp only
  rw [if_neg (by omega), Int.toNat_natCast]
  rfl

/-- A limit of 2^63 or more is negative as `i64`. -/
theorem searchTopK_limit (ranking : Ranking K) {k : Nat} (hprobe : probe.length = embeddingDim)
    (hk : 2 ^ 63 ≤ k) (hk' : k < 2 ^ 64) :
    searchTopK sqrt ranking s modelName modelVersion probe k true = .error .failed := by
  have hlimit : asI64 k < 0 := by
    unfold asI64
    rw [if_neg (by omega)]
    omega
  unfold searchTopK searchTopKIndexed
  rw [if_pos ⟨rfl, hprobe⟩]
  dsimp only
  rw [if_pos hlimit]

/-! ## Their entries -/

theorem mem_scanned :
    (c, y) ∈ scanned sqrt rows probe ↔ ∃ x : K, Scores sqrt rows probe c x ∧ ↑x = y := by
  unfold scanned
  rw [List.mem_map]
  constructor
  · rintro ⟨⟨c', x⟩, hmem, heq⟩
    cases heq
    exact ⟨x, TopK.mem_bestScores.mp hmem, rfl⟩
  · rintro ⟨x, hx, rfl⟩
    exact ⟨(c, x), TopK.mem_bestScores.mpr hx, rfl⟩

theorem mem_vectors : (c, d) ∈ (rows.filterMap fun row => row.embeddingVector.map fun vector =>
      (row.candidateId, cosineDistance sqrt vector probe)) ↔
    ∃ row ∈ rows, row.candidateId = c ∧
      ∃ v, row.embeddingVector = some v ∧ cosineDistance sqrt v probe = d := by
  rw [List.mem_filterMap]
  constructor
  · rintro ⟨row, hrow, h⟩
    rcases Option.map_eq_some_iff.mp h with ⟨v, hv, heq⟩
    cases heq
    exact ⟨row, hrow, rfl, v, hv, rfl⟩
  · rintro ⟨row, hrow, rfl, v, hv, rfl⟩
    exact ⟨row, hrow, Option.map_eq_some_iff.mpr ⟨v, hv, rfl⟩⟩

theorem mem_indexed :
    (c, y) ∈ indexed sqrt rows probe ↔
      ∃ d, Nearest sqrt rows probe c d ∧ similarityOf d = y := by
  have hnearest : ∀ d, (c, d) ∈ TopK.distinctOn Prod.fst Prod.snd (rows.filterMap fun row =>
      row.embeddingVector.map fun vector =>
        (row.candidateId, cosineDistance sqrt vector probe)) ↔
      Nearest sqrt rows probe c d := by
    intro d
    rw [TopK.mem_distinctOn]
    constructor
    · rintro ⟨⟨⟨c', d'⟩, hmem, rfl, rfl⟩, hle⟩
      refine ⟨mem_vectors.mp hmem, fun row hrow hc v hv => ?_⟩
      exact hle (c', cosineDistance sqrt v probe) (mem_vectors.mpr ⟨row, hrow, hc, v, hv, rfl⟩) rfl
    · rintro ⟨hmem, hle⟩
      refine ⟨⟨(c, d), mem_vectors.mpr hmem, rfl, rfl⟩, ?_⟩
      rintro ⟨c', d'⟩ hmem' rfl
      rcases mem_vectors.mp hmem' with ⟨row, hrow, hc, v, hv, rfl⟩
      exact hle row hrow hc v hv
  unfold indexed
  rw [List.mem_map]
  constructor
  · rintro ⟨⟨c', d⟩, hmem, heq⟩
    cases heq
    exact ⟨d, (hnearest d).mp hmem, rfl⟩
  · rintro ⟨d, hd, rfl⟩
    exact ⟨(c, d), (hnearest d).mpr hd, rfl⟩

/-- Each candidate is ranked once. -/
theorem nodup_keys_scanned : ((scanned sqrt rows probe).map Prod.fst).Nodup := by
  unfold scanned
  rw [List.map_map]
  exact TopK.nodup_bestScores

theorem nodup_keys_indexed : ((indexed sqrt rows probe).map Prod.fst).Nodup := by
  unfold indexed
  rw [List.map_map]
  exact TopK.nodup_distinctOn

/-- The scan ranks no more candidates than there are templates. -/
theorem length_scanned_le : (scanned sqrt rows probe).length ≤ rows.length := by
  have hsub : (scanned sqrt rows probe).map Prod.fst ⊆ rows.map (·.candidateId) := by
    intro c hc
    rcases List.mem_map.mp hc with ⟨⟨c', y⟩, hmem, rfl⟩
    rcases mem_scanned.mp hmem with ⟨x, ⟨⟨row, hrow, hkey, -⟩, -⟩, -⟩
    exact List.mem_map.mpr ⟨row, hrow, hkey⟩
  have hle := (List.subperm_of_subset nodup_keys_scanned hsub).length_le
  rwa [List.length_map, List.length_map] at hle

/-! ## Where they are the same -/

theorem Nearest.unique {d' : WithTop K} (h : Nearest sqrt rows probe c d)
    (h' : Nearest sqrt rows probe c d') : d = d' := by
  rcases h with ⟨⟨row, hrow, hc, v, hv, rfl⟩, hle⟩
  rcases h' with ⟨⟨row', hrow', hc', v', hv', rfl⟩, hle'⟩
  exact le_antisymm (hle row' hrow' hc' v' hv') (hle' row hrow hc v hv)

omit [LinearOrder K] in
theorem similarityOf_eq_coe : similarityOf d = ↑x ↔ d = ↑(1 - x) := by
  cases d with
  | top => exact ⟨nofun, nofun⟩
  | coe z =>
      show ((1 - z : K) : WithTop K) = ↑x ↔ (z : WithTop K) = ↑(1 - x)
      rw [WithTop.coe_inj, WithTop.coe_inj]
      constructor
      · rintro rfl
        exact (sub_sub_cancel 1 z).symm
      · rintro rfl
        exact sub_sub_cancel 1 x

/-- A candidate has one score on both sides if a best template of it is represented. -/
theorem mem_scanned_iff_mem_indexed (h : Represented sqrt rows probe c) :
    (c, y) ∈ scanned sqrt rows probe ↔ (c, y) ∈ indexed sqrt rows probe := by
  rcases h with ⟨x, hx, hnearest⟩
  rw [mem_scanned, mem_indexed]
  constructor
  · rintro ⟨x', hx', rfl⟩
    exact ⟨_, hnearest, by rw [hx'.unique hx]; exact similarityOf_eq_coe.mpr rfl⟩
  · rintro ⟨d, hd, rfl⟩
    exact ⟨x, hx, by rw [hd.unique hnearest]; exact (similarityOf_eq_coe.mpr rfl).symm⟩

theorem represented_of_mem_indexed (hx : Scores sqrt rows probe c x)
    (h : (c, (x : WithTop K)) ∈ indexed sqrt rows probe) : Represented sqrt rows probe c := by
  rcases mem_indexed.mp h with ⟨d, hd, heq⟩
  rw [similarityOf_eq_coe] at heq
  subst heq
  exact ⟨x, hx, hd⟩

/-- A candidate is not represented if each of its templates has no vector or a zero
one. -/
theorem not_represented (h : ∀ row ∈ rows, row.candidateId = c →
    ∀ v, row.embeddingVector = some v → norm sqrt v = 0) : ¬ Represented sqrt rows probe c := by
  rintro ⟨x, -, ⟨row, hrow, hc, v, hv, hdistance⟩, -⟩
  unfold cosineDistance at hdistance
  rw [if_pos (Or.inl (h row hrow hc v hv))] at hdistance
  cases hdistance

/-- The two rank the same candidates with the same scores if every candidate is
represented. -/
theorem scanned_perm_indexed (h : ∀ row ∈ rows, Represented sqrt rows probe row.candidateId) :
    (scanned sqrt rows probe).Perm (indexed sqrt rows probe) := by
  refine (List.perm_ext_iff_of_nodup nodup_keys_scanned.of_map nodup_keys_indexed.of_map).mpr ?_
  rintro ⟨c, y⟩
  constructor
  · intro hmem
    rcases mem_scanned.mp hmem with ⟨x, ⟨⟨row, hrow, rfl, -⟩, -⟩, -⟩
    exact (mem_scanned_iff_mem_indexed (h row hrow)).mp hmem
  · intro hmem
    rcases mem_indexed.mp hmem with ⟨d, ⟨⟨row, hrow, rfl, -⟩, -⟩, -⟩
    exact (mem_scanned_iff_mem_indexed (h row hrow)).mpr hmem

/-! ## Agreement -/

/-- With `pgvector_ready` and without, the search finds the same, up to ties. -/
def Agrees (sqrt : K → K) (s : TemplateStore K) (modelName modelVersion : String) (probe : List K)
    (k : Nat) : Prop :=
  ∀ ranking ranking' : Ranking K, ∃ found found',
    searchTopK sqrt ranking s modelName modelVersion probe k true = .ok found ∧
    searchTopK sqrt ranking' s modelName modelVersion probe k false = .ok found' ∧
    TopK.SameUpToTies Prod.snd k found found'

/-- They agree on every limit below 2^63 if every candidate is represented. -/
theorem agrees_of_represented (hprobe : probe.length = embeddingDim)
    (h : ∀ row ∈ listActiveTemplates s modelName modelVersion,
      Represented sqrt (listActiveTemplates s modelName modelVersion) probe row.candidateId)
    {k : Nat} (hk : k < 2 ^ 63) : Agrees sqrt s modelName modelVersion probe k := by
  intro ranking ranking'
  refine ⟨_, _, searchTopK_index ranking hprobe hk, searchTopK_scan ranking' k, ?_⟩
  exact TopK.sameUpToTies_of_perm (scanned_perm_indexed h).symm ranking ranking'

/-- And if they agree on a limit above the number of templates, every candidate is
represented. -/
theorem represented_of_agrees (hprobe : probe.length = embeddingDim) {k : Nat} (hk : k < 2 ^ 63)
    (hlength : (listActiveTemplates s modelName modelVersion).length < k)
    (h : Agrees sqrt s modelName modelVersion probe k) :
    ∀ row ∈ listActiveTemplates s modelName modelVersion,
      Represented sqrt (listActiveTemplates s modelName modelVersion) probe row.candidateId := by
  intro row hrow
  have ranking : Ranking K := Select.Arrangement.descending Prod.snd
  rcases h ranking ranking with ⟨found, found', hfound, hfound', hsame⟩
  rw [searchTopK_index ranking hprobe hk] at hfound
  rw [searchTopK_scan ranking k] at hfound'
  cases hfound
  cases hfound'
  generalize listActiveTemplates s modelName modelVersion = rows at *
  -- nothing is cut off, so the index finds every candidate of the scan
  have hscanned : (ranking.run (scanned sqrt rows probe)).length < k := by
    rw [(ranking.perm _).length_eq]
    exact length_scanned_le.trans_lt hlength
  rw [List.take_of_length_le hscanned.le] at hsame
  have hfound : ((ranking.run (indexed sqrt rows probe)).take k).length < k := by
    have heq := congrArg List.length hsame.scores
    rw [List.length_map, List.length_map] at heq
    omega
  rcases TopK.exists_isBest (fun row => cosineSimilarity sqrt row.embeddingVec probe) hrow rfl
    with ⟨x, hx⟩
  have hscan : (row.candidateId, (x : WithTop K)) ∈ ranking.run (scanned sqrt rows probe) :=
    (ranking.perm _).mem_iff.mpr (mem_scanned.mpr ⟨x, hx, rfl⟩)
  have hindex := List.mem_of_mem_take ((hsame.mem_iff hfound _).mpr hscan)
  exact represented_of_mem_indexed hx ((ranking.perm _).mem_iff.mp hindex)

end Agreement

/-! ## Exact arithmetic -/

section Exact

variable {K : Type} [Field K] [LinearOrder K] [IsStrictOrderedRing K] {sqrt : K → K}
  {s : TemplateStore K} {rows : List (TemplateRow K)} {modelName modelVersion : String}
  {a b probe : List K}

/-- Square roots are exact. -/
def IsSqrt (sqrt : K → K) : Prop := ∀ x, 0 ≤ x → 0 ≤ sqrt x ∧ sqrt x ^ 2 = x

omit [LinearOrder K] [IsStrictOrderedRing K] in
theorem dot_ofFn {n : Nat} (f g : Fin n → K) :
    dot (List.ofFn f) (List.ofFn g) = ∑ i, f i * g i := by
  have hzip : List.zipWith (· * ·) (List.ofFn f) (List.ofFn g) =
      List.ofFn fun i => f i * g i := by
    apply List.ext_getElem <;> simp
  unfold dot
  rw [hzip, List.sum_ofFn]

/-- The Cauchy–Schwarz inequality. -/
theorem sq_dot_le (h : a.length = b.length) :
    dot a b ^ 2 ≤ (a.map (· ^ 2)).sum * (b.map (· ^ 2)).sum := by
  obtain ⟨n, f, rfl⟩ : ∃ n, ∃ f : Fin n → K, a = List.ofFn f := ⟨_, _, (List.ofFn_get a).symm⟩
  obtain ⟨g, rfl⟩ : ∃ g : Fin n → K, b = List.ofFn g := by
    rw [List.length_ofFn] at h
    subst h
    exact ⟨_, (List.ofFn_get b).symm⟩
  rw [dot_ofFn, List.map_ofFn, List.map_ofFn, List.sum_ofFn, List.sum_ofFn]
  exact Finset.sum_mul_sq_le_sq_mul_sq Finset.univ f g

theorem norm_spec (hsqrt : IsSqrt sqrt) (a : List K) :
    0 ≤ norm sqrt a ∧ norm sqrt a ^ 2 = (a.map (· ^ 2)).sum := by
  refine hsqrt _ (List.sum_nonneg ?_)
  intro x hx
  rcases List.mem_map.mp hx with ⟨y, -, rfl⟩
  exact sq_nonneg y

/-- A cosine is within the range that the scan clamps to. -/
theorem abs_cosine_le_one (hsqrt : IsSqrt sqrt) (h : a.length = b.length)
    (ha : 0 < norm sqrt a) (hb : 0 < norm sqrt b) :
    |dot a b / (norm sqrt a * norm sqrt b)| ≤ 1 := by
  have hpos := mul_pos ha hb
  have hdot : |dot a b| ≤ norm sqrt a * norm sqrt b := by
    refine abs_le_of_sq_le_sq ?_ hpos.le
    rw [mul_pow, (norm_spec hsqrt a).2, (norm_spec hsqrt b).2]
    exact sq_dot_le h
  rw [abs_div, abs_of_pos hpos]
  exact (div_le_one hpos).mpr hdot

/-- A vector that is long enough for `cosine_similarity`. -/
def Sizable (sqrt : K → K) (a : List K) : Prop := negligible < norm sqrt a

omit [Field K] [LinearOrder K] [IsStrictOrderedRing K] in
theorem ne_nil_of_length (h : a.length = embeddingDim) : a ≠ [] := by
  rintro rfl
  exact Nat.zero_ne_add_one 127 h

/-- On sizable vectors the distance is that of the similarity. -/
theorem cosineDistance_eq (hsqrt : IsSqrt sqrt) (ha : a.length = embeddingDim)
    (hb : b.length = embeddingDim) (hsa : Sizable sqrt a) (hsb : Sizable sqrt b) :
    cosineDistance sqrt a b = ↑(1 - cosineSimilarity sqrt a b) := by
  have htiny : (0 : K) < negligible := by
    unfold negligible
    positivity
  have hpa : 0 < norm sqrt a := htiny.trans hsa
  have hpb : 0 < norm sqrt b := htiny.trans hsb
  have hclamp := abs_le.mp (abs_cosine_le_one hsqrt (ha.trans hb.symm) hpa hpb)
  have hsimilarity : cosineSimilarity sqrt a b = dot a b / (norm sqrt a * norm sqrt b) := by
    unfold cosineSimilarity
    rw [if_neg (not_or.mpr ⟨not_not.mpr (ha.trans hb.symm), ne_nil_of_length ha⟩),
      if_neg (not_or.mpr ⟨not_le.mpr hsa, not_le.mpr hsb⟩), min_eq_right hclamp.2,
      max_eq_right hclamp.1]
  unfold cosineDistance
  rw [if_neg (not_or.mpr ⟨hpa.ne', hpb.ne'⟩), hsimilarity]

/-- Where the templates have their vectors and no norm is tiny, every candidate is
represented. -/
theorem represented_of_vectors (hsqrt : IsSqrt sqrt) (hprobe : probe.length = embeddingDim)
    (hsp : Sizable sqrt probe)
    (h : ∀ row ∈ rows, row.embeddingVector = some row.embeddingVec ∧
      row.embeddingVec.length = embeddingDim ∧ Sizable sqrt row.embeddingVec) :
    ∀ row ∈ rows, Represented sqrt rows probe row.candidateId := by
  intro row hrow
  have hdistance : ∀ other ∈ rows, ∀ v, other.embeddingVector = some v →
      cosineDistance sqrt v probe = ↑(1 - cosineSimilarity sqrt other.embeddingVec probe) := by
    intro other hother v hv
    rcases h other hother with ⟨hvector, hlength, hsizable⟩
    rw [hvector] at hv
    rw [← Option.some.inj hv]
    exact cosineDistance_eq hsqrt hlength hprobe hsizable hsp
  rcases TopK.exists_isBest (fun row => cosineSimilarity sqrt row.embeddingVec probe) hrow rfl
    with ⟨x, hx⟩
  refine ⟨x, hx, ?_, ?_⟩
  · rcases hx.1 with ⟨best, hbest, hc, rfl⟩
    exact ⟨best, hbest, hc, _, (h best hbest).1, hdistance best hbest _ (h best hbest).1⟩
  · intro other hother hc v hv
    rw [hdistance other hother v hv, WithTop.coe_le_coe]
    exact sub_le_sub_left (hx.2 other hother hc) 1

end Exact

/-! ## Stores -/

section Stores

variable {K : Type} {s : TemplateStore K}

/-- A vector is the embedding of its row, and has the dimension of the column. -/
def VectorsMatch (s : TemplateStore K) : Prop :=
  ∀ row ∈ s.rows, ∀ v, row.embeddingVector = some v →
    row.embeddingVec = v ∧ v.length = embeddingDim

theorem finite_map_some (v : List K) : finite (v.map some) = some v := by
  have hall : (v.map some).all (·.isSome) = true :=
    List.all_eq_true.mpr fun x hx => by
      rcases List.mem_map.mp hx with ⟨y, -, rfl⟩
      rfl
  have hreduce : (v.map some).reduceOption = v := by
    unfold List.reduceOption
    rw [List.filterMap_map]
    exact List.filterMap_some
  unfold finite
  rw [if_pos hall, hreduce]

theorem finite_eq_some {xs : List (Option K)} {v : List K} (h : finite xs = some v) :
    v.length = xs.length := by
  unfold finite at h
  split_ifs at h with hall
  cases h
  exact List.reduceOption_length_eq_iff.mpr (List.all_eq_true.mp hall)

/-- A vector that is inserted is the embedding. -/
theorem NewTemplate.vector_eq {new : NewTemplate K} {v : List K}
    (h : new.vector = some (some v)) :
    finite new.embedding = some v ∧ v.length = embeddingDim := by
  unfold NewTemplate.vector at h
  split_ifs at h with hready
  · rcases Option.map_eq_some_iff.mp h with ⟨w, hw, heq⟩
    cases heq
    exact ⟨hw, (finite_eq_some hw).trans hready.1⟩
  · cases h

theorem vectorsMatch_insertTemplate (h : VectorsMatch s) (turn : Turn) (new : NewTemplate K) :
    VectorsMatch (insertTemplate s turn new).1 := by
  unfold insertTemplate
  split
  · exact h
  · rename_i candidateId _
    split
    · exact h
    · rename_i vector hvector
      split_ifs
      · exact h
      · intro row hrow v hv
        rcases List.mem_append.mp hrow with hrow | hrow
        · exact h row hrow v hv
        · rw [List.mem_singleton.mp hrow] at hv ⊢
          have hsome : vector = some v := hv
          subst hsome
          rcases NewTemplate.vector_eq hvector with ⟨hfinite, hlength⟩
          refine ⟨?_, hlength⟩
          show (finite new.embedding).getD [] = v
          rw [hfinite]
          rfl

theorem vectorsMatch_revokeTemplate (h : VectorsMatch s) (turn : Turn) (templateId : String) :
    VectorsMatch (revokeTemplate s turn templateId).1 := by
  unfold revokeTemplate
  split
  · exact h
  · split_ifs
    · exact h
    · intro row hrow v hv
      rcases List.mem_map.mp hrow with ⟨old, hold, rfl⟩
      split_ifs at hv ⊢
      · exact h old hold v hv
      · exact h old hold v hv

/-- In any sequence of calls. -/
theorem vectorsMatch_afterCalls (candidates : List Uuid) (calls : List (Call K × Turn)) :
    VectorsMatch (afterCalls candidates calls) := by
  induction calls using List.reverseRecOn with
  | nil => intro row hrow; cases hrow
  | append_singleton calls call ih =>
      unfold afterCalls at ih ⊢
      rw [List.foldl_append]
      rcases call with ⟨call, turn⟩
      cases call with
      | insertTemplate new => exact vectorsMatch_insertTemplate ih turn new
      | revokeTemplate templateId => exact vectorsMatch_revokeTemplate ih turn templateId

end Stores

section Searches

variable {K : Type} [Field K] [LinearOrder K] {sqrt : K → K}

/-- Where every active template has a vector and no norm is tiny, the searches agree on
every limit below 2^63. -/
theorem agrees_of_vectors [IsStrictOrderedRing K] (hsqrt : IsSqrt sqrt) (candidates : List Uuid)
    (calls : List (Call K × Turn)) (modelName modelVersion : String) {probe : List K}
    (hprobe : probe.length = embeddingDim) (hsp : Sizable sqrt probe)
    (h : ∀ row ∈ listActiveTemplates (afterCalls candidates calls) modelName modelVersion,
      ∃ v, row.embeddingVector = some v ∧ Sizable sqrt v) {k : Nat} (hk : k < 2 ^ 63) :
    Agrees sqrt (afterCalls candidates calls) modelName modelVersion probe k := by
  refine agrees_of_represented hprobe (represented_of_vectors hsqrt hprobe hsp ?_) hk
  intro row hrow
  rcases h row hrow with ⟨v, hv, hsizable⟩
  rcases vectorsMatch_afterCalls candidates calls row (List.mem_of_mem_filter hrow) v hv with
    ⟨rfl, hlength⟩
  exact ⟨hv, hlength, hsizable⟩

end Searches

theorem isSqrt_real : IsSqrt Real.sqrt := fun x hx => ⟨Real.sqrt_nonneg x, Real.sq_sqrt hx⟩

def sampleEmbedding : List ℝ := 1 :: List.replicate 127 0

/-- The template of a candidate, enrolled while the extension was ready or not. -/
def sampleInsert (pgvectorReady : Bool) : Call ℝ × Turn :=
  (.insertTemplate ⟨Uuid.text 0xab, "sface", "2021dec", sampleEmbedding.map some, 1, none,
    pgvectorReady⟩, ⟨1111111109, 1, false⟩)

/-- The row that is stored. -/
def sampleTemplate (pgvectorReady : Bool) : TemplateRow ℝ where
  id := 1
  candidateId := 0xab
  modelName := "sface"
  modelVersion := "2021dec"
  embeddingDimension := 128
  embedding := sampleEmbedding.map some
  qualityScore := 1
  sourceReference := none
  createdAt := 1111111109
  revokedAt := none
  embeddingVector := if pgvectorReady = true then some sampleEmbedding else none

theorem afterCalls_sampleInsert (pgvectorReady : Bool) :
    afterCalls [0xab] [sampleInsert pgvectorReady] = ⟨[0xab], [sampleTemplate pgvectorReady]⟩ := by
  have hparse : Uuid.parseStr (Uuid.text 0xab) = some 0xab := Uuid.parseStr_text (by norm_num)
  have hready : finite (sampleEmbedding.map some) = some sampleEmbedding := finite_map_some _
  have hlength : (sampleEmbedding.map some).length = embeddingDim := by
    rw [List.length_map]
    rfl
  cases pgvectorReady with
  | true =>
      simp [afterCalls, sampleInsert, Call.after, insertTemplate, hparse, NewTemplate.vector,
        NewTemplate.row, hlength, hready, sampleTemplate, embeddingDim]
  | false =>
      simp [afterCalls, sampleInsert, Call.after, insertTemplate, hparse, NewTemplate.vector,
        NewTemplate.row, hlength, sampleTemplate, embeddingDim]

theorem sampleTemplate_active (pgvectorReady : Bool) :
    listActiveTemplates (afterCalls [0xab] [sampleInsert pgvectorReady]) "sface" "2021dec" =
      [sampleTemplate pgvectorReady] := by
  rw [afterCalls_sampleInsert]
  rfl

theorem sizable_sampleEmbedding : Sizable Real.sqrt sampleEmbedding := by
  unfold Sizable norm negligible sampleEmbedding
  norm_num

end AnatoliaBis.Biometric
