import AnatoliaBis.Biometric.Matching
import AnatoliaBis.Cases.Store

/-! # What the scan finds

The matches of `top_k_matches`, for any order in which its map is iterated and any order of
matches of equal scores, and their insertion as the candidates of a search.
-/

namespace AnatoliaBis.Biometric

variable {K : Type} [Field K] [LinearOrder K] {sqrt : K → K} {rows : List (TemplateRow K)}
  {probe : List K} {k : Nat}

/-- The matches are the `k` best candidates. -/
structure ExactTopK (sqrt : K → K) (rows : List (TemplateRow K)) (probe : List K) (k : Nat)
    (found : List (CandidateMatch K)) : Prop where
  distinct : (found.map Prod.fst).Nodup
  /-- Each score is the best one over the candidate's templates, and a number in `[-1, 1]`. -/
  scores : ∀ e ∈ found, ∃ x, Scores sqrt rows probe e.1 x ∧ e.2 = ↑x ∧ -1 ≤ x ∧ x ≤ 1
  sorted : found.Pairwise fun a b => b.2 ≤ a.2
  length : found.length = min k (rows.map (·.candidateId)).dedup.length
  /-- A candidate that is left out scores no more than any that is found. -/
  best : ∀ c x, Scores sqrt rows probe c x → c ∉ found.map Prod.fst →
    ∀ e ∈ found, (x : WithTop K) ≤ e.2
  /-- As the candidates of a search that has none yet, they are one row each. -/
  oneRowEach : ∀ (t : App.SearchCandidateTable) (firstId : Nat) (searchId : Uuid)
    (scored : List (Uuid × Rat)) (now : Timestamp), (∀ row ∈ t.rows, row.searchId ≠ searchId) →
      scored.map Prod.fst = found.map Prod.fst →
        ((t.rows ++ Cases.scoredRows firstId searchId scored now).map fun row =>
          (row.searchId, row.candidateId)).Nodup

/-- A cosine is clamped. -/
theorem cosineSimilarity_mem [IsStrictOrderedRing K] (a b : List K) :
    -1 ≤ cosineSimilarity sqrt a b ∧ cosineSimilarity sqrt a b ≤ 1 := by
  have hle : (-1 : K) ≤ 1 := by linarith [zero_le_one (α := K)]
  have hneg : (-1 : K) ≤ 0 := by linarith [zero_le_one (α := K)]
  unfold cosineSimilarity
  split_ifs
  · exact ⟨hneg, zero_le_one⟩
  · exact ⟨hneg, zero_le_one⟩
  · constructor
    · exact le_max_left _ _
    · exact max_le hle (min_le_left _ _)

/-- There are as many matches to rank as candidates with a template. -/
theorem length_scanned : (scanned sqrt rows probe).length =
    (rows.map (·.candidateId)).dedup.length := by
  have hperm : ((scanned sqrt rows probe).map Prod.fst).Perm (rows.map (·.candidateId)).dedup := by
    apply (List.perm_ext_iff_of_nodup nodup_keys_scanned (List.nodup_dedup _)).mpr
    intro c
    rw [List.mem_dedup, List.mem_map, List.mem_map]
    constructor
    · rintro ⟨⟨c', y⟩, hmem, rfl⟩
      rcases mem_scanned.mp hmem with ⟨x, ⟨⟨row, hrow, hc, -⟩, -⟩, -⟩
      exact ⟨row, hrow, hc⟩
    · rintro ⟨row, hrow, hc⟩
      have hkey : (fun row : TemplateRow K => row.candidateId) row = c := hc
      obtain ⟨x, hx⟩ := TopK.exists_isBest
        (fun row : TemplateRow K => cosineSimilarity sqrt row.embeddingVec probe) hrow hkey
      exact ⟨(c, ↑x), mem_scanned.mpr ⟨x, hx, rfl⟩, rfl⟩
  rw [← hperm.length_eq, List.length_map]

/-- The rows that are inserted name the candidates in their order. -/
theorem scoredRows_keys (firstId : Nat) (searchId : Uuid) (scored : List (Uuid × Rat))
    (now : Timestamp) :
    (Cases.scoredRows firstId searchId scored now).map
        (fun row => (row.searchId, row.candidateId)) =
      (scored.map Prod.fst).map fun c => (searchId, c) := by
  unfold Cases.scoredRows
  rw [List.map_map, List.map_map]
  conv_rhs => rw [← List.zipIdx_map_fst 0 scored, List.map_map]
  rfl

theorem oneRowEach_of_nodup {found : List Uuid} (h : found.Nodup) {t : App.SearchCandidateTable}
    {firstId : Nat} {searchId : Uuid} {scored : List (Uuid × Rat)} {now : Timestamp}
    (ht : ∀ row ∈ t.rows, row.searchId ≠ searchId) (hscored : scored.map Prod.fst = found) :
    ((t.rows ++ Cases.scoredRows firstId searchId scored now).map fun row =>
      (row.searchId, row.candidateId)).Nodup := by
  rw [List.map_append, scoredRows_keys, hscored]
  apply List.nodup_append.mpr
  refine ⟨t.searchCandidateKey, ?_, ?_⟩
  · apply h.map
    intro c c' heq
    exact (Prod.mk.inj heq).2
  · intro key hkey key' hkey' heq
    rcases List.mem_map.mp hkey with ⟨row, hrow, rfl⟩
    rcases List.mem_map.mp hkey' with ⟨c, -, rfl⟩
    exact ht row hrow (Prod.mk.inj heq).1

/-- **The scan finds exactly the best candidates**, in any order of the map. -/
theorem top_k_exact [IsStrictOrderedRing K] (sqrt : K → K) (ranking : Ranking K)
    (rows : List (TemplateRow K)) (probe : List K) (k : Nat) :
    ExactTopK sqrt rows probe k (topKMatches sqrt ranking rows probe k) := by
  have hfound : topKMatches sqrt ranking rows probe k =
      (ranking.run (scanned sqrt rows probe)).take k := rfl
  have hperm := ranking.perm (scanned sqrt rows probe)
  have hsorted := ranking.sorted (scanned sqrt rows probe)
  have hdistinct : ((topKMatches sqrt ranking rows probe k).map Prod.fst).Nodup := by
    rw [hfound]
    have hall := (hperm.map Prod.fst).nodup_iff.mpr nodup_keys_scanned
    exact hall.sublist ((List.take_sublist k _).map Prod.fst)
  constructor
  · exact hdistinct
  · rintro ⟨c, y⟩ he
    rw [hfound] at he
    rcases mem_scanned.mp (hperm.mem_iff.mp (List.mem_of_mem_take he)) with ⟨x, hx, rfl⟩
    have hrange : -1 ≤ x ∧ x ≤ 1 := by
      rcases hx.1 with ⟨row, -, -, rfl⟩
      exact cosineSimilarity_mem _ _
    exact ⟨x, hx, rfl, hrange.1, hrange.2⟩
  · rw [hfound]
    exact hsorted.sublist (List.take_sublist k _)
  · rw [hfound, List.length_take, hperm.length_eq, length_scanned]
  · intro c x hx hout e he
    rw [hfound] at hout he
    apply not_lt.mp
    intro hlt
    -- whatever scores more than a match of the first `k` is one of them
    have hmem : (c, (x : WithTop K)) ∈ ranking.run (scanned sqrt rows probe) :=
      hperm.mem_iff.mpr (mem_scanned.mpr ⟨x, hx, rfl⟩)
    have htake := TopK.mem_take_of_lt hsorted he hlt hmem
    exact hout (List.mem_map_of_mem (f := Prod.fst) htake)
  · intro t firstId searchId scored now ht hscored
    exact oneRowEach_of_nodup hdistinct ht hscored

theorem top_k_exact_sample :
    ExactTopK Real.sqrt [sampleTemplate true] sampleEmbedding 5
      (topKMatches Real.sqrt (Select.Arrangement.descending Prod.snd) [sampleTemplate true]
        sampleEmbedding 5) :=
  top_k_exact Real.sqrt (Select.Arrangement.descending Prod.snd) [sampleTemplate true]
    sampleEmbedding 5

/-! ## A photograph that is enrolled -/

section Enrolled

variable {K : Type} [Field K] [LinearOrder K] [IsStrictOrderedRing K] {sqrt : K → K}
  {rows : List (TemplateRow K)} {row : TemplateRow K} {probe : List K}

theorem sizable_pos {v : List K} (hv : Sizable sqrt v) : 0 < norm sqrt v := by
  have htiny : (0 : K) < negligible := by
    unfold negligible
    positivity
  exact htiny.trans hv

/-- A vector is as similar to itself as can be. -/
theorem cosineSimilarity_self (hsqrt : IsSqrt sqrt) (hprobe : Sizable sqrt probe) :
    cosineSimilarity sqrt probe probe = 1 := by
  have hpos := sizable_pos hprobe
  have hdot : dot probe probe = norm sqrt probe * norm sqrt probe := by
    have hsquares : List.zipWith (· * ·) probe probe = probe.map (· ^ 2) := by
      rw [List.zipWith_self]
      exact List.map_congr_left fun x _ => (sq x).symm
    unfold dot
    rw [hsquares, ← (norm_spec hsqrt probe).2, sq]
  have hnonempty : probe ≠ [] := by
    rintro rfl
    have hzero := (norm_spec hsqrt ([] : List K)).2
    rw [List.map_nil, List.sum_nil] at hzero
    exact hpos.ne' (pow_eq_zero_iff two_ne_zero |>.mp hzero)
  unfold cosineSimilarity
  rw [if_neg (not_or.mpr ⟨not_not.mpr rfl, hnonempty⟩),
    if_neg (not_or.mpr ⟨not_le.mpr hprobe, not_le.mpr hprobe⟩), hdot,
    div_self (mul_pos hpos hpos).ne', min_self]
  exact max_eq_right (by linarith [zero_le_one (α := K)])

/-- The scan scores the candidate one. -/
theorem mem_scanned_self (hsqrt : IsSqrt sqrt) (hrow : row ∈ rows)
    (hembedding : row.embeddingVec = probe) (hprobe : Sizable sqrt probe) :
    (row.candidateId, (1 : WithTop K)) ∈ scanned sqrt rows probe := by
  have hbest : Scores sqrt rows probe row.candidateId 1 := by
    constructor
    · refine ⟨row, hrow, rfl, ?_⟩
      show cosineSimilarity sqrt row.embeddingVec probe = 1
      rw [hembedding, cosineSimilarity_self hsqrt hprobe]
    · intro other _ _
      exact (cosineSimilarity_mem _ _).2
  exact mem_scanned.mpr ⟨1, hbest, WithTop.coe_one⟩

theorem scanned_le_one {e : CandidateMatch K} (he : e ∈ scanned sqrt rows probe) : e.2 ≤ 1 := by
  rcases e with ⟨c, y⟩
  rcases mem_scanned.mp he with ⟨x, ⟨⟨other, -, -, hx⟩, -⟩, rfl⟩
  have hle : x ≤ 1 := by
    rw [← hx]
    exact (cosineSimilarity_mem other.embeddingVec probe).2
  show (x : WithTop K) ≤ 1
  exact_mod_cast hle

/-- No vector is closer than the same one. -/
theorem cosineDistance_nonneg (hsqrt : IsSqrt sqrt) {v : List K} (hlength : v.length = probe.length)
    (hprobe : Sizable sqrt probe) : 0 ≤ cosineDistance sqrt v probe := by
  unfold cosineDistance
  split_ifs with hzero
  · exact le_top
  · rw [not_or] at hzero
    have hpos : 0 < norm sqrt v := (norm_spec hsqrt v).1.lt_of_ne' hzero.1
    have hcosine := (abs_le.mp (abs_cosine_le_one hsqrt hlength hpos (sizable_pos hprobe))).2
    exact_mod_cast sub_nonneg.mpr hcosine

/-- So does the index, where the template has its vector. -/
theorem mem_indexed_self (hsqrt : IsSqrt sqrt) (hrow : row ∈ rows)
    (hvector : row.embeddingVector = some probe) (hlength : probe.length = embeddingDim)
    (hrows : ∀ other ∈ rows, ∀ v, other.embeddingVector = some v → v.length = embeddingDim)
    (hprobe : Sizable sqrt probe) :
    (row.candidateId, (1 : WithTop K)) ∈ indexed sqrt rows probe := by
  have hself : cosineDistance sqrt probe probe = ((0 : K) : WithTop K) := by
    rw [cosineDistance_eq hsqrt hlength hlength hprobe hprobe, cosineSimilarity_self hsqrt hprobe,
      sub_self]
  have hnearest : Nearest sqrt rows probe row.candidateId ((0 : K) : WithTop K) := by
    constructor
    · exact ⟨row, hrow, rfl, probe, hvector, hself⟩
    · intro other hother _ v hv
      rw [WithTop.coe_zero]
      exact cosineDistance_nonneg hsqrt ((hrows other hother v hv).trans hlength.symm) hprobe
  refine mem_indexed.mpr ⟨_, hnearest, ?_⟩
  rw [← WithTop.coe_one, similarityOf_eq_coe, sub_self]

/-- A vector that is not zero has a distance, and a similarity of at most one. -/
theorem indexed_le_one (hsqrt : IsSqrt sqrt) (hlength : probe.length = embeddingDim)
    (hrows : ∀ other ∈ rows, ∀ v, other.embeddingVector = some v →
      v.length = embeddingDim ∧ norm sqrt v ≠ 0)
    (hprobe : Sizable sqrt probe) {e : CandidateMatch K} (he : e ∈ indexed sqrt rows probe) :
    e.2 ≤ 1 := by
  rcases e with ⟨c, y⟩
  rcases mem_indexed.mp he with ⟨d, ⟨⟨other, hother, -, v, hv, hd⟩, -⟩, rfl⟩
  rcases hrows other hother v hv with ⟨hlength', hne⟩
  have hnonneg := cosineDistance_nonneg hsqrt (hlength'.trans hlength.symm) hprobe
  have hnumber : ∃ x : K, cosineDistance sqrt v probe = x := by
    unfold cosineDistance
    rw [if_neg (not_or.mpr ⟨hne, (sizable_pos hprobe).ne'⟩)]
    exact ⟨_, rfl⟩
  rcases hnumber with ⟨x, hx⟩
  rw [hx] at hnonneg
  have hx' : 0 ≤ x := by exact_mod_cast hnonneg
  have hle : 1 - x ≤ 1 := by linarith
  rw [← hd, hx]
  show ((1 - x : K) : WithTop K) ≤ 1
  exact_mod_cast hle

/-- What is relied on where the index is used: the template has its vector, and no vector is
zero. -/
structure Indexed (sqrt : K → K) (rows : List (TemplateRow K)) (row : TemplateRow K)
    (probe : List K) : Prop where
  vector : row.embeddingVector = some probe
  nonzero : ∀ other ∈ rows, ∀ v, other.embeddingVector = some v → norm sqrt v ≠ 0

end Enrolled

end AnatoliaBis.Biometric
