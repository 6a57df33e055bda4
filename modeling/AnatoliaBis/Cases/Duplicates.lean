import AnatoliaBis.Cases.ReadIsolation

/-! # Possible duplicates

What `entity_resolution::find_possible_duplicates` reports of a candidate: every other
candidate for which a signal fires, with the signals that do. A signal compares two
candidates, and but for the similarity of the names it does so the same way from both sides.
-/

namespace AnatoliaBis.Cases

open Atomic Program
open Auth (Env)

/-! ## Signals -/

/-- A value of both lists. -/
def Shared (values values' : List String) : Prop := ∃ value ∈ values, value ∈ values'

/-- The signal fires for the candidates `a` and `b`. -/
inductive Fires (d : Deployment) (s : Casebook) (threshold : Rat) (a b : App.CandidateRow) :
    String → Prop
  | nameSimilarity
      (h : threshold ≤ d.jaroWinkler (normalize d a.fullName) (normalize d b.fullName)) :
      Fires d s threshold a b "name_similarity"
  | sharedEvidenceUrl (h : Shared (s.signals d a.id.text).urls (s.signals d b.id.text).urls) :
      Fires d s threshold a b "shared_evidence_url"
  | sharedAlias (h : Shared (s.signals d a.id.text).aliases (s.signals d b.id.text).aliases) :
      Fires d s threshold a b "shared_alias"
  | sharedUsername
      (h : Shared (s.signals d a.id.text).usernames (s.signals d b.id.text).usernames) :
      Fires d s threshold a b "shared_username"
  | sharedOrganization
      (h : Shared (s.signals d a.id.text).organizations (s.signals d b.id.text).organizations) :
      Fires d s threshold a b "shared_organization"

section Signals

variable {d : Deployment} {s : Casebook} {threshold similarity : Rat} {a b : App.CandidateRow}
  {target other : Signals} {signal candidateId : String}

theorem Shared.symm {values values' : List String} (h : Shared values values') :
    Shared values' values := by
  rcases h with ⟨value, hmem, hmem'⟩
  exact ⟨value, hmem', hmem⟩

theorem any_contains {values values' : List String} :
    values.any values'.contains = true ↔ Shared values values' := by
  unfold Shared
  simp only [List.any_eq_true, List.contains_iff_mem]

/-- From the other side. -/
theorem Fires.symm (hsymm : ∀ x y, d.jaroWinkler x y = d.jaroWinkler y x)
    (h : Fires d s threshold a b signal) : Fires d s threshold b a signal := by
  cases h with
  | nameSimilarity h => exact .nameSimilarity (hsymm _ _ ▸ h)
  | sharedEvidenceUrl h => exact .sharedEvidenceUrl h.symm
  | sharedAlias h => exact .sharedAlias h.symm
  | sharedUsername h => exact .sharedUsername h.symm
  | sharedOrganization h => exact .sharedOrganization h.symm

theorem mem_matchedSignals :
    signal ∈ matchedSignals threshold
        (d.jaroWinkler (normalize d a.fullName) (normalize d b.fullName))
        (s.signals d a.id.text) (s.signals d b.id.text) ↔
      Fires d s threshold a b signal := by
  unfold matchedSignals
  simp only [any_contains, List.mem_append, List.mem_ite_nil_right, List.mem_singleton]
  constructor
  · rintro ((((⟨h, rfl⟩ | ⟨h, rfl⟩) | ⟨h, rfl⟩) | ⟨h, rfl⟩) | ⟨h, rfl⟩)
    · exact .nameSimilarity h
    · exact .sharedEvidenceUrl h.symm
    · exact .sharedAlias h
    · exact .sharedUsername h
    · exact .sharedOrganization h
  · intro h
    cases h with
    | nameSimilarity h => simp [h]
    | sharedEvidenceUrl h => simp [h.symm]
    | sharedAlias h => simp [h]
    | sharedUsername h => simp [h]
    | sharedOrganization h => simp [h]

/-- No signal is listed twice. -/
theorem nodup_matchedSignals : (matchedSignals threshold similarity target other).Nodup := by
  have hall : (["name_similarity"] ++ ["shared_evidence_url"] ++ ["shared_alias"] ++
      ["shared_username"] ++ ["shared_organization"]).Nodup := by decide
  refine hall.sublist ?_
  have hpart (p : Prop) [Decidable p] (signal : String) :
      (if p then [signal] else []).Sublist [signal] := by
    split_ifs
    · exact List.Sublist.refl _
    · exact List.nil_sublist _
  unfold matchedSignals
  exact ((((hpart _ _).append (hpart _ _)).append (hpart _ _)).append (hpart _ _)).append (hpart _ _)

/-- However a path names the candidate, its signals are looked up by its id. -/
theorem signals_of_candidateAt (h : s.candidateAt d candidateId = some a) :
    s.signals d candidateId = s.signals d a.id.text := by
  rcases Option.bind_eq_some_iff.mp h with ⟨key, hkey, hfound⟩
  have hid := List.find?_some hfound
  have hsame : d.key candidateId = d.key a.id.text := by
    unfold Auth.Platform.key at hkey ⊢
    cases hbackend : d.backend with
    | postgres =>
        rw [hbackend] at hkey
        rcases Option.map_eq_some_iff.mp hkey with ⟨u, hparse, rfl⟩
        have hu : a.id = u := by simpa [Auth.Key.isId] using hid
        dsimp only
        rw [hparse, hu, Uuid.parseStr_text (Uuid.parseStr_lt hparse)]
    | sqlite =>
        rw [hbackend] at hkey
        rcases Option.some.inj hkey with rfl
        have hu : a.id.text = candidateId := by simpa [Auth.Key.isId] using hid
        rw [hu]
  unfold Casebook.signals Casebook.valuesOf Casebook.evidenceOf Casebook.relationsOf
  rw [hsame]

end Signals

/-! ## What is reported -/

/-- What the function reports for the candidate of a path. -/
structure Reported (d : Deployment) (s : Casebook) (threshold : Rat) (target : App.CandidateRow)
    (duplicates : List PossibleDuplicate) : Prop where
  /-- Exactly the other candidates for which a signal fires, -/
  complete : ∀ other, other ∈ duplicates.map (·.candidate) ↔
    other ∈ s.app.candidates ∧ other.id ≠ target.id ∧
      ∃ signal, Fires d s threshold target other signal
  /-- each of them once, -/
  distinct : (duplicates.map (·.candidate.id)).Nodup
  /-- with exactly the signals that do, -/
  signals : ∀ m ∈ duplicates, m.matchedSignals.Nodup ∧
    ∀ signal, signal ∈ m.matchedSignals ↔ Fires d s threshold target m.candidate signal
  similarity : ∀ m ∈ duplicates, m.nameSimilarity =
    d.jaroWinkler (normalize d target.fullName) (normalize d m.candidate.fullName)
  /-- the most similar names first. -/
  sorted : duplicates.Pairwise fun m m' => m'.nameSimilarity ≤ m.nameSimilarity

section Reports

variable {d : Deployment} {s : Casebook} {threshold : Rat} {a b target : App.CandidateRow}
  {candidateId : String}

/-- What is reported of one candidate. -/
theorem duplicateWithin_eq_some (htarget : s.candidateAt d candidateId = some target)
    {m : PossibleDuplicate} (h : s.duplicateWithin d threshold candidateId target b = some m) :
    b.id ≠ target.id ∧ m.candidate = b ∧
      m.nameSimilarity = d.jaroWinkler (normalize d target.fullName) (normalize d b.fullName) ∧
      m.matchedSignals.Nodup ∧ m.matchedSignals ≠ [] ∧
      ∀ signal, signal ∈ m.matchedSignals ↔ Fires d s threshold target b signal := by
  unfold Casebook.duplicateWithin at h
  split_ifs at h with hid
  unfold compareCandidate at h
  rw [signals_of_candidateAt htarget] at h
  dsimp only at h
  split_ifs at h with hnone
  rcases Option.some.inj h with rfl
  exact ⟨hid, rfl, rfl, nodup_matchedSignals, hnone, fun signal => mem_matchedSignals⟩

theorem duplicateWithin_eq_none (htarget : s.candidateAt d candidateId = some target)
    (h : s.duplicateWithin d threshold candidateId target b = none) (hid : b.id ≠ target.id)
    (signal : String) : ¬ Fires d s threshold target b signal := by
  unfold Casebook.duplicateWithin at h
  rw [if_neg hid] at h
  unfold compareCandidate at h
  rw [signals_of_candidateAt htarget] at h
  dsimp only at h
  split_ifs at h with hnone
  rw [← mem_matchedSignals, hnone]
  exact List.not_mem_nil

/-- What is left of a list comes in its order. -/
theorem map_filterMap_sublist {α β γ : Type} {f : α → Option β} {g : β → γ} {h : α → γ}
    (hf : ∀ a b, f a = some b → g b = h a) (l : List α) :
    ((l.filterMap f).map g).Sublist (l.map h) := by
  induction l with
  | nil => exact List.Sublist.refl _
  | cons a l ih =>
      cases hfound : f a with
      | none =>
          rw [List.filterMap_cons_none hfound]
          exact ih.cons _
      | some b =>
          rw [List.filterMap_cons_some hfound, List.map_cons, List.map_cons, hf a b hfound]
          exact ih.cons_cons _

theorem reported (hids : (s.app.candidates.map (·.id)).Nodup)
    (htarget : s.candidateAt d candidateId = some target) (threshold : Rat) :
    Reported d s threshold target
      (((s.app.candidates.mergeSort fun a b =>
        d.textLe a.referenceCode b.referenceCode).filterMap
          (s.duplicateWithin d threshold candidateId target)).mergeSort fun a b =>
            decide (b.nameSimilarity ≤ a.nameSimilarity)) := by
  have hperm := List.mergeSort_perm ((s.app.candidates.mergeSort fun a b =>
    d.textLe a.referenceCode b.referenceCode).filterMap
      (s.duplicateWithin d threshold candidateId target)) fun a b =>
        decide (b.nameSimilarity ≤ a.nameSimilarity)
  have hmem {m : PossibleDuplicate} : m ∈ (((s.app.candidates.mergeSort fun a b =>
        d.textLe a.referenceCode b.referenceCode).filterMap
          (s.duplicateWithin d threshold candidateId target)).mergeSort fun a b =>
            decide (b.nameSimilarity ≤ a.nameSimilarity)) ↔
      ∃ other ∈ s.app.candidates,
        s.duplicateWithin d threshold candidateId target other = some m := by
    rw [hperm.mem_iff, List.mem_filterMap]
    simp only [List.mem_mergeSort]
  constructor
  · intro other
    rw [List.mem_map]
    constructor
    · rintro ⟨m, hm, rfl⟩
      rcases hmem.mp hm with ⟨source, hsource, hfound⟩
      rcases duplicateWithin_eq_some htarget hfound with ⟨hid, rfl, -, -, hsome, hsignals⟩
      rcases List.exists_mem_of_ne_nil _ hsome with ⟨signal, hsignal⟩
      exact ⟨hsource, hid, signal, (hsignals signal).mp hsignal⟩
    · rintro ⟨hother, hid, signal, hfires⟩
      cases hfound : s.duplicateWithin d threshold candidateId target other with
      | none => exact absurd hfires (duplicateWithin_eq_none htarget hfound hid signal)
      | some m =>
          exact ⟨m, hmem.mpr ⟨other, hother, hfound⟩, (duplicateWithin_eq_some htarget hfound).2.1⟩
  · have hsublist := map_filterMap_sublist (f := s.duplicateWithin d threshold candidateId target)
      (g := fun m => m.candidate.id) (h := (·.id)) (fun other m hfound =>
        congrArg (·.id) (duplicateWithin_eq_some htarget hfound).2.1)
      (s.app.candidates.mergeSort fun a b => d.textLe a.referenceCode b.referenceCode)
    have hsorted := ((List.mergeSort_perm s.app.candidates fun a b =>
      d.textLe a.referenceCode b.referenceCode).map (·.id)).nodup_iff.mpr hids
    exact (hperm.map _).nodup_iff.mpr (hsorted.sublist hsublist)
  · intro m hm
    rcases hmem.mp hm with ⟨source, hsource, hfound⟩
    rcases duplicateWithin_eq_some htarget hfound with ⟨-, rfl, -, hnodup, -, hsignals⟩
    exact ⟨hnodup, hsignals⟩
  · intro m hm
    rcases hmem.mp hm with ⟨source, hsource, hfound⟩
    rcases duplicateWithin_eq_some htarget hfound with ⟨-, rfl, hsimilarity, -⟩
    exact hsimilarity
  · let le (a b : PossibleDuplicate) : Bool := decide (b.nameSimilarity ≤ a.nameSimilarity)
    have htrans : ∀ m₁ m₂ m₃, le m₁ m₂ → le m₂ m₃ → le m₁ m₃ := by
      intro m₁ m₂ m₃ h₁ h₂
      exact decide_eq_true ((of_decide_eq_true h₂).trans (of_decide_eq_true h₁))
    have htotal : ∀ m₁ m₂, le m₁ m₂ || le m₂ m₁ := by
      intro m₁ m₂
      rw [Bool.or_eq_true, decide_eq_true_eq, decide_eq_true_eq]
      exact le_total _ _
    have hsorted := List.pairwise_mergeSort htrans htotal ((s.app.candidates.mergeSort fun a b =>
      d.textLe a.referenceCode b.referenceCode).filterMap
        (s.duplicateWithin d threshold candidateId target))
    exact hsorted.imp fun h => of_decide_eq_true h

/-- Another candidate is reported with a set of signals. -/
theorem Reported.with_signals {duplicates : List PossibleDuplicate}
    (h : Reported d s threshold target duplicates) (signals : Set String) :
    (∃ m ∈ duplicates, m.candidate = b ∧ {x | x ∈ m.matchedSignals} = signals) ↔
      b ∈ s.app.candidates ∧ b.id ≠ target.id ∧ signals.Nonempty ∧
        signals = {x | Fires d s threshold target b x} := by
  constructor
  · rintro ⟨m, hm, rfl, rfl⟩
    rcases (h.complete m.candidate).mp (List.mem_map_of_mem hm) with ⟨hmem, hid, signal, hfires⟩
    have hsignals := (h.signals m hm).2
    exact ⟨hmem, hid, ⟨signal, (hsignals signal).mpr hfires⟩, Set.ext hsignals⟩
  · rintro ⟨hmem, hid, ⟨signal, hsignal⟩, rfl⟩
    rcases List.mem_map.mp ((h.complete b).mpr ⟨hmem, hid, signal, hsignal⟩) with ⟨m, hm, rfl⟩
    exact ⟨m, hm, rfl, Set.ext (h.signals m hm).2⟩

/-- **Possible duplicates are complete, sound and symmetric.** -/
theorem possible_duplicates (d : Deployment) (s : Casebook) (threshold : Rat)
    (hids : (s.app.candidates.map (·.id)).Nodup) {candidateId : String}
    {target : App.CandidateRow} (htarget : s.candidateAt d candidateId = some target)
    {ω : Nat → Env} (hω : ∀ n, (ω n).fails = false) :
    ∃ duplicates, (findPossibleDuplicates d candidateId threshold).run (exec d) ω s =
        (.ok duplicates, s) ∧ Reported d s threshold target duplicates ∧
      ((∀ x y, d.jaroWinkler x y = d.jaroWinkler y x) →
        ∀ otherId other ω', s.candidateAt d otherId = some other → (∀ n, (ω' n).fails = false) →
          ∃ duplicates', (findPossibleDuplicates d otherId threshold).run (exec d) ω' s =
              (.ok duplicates', s) ∧
            ∀ signals : Set String,
              (∃ m ∈ duplicates, m.candidate = other ∧ {x | x ∈ m.matchedSignals} = signals) ↔
                ∃ m ∈ duplicates',
                  m.candidate = target ∧ {x | x ∈ m.matchedSignals} = signals) := by
  refine ⟨_, (reads_findPossibleDuplicates htarget threshold).run hω,
    reported hids htarget threshold, ?_⟩
  intro hsymm otherId other ω' hother hω'
  refine ⟨_, (reads_findPossibleDuplicates hother threshold).run hω', fun signals => ?_⟩
  have hfires : {x | Fires d s threshold target other x} =
      {x | Fires d s threshold other target x} :=
    Set.ext fun x => ⟨Fires.symm hsymm, Fires.symm hsymm⟩
  rw [(reported hids htarget threshold).with_signals,
    (reported hids hother threshold).with_signals, hfires]
  have htargetMem := mem_of_candidateAt htarget
  have hotherMem := mem_of_candidateAt hother
  constructor
  · rintro ⟨-, hne, hsignals⟩
    exact ⟨htargetMem, hne.symm, hsignals⟩
  · rintro ⟨-, hne, hsignals⟩
    exact ⟨hotherMem, hne.symm, hsignals⟩

/-- Two candidates of one name. -/
def sampleNamesakes : Casebook :=
  { sampleCasebook with app := { sampleCasebook.app with
    candidates := [⟨0xab, "C-1", "Ada Demir", none, none⟩,
      ⟨0xcd, "C-2", "ada  demir", none, none⟩] } }

theorem possible_duplicates_sample :
    ∃ duplicates, (findPossibleDuplicates (sampleDeployment .sqlite) (Uuid.text 0xab)
        defaultNameSimilarityThreshold).run (exec (sampleDeployment .sqlite)) (fun _ => calm)
          sampleNamesakes = (.ok duplicates, sampleNamesakes) ∧
      Reported (sampleDeployment .sqlite) sampleNamesakes defaultNameSimilarityThreshold
        ⟨0xab, "C-1", "Ada Demir", none, none⟩ duplicates := by
  have htarget : sampleNamesakes.candidateAt (sampleDeployment .sqlite) (Uuid.text 0xab) =
      some ⟨0xab, "C-1", "Ada Demir", none, none⟩ := by
    decide +kernel
  let ω : Nat → Env := fun _ => calm
  have hω : ∀ n, (ω n).fails = false := fun _ => rfl
  rcases possible_duplicates (sampleDeployment .sqlite) sampleNamesakes
    defaultNameSimilarityThreshold (by decide) htarget hω with ⟨duplicates, hrun, hreported, -⟩
  exact ⟨duplicates, hrun, hreported⟩

end Reports

end AnatoliaBis.Cases
