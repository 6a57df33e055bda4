import AnatoliaBis.Cases.Candidates
import AnatoliaBis.Lib.Dedup
import AnatoliaBis.Lib.Runs

/-! # Collected evidence is kept once

The keys of what a candidate has are read once, and every item that is tried adds its own,
whether it can be stored or not. So a run stores no key twice, and where no insert fails it
stores all of them.
-/

namespace AnatoliaBis.Cases

open Atomic Program Dedup
open Auth (Env)

/-! ## Keys -/

/-- What an item is known by. -/
def EvidenceItem.seenKey (item : EvidenceItem) : String × String :=
  (item.providerName, dedupeKey item.url item.title)

/-- What a row is known by. -/
def EvidenceRow.seenKey (row : EvidenceRow) : String × String :=
  (row.providerName, dedupeKey row.url row.title)

/-- The row is of the item, for the candidate. -/
def Stores (candidateId : Uuid) (collectedBy : Option Uuid) (item : EvidenceItem)
    (row : EvidenceRow) : Prop :=
  ∃ id now, row = item.row id candidateId collectedBy now

/-- The evidence of a candidate. -/
def Casebook.rowsOf (s : Casebook) (candidateId : Uuid) : List EvidenceRow :=
  s.evidence.filter fun row => row.candidateId == candidateId

/-- The items of the providers that did not fail. -/
def collectedItems (outcomes : List ProviderOutcome) : List EvidenceItem :=
  (outcomes.filter fun outcome => outcome.error.isNone).flatMap (·.items)

section Keys

variable {c : Uuid} {collectedBy : Option Uuid} {item : EvidenceItem} {row : EvidenceRow}
  {outcomes : List ProviderOutcome}

theorem Stores.seenKey (h : Stores c collectedBy item row) : row.seenKey = item.seenKey := by
  rcases h with ⟨id, now, rfl⟩
  rfl

theorem Stores.candidateId (h : Stores c collectedBy item row) : row.candidateId = c := by
  rcases h with ⟨id, now, rfl⟩
  rfl

theorem mem_collectedItems :
    item ∈ collectedItems outcomes ↔
      ∃ outcome ∈ outcomes, outcome.error = none ∧ item ∈ outcome.items := by
  unfold collectedItems
  simp only [List.mem_flatMap, List.mem_filter, Option.isNone_iff_eq_none, and_assoc]

theorem mem_rowsOf {s : Casebook} : row ∈ s.rowsOf c ↔ row ∈ s.evidence ∧ row.candidateId = c := by
  unfold Casebook.rowsOf
  rw [List.mem_filter, beq_iff_eq]

end Keys

/-! ## One insert -/

/-- An insert of evidence that fails. -/
def FailedInsert (d : Deployment) (ev : Step) : Prop :=
  ∃ id candidateId item collectedBy err,
    ev.op = .db (.insertEvidenceRow id candidateId item collectedBy) ∧
      (exec d (.db (.insertEvidenceRow id candidateId item collectedBy)) ev.env ev.before).2 =
        .error err

/-- Every insert succeeds. -/
def NoneFailed (d : Deployment) (evs : List Step) : Prop := ∀ ev ∈ evs, ¬ FailedInsert d ev

/-- An operation that inserts no evidence. -/
def Op.KeepsEvidence : Op → Prop
  | .db (.insertEvidenceRow ..) => False
  | _ => True

section Insert

variable {d : Deployment} {c : Uuid} {collectedBy : Option Uuid} {item : EvidenceItem}
  {s : Casebook} {evs evs' : List Step}

theorem noneFailed_append :
    NoneFailed d (evs ++ evs') ↔ NoneFailed d evs ∧ NoneFailed d evs' := by
  unfold NoneFailed
  simp only [List.mem_append, or_imp, forall_and]

theorem exec_evidence (op : Op) (e : Env) (s : Casebook) (hop : op.KeepsEvidence) :
    (exec d op e s).1.evidence = s.evidence := by
  cases op with
  | db q =>
      cases hfails : e.fails with
      | true => rw [exec_db_of_fails hfails]
      | false =>
          cases hq : q.perform d e.now s with
          | error err => rw [exec_db_of_error hfails hq]
          | ok r =>
              rw [exec_db_of_ok hfails hq]
              cases q with
              | insertEvidenceRow id candidateId item collectedBy => exact hop.elim
              | finalizeQueuedSearch searchId scored =>
                  simp only [Query.perform, Casebook.finalize] at hq
                  split at hq
                  · cases hq
                  · split at hq
                    · cases hq
                    · cases hq
                      rfl
              | insertRelation id candidateId relationType value evidenceId addedBy =>
                  simp only [Query.perform] at hq
                  split_ifs at hq
                  cases hq
                  rfl
              | _ =>
                  cases hq
                  rfl
  | _ => rfl

/-- A candidate's id is one that the database knows it by. -/
theorem exists_key (d : Deployment) (hc : c < 16 ^ 32) :
    ∃ key, d.key c.text = some key ∧ ∀ u, key.isId u = (u == c) := by
  unfold Auth.Platform.key
  cases d.backend with
  | postgres =>
      rw [Uuid.parseStr_text hc]
      exact ⟨_, rfl, fun u => rfl⟩
  | sqlite =>
      refine ⟨_, rfl, fun u => ?_⟩
      rw [Bool.eq_iff_iff, beq_iff_eq]
      unfold Auth.Key.isId
      rw [beq_iff_eq]
      exact Uuid.text_injective.eq_iff

/-- The row of the item is in the table, or an insert failed. -/
def Inserted (d : Deployment) (c : Uuid) (collectedBy : Option Uuid) (item : EvidenceItem)
    (s : Casebook) (evs : List Step) (s' : Casebook) : Prop :=
  (s'.evidence = s.evidence ∧ ¬ NoneFailed d evs) ∨
    ∃ row, Stores c collectedBy item row ∧ s'.evidence = s.evidence ++ [row]

theorem Inserted.later {s' s'' : Casebook} (h : Inserted d c collectedBy item s evs s')
    (hsame : s''.evidence = s'.evidence) : Inserted d c collectedBy item s (evs ++ evs') s'' := by
  rcases h with ⟨hold, hfailed⟩ | ⟨row, hrow, hinsert⟩
  · exact Or.inl ⟨hsame.trans hold, fun h => hfailed (noneFailed_append.mp h).1⟩
  · exact Or.inr ⟨row, hrow, hsame.trans hinsert⟩

variable (d c item collectedBy) in
/-- The statement stores the row, or fails. -/
theorem exec_insert_cases (id : Uuid) (e : Env) (s : Casebook) :
    let q := Query.insertEvidenceRow id c item collectedBy
    (∃ err, exec d (.db q) e s = (s, .error err) ∧ FailedInsert d ⟨.db q, e, s, s⟩) ∨
      ∃ row, Stores c collectedBy item row ∧
        exec d (.db q) e s = ({ s with evidence := s.evidence ++ [row] }, .ok row) := by
  dsimp only
  have hfailed {err : App.QueryError} (hexec : exec d (.db (.insertEvidenceRow id c item
      collectedBy)) e s = (s, .error err)) :
      FailedInsert d ⟨.db (.insertEvidenceRow id c item collectedBy), e, s, s⟩ :=
    ⟨id, c, item, collectedBy, err, rfl, by rw [hexec]⟩
  cases hfails : e.fails with
  | true =>
      have hexec := exec_db_of_fails (d := d) (s := s)
        (q := .insertEvidenceRow id c item collectedBy) hfails
      exact Or.inl ⟨_, hexec, hfailed hexec⟩
  | false =>
      by_cases hrefers : d.backend = .postgres ∧ !s.hasCandidate c
      · have hexec := exec_db_of_error (d := d)
          (q := .insertEvidenceRow id c item collectedBy) hfails (if_pos hrefers)
        exact Or.inl ⟨_, hexec, hfailed hexec⟩
      · exact Or.inr ⟨_, ⟨id, d.now e.now, rfl⟩, exec_db_of_ok
          (q := .insertEvidenceRow id c item collectedBy) hfails (if_neg hrefers)⟩

/-- The same with the answer. -/
theorem insert_wp (id : Uuid) (s : Casebook) :
    (query (.insertEvidenceRow id c item collectedBy)).wp (exec d) (fun _ => True)
      (fun evs r s' => Inserted d c collectedBy item s evs s' ∧
        ((∃ err, r = .error err) ∨ ∃ row, r = .ok row)) s := by
  intro e _
  show Inserted d c collectedBy item s [⟨_, e, s, (exec d _ e s).1⟩] (exec d _ e s).1 ∧ _
  rcases exec_insert_cases d c collectedBy item id e s with
    ⟨err, hexec, hfailed⟩ | ⟨row, hrow, hexec⟩
  · rw [hexec]
    exact ⟨Or.inl ⟨rfl, fun hnone => hnone _ (List.mem_singleton_self _) hfailed⟩,
      Or.inl ⟨err, rfl⟩⟩
  · rw [hexec]
    exact ⟨Or.inr ⟨row, hrow, rfl⟩, Or.inr ⟨row, rfl⟩⟩

variable {α : Type} {R : α → Prop}

/-- What follows an insert leaves it. -/
theorem wp_later {h : Handler α} (hp : h.Performs (exec d) Op.KeepsEvidence R) {s' : Casebook}
    (hinserted : Inserted d c collectedBy item s evs s') :
    h.wp (exec d) (fun _ => True)
      (fun evs' _ s'' => Inserted d c collectedBy item s (evs ++ evs') s'') s' := by
  refine wp_mono ?_ (hp.wp_same (f := (·.evidence)) exec_evidence s')
  rintro evs' a s'' ⟨-, -, hsame⟩
  exact hinserted.later hsame

theorem performs_newId {f : Uuid → Handler α}
    (hf : ∀ id, (f id).Performs (exec d) Op.KeepsEvidence R) :
    (perform (.app (.auth .newId)) >>= f).Performs (exec d) Op.KeepsEvidence R :=
  ⟨trivial, fun _ _ => hf _⟩

theorem insertEvidenceRow_wp (hc : c < 16 ^ 32) (s : Casebook) :
    (insertEvidenceRow d c item collectedBy).wp (exec d) (fun _ => True)
      (fun evs _ s' => Inserted d c collectedBy item s evs s') s := by
  rcases exists_key d hc with ⟨key, hkey, -⟩
  unfold insertEvidenceRow
  rw [hkey]
  refine wp_bind_of (S := fun _ _ (s' : Casebook) => s'.evidence = s.evidence)
    (fun _ _ => rfl) ?_
  intro evs id s₁ hsame
  refine wp_bind_of (insert_wp id s₁) ?_
  rintro evs' r s₂ ⟨hinserted, hanswer⟩
  have hinserted' : Inserted d c collectedBy item s (evs ++ evs') s₂ := by
    rcases hinserted with ⟨hold, hfailed⟩ | ⟨row, hrow, hinsert⟩
    · exact Or.inl ⟨hold.trans hsame, fun h => hfailed (noneFailed_append.mp h).2⟩
    · exact Or.inr ⟨row, hrow, hsame ▸ hinsert⟩
  simp only [← List.append_assoc]
  rcases hanswer with ⟨err, rfl⟩ | ⟨row, rfl⟩
  · refine wp_later (R := fun _ => True) ?_ hinserted'
    trivial
  · refine wp_later (R := fun _ => True) ?_ hinserted'
    dsimp only
    cases d.backend with
    | postgres => trivial
    | sqlite => exact ⟨trivial, fun _ _ => trivial⟩

theorem insertRelation_performs (relationType value : String) (evidenceId addedBy : Option Uuid) :
    (insertRelation d c relationType value evidenceId addedBy).Performs (exec d) Op.KeepsEvidence
      fun _ => True := by
  unfold insertRelation
  cases d.key c.text with
  | none => trivial
  | some key =>
      refine performs_newId fun id => performs_query trivial fun r => ?_
      cases r with
      | error err => trivial
      | ok row =>
          dsimp only
          cases d.backend with
          | postgres => trivial
          | sqlite => exact ⟨trivial, fun _ _ => trivial⟩

theorem insertEvidence_wp (hc : c < 16 ^ 32) (s : Casebook) :
    (insertEvidence d c item collectedBy).wp (exec d) (fun _ => True)
      (fun evs _ s' => Inserted d c collectedBy item s evs s') s := by
  unfold insertEvidence andThen
  refine wp_bind_of (insertEvidenceRow_wp hc s) ?_
  intro evs r s' hinserted
  cases r with
  | error err =>
      refine wp_later (R := fun _ => True) ?_ hinserted
      trivial
  | ok row =>
      refine wp_later (R := fun _ => True) ?_ hinserted
      dsimp only
      split
      · exact (insertRelation_performs _ _ _ _).bind fun _ _ => trivial
      · trivial

end Insert

/-! ## A batch -/

section Batches

variable {d : Deployment} {c : Uuid} {collectedBy : Option Uuid} {items : List EvidenceItem}
  {outcomes : List ProviderOutcome} {seen : List (String × String)} {s : Casebook}

/-- What a batch of items has added to the table. -/
def Added (d : Deployment) (c : Uuid) (collectedBy : Option Uuid) (items : List EvidenceItem)
    (seen : List (String × String)) (s : Casebook) (evs : List Step) (s' : Casebook) : Prop :=
  ∃ rows, s'.evidence = s.evidence ++ rows ∧
    Batch EvidenceItem.seenKey EvidenceRow.seenKey (Stores c collectedBy) items seen rows
      (NoneFailed d evs)

theorem storeItems_wp (hc : c < 16 ^ 32) (collectedBy : Option Uuid) (items : List EvidenceItem)
    (seen : List (String × String)) (s : Casebook) :
    (storeItems d c collectedBy items seen).wp (exec d) (fun _ => True)
      (fun evs r s' => Added d c collectedBy items seen s evs s' ∧
        ∀ k, k ∈ r.2 ↔ k ∈ seen ∨ k ∈ items.map (·.seenKey)) s := by
  induction items generalizing seen s with
  | nil => exact ⟨⟨[], (List.append_nil _).symm, Batch.nil⟩, fun k => by simp⟩
  | cons item items ih =>
      unfold storeItems
      dsimp only
      split_ifs with hseen
      · refine wp_mono ?_ (ih seen s)
        rintro evs r s' ⟨⟨rows, hrows, hbatch⟩, hkeys⟩
        refine ⟨⟨rows, hrows, hbatch.skip hseen⟩, fun k => ?_⟩
        rw [hkeys, List.map_cons, List.mem_cons]
        constructor
        · exact Or.imp_right Or.inr
        · rintro (hk | rfl | hk)
          · exact Or.inl hk
          · exact Or.inl hseen
          · exact Or.inr hk
      · refine wp_bind_of (insertEvidence_wp hc s) ?_
        intro evs inserted s₁ hinserted
        refine wp_bind_of (ih (item.seenKey :: seen) s₁) ?_
        rintro evs' ⟨stored, seen'⟩ s₂ ⟨⟨rows, hrows, hbatch⟩, hkeys⟩
        have hadded : Added d c collectedBy (item :: items) seen s (evs ++ (evs' ++ [])) s₂ := by
          rw [List.append_nil]
          rcases hinserted with ⟨hsame, hfailed⟩ | ⟨row, hrow, hinsert⟩
          · exact ⟨rows, hsame ▸ hrows,
              hbatch.fail fun hnone => hfailed (noneFailed_append.mp hnone).1⟩
          · refine ⟨row :: rows, ?_, ?_⟩
            · rw [hrows, hinsert, List.append_assoc]
              rfl
            · exact (hbatch.store hrow hrow.seenKey hseen).mono
                fun hnone => (noneFailed_append.mp hnone).2
        have hseen' : ∀ k, k ∈ seen' ↔ k ∈ seen ∨ k ∈ (item :: items).map (·.seenKey) := by
          intro k
          rw [hkeys, List.mem_cons, List.map_cons, List.mem_cons]
          constructor
          · rintro ((hk | hk) | hk)
            · exact Or.inr (Or.inl hk)
            · exact Or.inl hk
            · exact Or.inr (Or.inr hk)
          · rintro (hk | hk | hk)
            · exact Or.inl (Or.inr hk)
            · exact Or.inl (Or.inl hk)
            · exact Or.inr hk
        dsimp only
        split
        · exact ⟨hadded, hseen'⟩
        · exact ⟨hadded, hseen'⟩

theorem storeOutcomes_wp (hc : c < 16 ^ 32) (collectedBy : Option Uuid)
    (outcomes : List ProviderOutcome) (seen : List (String × String)) (s : Casebook) :
    (storeOutcomes d c collectedBy outcomes seen).wp (exec d) (fun _ => True)
      (fun evs _ s' => Added d c collectedBy (collectedItems outcomes) seen s evs s') s := by
  induction outcomes generalizing seen s with
  | nil => exact ⟨[], (List.append_nil _).symm, Batch.nil⟩
  | cons outcome outcomes ih =>
      unfold storeOutcomes
      cases herror : outcome.error with
      | some error =>
          have hitems : collectedItems (outcome :: outcomes) = collectedItems outcomes := by
            unfold collectedItems
            rw [List.filter_cons_of_neg (by rw [herror]; nofun)]
          rw [hitems]
          refine wp_bind_of (ih seen s) ?_
          intro evs rest s' hadded
          rw [pure_eq_done, wp_done, List.append_nil]
          exact hadded
      | none =>
          have hitems : collectedItems (outcome :: outcomes) =
              outcome.items ++ collectedItems outcomes := by
            unfold collectedItems
            rw [List.filter_cons_of_pos (by rw [herror]; rfl), List.flatMap_cons]
          rw [hitems]
          refine wp_bind_of (storeItems_wp hc collectedBy outcome.items seen s) ?_
          rintro evs ⟨stored, seen'⟩ s₁ ⟨⟨rows, hrows, hbatch⟩, hkeys⟩
          refine wp_bind_of (ih seen' s₁) ?_
          rintro evs' rest s₂ ⟨rows', hrows', hbatch'⟩
          rw [pure_eq_done, wp_done, List.append_nil]
          refine ⟨rows ++ rows', ?_, ?_⟩
          · rw [hrows', hrows, List.append_assoc]
          · refine Batch.append (hbatch.mono ?_) (hbatch'.mono ?_) (fun _ _ => Stores.seenKey) hkeys
            · exact fun hnone => (noneFailed_append.mp hnone).1
            · exact fun hnone => (noneFailed_append.mp hnone).2

/-- Nothing is tried of what has been seen. -/
theorem storeItems_of_seen (h : ∀ item ∈ items, item.seenKey ∈ seen) :
    storeItems d c collectedBy items seen = .done ([], seen) := by
  induction items with
  | nil => rfl
  | cons item items ih =>
      have hseen : (item.providerName, dedupeKey item.url item.title) ∈ seen :=
        h item List.mem_cons_self
      unfold storeItems
      dsimp only
      rw [if_pos hseen]
      exact ih fun other hother => h other (List.mem_cons_of_mem _ hother)

variable (d c collectedBy) in
theorem storeOutcomes_of_seen (h : ∀ item ∈ collectedItems outcomes, item.seenKey ∈ seen) :
    ∃ errors, storeOutcomes d c collectedBy outcomes seen = .done ⟨[], errors⟩ := by
  induction outcomes with
  | nil => exact ⟨[], rfl⟩
  | cons outcome outcomes ih =>
      have hrest : ∀ item ∈ collectedItems outcomes, item.seenKey ∈ seen := by
        intro item hitem
        rcases mem_collectedItems.mp hitem with ⟨source, hsource, herror, hmem⟩
        exact h item (mem_collectedItems.mpr ⟨source, List.mem_cons_of_mem _ hsource, herror, hmem⟩)
      rcases ih hrest with ⟨errors, hdone⟩
      unfold storeOutcomes
      cases herror : outcome.error with
      | some error =>
          dsimp only
          rw [hdone]
          exact ⟨_, rfl⟩
      | none =>
          have hitems : ∀ item ∈ outcome.items, item.seenKey ∈ seen := fun item hitem =>
            h item (mem_collectedItems.mpr ⟨outcome, List.mem_cons_self, herror, hitem⟩)
          dsimp only
          rw [storeItems_of_seen hitems, done_bind, hdone]
          exact ⟨_, rfl⟩

end Batches

/-! ## Runs -/

/-- What `collect_and_store_candidate_evidence` is called with for a candidate. -/
structure Collection where
  collectedBy : Option Uuid
  outcomes : List ProviderOutcome

def Collection.handle (d : Deployment) (c : Uuid) (r : Collection) : Handler CollectedEvidence :=
  collectAndStoreCandidateEvidence d c r.collectedBy r.outcomes

section Runs

variable {d : Deployment} {c : Uuid} {s s₀ : Casebook} {ω : Nat → Env}

/-- The keys that a run starts with; none are known when the read fails. -/
def Casebook.knownKeys (s : Casebook) (c : Uuid) (e : Env) : List (String × String) :=
  if e.fails then [] else (newestFirst (·.createdAt) (s.rowsOf c)).map (·.seenKey)

theorem mem_knownKeys {e : Env} (he : e.fails = false) {k : String × String} :
    k ∈ s.knownKeys c e ↔ k ∈ (s.rowsOf c).map (·.seenKey) := by
  unfold Casebook.knownKeys newestFirst
  simp only [he, Bool.false_eq_true, if_false, List.mem_map, List.mem_mergeSort]

/-- After the read, the loop over the outcomes. -/
theorem run_collect (hc : c < 16 ^ 32) (r : Collection) (ω : Nat → Env) (s : Casebook) :
    (r.handle d c).run (exec d) ω s =
        (storeOutcomes d c r.collectedBy r.outcomes (s.knownKeys c (ω 0))).run (exec d)
          (fun n => ω (n + 1)) s ∧
      ∃ first : Step, ¬ FailedInsert d first ∧
        (r.handle d c).trace (exec d) ω s =
          first :: (storeOutcomes d c r.collectedBy r.outcomes (s.knownKeys c (ω 0))).trace (exec d)
            (fun n => ω (n + 1)) s := by
  rcases exists_key d hc with ⟨key, hkey, hisId⟩
  have hrows : s.evidence.filter (fun row => key.isId row.candidateId) = s.rowsOf c := by
    simp only [hisId]
    rfl
  have hcollect : r.handle d c = .call (.db (.listEvidenceForCandidate key)) fun answer =>
      storeOutcomes d c r.collectedBy r.outcomes
        ((match answer with
          | .ok rows => rows
          | .error _ => []).map EvidenceRow.seenKey) := by
    unfold Collection.handle collectAndStoreCandidateEvidence listEvidenceForCandidate
    rw [hkey]
    refine congrArg (Program.call (Op.db (.listEvidenceForCandidate key))) (funext fun answer => ?_)
    cases answer <;> rfl
  have hread : exec d (.db (.listEvidenceForCandidate key)) (ω 0) s =
      (s, if (ω 0).fails then .error .failed
        else .ok (newestFirst (·.createdAt) (s.rowsOf c))) := by
    cases hfails : (ω 0).fails with
    | true => exact exec_db_of_fails hfails
    | false =>
        refine exec_db_of_ok (q := .listEvidenceForCandidate key) hfails ?_
        rw [← hrows]
        rfl
  have hkeys : ((match (exec d (.db (.listEvidenceForCandidate key)) (ω 0) s).2 with
      | .ok rows => rows
      | .error _ => []).map EvidenceRow.seenKey) = s.knownKeys c (ω 0) := by
    rw [hread]
    unfold Casebook.knownKeys
    cases (ω 0).fails <;> rfl
  have hstore : (exec d (.db (.listEvidenceForCandidate key)) (ω 0) s).1 = s := by rw [hread]
  rw [hcollect, run_call, trace_call, hkeys, hstore]
  refine ⟨rfl, _, ?_, rfl⟩
  rintro ⟨id, candidateId, item, collectedBy, err, hop, -⟩
  cases hop

/-- What a run adds. -/
theorem collect_adds (hc : c < 16 ^ 32) (r : Collection) (ω : Nat → Env) (s : Casebook) :
    Added d c r.collectedBy (collectedItems r.outcomes) (s.knownKeys c (ω 0)) s
      ((r.handle d c).trace (exec d) ω s) ((r.handle d c).run (exec d) ω s).2 := by
  rcases run_collect (d := d) hc r ω s with ⟨hrun, first, hfirst, htrace⟩
  rcases wp_run (ω := fun n => ω (n + 1)) (storeOutcomes_wp (d := d) hc r.collectedBy r.outcomes
    (s.knownKeys c (ω 0)) s) fun _ => trivial with ⟨rows, hrows, hbatch⟩
  rw [hrun, htrace]
  refine ⟨rows, hrows, hbatch.mono fun hnone ev hev => ?_⟩
  exact hnone ev (List.mem_cons_of_mem _ hev)

/-- Nothing is stored again. -/
theorem collect_again (hc : c < 16 ^ 32) (r : Collection) (hread : (ω 0).fails = false)
    (hknown : ∀ item ∈ collectedItems r.outcomes, item.seenKey ∈ (s.rowsOf c).map (·.seenKey)) :
    ((r.handle d c).run (exec d) ω s).2 = s ∧ ((r.handle d c).run (exec d) ω s).1.stored = [] := by
  rcases storeOutcomes_of_seen d c r.collectedBy
    fun item hitem => (mem_knownKeys hread).mpr (hknown item hitem) with ⟨errors, hdone⟩
  rw [(run_collect hc r ω s).1, hdone]
  exact ⟨rfl, rfl⟩

/-- Evidence is only added. -/
theorem evidence_grows (hc : c < 16 ^ 32) (run : List (Visit Collection Env)) (s : Casebook) :
    s.evidence <+: (stateAfter (exec d) (Collection.handle d c) s run).evidence := by
  apply stateAfter_invariant (I := fun s' : Casebook => s.evidence <+: s'.evidence)
    (List.prefix_refl _)
  intro s' v _ hs'
  rcases collect_adds (d := d) hc v.request v.env s' with ⟨rows, hrows, -⟩
  refine hs'.trans ?_
  rw [Visit.after, hrows]
  exact List.prefix_append _ _

/-- The rows of the candidate after a run. -/
theorem rowsOf_append {s' : Casebook} {rows : List EvidenceRow}
    (hrows : s'.evidence = s.evidence ++ rows) (hof : ∀ row ∈ rows, row.candidateId = c) :
    s'.rowsOf c = s.rowsOf c ++ rows := by
  unfold Casebook.rowsOf
  rw [hrows, List.filter_append]
  congr 1
  rw [List.filter_eq_self]
  intro row hrow
  rw [hof row hrow, beq_self_eq_true]

/-- Where no insert failed, the keys of all items are known from then on. -/
theorem collect_complete (hc : c < 16 ^ 32) (r : Collection) (hread : (ω 0).fails = false)
    (hnone : NoneFailed d ((r.handle d c).trace (exec d) ω s)) :
    ∀ item ∈ collectedItems r.outcomes,
      item.seenKey ∈ (((r.handle d c).run (exec d) ω s).2.rowsOf c).map (·.seenKey) := by
  rcases collect_adds (d := d) hc r ω s with ⟨rows, hrows, hbatch⟩
  have hof : ∀ row ∈ rows, row.candidateId = c := by
    intro row hrow
    rcases hbatch.sound row hrow with ⟨item, -, hstores⟩
    exact hstores.candidateId
  intro item hitem
  rw [rowsOf_append hrows hof, List.map_append, List.mem_append]
  exact (hbatch.complete hnone item hitem).imp_left (mem_knownKeys hread).mp

/-- **Evidence is collected once and completely.** The candidate's id is a UUID. -/
theorem evidence_deduplicates (hc : c < 16 ^ 32) {run : List (Visit Collection Env)}
    (hstart : s₀.rowsOf c = []) (hread : ∀ v ∈ run, (v.env 0).fails = false) :
    (((stateAfter (exec d) (Collection.handle d c) s₀ run).rowsOf c).map (·.seenKey)).Nodup ∧
      ∀ before v later, run = before ++ v :: later →
        let s := stateAfter (exec d) (Collection.handle d c) s₀ before
        let s' := v.after (exec d) (Collection.handle d c) s
        (∃ rows, s'.evidence = s.evidence ++ rows ∧ ∀ row ∈ rows, ∃ outcome ∈ v.request.outcomes,
          outcome.error = none ∧ ∃ item ∈ outcome.items, Stores c v.request.collectedBy item row) ∧
        (NoneFailed d ((v.request.handle d c).trace (exec d) v.env s) →
          (∀ outcome ∈ v.request.outcomes, outcome.error = none → ∀ item ∈ outcome.items,
            ∃ row ∈ s'.rowsOf c, row.seenKey = item.seenKey) ∧
          ∀ collectedBy ω, (ω 0).fails = false →
            let final := stateAfter (exec d) (Collection.handle d c) s₀ run
            let again :=
              (Collection.handle d c ⟨collectedBy, v.request.outcomes⟩).run (exec d) ω final
            again.2 = final ∧ again.1.stored = []) := by
  constructor
  · refine stateAfter_invariant (I := fun s : Casebook => ((s.rowsOf c).map (·.seenKey)).Nodup) ?_ ?_
    · rw [hstart]
      exact List.nodup_nil
    · rintro s v ⟨before, later, rfl, -⟩ hs
      rcases collect_adds (d := d) hc v.request v.env s with ⟨rows, hrows, hbatch⟩
      have hof : ∀ row ∈ rows, row.candidateId = c := by
        intro row hrow
        rcases hbatch.sound row hrow with ⟨item, -, hstores⟩
        exact hstores.candidateId
      rw [Visit.after, rowsOf_append hrows hof]
      apply hbatch.nodup_append hs
      intro row hrow
      exact (mem_knownKeys (hread v (by simp))).mpr (List.mem_map_of_mem hrow)
  · rintro before v later rfl
    have hreadv : (v.env 0).fails = false := hread v (by simp)
    intro s s'
    rcases collect_adds (d := d) hc v.request v.env s with ⟨rows, hrows, hbatch⟩
    refine ⟨⟨rows, hrows, fun row hrow => ?_⟩, fun hnone => ?_⟩
    · rcases hbatch.sound row hrow with ⟨item, hitem, hstores⟩
      rcases mem_collectedItems.mp hitem with ⟨outcome, houtcome, herror, hmem⟩
      exact ⟨outcome, houtcome, herror, item, hmem, hstores⟩
    · have hknown := collect_complete hc v.request hreadv hnone
      constructor
      · intro outcome houtcome herror item hitem
        exact List.mem_map.mp
          (hknown item (mem_collectedItems.mpr ⟨outcome, houtcome, herror, hitem⟩))
      · intro collectedBy ω hω
        apply collect_again hc ⟨collectedBy, v.request.outcomes⟩ hω
        intro item hitem
        have hgrows := evidence_grows (d := d) hc later s'
        rw [stateAfter_append, stateAfter_cons]
        rcases List.mem_map.mp (hknown item hitem) with ⟨row, hrow, hkey⟩
        rw [← hkey]
        apply List.mem_map_of_mem
        rcases mem_rowsOf.mp hrow with ⟨hmem, hof⟩
        exact mem_rowsOf.mpr ⟨hgrows.subset hmem, hof⟩

end Runs

/-! ## Two items of one key -/

def sampleItem (title : String) : EvidenceItem where
  sourceType := "web"
  providerName := "serper"
  title := title
  titleKey := none
  titleParams := none
  url := some "https://example.org/"
  snippet := none
  details := []
  confidence := 1 / 2

/-- Stored, and stored again. -/
def sampleCollection : Visit Collection Env :=
  ⟨⟨none, [⟨"serper", [sampleItem "A page", sampleItem "The page"], none⟩]⟩,
    Auth.steadily App.sampleNow 0⟩

theorem evidence_deduplicates_sample :
    (((stateAfter (exec (sampleDeployment .sqlite))
      (Collection.handle (sampleDeployment .sqlite) 5) sampleCasebook
        [sampleCollection, sampleCollection]).rowsOf 5).map (·.seenKey)).Nodup := by
  have hc : (5 : Uuid) < 16 ^ 32 := by decide
  have hstart : sampleCasebook.rowsOf 5 = [] := by decide +kernel
  have hread : ∀ v ∈ [sampleCollection, sampleCollection], (v.env 0).fails = false := by
    simp [sampleCollection, Auth.steadily]
  exact (evidence_deduplicates hc hstart hread).1

end AnatoliaBis.Cases
