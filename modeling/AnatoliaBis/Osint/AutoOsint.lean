import AnatoliaBis.Cases.Candidates
import AnatoliaBis.Osint.ReverseContext

/-! # The automatic evidence phase

`search::run_auto_osint`: the probe goes to the reverse-image providers, every eligible
candidate with a usable name gets a task that asks the web and news providers, and where no
candidate is eligible the context of the pages found is searched instead. The outcomes are
counted by slot and the counts become the stored status. A task that is lost counts nowhere,
and zero failures read as `completed`; `honest_iff` says when the status is true.
-/

namespace AnatoliaBis.Osint

open App (SearchCandidateRow)
open Atomic (Program)
open Auth (trim)
open Cases (CollectedEvidence EvidenceItem EvidenceRow ProviderOutcome)

/-! ## The orchestrator -/

/-- `Display` of an `OsintError`. -/
def OsintError.text : OsintError → String
  | .providerUnavailable message => "provider unavailable: " ++ message
  | .internal message => "internal OSINT error: " ++ message

/-- `run_provider`. -/
def runProvider (providerName : String) (result : Except OsintError (List EvidenceItem)) :
    ProviderOutcome :=
  match result with
  | .ok items => ⟨providerName, items, none⟩
  | .error err => ⟨providerName, [], some err.text⟩

/-- What a provider makes of a call; `none` is a panic. -/
abbrev Answer := Option (Except OsintError (List EvidenceItem))

/-- A call: the name of the provider, and its answer. -/
abbrev ProviderCall := String × Answer

/-- `join_all` of the calls: a panic takes the others with it. -/
def joinAll : List ProviderCall → Option (List ProviderOutcome)
  | [] => some []
  | (_, none) :: _ => none
  | (name, some result) :: rest => (joinAll rest).map (runProvider name result :: ·)

/-- The slots that are asked by text. -/
inductive TextSlot where
  | webSearch
  | news
  deriving Repr, DecidableEq

/-- The name of the slot in a `ConnectorStatus`. -/
def TextSlot.text : TextSlot → String
  | .webSearch => "web_search"
  | .news => "news"

/-- `ConnectorStatus`. -/
structure ConnectorStatus where
  slot : String
  providerName : String
  isMock : Bool
  deriving Repr, DecidableEq

/-- `provider_name.starts_with("mock-")`. -/
def isMockName (providerName : String) : Bool := "mock-".toList.isPrefixOf providerName.toList

/-- `ConnectorStatus::new`. -/
def ConnectorStatus.new (slot providerName : String) : ConnectorStatus :=
  ⟨slot, providerName, isMockName providerName⟩

/-- `EvidenceOrchestrator`: the names of its providers. -/
structure EvidenceOrchestrator where
  webSearch : List String
  news : List String
  social : List String
  reverseImage : List String
  deriving Repr, DecidableEq

namespace EvidenceOrchestrator

variable (o : EvidenceOrchestrator)

def providers : TextSlot → List String
  | .webSearch => o.webSearch
  | .news => o.news

/-- `provider_status`. -/
def providerStatus : List ConnectorStatus :=
  o.webSearch.map (ConnectorStatus.new "web_search") ++ o.news.map (ConnectorStatus.new "news") ++
    o.social.map (ConnectorStatus.new "social") ++
    if o.reverseImage.isEmpty then [⟨"reverse_image", "not-configured", false⟩]
    else o.reverseImage.map (ConnectorStatus.new "reverse_image")

/-- `web_is_mock`, `news_is_mock`. -/
def isMock (slot : TextSlot) : Bool :=
  o.providerStatus.any fun status => status.slot = slot.text && status.isMock

/-- `reverse_configured`. -/
def reverseConfigured : Bool :=
  o.providerStatus.any fun status =>
    status.slot = "reverse_image" && status.providerName ≠ "not-configured"

/-- The calls of a slot, when its `i`-th provider answers `answers i`. -/
def slotCalls (slot : TextSlot) (answers : TextSlot → Nat → Answer) : List ProviderCall :=
  (o.providers slot).mapIdx fun i name => (name, answers slot i)

/-- `collect_web_and_news`. -/
def collectWebAndNews (answers : TextSlot → Nat → Answer) :
    Option (TextSlot → List ProviderOutcome) := do
  let web ← joinAll (o.slotCalls .webSearch answers)
  let news ← joinAll (o.slotCalls .news answers)
  return fun
    | .webSearch => web
    | .news => news

/-- The calls of `collect_reverse_image`. -/
def reverseCalls (answers : Nat → Answer) : List ProviderCall :=
  o.reverseImage.mapIdx fun i name => (name, answers i)

end EvidenceOrchestrator

/-! ## The first round -/

/-- `build_query`. -/
def buildQuery (fullName : String) : Option String :=
  if trim fullName = "" then none else some (trim fullName)

/-- How many calls of a slot succeeded, and how many failed. -/
structure Counts where
  success : Nat
  fail : Nat
  deriving Repr, DecidableEq

def Counts.of (outcomes : List ProviderOutcome) : Counts :=
  let success := (outcomes.filter fun outcome => outcome.error.isNone).length
  ⟨success, outcomes.length - success⟩

def Counts.add (c c' : Counts) : Counts := ⟨c.success + c'.success, c.fail + c'.fail⟩

/-- The errors that `collect_and_store_candidate_evidence` lists. -/
def providerErrors (outcomes : List ProviderOutcome) : List (String × String) :=
  outcomes.filterMap fun outcome => outcome.error.map fun error => (outcome.providerName, error)

/-- What a candidate's task meets: the answers of the providers, and the rows that it stores,
or `none` where it panics or is cancelled. -/
structure TaskWorld where
  answers : TextSlot → Nat → Answer
  stored : Option (List EvidenceRow)

/-- What the task of a candidate returns. -/
structure TaskResult where
  counts : TextSlot → Counts
  result : CollectedEvidence

/-- The task of a candidate, awaited; `none` is a `JoinError`. -/
def candidateTask (o : EvidenceOrchestrator) (t : TaskWorld) : Option TaskResult := do
  let outcomes ← o.collectWebAndNews t.answers
  let stored ← t.stored
  return ⟨fun slot => .of (outcomes slot),
    ⟨stored, providerErrors (outcomes .webSearch ++ outcomes .news)⟩⟩

/-- What the two rounds add up: the counts, `any_stored` and `any_provider_error`. -/
structure Tally where
  counts : TextSlot → Counts
  anyStored : Bool
  anyProviderError : Bool

/-- An outcome has an error. -/
def anyError (outcomes : List ProviderOutcome) : Bool :=
  outcomes.any fun outcome => outcome.error.isSome

/-- After the reverse-image providers. -/
def Tally.start (reverseOutcomes : List ProviderOutcome) : Tally :=
  ⟨fun _ => ⟨0, 0⟩, false, anyError reverseOutcomes⟩

/-- One turn of the loop over the handles. -/
def Tally.join (t : Tally) : Option TaskResult → Tally
  | none => { t with anyProviderError := true }
  | some r =>
      ⟨fun slot => (t.counts slot).add (r.counts slot), t.anyStored || !r.result.stored.isEmpty,
        t.anyProviderError || !r.result.providerErrors.isEmpty⟩

/-- The tasks that are spawned: the `i`-th eligible candidate's meets `tasks i`. -/
def spawned (tasks : Nat → TaskWorld) (eligible : List SearchCandidateRow) : List TaskWorld :=
  eligible.zipIdx.filterMap fun (candidate, i) =>
    (buildQuery candidate.candidateFullName).map fun _ => tasks i

/-! ## The second round -/

/-- What a context search adds. -/
def Tally.addContext (t : Tally) (outcomes : TextSlot → List ProviderOutcome) : Tally :=
  ⟨fun slot => (t.counts slot).add (.of (outcomes slot)), t.anyStored,
    t.anyProviderError || anyError (outcomes .webSearch) || anyError (outcomes .news)⟩

/-- The loop over `n` context searches, `none` where a provider panics: no task of its own
stands between them and the phase. -/
def contextRounds (o : EvidenceOrchestrator) : (n : Nat) → (Nat → TextSlot → Nat → Answer) →
    Tally → List EvidenceItem → Option (Tally × List EvidenceItem)
  | 0, _, t, items => some (t, items)
  | n + 1, answers, t, items =>
      match o.collectWebAndNews (answers 0) with
      | none => none
      | some outcomes =>
          contextRounds o n (fun j => answers (j + 1)) (t.addContext outcomes)
            (items ++ (outcomes .webSearch ++ outcomes .news).flatMap ProviderOutcome.items)

/-! ## The phase -/

/-- `slot_status`. -/
def slotStatus (isMock : Bool) (c : Counts) : String :=
  if isMock then "mock"
  else if c.fail = 0 then "completed"
  else if c.success = 0 then "failed"
  else "partial"

/-- `web_status`, `news_status`. -/
def textStatus (isMock : Bool) (eligibleCount : Nat) (c : Counts) : String :=
  if eligibleCount = 0 ∧ c.success + c.fail = 0 then
    if isMock then "mock" else "not_run"
  else slotStatus isMock c

/-- `reverse_status`. -/
def reverseStatus (reverseConfigured : Bool) (c : Counts) : String :=
  if !reverseConfigured then "not_configured" else slotStatus false c

/-- `audit::action::OSINT_AUTO_COMPLETED`. -/
def osintAutoCompleted : String := "OSINT_AUTO_COMPLETED"

/-- `audit::action::OSINT_AUTO_PARTIAL`. -/
def osintAutoPartial : String := "OSINT_AUTO_PARTIAL"

/-- What the phase hands to the store and to the audit log. -/
structure Report where
  /-- `candidateCount` of the event that opens the phase. -/
  candidateCount : Nat
  text : TextSlot → String
  social : String
  reverseImage : String
  items : List EvidenceItem
  action : String
  result : String
  candidateEvidenceStored : Bool
  reverseImageResultCount : Nat

/-- The settings of the phase. -/
structure AutoOsint where
  autoOsintAfterBiometricSearch : Bool
  osintAutoMaxCandidates : Int
  deriving Repr, DecidableEq

/-- The candidates that are looked at. -/
def AutoOsint.eligible (settings : AutoOsint) (candidates : List SearchCandidateRow) :
    List SearchCandidateRow :=
  candidates.take (max settings.osintAutoMaxCandidates 0).toNat

/-- What the phase meets: the candidates of the search, and the answers to its calls. -/
structure World where
  candidates : Except DbError (List SearchCandidateRow)
  reverse : Nat → Answer
  tasks : Nat → TaskWorld
  context : Nat → TextSlot → Nat → Answer

/-- The end of the phase. -/
def report (o : EvidenceOrchestrator) (eligibleCount : Nat)
    (reverseOutcomes : List ProviderOutcome) (t : Tally) (items : List EvidenceItem) : Report where
  candidateCount := eligibleCount
  text slot := textStatus (o.isMock slot) eligibleCount (t.counts slot)
  social := "not_configured"
  reverseImage := reverseStatus o.reverseConfigured (.of reverseOutcomes)
  items := items
  action := if t.anyProviderError then osintAutoPartial else osintAutoCompleted
  result := if t.anyProviderError then "failure" else "success"
  candidateEvidenceStored := t.anyStored
  reverseImageResultCount := (reverseOutcomes.flatMap ProviderOutcome.items).length

/-- The loop over the handles. -/
def firstRound (o : EvidenceOrchestrator) (tasks : List TaskWorld)
    (reverseOutcomes : List ProviderOutcome) : Tally :=
  (tasks.map (candidateTask o)).foldl Tally.join (.start reverseOutcomes)

/-- `run_auto_osint`; without a report nothing is stored. -/
def runAutoOsint (settings : AutoOsint) (o : EvidenceOrchestrator) (w : World) :
    Option Report :=
  if !settings.autoOsintAfterBiometricSearch then none
  else
    match w.candidates with
    | .error _ => none
    | .ok candidates => do
        let eligible := settings.eligible candidates
        let reverseOutcomes ← joinAll (o.reverseCalls w.reverse)
        let first := firstRound o (spawned w.tasks eligible) reverseOutcomes
        let (t, items) ← contextRounds o (contextQueries eligible.length reverseOutcomes).length
          w.context first (reverseOutcomes.flatMap ProviderOutcome.items)
        return report o eligible.length reverseOutcomes t items

/-! ## What a status should mean -/

/-- The call returned evidence, possibly none. -/
def Succeeded (call : ProviderCall) : Prop := ∃ items, call.2 = some (.ok items)

/-- The call returned an error. -/
def FailedCall (call : ProviderCall) : Prop := ∃ err, call.2 = some (.error err)

/-- The task never returns: a provider panics, or it is lost at its own work. -/
def Lost (o : EvidenceOrchestrator) (task : TaskWorld) : Prop :=
  task.stored = none ∨ ∃ slot, ∃ call ∈ o.slotCalls slot task.answers, call.2 = none

/-- The slot has providers, and none of them is a mock. -/
def Real (o : EvidenceOrchestrator) (slot : TextSlot) : Prop :=
  o.providers slot ≠ [] ∧ ∀ name ∈ o.providers slot, isMockName name = false

/-- The calls of a slot in `n` context searches. -/
def contextCalls (o : EvidenceOrchestrator) (slot : TextSlot) (n : Nat)
    (answers : Nat → TextSlot → Nat → Answer) : List ProviderCall :=
  (List.range n).flatMap fun j => o.slotCalls slot (answers j)

/-- The number of context searches. -/
def contextCount (o : EvidenceOrchestrator) (w : World) (eligible : List SearchCandidateRow) :
    Nat :=
  match joinAll (o.reverseCalls w.reverse) with
  | none => 0
  | some reverseOutcomes => (contextQueries eligible.length reverseOutcomes).length

/-- The calls of a slot in both rounds. -/
def allCalls (o : EvidenceOrchestrator) (w : World) (eligible : List SearchCandidateRow)
    (slot : TextSlot) : List ProviderCall :=
  ((spawned w.tasks eligible).flatMap fun task => o.slotCalls slot task.answers) ++
    contextCalls o slot (contextCount o w eligible) w.context

/-- The report is honest. -/
structure Honest (o : EvidenceOrchestrator) (w : World) (eligible : List SearchCandidateRow)
    (r : Report) : Prop where
  /-- `completed` says that the slot was asked, that every call succeeded, and that no task
  that would have asked it was lost. -/
  text : ∀ slot, Real o slot → r.text slot = "completed" →
    allCalls o w eligible slot ≠ [] ∧ (∀ call ∈ allCalls o w eligible slot, Succeeded call) ∧
      ∀ task ∈ spawned w.tasks eligible, ¬ Lost o task
  reverseImage : o.reverseImage ≠ [] → r.reverseImage = "completed" →
    o.reverseCalls w.reverse ≠ [] ∧ ∀ call ∈ o.reverseCalls w.reverse, Succeeded call
  audit : r.action = osintAutoCompleted →
    (∀ call ∈ o.reverseCalls w.reverse, Succeeded call) ∧
      (∀ task ∈ spawned w.tasks eligible, ¬ Lost o task) ∧
      ∀ slot, ∀ call ∈ allCalls o w eligible slot, Succeeded call

/-- What keeps the status of a slot from being `completed` for nothing: there is no candidate,
or a task that returns saw a call of the slot fail, or no task is lost and some candidate has a
usable name. -/
def Warranted (o : EvidenceOrchestrator) (w : World) (eligible : List SearchCandidateRow)
    (slot : TextSlot) : Prop :=
  eligible = [] ∨
    (∃ task ∈ spawned w.tasks eligible, ¬ Lost o task ∧
      ∃ call ∈ o.slotCalls slot task.answers, FailedCall call) ∨
    (∀ task ∈ spawned w.tasks eligible, ¬ Lost o task) ∧
      ∃ candidate ∈ eligible, (buildQuery candidate.candidateFullName).isSome

/-! ## Outcomes -/

section Outcomes

variable {calls : List ProviderCall} {outcomes : List ProviderOutcome}

theorem joinAll_eq_none_iff : joinAll calls = none ↔ ∃ call ∈ calls, call.2 = none := by
  induction calls with
  | nil => simp [joinAll]
  | cons call rest ih =>
      rcases call with ⟨name, answer⟩
      cases answer with
      | none => simp [joinAll]
      | some result =>
          rw [joinAll, Option.map_eq_none_iff, ih]
          simp

/-- The outcomes are those of the calls, one for each. -/
theorem joinAll_outcomes (h : joinAll calls = some outcomes) :
    outcomes.length = calls.length ∧
      ((∀ outcome ∈ outcomes, outcome.error = none) ↔ ∀ call ∈ calls, Succeeded call) := by
  induction calls generalizing outcomes with
  | nil =>
      rw [joinAll] at h
      cases h
      simp
  | cons call rest ih =>
      rcases call with ⟨name, answer⟩
      cases answer with
      | none => cases h
      | some result =>
          rw [joinAll, Option.map_eq_some_iff] at h
          rcases h with ⟨later, hlater, rfl⟩
          rcases ih hlater with ⟨hlength, hrest⟩
          refine ⟨by simp [hlength], ?_⟩
          rw [List.forall_mem_cons, List.forall_mem_cons, hrest]
          cases result with
          | ok items => simp [runProvider, Succeeded]
          | error err => simp [runProvider, Succeeded]

/-- Counting failures is looking for errors. -/
theorem counts_fail_iff :
    (Counts.of outcomes).fail = 0 ↔ ∀ outcome ∈ outcomes, outcome.error = none := by
  have hle := List.length_filter_le (fun outcome : ProviderOutcome => outcome.error.isNone) outcomes
  have hall := List.length_filter_eq_length_iff
    (p := fun outcome : ProviderOutcome => outcome.error.isNone) (l := outcomes)
  simp only [Option.isNone_iff_eq_none] at hall
  rw [← hall]
  simp only [Counts.of]
  omega

theorem counts_total (outcomes : List ProviderOutcome) :
    (Counts.of outcomes).success + (Counts.of outcomes).fail = outcomes.length := by
  have hle := List.length_filter_le (fun outcome : ProviderOutcome => outcome.error.isNone) outcomes
  simp only [Counts.of]
  omega

theorem providerErrors_eq_nil_iff :
    providerErrors outcomes = [] ↔ ∀ outcome ∈ outcomes, outcome.error = none := by
  simp [providerErrors]

theorem anyError_eq_false_iff :
    anyError outcomes = false ↔ ∀ outcome ∈ outcomes, outcome.error = none := by
  simp [anyError]

end Outcomes

theorem storeOutcomes_errors (d : Cases.Deployment) (candidateId : Uuid)
    (collectedBy : Option Uuid) (outcomes : List ProviderOutcome) (seen : List (String × String)) :
    (Cases.storeOutcomes d candidateId collectedBy outcomes seen).Performs (Cases.exec d)
      (fun _ => True) (fun collected => collected.providerErrors = providerErrors outcomes) := by
  induction outcomes generalizing seen with
  | nil => rfl
  | cons outcome outcomes ih =>
      unfold Cases.storeOutcomes
      cases herror : outcome.error with
      | some error =>
          refine (ih seen).bind fun rest hrest => ?_
          show (outcome.providerName, error) :: rest.providerErrors = _
          rw [hrest]
          simp [providerErrors, herror]
      | none =>
          refine Program.Performs.bind (Program.performs_any _) fun stored _ => ?_
          refine (ih stored.2).bind fun rest hrest => ?_
          show rest.providerErrors = _
          rw [hrest]
          simp [providerErrors, herror]

/-- The errors a task reports are those of its outcomes, whatever the store holds meanwhile. -/
theorem collectAndStore_errors (d : Cases.Deployment) (candidateId : Uuid)
    (collectedBy : Option Uuid) (outcomes : List ProviderOutcome) :
    (Cases.collectAndStoreCandidateEvidence d candidateId collectedBy outcomes).Performs
      (Cases.exec d) (fun _ => True)
      (fun collected => collected.providerErrors = providerErrors outcomes) := by
  unfold Cases.collectAndStoreCandidateEvidence
  refine Program.Performs.bind (Program.performs_any _) fun existing _ => ?_
  exact storeOutcomes_errors d candidateId collectedBy outcomes _

/-! ## The two rounds -/

section Rounds

variable {o : EvidenceOrchestrator} {answers : TextSlot → Nat → Answer}
  {outcomes : TextSlot → List ProviderOutcome} {task : TaskWorld} {r : TaskResult} {t : Tally}
  {slot : TextSlot}

theorem joinAll_of_collect (h : o.collectWebAndNews answers = some outcomes) (slot : TextSlot) :
    joinAll (o.slotCalls slot answers) = some (outcomes slot) := by
  simp only [EvidenceOrchestrator.collectWebAndNews, Option.bind_eq_bind,
    Option.bind_eq_some_iff] at h
  rcases h with ⟨web, hweb, news, hnews, houtcomes⟩
  cases houtcomes
  cases slot with
  | webSearch => exact hweb
  | news => exact hnews

theorem collect_eq_none_iff :
    o.collectWebAndNews answers = none ↔
      ∃ slot, ∃ call ∈ o.slotCalls slot answers, call.2 = none := by
  constructor
  · intro h
    by_contra hnot
    have hjoined : ∀ slot, ∃ outs, joinAll (o.slotCalls slot answers) = some outs := by
      intro slot
      apply Option.ne_none_iff_exists'.mp
      intro hnone
      exact hnot ⟨slot, joinAll_eq_none_iff.mp hnone⟩
    rcases hjoined .webSearch with ⟨web, hweb⟩
    rcases hjoined .news with ⟨news, hnews⟩
    simp [EvidenceOrchestrator.collectWebAndNews, hweb, hnews] at h
  · intro h
    rcases h with ⟨slot, hpanic⟩
    cases hcollect : o.collectWebAndNews answers with
    | none => rfl
    | some outcomes =>
        have hjoined := joinAll_of_collect hcollect slot
        rw [joinAll_eq_none_iff.mpr hpanic] at hjoined
        cases hjoined

theorem candidateTask_eq_none_iff : candidateTask o task = none ↔ Lost o task := by
  simp only [candidateTask, Lost, ← collect_eq_none_iff]
  cases o.collectWebAndNews task.answers with
  | none => simp
  | some outcomes =>
      cases task.stored with
      | none => simp
      | some stored => simp

/-- What a task that returns reports of a slot. -/
theorem candidateTask_counts (h : candidateTask o task = some r) (slot : TextSlot) :
    (r.counts slot).fail = 0 ↔ ∀ call ∈ o.slotCalls slot task.answers, Succeeded call := by
  simp only [candidateTask, Option.bind_eq_bind, Option.bind_eq_some_iff] at h
  rcases h with ⟨outcomes, hcollect, stored, hstored, hr⟩
  cases hr
  rw [counts_fail_iff]
  exact (joinAll_outcomes (joinAll_of_collect hcollect slot)).2

theorem candidateTask_errors (h : candidateTask o task = some r) :
    r.result.providerErrors = [] ↔
      ∀ slot, ∀ call ∈ o.slotCalls slot task.answers, Succeeded call := by
  simp only [candidateTask, Option.bind_eq_bind, Option.bind_eq_some_iff] at h
  rcases h with ⟨outcomes, hcollect, stored, hstored, hr⟩
  cases hr
  have hsucceeded := fun slot => (joinAll_outcomes (joinAll_of_collect hcollect slot)).2
  show providerErrors _ = [] ↔ _
  rw [providerErrors_eq_nil_iff]
  simp only [List.mem_append, or_imp, forall_and]
  rw [hsucceeded .webSearch, hsucceeded .news]
  constructor
  · intro hboth slot
    cases slot with
    | webSearch => exact hboth.1
    | news => exact hboth.2
  · intro hall
    exact ⟨hall .webSearch, hall .news⟩

/-- The failures that the loop over the handles counts are those of the tasks that return. -/
theorem foldl_join_fail (results : List (Option TaskResult)) (t : Tally) (slot : TextSlot) :
    ((results.foldl Tally.join t).counts slot).fail = 0 ↔
      (t.counts slot).fail = 0 ∧ ∀ r, some r ∈ results → (r.counts slot).fail = 0 := by
  induction results generalizing t with
  | nil => simp
  | cons result results ih =>
      rw [List.foldl_cons, ih]
      cases result with
      | none => simp [Tally.join]
      | some r => simp [Tally.join, Counts.add, and_assoc]

theorem foldl_join_error (results : List (Option TaskResult)) (t : Tally) :
    (results.foldl Tally.join t).anyProviderError = false ↔
      t.anyProviderError = false ∧
        ∀ result ∈ results, ∃ r, result = some r ∧ r.result.providerErrors = [] := by
  induction results generalizing t with
  | nil => simp
  | cons result results ih =>
      rw [List.foldl_cons, ih]
      cases result with
      | none => simp [Tally.join]
      | some r => simp [Tally.join, and_assoc]

theorem contextCalls_succ (n : Nat) (answers : Nat → TextSlot → Nat → Answer) :
    contextCalls o slot (n + 1) answers =
      o.slotCalls slot (answers 0) ++ contextCalls o slot n fun j => answers (j + 1) := by
  simp [contextCalls, List.range_succ_eq_map, List.flatMap_map]

/-- What the context searches add to the counts, and to the errors. -/
theorem contextRounds_spec {n : Nat} {answers : Nat → TextSlot → Nat → Answer} {t t' : Tally}
    {items items' : List EvidenceItem}
    (h : contextRounds o n answers t items = some (t', items')) :
    (∀ slot, (t'.counts slot).success + (t'.counts slot).fail =
        (t.counts slot).success + (t.counts slot).fail + (contextCalls o slot n answers).length) ∧
      (∀ slot, (t'.counts slot).fail = 0 ↔
        (t.counts slot).fail = 0 ∧ ∀ call ∈ contextCalls o slot n answers, Succeeded call) ∧
      (t'.anyProviderError = false ↔ t.anyProviderError = false ∧
        ∀ slot, ∀ call ∈ contextCalls o slot n answers, Succeeded call) := by
  induction n generalizing answers t items with
  | zero =>
      cases h
      simp [contextCalls]
  | succ n ih =>
      rw [contextRounds] at h
      cases hcollect : o.collectWebAndNews (answers 0) with
      | none =>
          rw [hcollect] at h
          cases h
      | some outcomes =>
          rw [hcollect] at h
          rcases ih h with ⟨htotal, hfail, herror⟩
          have houtcomes := fun slot => joinAll_outcomes (joinAll_of_collect hcollect slot)
          simp only [contextCalls_succ, List.mem_append, or_imp, forall_and, List.length_append]
          refine ⟨fun slot => ?_, fun slot => ?_, ?_⟩
          · rw [htotal, ← (houtcomes slot).1, ← counts_total]
            simp only [Tally.addContext, Counts.add]
            omega
          · rw [hfail, ← (houtcomes slot).2, ← counts_fail_iff]
            simp [Tally.addContext, Counts.add, and_assoc]
          · rw [herror]
            simp only [Tally.addContext, Bool.or_eq_false_iff, anyError_eq_false_iff,
              (houtcomes _).2]
            constructor
            · intro hall
              refine ⟨hall.1.1.1, fun slot => ?_, hall.2⟩
              cases slot with
              | webSearch => exact hall.1.1.2
              | news => exact hall.1.2
            · intro hall
              exact ⟨⟨⟨hall.1, hall.2.1 .webSearch⟩, hall.2.1 .news⟩, hall.2.2⟩

end Rounds

/-! ## When the report is honest -/

/-- The phase is switched on, the candidates are there, and no reverse-image provider panics. -/
structure Proceeds (settings : AutoOsint) (o : EvidenceOrchestrator) (w : World)
    (candidates : List SearchCandidateRow) : Prop where
  enabled : settings.autoOsintAfterBiometricSearch = true
  loaded : w.candidates = .ok candidates
  reverse : ∀ call ∈ o.reverseCalls w.reverse, call.2 ≠ none

section Statuses

variable {o : EvidenceOrchestrator} {w : World} {slot : TextSlot}
  {eligible : List SearchCandidateRow}

theorem Real.isMock_eq_false (h : Real o slot) : o.isMock slot = false := by
  have hnames := h.2
  unfold EvidenceOrchestrator.isMock EvidenceOrchestrator.providerStatus
  cases slot with
  | webSearch =>
      simp only [EvidenceOrchestrator.providers] at hnames
      split <;> simp_all [TextSlot.text, ConnectorStatus.new]
  | news =>
      simp only [EvidenceOrchestrator.providers] at hnames
      split <;> simp_all [TextSlot.text, ConnectorStatus.new]

theorem slotStatus_completed_iff (c : Counts) : slotStatus false c = "completed" ↔ c.fail = 0 := by
  unfold slotStatus
  split_ifs <;> simp_all

theorem textStatus_completed_iff (n : Nat) (c : Counts) :
    textStatus false n c = "completed" ↔ ¬ (n = 0 ∧ c.success + c.fail = 0) ∧ c.fail = 0 := by
  unfold textStatus
  by_cases hnone : n = 0 ∧ c.success + c.fail = 0
  · simp [hnone]
  · rw [if_neg hnone, slotStatus_completed_iff]
    exact ⟨fun hfail => ⟨hnone, hfail⟩, And.right⟩

/-- A task is spawned exactly where some candidate has a usable name. -/
theorem spawned_ne_nil_iff (tasks : Nat → TaskWorld) :
    spawned tasks eligible ≠ [] ↔
      ∃ candidate ∈ eligible, (buildQuery candidate.candidateFullName).isSome := by
  have hfst : eligible.zipIdx.map Prod.fst = eligible := List.zipIdx_map_fst 0 eligible
  rw [Ne, spawned, List.filterMap_eq_nil_iff]
  constructor
  · intro hspawned
    by_contra hnot
    apply hspawned
    intro p hp
    have hnone : buildQuery p.1.candidateFullName = none := by
      by_contra hsome
      exact hnot ⟨p.1, List.fst_mem_of_mem_zipIdx hp, Option.isSome_iff_ne_none.mpr hsome⟩
    show Option.map _ (buildQuery p.1.candidateFullName) = none
    rw [hnone]
    rfl
  · intro husable hnone
    rcases husable with ⟨candidate, hmem, hsome⟩
    rw [← hfst] at hmem
    rcases List.mem_map.mp hmem with ⟨p, hp, rfl⟩
    have hquery := Option.map_eq_none_iff.mp (hnone p hp)
    rw [hquery] at hsome
    cases hsome

theorem contextCount_eq_zero (h : eligible ≠ []) : contextCount o w eligible = 0 := by
  have hlength : eligible.length ≠ 0 := by simpa using h
  unfold contextCount
  split
  · rfl
  · simp [contextQueries, hlength]

end Statuses

section Runs

variable {settings : AutoOsint} {o : EvidenceOrchestrator} {w : World} {r : Report}
  {candidates : List SearchCandidateRow}

/-- The parts of a phase that gets to its report. -/
theorem runAutoOsint_eq_some (h : runAutoOsint settings o w = some r)
    (hloaded : w.candidates = .ok candidates) :
    ∃ reverseOutcomes t items, joinAll (o.reverseCalls w.reverse) = some reverseOutcomes ∧
      contextRounds o (contextCount o w (settings.eligible candidates)) w.context
        (firstRound o (spawned w.tasks (settings.eligible candidates)) reverseOutcomes)
        (reverseOutcomes.flatMap ProviderOutcome.items) = some (t, items) ∧
      r = report o (settings.eligible candidates).length reverseOutcomes t items := by
  rw [runAutoOsint, hloaded] at h
  split at h
  · cases h
  · simp only [Option.bind_eq_bind, Option.bind_eq_some_iff] at h
    rcases h with ⟨reverseOutcomes, hreverse, ⟨t, items⟩, hcontext, hr⟩
    refine ⟨reverseOutcomes, t, items, hreverse, ?_, (Option.some.inj hr).symm⟩
    rw [contextCount, hreverse]
    exact hcontext

theorem runAutoOsint_proceeds (h : runAutoOsint settings o w = some r)
    (hloaded : w.candidates = .ok candidates) : Proceeds settings o w candidates := by
  rcases runAutoOsint_eq_some h hloaded with ⟨reverseOutcomes, t, items, hreverse, -⟩
  refine ⟨?_, hloaded, ?_⟩
  · by_contra hoff
    simp [runAutoOsint, hoff] at h
  · intro call hcall hpanic
    rw [joinAll_eq_none_iff.mpr ⟨call, hcall, hpanic⟩] at hreverse
    cases hreverse

/-- Where there is a candidate, nothing can keep the phase from its report any more. -/
theorem Proceeds.reports (h : Proceeds settings o w candidates)
    (heligible : settings.eligible candidates ≠ []) : ∃ r, runAutoOsint settings o w = some r := by
  cases hreverse : joinAll (o.reverseCalls w.reverse) with
  | none =>
      rcases joinAll_eq_none_iff.mp hreverse with ⟨call, hcall, hpanic⟩
      exact absurd hpanic (h.reverse call hcall)
  | some reverseOutcomes =>
      have hcount := contextCount_eq_zero (o := o) (w := w) heligible
      rw [contextCount, hreverse] at hcount
      dsimp only at hcount
      simp [runAutoOsint, h.enabled, h.loaded, hreverse, hcount, contextRounds]

/-- When the status of a slot reads `completed`. -/
theorem text_completed_iff (h : runAutoOsint settings o w = some r)
    (hloaded : w.candidates = .ok candidates) {slot : TextSlot} (hreal : Real o slot) :
    r.text slot = "completed" ↔
      ¬ (settings.eligible candidates = [] ∧
        contextCalls o slot (contextCount o w (settings.eligible candidates)) w.context = []) ∧
      (∀ task ∈ spawned w.tasks (settings.eligible candidates), ¬ Lost o task →
        ∀ call ∈ o.slotCalls slot task.answers, Succeeded call) ∧
      ∀ call ∈ contextCalls o slot (contextCount o w (settings.eligible candidates)) w.context,
        Succeeded call := by
  rcases runAutoOsint_eq_some h hloaded with ⟨reverseOutcomes, t, items, -, hcontext, rfl⟩
  rcases contextRounds_spec hcontext with ⟨htotal, hfail, -⟩
  have hfirst : ((firstRound o (spawned w.tasks (settings.eligible candidates))
      reverseOutcomes).counts slot).fail = 0 ↔
      ∀ task ∈ spawned w.tasks (settings.eligible candidates), ¬ Lost o task →
        ∀ call ∈ o.slotCalls slot task.answers, Succeeded call := by
    rw [firstRound, foldl_join_fail]
    simp only [Tally.start, true_and, List.mem_map]
    constructor
    · intro hall task htask hkept
      rcases Option.ne_none_iff_exists'.mp (mt candidateTask_eq_none_iff.mp hkept) with ⟨r, hr⟩
      exact (candidateTask_counts hr slot).mp (hall r ⟨task, htask, hr⟩)
    · intro hall r hr
      rcases hr with ⟨task, htask, hr⟩
      refine (candidateTask_counts hr slot).mpr (hall task htask ?_)
      intro hlost
      rw [candidateTask_eq_none_iff.mpr hlost] at hr
      cases hr
  have hempty : settings.eligible candidates = [] →
      ((t.counts slot).success + (t.counts slot).fail = 0 ↔
        contextCalls o slot (contextCount o w (settings.eligible candidates)) w.context = []) := by
    intro hnone
    rw [htotal, hnone]
    simp [firstRound, spawned, Tally.start]
  show textStatus (o.isMock slot) _ _ = _ ↔ _
  rw [hreal.isMock_eq_false, textStatus_completed_iff, hfail, hfirst, List.length_eq_zero_iff]
  constructor
  · intro hcompleted
    refine ⟨?_, hcompleted.2⟩
    intro hnone
    exact hcompleted.1 ⟨hnone.1, (hempty hnone.1).mpr hnone.2⟩
  · intro hcompleted
    refine ⟨?_, hcompleted.2⟩
    intro hnone
    exact hcompleted.1 ⟨hnone.1, (hempty hnone.1).mp hnone.2⟩

/-- A slot that is warranted to be `completed` is so rightly. -/
theorem text_honest (h : runAutoOsint settings o w = some r)
    (hloaded : w.candidates = .ok candidates) {slot : TextSlot} (hreal : Real o slot)
    (hwarranted : Warranted o w (settings.eligible candidates) slot)
    (hcompleted : r.text slot = "completed") :
    allCalls o w (settings.eligible candidates) slot ≠ [] ∧
      (∀ call ∈ allCalls o w (settings.eligible candidates) slot, Succeeded call) ∧
      ∀ task ∈ spawned w.tasks (settings.eligible candidates), ¬ Lost o task := by
  rcases (text_completed_iff h hloaded hreal).mp hcompleted with ⟨hsome, htasks, hcontext⟩
  rcases hwarranted with hnone | ⟨task, htask, hkept, call, hcall, err, herr⟩ | ⟨hkept, husable⟩
  · -- no candidate: only context searches were made
    have hspawned : spawned w.tasks (settings.eligible candidates) = [] := by
      rw [hnone]
      rfl
    have hcalls : contextCalls o slot (contextCount o w (settings.eligible candidates)) w.context
        ≠ [] := fun hno => hsome ⟨hnone, hno⟩
    unfold allCalls
    rw [hspawned]
    exact ⟨hcalls, hcontext, by simp⟩
  · -- a failure was counted, so the slot is not completed
    rcases htasks task htask hkept call hcall with ⟨items, hitems⟩
    rw [hitems] at herr
    cases herr
  · have hspawned := (spawned_ne_nil_iff w.tasks).mpr husable
    rcases List.exists_mem_of_ne_nil _ hspawned with ⟨task, htask⟩
    have hslot : o.slotCalls slot task.answers ≠ [] := by
      unfold EvidenceOrchestrator.slotCalls
      simpa using hreal.1
    rcases List.exists_mem_of_ne_nil _ hslot with ⟨call, hcall⟩
    refine ⟨List.ne_nil_of_mem (List.mem_append_left _ (List.mem_flatMap.mpr ⟨task, htask, hcall⟩)),
      ?_, hkept⟩
    intro call' hcall'
    rcases List.mem_append.mp hcall' with hfirst | hsecond
    · rcases List.mem_flatMap.mp hfirst with ⟨task', htask', hmem⟩
      exact htasks task' htask' (hkept task' htask') call' hmem
    · exact hcontext call' hsecond

/-- Where a slot is not warranted, its status is `completed` all the same. -/
theorem not_warranted_completed (h : runAutoOsint settings o w = some r)
    (hloaded : w.candidates = .ok candidates) {slot : TextSlot} (hreal : Real o slot)
    (hnot : ¬ Warranted o w (settings.eligible candidates) slot) : r.text slot = "completed" := by
  have heligible : settings.eligible candidates ≠ [] := fun hnone => hnot (Or.inl hnone)
  have hcontext : contextCalls o slot (contextCount o w (settings.eligible candidates)) w.context
      = [] := by
    rw [contextCount_eq_zero heligible]
    rfl
  refine (text_completed_iff h hloaded hreal).mpr ⟨fun hnone => heligible hnone.1, ?_, ?_⟩
  · intro task htask hkept call hcall
    cases hanswer : call.2 with
    | none => exact absurd (Or.inr ⟨slot, call, hcall, hanswer⟩) hkept
    | some result =>
        cases result with
        | ok items => exact ⟨items, hanswer⟩
        | error err =>
            exact absurd (Or.inr (Or.inl ⟨task, htask, hkept, call, hcall, err, hanswer⟩)) hnot
  · rw [hcontext]
    simp

theorem reverse_honest (h : runAutoOsint settings o w = some r)
    (hloaded : w.candidates = .ok candidates) (hproviders : o.reverseImage ≠ [])
    (hcompleted : r.reverseImage = "completed") :
    o.reverseCalls w.reverse ≠ [] ∧ ∀ call ∈ o.reverseCalls w.reverse, Succeeded call := by
  rcases runAutoOsint_eq_some h hloaded with ⟨reverseOutcomes, t, items, hreverse, -, rfl⟩
  have hstatus : slotStatus false (.of reverseOutcomes) = "completed" := by
    simp only [report, reverseStatus] at hcompleted
    split at hcompleted
    · exact absurd hcompleted (by decide)
    · exact hcompleted
  refine ⟨?_, (joinAll_outcomes hreverse).2.mp ?_⟩
  · unfold EvidenceOrchestrator.reverseCalls
    simpa using hproviders
  · exact counts_fail_iff.mp ((slotStatus_completed_iff _).mp hstatus)

/-- Every error and every lost task reaches the audit log. -/
theorem audit_honest (h : runAutoOsint settings o w = some r)
    (hloaded : w.candidates = .ok candidates) (hcompleted : r.action = osintAutoCompleted) :
    (∀ call ∈ o.reverseCalls w.reverse, Succeeded call) ∧
      (∀ task ∈ spawned w.tasks (settings.eligible candidates), ¬ Lost o task) ∧
      ∀ slot, ∀ call ∈ allCalls o w (settings.eligible candidates) slot, Succeeded call := by
  rcases runAutoOsint_eq_some h hloaded with ⟨reverseOutcomes, t, items, hreverse, hcontext, rfl⟩
  have hno : t.anyProviderError = false := by
    by_contra herror
    simp only [report, Bool.not_eq_false] at herror hcompleted
    rw [if_pos herror] at hcompleted
    exact absurd hcompleted (by decide)
  rcases (contextRounds_spec hcontext).2.2.mp hno with ⟨hfirst, hcalls⟩
  rcases (foldl_join_error _ _).mp hfirst with ⟨hstart, hresults⟩
  have htasks : ∀ task ∈ spawned w.tasks (settings.eligible candidates),
      ∃ r, candidateTask o task = some r ∧ r.result.providerErrors = [] :=
    fun task htask => hresults _ (List.mem_map_of_mem htask)
  refine ⟨(joinAll_outcomes hreverse).2.mp (anyError_eq_false_iff.mp hstart), ?_, ?_⟩
  · intro task htask hlost
    rcases htasks task htask with ⟨r, hr, -⟩
    rw [candidateTask_eq_none_iff.mpr hlost] at hr
    cases hr
  · intro slot call hcall
    rcases List.mem_append.mp hcall with hfirst | hsecond
    · rcases List.mem_flatMap.mp hfirst with ⟨task, htask, hmem⟩
      rcases htasks task htask with ⟨r, hr, herrors⟩
      exact (candidateTask_errors hr).mp herrors slot call hmem
    · exact hcalls slot call hsecond

end Runs

/-- **When the report is honest**: exactly where every slot with real providers only is warranted
to read `completed`. The reverse-image status and the audit action always are honest. -/
theorem honest_iff (settings : AutoOsint) (o : EvidenceOrchestrator) (w : World) :
    (∀ candidates r, w.candidates = .ok candidates → runAutoOsint settings o w = some r →
      Honest o w (settings.eligible candidates) r) ↔
    ∀ candidates, Proceeds settings o w candidates → ∀ slot, Real o slot →
      Warranted o w (settings.eligible candidates) slot := by
  constructor
  · intro h candidates hproceeds slot hreal
    by_contra hnot
    have heligible : settings.eligible candidates ≠ [] := fun hnone => hnot (Or.inl hnone)
    rcases hproceeds.reports heligible with ⟨r, hr⟩
    have hcompleted := not_warranted_completed hr hproceeds.loaded hreal hnot
    rcases (h candidates r hproceeds.loaded hr).text slot hreal hcompleted with
      ⟨hcalls, -, hkept⟩
    have hspawned : spawned w.tasks (settings.eligible candidates) ≠ [] := by
      intro hnone
      apply hcalls
      rw [allCalls, hnone, contextCount_eq_zero heligible]
      rfl
    exact hnot (Or.inr (Or.inr ⟨hkept, (spawned_ne_nil_iff w.tasks).mp hspawned⟩))
  · intro h candidates r hloaded hr
    have hwarranted := h candidates (runAutoOsint_proceeds hr hloaded)
    constructor
    · intro slot hreal hcompleted
      exact text_honest hr hloaded hreal (hwarranted slot hreal) hcompleted
    · exact reverse_honest hr hloaded
    · exact audit_honest hr hloaded

/-! ## A lost task -/

/-- Two real providers, and nothing for images. -/
def sampleOrchestrator : EvidenceOrchestrator :=
  ⟨["tavily-web-search"], ["currents-news"], ["mock-social"], []⟩

def sampleSettings : AutoOsint := ⟨true, 5⟩

def sampleRow : SearchCandidateRow where
  id := 1
  searchId := 2
  candidateId := 3
  score := 9 / 10
  status := .pending
  reviewedBy := none
  reviewedByName := none
  reviewedAt := none
  createdAt := 0
  candidateReferenceCode := "REF-1"
  candidateFullName := "Ada Example"

/-- One candidate, whose task is lost in the call of the web-search provider. -/
def lostWorld : World where
  candidates := .ok [sampleRow]
  reverse _ := none
  tasks _ := ⟨fun slot _ => if slot = .webSearch then none else some (.ok []), some []⟩
  context _ _ _ := none

/-- No call has returned, both slots are `completed`, and the audit log knows better. -/
theorem lost_task_completed :
    ((runAutoOsint sampleSettings sampleOrchestrator lostWorld).map fun r =>
        (r.text .webSearch, r.text .news, r.action)) =
      some ("completed", "completed", osintAutoPartial) ∧
    ¬ ∀ candidates r, lostWorld.candidates = .ok candidates →
      runAutoOsint sampleSettings sampleOrchestrator lostWorld = some r →
      Honest sampleOrchestrator lostWorld (sampleSettings.eligible candidates) r := by
  have hrun : ((runAutoOsint sampleSettings sampleOrchestrator lostWorld).map fun r =>
      (r.text .webSearch, r.text .news, r.action)) =
        some ("completed", "completed", osintAutoPartial) := by
    decide +kernel
  refine ⟨hrun, fun h => ?_⟩
  rcases Option.map_eq_some_iff.mp hrun with ⟨r, hr, htext⟩
  have hreal : Real sampleOrchestrator .webSearch := ⟨by decide, by decide⟩
  have hhonest := (h [sampleRow] r rfl hr).text .webSearch hreal (congrArg Prod.fst htext)
  have hspawned : spawned lostWorld.tasks (sampleSettings.eligible [sampleRow]) =
      [lostWorld.tasks 0] := rfl
  apply hhonest.2.2 (lostWorld.tasks 0)
  · rw [hspawned]
    exact List.mem_singleton_self _
  · exact Or.inr ⟨.webSearch, _, List.mem_singleton_self _, rfl⟩

end AnatoliaBis.Osint
