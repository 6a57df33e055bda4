import AnatoliaBis.Lib.Pool
import Mathlib.Algebra.Group.Nat.Defs

/-! # The circuit breaker

`osint/resilience.rs`: the calls of one provider share a breaker. A call looks at
it once, at the gate, and reports once, after its last attempt; the lock is held in
neither case across an attempt, so calls overlap. `sound_iff` says in which runs
the breaker keeps what its description promises.
-/

namespace AnatoliaBis.Osint

open Atomic Program

/-- `OsintError`. -/
inductive OsintError where
  | providerUnavailable (message : String)
  | internal (message : String)
  deriving Repr, DecidableEq

/-- `CircuitBreaker`, without its state. -/
structure CircuitBreaker where
  failureThreshold : Nat
  cooldown : Nat
  deriving Repr, DecidableEq

/-- `BreakerState`; instants are those of the monotonic clock. -/
structure BreakerState where
  consecutiveFailures : Nat
  openUntil : Option Nat
  deriving Repr, DecidableEq

/-- The state `CircuitBreaker::new` starts with. -/
def BreakerState.new : BreakerState := ⟨0, none⟩

/-- `matches!(open_until, Some(until) if now < until)`. -/
def BreakerState.isOpenAt (s : BreakerState) (now : Nat) : Bool := s.openUntil.any (now < ·)

/-- The steps of a call: the gate, an attempt, and the two ways to report. -/
inductive Op where
  | isOpen
  | attempt
  | recordSuccess
  | recordFailure
  deriving Repr, DecidableEq

/-- The clock, and what an attempt returns. -/
structure Env (α : Type) where
  now : Nat
  outcome : Except OsintError α

variable {α : Type}

@[reducible] def Op.Res (α : Type) : Op → Type
  | .isOpen => Bool
  | .attempt => Except OsintError α
  | _ => Unit

/-- One step. Attempts leave the breaker alone; the count is a `u32`. -/
def exec (b : CircuitBreaker) : (op : Op) → Env α → BreakerState → BreakerState × op.Res α
  | .isOpen, e, s => (s, s.isOpenAt e.now)
  | .attempt, e, s => (s, e.outcome)
  | .recordSuccess, _, _ => (⟨0, none⟩, ())
  | .recordFailure, e, s =>
      let failures := (s.consecutiveFailures + 1) % 2 ^ 32
      (⟨failures, if failures ≥ b.failureThreshold then some (e.now + b.cooldown)
        else s.openUntil⟩, ())

abbrev Caller (α β : Type) := Program Op (Op.Res α) β

/-- The `for` loop of `call`, with `n` attempts to go. The pauses between attempts
only let time pass. -/
def attempts : (n : Nat) → (lastErr : Option OsintError) → Caller α (Except OsintError α)
  | 0, lastErr => .call .recordFailure fun _ =>
      .done (.error (lastErr.getD
        (.internal "provider call failed with no recorded error")))
  | n + 1, _ => .call .attempt fun outcome =>
      match outcome with
      | .ok items => .call .recordSuccess fun _ => .done (.ok items)
      | .error err => attempts n (some err)

/-- `CircuitBreaker::call`. -/
def call (providerName : String) (maxAttempts : Nat) : Caller α (Except OsintError α) :=
  .call .isOpen fun isOpen =>
    if isOpen then
      .done (.error (.providerUnavailable (providerName ++
        ": circuit breaker open (too many recent failures); not attempting a request")))
    else attempts (max maxAttempts 1) none

/-- A step of a call, with the breaker around it. -/
abbrev Step (α : Type) := Event Op (Env α) BreakerState

/-- The step reports an outcome. -/
def Reports (ev : Step α) : Prop := ev.op = .recordSuccess ∨ ev.op = .recordFailure

/-- A call passes the gate because the cooldown has elapsed. -/
def Tries (ev : Step α) : Prop :=
  ev.op = .isOpen ∧ ∃ u ∈ ev.before.openUntil, u ≤ ev.env.now

/-- A call finds the breaker open. -/
def MeetsOpen (ev : Step α) : Prop :=
  ev.op = .isOpen ∧ ev.before.isOpenAt ev.env.now = true

/-- A failure that opens the breaker, or opens it again. -/
def Opens (b : CircuitBreaker) (ev : Step α) : Prop :=
  ev.op = .recordFailure ∧ b.failureThreshold ≤ ev.after.consecutiveFailures

/-! ## One call among others -/

/-- What a call does after the history `h`: the gate first, and the rest only if
the gate was passed and nothing has been reported. -/
def CallStep (h : List (Step α)) (op : Op) : Prop :=
  (op = .isOpen ∧ h = []) ∨
    (op ≠ .isOpen ∧ (∃ gate ∈ h, gate.op = .isOpen ∧ gate.before.isOpenAt gate.env.now = false) ∧
      ∀ ev ∈ h, ¬ Reports ev)

section Guarantee

variable {b : CircuitBreaker} {h : List (Step α)}

theorem attempts_guarantees (n : Nat) (lastErr : Option OsintError)
    (hgate : ∃ gate ∈ h, gate.op = .isOpen ∧ gate.before.isOpenAt gate.env.now = false)
    (hopen : ∀ ev ∈ h, ¬ Reports ev) :
    (attempts (α := α) n lastErr).Guarantees (exec b) CallStep (fun _ _ => True) h := by
  induction n generalizing h lastErr with
  | zero => exact ⟨Or.inr ⟨by decide, hgate, hopen⟩, fun _ _ => trivial⟩
  | succ n ih =>
      refine ⟨Or.inr ⟨by decide, hgate, hopen⟩, fun e s => ?_⟩
      have hgate' : ∃ gate ∈ h ++ [⟨.attempt, e, s, (exec b .attempt e s).1⟩],
          gate.op = .isOpen ∧ gate.before.isOpenAt gate.env.now = false := by
        rcases hgate with ⟨gate, hmem, hpassed⟩
        exact ⟨gate, List.mem_append_left _ hmem, hpassed⟩
      have hopen' : ∀ ev ∈ h ++ [⟨.attempt, e, s, (exec b .attempt e s).1⟩], ¬ Reports ev := by
        intro ev hev
        rcases List.mem_append.mp hev with hev | hev
        · exact hopen ev hev
        · rw [List.mem_singleton.mp hev]
          simp [Reports]
      show Program.Guarantees _ _ _ (match e.outcome with | .ok _ => _ | .error _ => _) _
      cases e.outcome with
      | ok items => exact ⟨Or.inr ⟨by decide, hgate', hopen'⟩, fun _ _ => trivial⟩
      | error err => exact ih (some err) hgate' hopen'

theorem call_guarantees (providerName : String) (maxAttempts : Nat) :
    (call (α := α) providerName maxAttempts).Guarantees (exec b) CallStep (fun _ _ => True) [] := by
  refine ⟨Or.inl ⟨rfl, rfl⟩, fun e s => ?_⟩
  show Program.Guarantees _ _ _ (if s.isOpenAt e.now then _ else _) _
  cases hgate : s.isOpenAt e.now with
  | true => trivial
  | false =>
      refine attempts_guarantees _ none ⟨_, List.mem_singleton_self _, rfl, hgate⟩ ?_
      intro ev hev
      rw [List.mem_singleton.mp hev]
      simp [Reports]

end Guarantee

/-! ## Any number of calls -/

section Interleaved

variable {ι : Type}

/-- Call `i` passed the gate after a cooldown and has not reported yet. -/
def OnTrial (i : ι) (log : List (ι × Step α)) : Prop :=
  (∃ entry ∈ log, entry.1 = i ∧ Tries entry.2) ∧ ∀ entry ∈ log, entry.1 = i → ¬ Reports entry.2

/-- Since call `i` looked at the gate, the breaker has opened. -/
def OpenedSince (b : CircuitBreaker) (i : ι) (log : List (ι × Step α)) : Prop :=
  ∃ l gate m, log = l ++ (i, gate) :: m ∧ gate.op = .isOpen ∧ ∃ entry ∈ m, Opens b entry.2

/-- What the breaker promises, over a run. -/
structure Sound (b : CircuitBreaker) (log : List (ι × Step α)) : Prop where
  /-- A call that finds the breaker open makes no attempt. -/
  failsFast : ∀ i gate ev, (i, gate) ∈ log → MeetsOpen gate → (i, ev) ∈ log → ev.op ≠ .attempt
  /-- In every state reached at most one trial call is in flight. -/
  singleTrial : ∀ l l', log = l ++ l' → ∀ i j, OnTrial i l → OnTrial j l → i = j
  /-- A success from before the breaker opened does not close it. -/
  staleHarmless : ∀ l i ev l', log = l ++ (i, ev) :: l' → ev.op = .recordSuccess →
    OpenedSince b i l → ev.after.openUntil = ev.before.openUntil

/-- No step goes wrong: nobody passes the gate after a cooldown while a trial is in
flight, and nobody reports a success while the breaker is set by an opening that
came after its own look at the gate. -/
structure Undisturbed (b : CircuitBreaker) (log : List (ι × Step α)) : Prop where
  gates : ∀ l i ev l', log = l ++ (i, ev) :: l' → Tries ev → ∀ j, ¬ OnTrial j l
  successes : ∀ l i ev l', log = l ++ (i, ev) :: l' → ev.op = .recordSuccess →
    OpenedSince b i l → ev.before.openUntil = none

variable [DecidableEq ι] (b : CircuitBreaker) (providerName : String) (maxAttempts : ι → Nat)
  (s : BreakerState) (schedule : List (ι × Env α))

/-- Concurrent calls on one breaker. -/
def calls : Pool ι Op (Op.Res α) (Except OsintError α) BreakerState :=
  ⟨fun i => call providerName (maxAttempts i), s⟩

/-- Every step comes where a call puts it. -/
theorem calls_step {l l' : List (ι × Step α)} {i : ι} {ev : Step α}
    (h : (calls providerName maxAttempts s).log (exec b) schedule = l ++ (i, ev) :: l') :
    CallStep (Pool.own i l) ev.op :=
  (Pool.guarantees (c := calls providerName maxAttempts s)
    (fun i => call_guarantees providerName (maxAttempts i)) schedule).2 l i ev l' h

/-- A call looks at the gate before anything else, so only once. -/
theorem not_mem_of_gate {l l' : List (ι × Step α)} {i : ι} {gate : Step α}
    (h : (calls providerName maxAttempts s).log (exec b) schedule = l ++ (i, gate) :: l')
    (hgate : gate.op = .isOpen) (ev : Step α) : (i, ev) ∉ l := by
  intro hmem
  rcases calls_step b providerName maxAttempts s schedule h with ⟨-, hnil⟩ | ⟨hne, -⟩
  · have hown := Pool.mem_own.mpr hmem
    rw [hnil] at hown
    cases hown
  · exact hne hgate

theorem gate_unique {i : ι} {gate gate' : Step α}
    (h : (i, gate) ∈ (calls providerName maxAttempts s).log (exec b) schedule)
    (h' : (i, gate') ∈ (calls providerName maxAttempts s).log (exec b) schedule)
    (hgate : gate.op = .isOpen) (hgate' : gate'.op = .isOpen) : gate = gate' := by
  rcases List.append_of_mem h with ⟨l, l', hlog⟩
  rw [hlog] at h'
  rcases List.mem_append.mp h' with hbefore | hlater
  · exact absurd hbefore (not_mem_of_gate b _ _ _ schedule hlog hgate gate')
  · rcases List.mem_cons.mp hlater with heq | hlater
    · exact (Prod.mk.inj heq).2.symm
    · rcases List.append_of_mem hlater with ⟨m, m', rfl⟩
      rw [← List.cons_append, ← List.append_assoc] at hlog
      exact absurd (List.mem_append_right l (List.mem_cons_self ..))
        (not_mem_of_gate b _ _ _ schedule hlog hgate' gate)

theorem after_recordSuccess {l l' : List (ι × Step α)} {i : ι} {ev : Step α}
    (h : (calls providerName maxAttempts s).log (exec b) schedule = l ++ (i, ev) :: l')
    (hop : ev.op = .recordSuccess) : ev.after.openUntil = none := by
  have hmem : ev ∈ ((calls providerName maxAttempts s).log (exec b) schedule).map Prod.snd := by
    rw [h]
    simp
  have hafter := (Pool.executes schedule).after_eq hmem
  rcases ev with ⟨op, env, before, after⟩
  subst hop
  rw [hafter]
  rfl

theorem calls_failFast {i : ι} {gate ev : Step α}
    (hgate : (i, gate) ∈ (calls providerName maxAttempts s).log (exec b) schedule)
    (hmeets : MeetsOpen gate)
    (hev : (i, ev) ∈ (calls providerName maxAttempts s).log (exec b) schedule) :
    ev.op ≠ .attempt := by
  intro hop
  rcases List.append_of_mem hev with ⟨l, l', hlog⟩
  rcases calls_step b providerName maxAttempts s schedule hlog with ⟨hgate', -⟩ | ⟨-, hpassed, -⟩
  · rw [hop] at hgate'
    cases hgate'
  · rcases hpassed with ⟨gate', hmem, hop', hclosed⟩
    have hmem' : (i, gate') ∈ (calls providerName maxAttempts s).log (exec b) schedule := by
      rw [hlog]
      exact List.mem_append_left _ (Pool.mem_own.mp hmem)
    rw [gate_unique b providerName maxAttempts s schedule hmem' hgate hop' hmeets.1,
      hmeets.2] at hclosed
    cases hclosed

omit [DecidableEq ι] in
theorem OnTrial.of_prefix {i : ι} {l l' : List (ι × Step α)} (h : OnTrial i (l ++ l'))
    {ev : Step α} (hev : (i, ev) ∈ l) (htries : Tries ev) : OnTrial i l :=
  ⟨⟨(i, ev), hev, rfl, htries⟩, fun entry hentry => h.2 entry (List.mem_append_left _ hentry)⟩

/-- Of two trials in flight the later one passed the gate while the earlier one was
in flight. -/
theorem not_onTrial_of_gates {log : List (ι × Step α)}
    (hgates : ∀ l i ev l', log = l ++ (i, ev) :: l' → Tries ev → ∀ j, ¬ OnTrial j l)
    {l l' : List (ι × Step α)} (hlog : log = l ++ l') {i j : ι} (hi : OnTrial i l)
    (hj : OnTrial j l) : i = j := by
  by_contra hij
  rcases hi.1 with ⟨⟨_, ev⟩, hev, rfl, htries⟩
  rcases hj.1 with ⟨⟨_, ev'⟩, hev', rfl, htries'⟩
  rcases List.append_of_mem (Pool.mem_own.mpr hev) with ⟨g, g', hown⟩
  rcases List.append_of_mem (Pool.mem_own.mpr hev') with ⟨k, k', hown'⟩
  rcases Pool.own_ordered hij hown hown' with ⟨a, m, r, rfl, -⟩ | ⟨a, m, r, rfl, -⟩
  · rw [← List.cons_append, ← List.append_assoc] at hi hlog
    rw [List.append_assoc, List.cons_append] at hlog
    exact hgates _ _ ev' _ hlog htries' _ (hi.of_prefix (by simp) htries)
  · rw [← List.cons_append, ← List.append_assoc] at hj hlog
    rw [List.append_assoc, List.cons_append] at hlog
    exact hgates _ _ ev _ hlog htries _ (hj.of_prefix (by simp) htries')

/-- **When the breaker keeps its promises**: exactly in the runs in which no step
goes wrong. -/
theorem sound_iff :
    Sound b ((calls providerName maxAttempts s).log (exec b) schedule) ↔
      Undisturbed b ((calls providerName maxAttempts s).log (exec b) schedule) := by
  constructor
  · intro h
    refine ⟨fun l i ev l' hlog htries j hj => ?_, fun l i ev l' hlog hop hsince => ?_⟩
    · -- the call that passes the gate is a second trial
      have hi : OnTrial i (l ++ [(i, ev)]) := by
        refine ⟨⟨(i, ev), by simp, rfl, htries⟩, ?_⟩
        rintro ⟨_, ev'⟩ hev' rfl
        rcases List.mem_append.mp hev' with hev' | hev'
        · exact absurd hev' (not_mem_of_gate b _ _ _ schedule hlog htries.1 ev')
        · rcases Prod.mk.inj (List.mem_singleton.mp hev') with ⟨-, rfl⟩
          simp [Reports, htries.1]
      have hne : j ≠ i := by
        rintro rfl
        rcases hj.1 with ⟨⟨_, ev'⟩, hev', rfl, -⟩
        exact not_mem_of_gate b _ _ _ schedule hlog htries.1 ev' hev'
      have hj' : OnTrial j (l ++ [(i, ev)]) := by
        refine ⟨hj.1.imp fun entry h' => ⟨List.mem_append_left _ h'.1, h'.2⟩, ?_⟩
        rintro entry hentry rfl
        rcases List.mem_append.mp hentry with hentry | hentry
        · exact hj.2 entry hentry rfl
        · rw [List.mem_singleton.mp hentry] at hne
          exact absurd rfl hne
      have hlog' : (calls providerName maxAttempts s).log (exec b) schedule =
          (l ++ [(i, ev)]) ++ l' := by
        rw [hlog, List.append_assoc]
        rfl
      exact hne (h.singleTrial _ _ hlog' j i hj' hi)
    · rw [← h.staleHarmless l i ev l' hlog hop hsince]
      exact after_recordSuccess b providerName maxAttempts s schedule hlog hop
  · intro h
    refine ⟨fun i gate ev hgate hmeets hev => ?_, fun l l' hlog i j hi hj => ?_,
      fun l i ev l' hlog hop hsince => ?_⟩
    · exact calls_failFast b providerName maxAttempts s schedule hgate hmeets hev
    · exact not_onTrial_of_gates h.gates hlog hi hj
    · rw [after_recordSuccess b providerName maxAttempts s schedule hlog hop,
        h.successes l i ev l' hlog hop hsince]

end Interleaved

/-! ## Two trials, and a late success -/

instance (ev : Step α) : Decidable (Reports ev) := by
  unfold Reports
  infer_instance

instance (ev : Step α) : Decidable (Tries ev) := by
  unfold Tries
  infer_instance

instance (b : CircuitBreaker) (ev : Step α) : Decidable (Opens b ev) := by
  unfold Opens
  infer_instance

instance (i : Nat) (log : List (Nat × Step α)) : Decidable (OnTrial i log) := by
  unfold OnTrial
  infer_instance

def sampleBreaker : CircuitBreaker := ⟨1, 10⟩

/-- Calls of one attempt each, and who steps when with which outcome. -/
def sampleLog (schedule : List (Nat × Env Unit)) : List (Nat × Step Unit) :=
  (calls "web" (fun _ => 1) .new).log (exec sampleBreaker) schedule

def sampleFailure : Except OsintError Unit := .error (.providerUnavailable "timeout")

/-- Call 0 fails and opens the breaker; after the cooldown calls 1 and 2 look at the
gate. -/
def sampleTrials : List (Nat × Step Unit) :=
  sampleLog [(0, ⟨0, sampleFailure⟩), (0, ⟨0, sampleFailure⟩), (0, ⟨0, sampleFailure⟩),
    (1, ⟨10, .ok ()⟩), (2, ⟨11, .ok ()⟩)]

/-- Call 1 passes the gate, call 0 fails and opens the breaker, call 1 succeeds. -/
def sampleLate : List (Nat × Step Unit) :=
  sampleLog [(1, ⟨0, .ok ()⟩), (0, ⟨0, sampleFailure⟩), (0, ⟨0, sampleFailure⟩),
    (0, ⟨0, sampleFailure⟩), (1, ⟨1, .ok ()⟩), (1, ⟨1, .ok ()⟩)]

/-- Both calls are trials, and the late success closes the breaker. -/
theorem breaker_unsound :
    ¬ Sound sampleBreaker sampleTrials ∧ ¬ Sound sampleBreaker sampleLate := by
  constructor
  · intro h
    have heq : 1 = 2 := h.singleTrial sampleTrials [] rfl 1 2 (by decide) (by decide)
    exact absurd heq (by decide)
  · intro h
    have hlog : sampleLate = sampleLate.take 5 ++ (sampleLate.drop 5).head (by decide) :: [] := rfl
    have hsince : OpenedSince sampleBreaker 1 (sampleLate.take 5) :=
      ⟨[], _, (sampleLate.take 5).tail, rfl, rfl, by decide⟩
    have hkept := h.staleHarmless _ 1 _ [] hlog rfl hsince
    exact absurd hkept (by decide)

end AnatoliaBis.Osint
