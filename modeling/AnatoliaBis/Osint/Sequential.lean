import Mathlib.Data.List.Infix
import AnatoliaBis.Lib.Runs
import AnatoliaBis.Osint.Breaker

/-! # One call at a time

`CircuitBreaker::call` when each call is finished before the next one starts. The
breaker is a count and an optional instant; `sequential_calls` says what the two
stand for over a whole history: the calls that failed since the last success, and
the openings whose cooldown has not elapsed.
-/

namespace AnatoliaBis.Osint

open Atomic Program

/-- The arguments of a call that the breaker looks at. -/
structure Invocation where
  providerName : String
  maxAttempts : Nat
  deriving Repr, DecidableEq

variable {α : Type}

/-- `breaker.call(provider_name, max_attempts, ..)`. -/
def Invocation.handle (i : Invocation) : Caller α (Except OsintError α) :=
  call i.providerName i.maxAttempts

/-- A call, with the clock and the outcomes that it meets. -/
abbrev Turn (α : Type) := Visit Invocation (Env α)

/-- The steps of a call that starts in `s`. -/
def Turn.steps (b : CircuitBreaker) (v : Turn α) (s : BreakerState) : List (Step α) :=
  (v.request.handle (α := α)).trace (exec b) v.env s

/-- The steps of a run of calls. -/
def callLog (b : CircuitBreaker) : BreakerState → List (Turn α) → List (Step α)
  | _, [] => []
  | s, v :: run => v.steps b s ++ callLog b (v.after (exec b) Invocation.handle s) run

/-- How many calls have failed since the last success. -/
def failedSince (log : List (Step α)) : Nat :=
  (log.reverse.takeWhile fun ev => ev.op ≠ .recordSuccess).countP fun ev => ev.op = .recordFailure

/-- The failures that open the breaker: the one that brings the number of failed
calls to the threshold, and that of a trial after the cooldown. -/
inductive Opening (b : CircuitBreaker) : List (Step α) → Step α → Prop
  | reached {l : List (Step α)} {ev : Step α} (hop : ev.op = .recordFailure)
      (hcount : failedSince (l ++ [ev]) = b.failureThreshold) : Opening b l ev
  | trial {l l' : List (Step α)} {opening ev : Step α} (hopening : Opening b l opening)
      (hsince : ∀ ev ∈ l', ev.op ≠ .recordSuccess)
      (helapsed : opening.env.now + b.cooldown ≤ ev.env.now) (hop : ev.op = .recordFailure) :
      Opening b (l ++ opening :: l') ev

/-- At `t` the cooldown of an opening in `past` has not elapsed. -/
def OpenAt (b : CircuitBreaker) (past : List (Step α)) (t : Nat) : Prop :=
  ∃ l opening l', past = l ++ opening :: l' ∧ Opening b l opening ∧
    t < opening.env.now + b.cooldown

/-- The attempts among the steps of a call. -/
def attemptsIn (steps : List (Step α)) : List (Step α) := steps.filter (·.op = .attempt)

/-! ## Failed calls -/

theorem failedSince_append (log : List (Step α)) (ev : Step α) :
    failedSince (log ++ [ev]) = match ev.op with
      | .recordSuccess => 0
      | .recordFailure => failedSince log + 1
      | _ => failedSince log := by
  simp only [failedSince, List.reverse_append, List.reverse_singleton, List.singleton_append,
    List.takeWhile_cons]
  cases hop : ev.op <;> simp [hop]

theorem failedSince_of_quiet {log : List (Step α)} {ev : Step α} (hquiet : ¬ Reports ev) :
    failedSince (log ++ [ev]) = failedSince log := by
  rw [failedSince_append]
  cases hop : ev.op with
  | isOpen => rfl
  | attempt => rfl
  | recordSuccess => exact absurd (Or.inl hop) hquiet
  | recordFailure => exact absurd (Or.inr hop) hquiet

theorem failedSince_le_append (log : List (Step α)) {later : List (Step α)}
    (h : ∀ ev ∈ later, ev.op ≠ .recordSuccess) :
    failedSince log ≤ failedSince (log ++ later) := by
  induction later generalizing log with
  | nil => simp
  | cons ev later ih =>
      have hev : failedSince log ≤ failedSince (log ++ [ev]) := by
        rw [failedSince_append]
        have hop := h ev (List.mem_cons_self ..)
        cases hop' : ev.op with
        | recordSuccess => exact absurd hop' hop
        | recordFailure => exact Nat.le_succ _
        | isOpen => exact Nat.le_refl _
        | attempt => exact Nat.le_refl _
      have hlater := ih (log ++ [ev]) fun ev hev => h ev (List.mem_cons_of_mem _ hev)
      rw [List.append_assoc, List.singleton_append] at hlater
      exact Nat.le_trans hev hlater

/-- Where some call has failed since the last success, the last of them is found. -/
theorem exists_last_failure {log : List (Step α)} (h : 0 < failedSince log) :
    ∃ l ev l', log = l ++ ev :: l' ∧ ev.op = .recordFailure ∧
      failedSince (l ++ [ev]) = failedSince log ∧ ∀ ev ∈ l', ev.op ≠ .recordSuccess := by
  induction log using List.reverseRecOn with
  | nil => simp [failedSince] at h
  | append_singleton log ev ih =>
      by_cases hop : ev.op = .recordFailure
      · exact ⟨log, ev, [], rfl, hop, rfl, by simp⟩
      · have hquiet : ¬ Reports ev := by
          intro hreports
          rcases hreports with hsuccess | hfailure
          · rw [failedSince_append, hsuccess] at h
            exact absurd h (Nat.lt_irrefl 0)
          · exact hop hfailure
        rw [failedSince_of_quiet hquiet] at h ⊢
        rcases ih h with ⟨l, last, l', rfl, hlast, hcount, hsince⟩
        refine ⟨l, last, l' ++ [ev], by simp, hlast, hcount, ?_⟩
        intro ev' hev'
        rcases List.mem_append.mp hev' with hev' | hev'
        · exact hsince ev' hev'
        · rw [List.mem_singleton.mp hev']
          exact fun hsuccess => hquiet (Or.inl hsuccess)

/-- An opening leaves at least the threshold of failed calls behind. -/
theorem Opening.threshold_le {b : CircuitBreaker} {l : List (Step α)} {ev : Step α}
    (h : Opening b l ev) :
    ev.op = .recordFailure ∧ b.failureThreshold ≤ failedSince (l ++ [ev]) := by
  induction h with
  | reached hop hcount => exact ⟨hop, Nat.le_of_eq hcount.symm⟩
  | @trial l l' opening ev hopening hsince helapsed hop ih =>
      refine ⟨hop, ?_⟩
      have hgrown := failedSince_le_append (l ++ [opening]) hsince
      rw [List.append_assoc, List.singleton_append] at hgrown
      rw [failedSince_append, hop]
      exact Nat.le_succ_of_le (Nat.le_trans ih.2 hgrown)

/-! ## What the state of the breaker stands for -/

/-- After the history `past` of calls, the last of which may still be at its
attempts, the breaker is in the state `s`. -/
structure Tracks (b : CircuitBreaker) (past : List (Step α)) (s : BreakerState) : Prop where
  count : s.consecutiveFailures = failedSince past
  opened : ∀ u, s.openUntil = some u →
    ∃ l ev l', past = l ++ ev :: l' ∧ Opening b l ev ∧ u = ev.env.now + b.cooldown
  /-- Every failure at the threshold or above it still holds the breaker, or its
  cooldown has elapsed. -/
  kept : ∀ l ev l', past = l ++ ev :: l' → ev.op = .recordFailure →
    b.failureThreshold ≤ failedSince (l ++ [ev]) →
    Opening b l ev ∧ (s.openUntil = some (ev.env.now + b.cooldown) ∨
      ∃ later ∈ past, ev.env.now + b.cooldown ≤ later.env.now)

section Tracking

variable {b : CircuitBreaker} {past : List (Step α)} {s : BreakerState}

theorem tracks_new : Tracks (α := α) b [] .new := by
  constructor
  · rfl
  · intro u hu
    cases hu
  · intro l ev l' h
    exact absurd h (by simp)

/-- What a list that ends in `last` splits into. -/
theorem append_singleton_split {l l' : List (Step α)} {ev last : Step α}
    (h : past ++ [last] = l ++ ev :: l') :
    (past = l ∧ last = ev ∧ l' = []) ∨ ∃ m, l' = m ++ [last] ∧ past = l ++ ev :: m := by
  rcases List.eq_nil_or_concat l' with rfl | ⟨m, x, rfl⟩
  · left
    rcases List.append_inj' h rfl with ⟨hpast, hlast⟩
    exact ⟨hpast, List.singleton_inj.mp hlast, rfl⟩
  · right
    rw [List.concat_eq_append, ← List.cons_append, ← List.append_assoc] at h
    rcases List.append_inj' h rfl with ⟨hpast, hlast⟩
    rw [List.concat_eq_append, List.singleton_inj.mp hlast]
    exact ⟨m, rfl, hpast⟩

/-- A look at the gate or an attempt changes nothing. -/
theorem Tracks.quiet (h : Tracks b past s) {ev : Step α} (hquiet : ¬ Reports ev) :
    Tracks b (past ++ [ev]) s := by
  constructor
  · rw [failedSince_of_quiet hquiet]
    exact h.count
  · intro u hu
    rcases h.opened u hu with ⟨l, opening, l', rfl, hopening, hu'⟩
    exact ⟨l, opening, l' ++ [ev], by simp, hopening, hu'⟩
  · intro l failure l' hsplit hop hcount
    rcases append_singleton_split hsplit with ⟨-, rfl, -⟩ | ⟨m, -, hpast⟩
    · exact absurd (Or.inr hop) hquiet
    · rcases h.kept l failure m hpast hop hcount with ⟨hopening, hheld | ⟨later, hmem, helapsed⟩⟩
      · exact ⟨hopening, Or.inl hheld⟩
      · exact ⟨hopening, Or.inr ⟨later, List.mem_append_left _ hmem, helapsed⟩⟩

/-- When a call that passed the gate reports, the cooldowns of all openings before
it have elapsed. -/
theorem Tracks.elapsed (h : Tracks b past s)
    (hpassed : ∃ gate ∈ past, s.isOpenAt gate.env.now = false) {l l' : List (Step α)}
    {ev : Step α} (hpast : past = l ++ ev :: l') (hop : ev.op = .recordFailure)
    (hcount : b.failureThreshold ≤ failedSince (l ++ [ev])) :
    Opening b l ev ∧ ∃ later ∈ past, ev.env.now + b.cooldown ≤ later.env.now := by
  rcases h.kept l ev l' hpast hop hcount with ⟨hopening, hheld | helapsed⟩
  · rcases hpassed with ⟨gate, hmem, hclosed⟩
    refine ⟨hopening, gate, hmem, ?_⟩
    rw [BreakerState.isOpenAt, hheld] at hclosed
    simpa using hclosed
  · exact ⟨hopening, helapsed⟩

theorem Tracks.success (h : Tracks b past s)
    (hpassed : ∃ gate ∈ past, s.isOpenAt gate.env.now = false) {ev : Step α}
    (hop : ev.op = .recordSuccess) : Tracks b (past ++ [ev]) .new := by
  constructor
  · rw [failedSince_append, hop]
    rfl
  · intro u hu
    cases hu
  · intro l failure l' hsplit hfailure hcount
    rcases append_singleton_split hsplit with ⟨-, rfl, -⟩ | ⟨m, -, hpast⟩
    · rw [hop] at hfailure
      cases hfailure
    · rcases h.elapsed hpassed hpast hfailure hcount with ⟨hopening, later, hmem, helapsed⟩
      exact ⟨hopening, Or.inr ⟨later, List.mem_append_left _ hmem, helapsed⟩⟩

/-- A failure at the threshold or above it opens the breaker: the one that gets
there, or that of a trial. -/
theorem Tracks.opening (h : Tracks b past s) (hthreshold : 1 ≤ b.failureThreshold)
    (hpassed : ∃ gate ∈ past, s.isOpenAt gate.env.now = false) {ev : Step α}
    (htimes : ∀ earlier ∈ past, earlier.env.now ≤ ev.env.now) (hop : ev.op = .recordFailure)
    (hcount : b.failureThreshold ≤ failedSince (past ++ [ev])) : Opening b past ev := by
  by_cases hreached : failedSince (past ++ [ev]) = b.failureThreshold
  · exact .reached hop hreached
  · have hbefore : b.failureThreshold ≤ failedSince past := by
      rw [failedSince_append, hop] at hcount hreached
      simp only at hcount hreached
      omega
    have hpositive : 0 < failedSince past := by omega
    rcases exists_last_failure hpositive with ⟨l, last, l', hpast, hlast, hsame, hsince⟩
    have hreached' : b.failureThreshold ≤ failedSince (l ++ [last]) := by
      rw [hsame]
      exact hbefore
    rcases h.elapsed hpassed hpast hlast hreached' with ⟨hopening, later, hmem, helapsed⟩
    rw [hpast]
    exact .trial hopening hsince (Nat.le_trans helapsed (htimes later hmem)) hop

theorem Tracks.failure (h : Tracks b past s) (hthreshold : 1 ≤ b.failureThreshold)
    (hpassed : ∃ gate ∈ past, s.isOpenAt gate.env.now = false) {ev : Step α}
    (htimes : ∀ earlier ∈ past, earlier.env.now ≤ ev.env.now) (hop : ev.op = .recordFailure)
    (hsmall : failedSince (past ++ [ev]) < 2 ^ 32) :
    Tracks b (past ++ [ev]) (exec b .recordFailure ev.env s).1 := by
  have hgrown : failedSince (past ++ [ev]) = failedSince past + 1 := by
    rw [failedSince_append, hop]
  have hfailures : (s.consecutiveFailures + 1) % 2 ^ 32 = failedSince past + 1 := by
    rw [h.count, ← hgrown]
    exact Nat.mod_eq_of_lt hsmall
  have hstate : (exec b .recordFailure ev.env s).1 = ⟨failedSince past + 1,
      if failedSince past + 1 ≥ b.failureThreshold then some (ev.env.now + b.cooldown)
        else s.openUntil⟩ := by
    show BreakerState.mk _ _ = _
    rw [hfailures]
  rw [hstate]
  constructor
  · exact hgrown.symm
  · intro u hu
    dsimp only at hu
    split at hu
    next hreached =>
      have hopening := h.opening hthreshold hpassed htimes hop (by rw [hgrown]; exact hreached)
      exact ⟨past, ev, [], rfl, hopening, (Option.some.inj hu).symm⟩
    next =>
      rcases h.opened u hu with ⟨l, opening, l', rfl, hopening, hu'⟩
      exact ⟨l, opening, l' ++ [ev], by simp, hopening, hu'⟩
  · intro l failure l' hsplit hfailure hcount
    rcases append_singleton_split hsplit with ⟨rfl, rfl, -⟩ | ⟨m, -, hpast⟩
    · refine ⟨h.opening hthreshold hpassed htimes hop hcount, Or.inl ?_⟩
      rw [hgrown] at hcount
      exact if_pos hcount
    · rcases h.elapsed hpassed hpast hfailure hcount with ⟨hopening, later, hmem, helapsed⟩
      exact ⟨hopening, Or.inr ⟨later, List.mem_append_left _ hmem, helapsed⟩⟩

/-- The breaker is open exactly while the cooldown of an opening runs. -/
theorem Tracks.isOpenAt_iff (h : Tracks b past s) {t : Nat} (ht : ∀ ev ∈ past, ev.env.now ≤ t) :
    s.isOpenAt t = true ↔ OpenAt b past t := by
  constructor
  · intro hopen
    rcases (Option.any_eq_true _ _).mp hopen with ⟨u, hset, hlt⟩
    rcases h.opened u hset with ⟨l, opening, l', hpast, hopening, hu⟩
    refine ⟨l, opening, l', hpast, hopening, ?_⟩
    rw [← hu]
    simpa using hlt
  · intro hopen
    rcases hopen with ⟨l, opening, l', hpast, hopening, hlt⟩
    rcases hopening.threshold_le with ⟨hop, hcount⟩
    rcases (h.kept l opening l' hpast hop hcount).2 with hheld | ⟨later, hmem, helapsed⟩
    · rw [BreakerState.isOpenAt, hheld]
      simpa using hlt
    · have hlater := ht later hmem
      omega

end Tracking

/-! ## The attempts of a call -/

/-- With `n` attempts to go, the attempts take the given steps, answer, and leave
the given state. -/
inductive Tried (b : CircuitBreaker) (s : BreakerState) :
    Nat → List (Step α) → Except OsintError α → BreakerState → Prop
  | gaveUp (e : Env α) (err : OsintError) :
      Tried b s 0 [⟨.recordFailure, e, s, (exec b .recordFailure e s).1⟩] (.error err)
        (exec b .recordFailure e s).1
  | succeeded (n : Nat) (e e' : Env α) (items : α) (hok : e.outcome = .ok items) :
      Tried b s (n + 1) [⟨.attempt, e, s, s⟩, ⟨.recordSuccess, e', s, .new⟩] (.ok items) .new
  | retried {n : Nat} {steps : List (Step α)} {answer : Except OsintError α}
      {s' : BreakerState} (e : Env α) (err : OsintError) (herr : e.outcome = .error err)
      (rest : Tried b s n steps answer s') :
      Tried b s (n + 1) (⟨.attempt, e, s, s⟩ :: steps) answer s'

section Attempts

variable {b : CircuitBreaker} {s s' : BreakerState} {n : Nat} {steps : List (Step α)}
  {answer : Except OsintError α}

theorem attempts_tried (n : Nat) (lastErr : Option OsintError) (ω : Nat → Env α) :
    Tried b s n ((attempts n lastErr).trace (exec b) ω s) ((attempts n lastErr).run (exec b) ω s).1
      ((attempts n lastErr).run (exec b) ω s).2 := by
  induction n generalizing lastErr ω with
  | zero => exact .gaveUp (ω 0) _
  | succ n ih =>
      simp only [attempts, trace_call, run_call, exec]
      cases houtcome : (ω 0).outcome with
      | ok items => exact .succeeded n (ω 0) (ω 1) items houtcome
      | error err => exact .retried (ω 0) err houtcome (ih (some err) _)

theorem Tried.attempted (h : Tried b s n steps answer s') :
    (attemptsIn steps).length ≤ n ∧ (1 ≤ n → 1 ≤ (attemptsIn steps).length) := by
  induction h with
  | gaveUp e err => simp [attemptsIn]
  | succeeded n e e' items hok => simp [attemptsIn]
  | retried e err herr rest ih =>
      simp only [attemptsIn, List.filter_cons, decide_true, if_true, List.length_cons] at ih ⊢
      omega

theorem Tried.stops (h : Tried b s n steps answer s') {l l' : List (Step α)} {ev : Step α}
    {items : α} (hsplit : attemptsIn steps = l ++ ev :: l') (hok : ev.env.outcome = .ok items) :
    l' = [] := by
  induction h generalizing l with
  | gaveUp e err => simp [attemptsIn] at hsplit
  | succeeded n e e' items' hok' =>
      have hlength := congrArg List.length hsplit
      simp [attemptsIn] at hlength
      exact List.eq_nil_of_length_eq_zero (by omega)
  | retried e err herr rest ih =>
      simp only [attemptsIn, List.filter_cons, decide_true, if_true] at hsplit
      cases l with
      | nil =>
          rcases List.cons.inj hsplit with ⟨rfl, -⟩
          rw [herr] at hok
          cases hok
      | cons first l => exact ih (List.cons.inj hsplit).2

theorem Tried.answer_iff (h : Tried b s n steps answer s') (items : α) :
    answer = .ok items ↔ ∃ ev ∈ attemptsIn steps, ev.env.outcome = .ok items := by
  induction h with
  | gaveUp e err => simp [attemptsIn]
  | succeeded n e e' items' hok => simp [attemptsIn, hok]
  | retried e err herr rest ih =>
      rw [ih]
      simp [attemptsIn, herr]

/-- A success leaves the breaker as new. -/
theorem Tried.succeeds (h : Tried b s n steps answer s') {items : α} (hok : answer = .ok items)
    (past : List (Step α)) : s' = .new ∧ failedSince (past ++ steps) = 0 := by
  induction h generalizing past with
  | gaveUp e err => cases hok
  | succeeded n e e' items' hok' =>
      refine ⟨rfl, ?_⟩
      rw [List.append_cons, failedSince_append]
  | retried e err herr rest ih =>
      rw [List.append_cons]
      exact ih hok _

/-- Retries inside a call count once. -/
theorem Tried.fails (h : Tried b s n steps answer s') {err : OsintError}
    (herr : answer = .error err) (past : List (Step α)) :
    failedSince (past ++ steps) = failedSince past + 1 := by
  induction h generalizing past with
  | gaveUp e err' => rw [failedSince_append]
  | succeeded n e e' items hok => cases herr
  | retried e err' herr' rest ih =>
      rw [List.append_cons, ih herr, failedSince_of_quiet (by simp [Reports])]

end Attempts

/-! ## The breaker over a run -/

/-- From `s`, at every step of `log` the breaker tracks the history up to there. -/
def TracksThrough (b : CircuitBreaker) :
    List (Step α) → BreakerState → List (Step α) → Prop
  | past, s, [] => Tracks b past s
  | past, s, ev :: later => Tracks b past s ∧ TracksThrough b (past ++ [ev]) ev.after later

/-- What the runs are assumed to meet: the clock does not go back, and the count
stays a `u32`. -/
structure Orderly (log : List (Step α)) : Prop where
  times : log.Pairwise fun earlier later => earlier.env.now ≤ later.env.now
  count : ∀ l, l <+: log → failedSince l < 2 ^ 32

section Histories

variable {b : CircuitBreaker} {past log log' : List (Step α)} {s s' : BreakerState}

theorem Orderly.of_append (h : Orderly (log ++ log')) : Orderly log := by
  constructor
  · exact (List.pairwise_append.mp h.times).1
  · intro l hl
    exact h.count l (hl.trans (List.prefix_append log log'))

theorem Orderly.before {ev : Step α} (h : Orderly (past ++ ev :: log)) :
    ∀ earlier ∈ past, earlier.env.now ≤ ev.env.now := by
  intro earlier hearlier
  exact (List.pairwise_append.mp h.times).2.2 earlier hearlier ev (List.mem_cons_self ..)

theorem Orderly.small {ev : Step α} (h : Orderly (past ++ ev :: log)) :
    failedSince (past ++ [ev]) < 2 ^ 32 := by
  apply h.count
  rw [List.append_cons past ev log]
  exact List.prefix_append _ _

theorem TracksThrough.start (h : TracksThrough b past s log) : Tracks b past s := by
  cases log with
  | nil => exact h
  | cons ev log => exact h.1

theorem TracksThrough.append (h : TracksThrough b past s log) (hexec : Executes (exec b) s log s')
    (h' : TracksThrough b (past ++ log) s' log') : TracksThrough b past s (log ++ log') := by
  induction hexec generalizing past with
  | nil s =>
      rw [List.append_nil] at h'
      exact h'
  | cons op e s rest ih =>
      refine ⟨h.1, ih h.2 ?_⟩
      rw [List.append_assoc]
      exact h'

theorem TracksThrough.reaches (h : TracksThrough b past s (log ++ log'))
    (hexec : Executes (exec b) s log s') : Tracks b (past ++ log) s' := by
  induction hexec generalizing past with
  | nil s =>
      rw [List.append_nil]
      exact h.start
  | cons op e s rest ih =>
      rw [List.append_cons]
      exact ih h.2

theorem Tried.tracks {n : Nat} {steps : List (Step α)} {answer : Except OsintError α}
    (h : Tried b s n steps answer s') (hthreshold : 1 ≤ b.failureThreshold)
    (htracks : Tracks b past s) (hpassed : ∃ gate ∈ past, s.isOpenAt gate.env.now = false)
    (horderly : Orderly (past ++ steps)) : TracksThrough b past s steps := by
  induction h generalizing past with
  | gaveUp e err =>
      exact ⟨htracks, htracks.failure hthreshold hpassed horderly.before rfl horderly.small⟩
  | succeeded n e e' items hok =>
      have hattempt : Tracks b (past ++ [⟨.attempt, e, s, s⟩]) s :=
        htracks.quiet (by simp [Reports])
      rcases hpassed with ⟨gate, hmem, hclosed⟩
      have hpassed' : ∃ gate ∈ past ++ [⟨.attempt, e, s, s⟩], s.isOpenAt gate.env.now = false :=
        ⟨gate, List.mem_append_left _ hmem, hclosed⟩
      exact ⟨htracks, hattempt, hattempt.success hpassed' rfl⟩
  | retried e err herr rest ih =>
      have hattempt : Tracks b (past ++ [⟨.attempt, e, s, s⟩]) s :=
        htracks.quiet (by simp [Reports])
      rcases hpassed with ⟨gate, hmem, hclosed⟩
      rw [List.append_cons] at horderly
      exact ⟨htracks, ih hattempt ⟨gate, List.mem_append_left _ hmem, hclosed⟩ horderly⟩

/-- The two ways a call goes. -/
theorem steps_cases (b : CircuitBreaker) (v : Turn α) (s : BreakerState) :
    (s.isOpenAt (v.env 0).now = true ∧ v.steps b s = [⟨.isOpen, v.env 0, s, s⟩] ∧
        v.after (exec b) Invocation.handle s = s ∧
        ∃ err, v.answer (exec b) Invocation.handle s = .error err) ∨
      (s.isOpenAt (v.env 0).now = false ∧ ∃ steps, v.steps b s = ⟨.isOpen, v.env 0, s, s⟩ :: steps ∧
        Tried b s (max v.request.maxAttempts 1) steps
          (v.answer (exec b) Invocation.handle s) (v.after (exec b) Invocation.handle s)) := by
  by_cases hopen : s.isOpenAt (v.env 0).now = true
  · left
    simp only [Turn.steps, Visit.after, Visit.answer, Invocation.handle, call, trace_call, run_call,
      exec, hopen, if_true]
    exact ⟨trivial, rfl, rfl, _, rfl⟩
  · right
    simp only [Turn.steps, Visit.after, Visit.answer, Invocation.handle, call, trace_call, run_call,
      exec, hopen]
    exact ⟨by simp, _, rfl, attempts_tried _ none _⟩

theorem steps_executes (b : CircuitBreaker) (v : Turn α) (s : BreakerState) :
    Executes (exec b) s (v.steps b s) (v.after (exec b) Invocation.handle s) :=
  executes_trace _ _ _

theorem steps_tracks (hthreshold : 1 ≤ b.failureThreshold) (v : Turn α) (htracks : Tracks b past s)
    (horderly : Orderly (past ++ v.steps b s)) : TracksThrough b past s (v.steps b s) := by
  have hgate : Tracks b (past ++ [⟨.isOpen, v.env 0, s, s⟩]) s := htracks.quiet (by simp [Reports])
  rcases steps_cases b v s with ⟨-, hsteps, -⟩ | ⟨hclosed, steps, hsteps, htried⟩
  · rw [hsteps]
    exact ⟨htracks, hgate⟩
  · rw [hsteps] at horderly ⊢
    rw [List.append_cons] at horderly
    refine ⟨htracks, htried.tracks hthreshold hgate ?_ horderly⟩
    exact ⟨_, List.mem_append_right _ (List.mem_singleton_self _), hclosed⟩

theorem callLog_tracks (hthreshold : 1 ≤ b.failureThreshold) (run : List (Turn α))
    (htracks : Tracks b past s) (horderly : Orderly (past ++ callLog b s run)) :
    TracksThrough b past s (callLog b s run) := by
  induction run generalizing past s with
  | nil => exact htracks
  | cons v run ih =>
      rw [callLog, ← List.append_assoc] at horderly
      have hcall := steps_tracks hthreshold v htracks horderly.of_append
      have hexec := steps_executes b v s
      have hafter : Tracks b (past ++ v.steps b s) (v.after (exec b) Invocation.handle s) := by
        have hwhole : TracksThrough b past s (v.steps b s ++ []) := by
          rw [List.append_nil]
          exact hcall
        exact hwhole.reaches hexec
      exact hcall.append hexec (ih hafter horderly)

end Histories

/-! ## Whole histories -/

/-- What holds of the call `v` when it starts in `s`, after the history `past`. -/
structure CallKept (b : CircuitBreaker) (past : List (Step α)) (s : BreakerState) (v : Turn α) :
    Prop where
  failsFast : OpenAt b past (v.env 0).now → attemptsIn (v.steps b s) = []
  attempted : ¬ OpenAt b past (v.env 0).now → 1 ≤ (attemptsIn (v.steps b s)).length ∧
    (attemptsIn (v.steps b s)).length ≤ max 1 v.request.maxAttempts
  stops : ∀ l ev l' items, attemptsIn (v.steps b s) = l ++ ev :: l' →
    ev.env.outcome = .ok items → l' = []
  answered : ∀ items, v.answer (exec b) Invocation.handle s = .ok items ↔
    ∃ ev ∈ attemptsIn (v.steps b s), ev.env.outcome = .ok items
  /-- Any success closes the breaker and resets the count. -/
  succeeds : ∀ items, v.answer (exec b) Invocation.handle s = .ok items →
    v.after (exec b) Invocation.handle s = .new ∧ failedSince (past ++ v.steps b s) = 0
  /-- A call that was let through and failed counts once. -/
  fails : ¬ OpenAt b past (v.env 0).now →
    ∀ err, v.answer (exec b) Invocation.handle s = .error err →
      failedSince (past ++ v.steps b s) = failedSince past + 1
  /-- A call that was not let through does not count. -/
  rejected : OpenAt b past (v.env 0).now →
    v.after (exec b) Invocation.handle s = s ∧ failedSince (past ++ v.steps b s) = failedSince past

section Runs

variable {b : CircuitBreaker} {past : List (Step α)} {s : BreakerState} {v : Turn α}

theorem Tracks.callKept (h : Tracks b past s)
    (htimes : ∀ ev ∈ past, ev.env.now ≤ (v.env 0).now) : CallKept b past s v := by
  have hgate := h.isOpenAt_iff htimes
  rcases steps_cases b v s with ⟨hopen, hsteps, hafter, err, hanswer⟩ |
    ⟨hclosed, steps, hsteps, htried⟩
  · have hopenAt : OpenAt b past (v.env 0).now := hgate.mp hopen
    have hnone : attemptsIn (v.steps b s) = [] := by
      rw [hsteps]
      rfl
    constructor
    · intro _
      exact hnone
    · intro hnot
      exact absurd hopenAt hnot
    · intro l ev l' items hsplit
      rw [hnone] at hsplit
      exact absurd hsplit (by simp)
    · intro items
      rw [hanswer, hnone]
      simp
    · intro items hok
      rw [hanswer] at hok
      cases hok
    · intro hnot
      exact absurd hopenAt hnot
    · intro _
      refine ⟨hafter, ?_⟩
      rw [hsteps, failedSince_of_quiet (by simp [Reports])]
  · have hnot : ¬ OpenAt b past (v.env 0).now := by
      intro hopenAt
      rw [hgate.mpr hopenAt] at hclosed
      cases hclosed
    have hattempts : attemptsIn (v.steps b s) = attemptsIn steps := by
      rw [hsteps]
      rfl
    have hcount : failedSince (past ++ [⟨.isOpen, v.env 0, s, s⟩]) = failedSince past :=
      failedSince_of_quiet (by simp [Reports])
    constructor
    · intro hopenAt
      exact absurd hopenAt hnot
    · intro _
      rw [hattempts]
      have hattempted := htried.attempted
      omega
    · intro l ev l' items hsplit hok
      rw [hattempts] at hsplit
      exact htried.stops hsplit hok
    · intro items
      rw [hattempts]
      exact htried.answer_iff items
    · intro items hok
      rw [hsteps, List.append_cons]
      exact htried.succeeds hok _
    · intro _ err herr
      rw [hsteps, List.append_cons, htried.fails herr, hcount]
    · intro hopenAt
      exact absurd hopenAt hnot

theorem callLog_executes (run : List (Turn α)) :
    Executes (exec b) s (callLog b s run) (stateAfter (exec b) Invocation.handle s run) := by
  induction run generalizing s with
  | nil => exact .nil s
  | cons v run ih => exact (steps_executes b v s).append ih

theorem callLog_append (before later : List (Turn α)) :
    callLog b s (before ++ later) = callLog b s before ++
      callLog b (stateAfter (exec b) Invocation.handle s before) later := by
  induction before generalizing s with
  | nil => rfl
  | cons v before ih =>
      rw [List.cons_append, callLog, callLog, ih, List.append_assoc]
      rfl

/-- **One call at a time**: what every call of a run does, and when the breaker is
open, in every state that the run reaches, also inside a call. -/
theorem sequential_calls (b : CircuitBreaker) (hthreshold : 1 ≤ b.failureThreshold)
    (run : List (Turn α)) (horderly : Orderly (callLog b .new run)) :
    (∀ before v later, run = before ++ v :: later →
      CallKept b (callLog b .new before) (stateAfter (exec b) Invocation.handle .new before) v) ∧
    ∀ past later s t, callLog b .new run = past ++ later → Executes (exec b) .new past s →
      (∀ ev ∈ past, ev.env.now ≤ t) → (s.isOpenAt t = true ↔ OpenAt b past t) := by
  have hthrough : TracksThrough b [] .new (callLog b .new run) :=
    callLog_tracks hthreshold run tracks_new horderly
  constructor
  · intro before v later hrun
    rw [hrun, callLog_append] at hthrough horderly
    have htracks := hthrough.reaches (callLog_executes before)
    apply htracks.callKept
    rw [callLog] at horderly
    rcases steps_cases b v (stateAfter (exec b) Invocation.handle .new before) with
      ⟨-, hsteps, -⟩ | ⟨-, steps, hsteps, -⟩
    · rw [hsteps] at horderly
      exact horderly.before
    · rw [hsteps] at horderly
      exact horderly.before
  · intro past later s t hlog hexec ht
    rw [hlog] at hthrough
    exact (hthrough.reaches hexec).isOpenAt_iff ht

/-- A failure opens the breaker, a call finds it open, a trial fails and opens it
again, and a later trial succeeds at its second attempt. -/
def sampleCalls : List (Turn Unit) :=
  [⟨⟨"web", 1⟩, fun n => ⟨n, sampleFailure⟩⟩, ⟨⟨"web", 1⟩, fun _ => ⟨5, .ok ()⟩⟩,
    ⟨⟨"web", 0⟩, fun _ => ⟨12, sampleFailure⟩⟩,
    ⟨⟨"web", 3⟩, fun n => ⟨22 + n, if n = 1 then sampleFailure else .ok ()⟩⟩]

end Runs

theorem sequential_calls_sample :
    Orderly (callLog sampleBreaker .new sampleCalls) ∧
      CallKept sampleBreaker (callLog sampleBreaker .new (sampleCalls.take 2))
        (stateAfter (exec sampleBreaker) Invocation.handle .new (sampleCalls.take 2))
        (sampleCalls[2]) := by
  have horderly : Orderly (callLog sampleBreaker .new sampleCalls) := by
    constructor
    · decide
    · intro l hl
      have hsmall : ∀ l ∈ (callLog sampleBreaker .new sampleCalls).inits,
          failedSince l < 2 ^ 32 := by decide
      exact hsmall l ((List.mem_inits _ _).mpr hl)
  exact ⟨horderly, (sequential_calls sampleBreaker (by decide) sampleCalls horderly).1
    (sampleCalls.take 2) sampleCalls[2] (sampleCalls.drop 3) rfl⟩

end AnatoliaBis.Osint
