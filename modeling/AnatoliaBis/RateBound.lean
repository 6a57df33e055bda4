import AnatoliaBis.RateLimit
import Mathlib.Data.List.Induction

/-! # How many calls the rate limiter allows

Every call counts in a window of its key. Two windows of one key are either the
same or more than the window's length apart, and the entry in the map counts the
calls its window has allowed; an entry is only swept away once its window is over.
So a window allows at most the maximum, and a stretch of time no longer than the
window meets at most two of them.
-/

namespace AnatoliaBis

namespace RateLimiter

/-- One call of `check`, in a limiter whose calls share their window. -/
structure Check where
  key : String
  maxAttempts : Nat
  now : Nat
  deriving Repr, DecidableEq

/-- A call, the start of the window it counts in, and its answer. -/
structure Decision where
  call : Check
  started : Nat
  allowed : Bool
  deriving Repr, DecidableEq

section Calls

variable (window : Nat)

/-- What one call decides. -/
def decision (l : RateLimiter) (c : Check) : Decision :=
  ⟨c, (l.current c.key window c.now).started, (l.check c.key c.maxAttempts window c.now).2⟩

/-- The map after some calls. -/
def afterChecks (l : RateLimiter) (calls : List Check) : RateLimiter :=
  calls.foldl (fun l c => (l.check c.key c.maxAttempts window c.now).1) l

/-- The decisions of the calls, in their order. -/
def decisions : RateLimiter → List Check → List Decision
  | _, [] => []
  | l, c :: calls =>
      l.decision window c :: decisions (l.check c.key c.maxAttempts window c.now).1 calls

theorem afterChecks_append (l : RateLimiter) (calls calls' : List Check) :
    l.afterChecks window (calls ++ calls') =
      (l.afterChecks window calls).afterChecks window calls' :=
  List.foldl_append

theorem decisions_append (l : RateLimiter) (calls calls' : List Check) :
    l.decisions window (calls ++ calls') =
      l.decisions window calls ++ (l.afterChecks window calls).decisions window calls' := by
  induction calls generalizing l with
  | nil => rfl
  | cons c calls ih => exact congrArg _ (ih _)

end Calls

/-- The calls on `key` that were allowed from `a` to `b`. -/
def admitted (key : String) (log : List Decision) (a b : Nat) : Nat :=
  log.countP fun d => d.allowed && d.call.key == key && decide (a ≤ d.call.now) &&
    decide (d.call.now ≤ b)

/-- The calls on `key` that the window started at `started` has allowed. -/
def counted (key : String) (log : List Decision) (started : Nat) : Nat :=
  log.countP fun d => d.allowed && d.call.key == key && d.started == started

/-! ## What windows say about times

Of the calls on one key: each falls into its window, two windows are the same or
apart, and no window has allowed more than the maximum. -/

structure Windowed (window maxAttempts : Nat) (key : String) (log : List Decision) : Prop where
  inside : ∀ d ∈ log, d.call.key = key →
    d.started ≤ d.call.now ∧ d.call.now ≤ d.started + window
  apart : log.Pairwise fun d d' => d.call.key = key → d'.call.key = key →
    d.started = d'.started ∨ d.started + window < d'.started
  bounded : ∀ started, counted key log started ≤ maxAttempts

section Windowed

variable {window maxAttempts : Nat} {key : String} {log : List Decision}

theorem Windowed.nil : Windowed window maxAttempts key [] :=
  ⟨fun _ h => (nomatch h), List.Pairwise.nil, fun _ => Nat.zero_le maxAttempts⟩

/-- Two windows of one key, whichever call came first. -/
theorem Windowed.same_or_apart (h : Windowed window maxAttempts key log) {d d' : Decision}
    (hd : d ∈ log) (hd' : d' ∈ log) (hkey : d.call.key = key) (hkey' : d'.call.key = key) :
    d.started = d'.started ∨ d.started + window < d'.started ∨
      d'.started + window < d.started := by
  rcases List.mem_iff_append.mp hd with ⟨before, later, rfl⟩
  have hsplit := List.pairwise_append.mp h.apart
  rcases List.mem_append.mp hd' with hbefore | hlater
  · rcases hsplit.2.2 d' hbefore d (List.mem_cons_self ..) hkey' hkey with heq | hlt
    · exact Or.inl heq.symm
    · exact Or.inr (Or.inr hlt)
  · rcases List.mem_cons.mp hlater with rfl | hmem
    · exact Or.inl rfl
    · exact ((List.pairwise_cons.mp hsplit.2.1).1 d' hmem hkey hkey').imp_right Or.inl

/-- What a window's own stretch of time admits is what the window has allowed. -/
theorem Windowed.admitted_le (h : Windowed window maxAttempts key log) {d : Decision}
    (hd : d ∈ log) (hkey : d.call.key = key) :
    admitted key log d.started (d.started + window) ≤ maxAttempts := by
  refine Nat.le_trans (List.countP_mono_left fun d' hd' hin => ?_) (h.bounded d.started)
  simp only [Bool.and_eq_true, beq_iff_eq, decide_eq_true_eq] at hin ⊢
  rcases hin with ⟨⟨⟨hallowed, hkey'⟩, hfrom⟩, hto⟩
  refine ⟨⟨hallowed, hkey'⟩, ?_⟩
  have hinside := h.inside d' hd' hkey'
  rcases h.same_or_apart hd hd' hkey hkey' with heq | hlt | hgt
  · exact heq.symm
  · omega
  · omega

/-- A list whose elements take two values, neither of them more than `m` times. -/
theorem length_le_of_two_values {α : Type} {f : α → Nat} {l : List α} {m v w : Nat}
    (hcount : ∀ x, l.countP (fun a => f a == x) ≤ m) (htwo : ∀ a ∈ l, f a = v ∨ f a = w) :
    l.length ≤ 2 * m := by
  have hsum : l.length ≤ l.countP (fun a => f a == v) + l.countP (fun a => f a == w) := by
    clear hcount
    induction l with
    | nil => exact Nat.zero_le _
    | cons a l ih =>
        have ih := ih fun b hb => htwo b (List.mem_cons_of_mem a hb)
        have ha := htwo a (List.mem_cons_self ..)
        simp only [List.length_cons, List.countP_cons, beq_iff_eq]
        rcases ha with ha | ha
        · rw [if_pos ha]
          omega
        · rw [if_pos ha]
          omega
  have := hcount v
  have := hcount w
  omega

/-- **A stretch of time no longer than a window admits at most two windows' worth.** -/
theorem Windowed.admitted_le_two (h : Windowed window maxAttempts key log) {a b : Nat}
    (hab : b ≤ a + window) : admitted key log a b ≤ 2 * maxAttempts := by
  let hits := log.filter fun d => d.allowed && d.call.key == key && decide (a ≤ d.call.now) &&
    decide (d.call.now ≤ b)
  have hlength : admitted key log a b = hits.length := List.countP_eq_length_filter
  have hhit : ∀ d ∈ hits, d ∈ log ∧ d.call.key = key ∧ a ≤ d.call.now ∧ d.call.now ≤ b := by
    intro d hd
    rcases List.mem_filter.mp hd with ⟨hmem, hin⟩
    simp only [Bool.and_eq_true, beq_iff_eq, decide_eq_true_eq] at hin
    exact ⟨hmem, hin.1.1.2, hin.1.2, hin.2⟩
  -- what the hits count in one window, the log does too
  have hcount : ∀ started, hits.countP (fun d => d.started == started) ≤ maxAttempts := by
    intro started
    refine Nat.le_trans ?_ (h.bounded started)
    rw [List.countP_filter]
    refine List.countP_mono_left fun d _ hin => ?_
    simp only [Bool.and_eq_true, beq_iff_eq, decide_eq_true_eq] at hin ⊢
    exact ⟨hin.2.1.1, hin.1⟩
  have hinside : ∀ d ∈ hits, d.started ≤ d.call.now ∧ d.call.now ≤ d.started + window :=
    fun d hd => h.inside d (hhit d hd).1 (hhit d hd).2.1
  -- the first and the last of three windows would be too far apart
  have hthree : ∀ d ∈ hits, ∀ d' ∈ hits, ∀ d'' ∈ hits, d.started = d'.started ∨
      d.started = d''.started ∨ d'.started = d''.started := by
    intro d hd d' hd' d'' hd''
    have hdd' := h.same_or_apart (hhit d hd).1 (hhit d' hd').1 (hhit d hd).2.1 (hhit d' hd').2.1
    have hdd'' :=
      h.same_or_apart (hhit d hd).1 (hhit d'' hd'').1 (hhit d hd).2.1 (hhit d'' hd'').2.1
    have hd'd'' :=
      h.same_or_apart (hhit d' hd').1 (hhit d'' hd'').1 (hhit d' hd').2.1 (hhit d'' hd'').2.1
    have hin := hinside d hd
    have hin' := hinside d' hd'
    have hin'' := hinside d'' hd''
    have := (hhit d hd).2.2
    have := (hhit d' hd').2.2
    have := (hhit d'' hd'').2.2
    omega
  rw [hlength]
  by_cases hone : ∃ d ∈ hits, ∃ d' ∈ hits, d.started ≠ d'.started
  · rcases hone with ⟨d, hd, d', hd', hne⟩
    refine length_le_of_two_values (f := (·.started)) hcount (v := d.started) (w := d'.started) ?_
    intro x hx
    rcases hthree x hx d hd d' hd' with heq | heq | heq
    · exact Or.inl heq
    · exact Or.inr heq
    · exact absurd heq hne
  · push Not at hone
    cases hhits : hits with
    | nil => exact Nat.zero_le _
    | cons d _ =>
        rw [← hhits]
        have hd : d ∈ hits := hhits ▸ List.mem_cons_self ..
        exact length_le_of_two_values (f := (·.started)) hcount (v := d.started)
          (w := d.started) fun x hx => Or.inl (hone x hx d hd)

end Windowed

/-! ## What the map remembers

The entry of the key, against the decisions so far: it counts what its window has
allowed, and every other window of the key is over. Without an entry all are. -/

structure Remembers (window : Nat) (key : String) (l : RateLimiter) (log : List Decision)
    (now : Nat) : Prop where
  running : ∀ w ∈ l.get key, w.started ≤ now ∧ w.count = counted key log w.started ∧
    (∃ d ∈ log, d.call.key = key ∧ d.started = w.started) ∧
    ∀ d ∈ log, d.call.key = key → d.started = w.started ∨ d.started + window < w.started
  idle : l.get key = none → ∀ d ∈ log, d.call.key = key → d.started + window < now

section Remembers

variable {window maxAttempts now : Nat} {key : String} {l : RateLimiter} {log : List Decision}

theorem Remembers.new : Remembers window key new [] now :=
  ⟨fun _ h => (nomatch h), fun _ _ h => (nomatch h)⟩

theorem Remembers.mono (h : Remembers window key l log now) {now' : Nat} (hle : now ≤ now') :
    Remembers window key l log now' where
  running w hw := ⟨Nat.le_trans (h.running w hw).1 hle, (h.running w hw).2⟩
  idle hnone d hd hkey := Nat.lt_of_lt_of_le (h.idle hnone d hd hkey) hle

/-- A window no call has counted in has allowed nothing. -/
theorem counted_eq_zero {started : Nat}
    (h : ∀ d ∈ log, d.call.key = key → d.started ≠ started) : counted key log started = 0 := by
  refine List.countP_eq_zero.mpr fun d hd hin => ?_
  simp only [Bool.and_eq_true, beq_iff_eq] at hin
  exact h d hd hin.1.2 hin.2

/-- The window a call counts in. -/
theorem Remembers.current (h : Remembers window key l log now) :
    let w := l.current key window now
    (w.started ≤ now ∧ now ≤ w.started + window) ∧ w.count = counted key log w.started ∧
      ∀ d ∈ log, d.call.key = key → d.started = w.started ∨ d.started + window < w.started := by
  -- a window that starts now, when all others are over
  have hfresh : (∀ d ∈ log, d.call.key = key → d.started + window < now) →
      (now ≤ now ∧ now ≤ now + window) ∧ 0 = counted key log now ∧
        ∀ d ∈ log, d.call.key = key → d.started = now ∨ d.started + window < now := by
    intro hover
    refine ⟨⟨Nat.le_refl now, Nat.le_add_right now window⟩, ?_, fun d hd hk =>
      Or.inr (hover d hd hk)⟩
    exact (counted_eq_zero fun d hd hk => by have := hover d hd hk; omega).symm
  cases hget : l.get key with
  | none =>
      have hcur : l.current key window now = ⟨0, now⟩ := by
        rcases l.current_cases key window now with hc | hc
        · rw [hget] at hc
          cases hc
        · exact hc
      rw [hcur]
      exact hfresh (h.idle hget)
  | some w =>
      rcases h.running w (Option.mem_def.mpr hget) with ⟨hstart, hcount, -, hothers⟩
      rw [current_of_get hget]
      split_ifs with hyoung
      · exact ⟨⟨hstart, by omega⟩, hcount, hothers⟩
      · refine hfresh fun d hd hk => ?_
        rcases hothers d hd hk with heq | hlt <;> omega

theorem counted_append (d : Decision) (started : Nat) :
    counted key (log ++ [d]) started =
      counted key log started +
        if d.allowed = true ∧ d.call.key = key ∧ d.started = started then 1 else 0 := by
  simp [counted, List.countP_append, List.countP_singleton, and_assoc]

/-- **One call**: the map and the decisions stay in step. -/
theorem Remembers.step (h : Remembers window key l log now) (c : Check) (hnow : c.now = now) :
    Remembers window key (l.check c.key c.maxAttempts window c.now).1
      (log ++ [l.decision window c]) now := by
  subst hnow
  by_cases hkey : c.key = key
  · -- a call on the key itself
    subst hkey
    rcases h.current with ⟨hinside, hcount, hothers⟩
    have hmem : ∀ d ∈ log ++ [l.decision window c], d.call.key = c.key →
        d.started = (l.current c.key window c.now).started ∨
          d.started + window < (l.current c.key window c.now).started := by
      intro d hd hk
      rcases List.mem_append.mp hd with hd | hd
      · exact hothers d hd hk
      · rw [List.mem_singleton.mp hd]
        exact Or.inl rfl
    have hlast : ∃ d ∈ log ++ [l.decision window c], d.call.key = c.key ∧
        d.started = (l.current c.key window c.now).started :=
      ⟨l.decision window c, by simp, rfl, rfl⟩
    rcases l.get_check_self c.key c.maxAttempts window c.now with
      ⟨hallowed, -, hget⟩ | ⟨hrefused, hget⟩
    · refine ⟨fun w hw => ?_, fun hnone => by rw [hget] at hnone; cases hnone⟩
      rw [hget] at hw
      rcases Option.mem_some_iff.mp hw with rfl
      refine ⟨hinside.1, ?_, hlast, hmem⟩
      rw [counted_append, if_pos ⟨hallowed, rfl, rfl⟩, hcount]
    · refine ⟨fun w hw => ?_, fun hnone => by rw [hget] at hnone; cases hnone⟩
      rw [hget] at hw
      rcases Option.mem_some_iff.mp hw with rfl
      refine ⟨hinside.1, ?_, hlast, hmem⟩
      have hnot : ¬ ((l.decision window c).allowed = true ∧
          (l.decision window c).call.key = c.key ∧
          (l.decision window c).started = (l.current c.key window c.now).started) := by
        rintro ⟨hyes, -⟩
        rw [decision, hrefused] at hyes
        cases hyes
      rw [counted_append, if_neg hnot, Nat.add_zero, hcount]
  · -- a call on another key keeps the entry, or sweeps it away
    have hold : ∀ {P : Decision → Prop}, (∀ d ∈ log, d.call.key = key → P d) →
        ∀ d ∈ log ++ [l.decision window c], d.call.key = key → P d := by
      intro P hP d hd hk
      rcases List.mem_append.mp hd with hd | hd
      · exact hP d hd hk
      · rw [List.mem_singleton.mp hd] at hk
        exact absurd hk hkey
    have hcounted : ∀ started, counted key (log ++ [l.decision window c]) started =
        counted key log started := by
      intro started
      rw [counted_append, if_neg fun hin => hkey hin.2.1]
      rfl
    rcases get_check_other_cases (l := l) (k := key) (Ne.symm hkey) c.maxAttempts window c.now with
      hget | ⟨hget, hover⟩
    · refine ⟨fun w hw => ?_, fun hnone => hold (h.idle (hget.symm.trans hnone))⟩
      rcases h.running w (hget ▸ hw) with ⟨hstart, hcount, ⟨d, hd, hk, hsame⟩, hothers⟩
      refine ⟨hstart, hcount.trans (hcounted w.started).symm, ?_, hold hothers⟩
      exact ⟨d, List.mem_append_left _ hd, hk, hsame⟩
    · refine ⟨fun w hw => ?_, fun _ => hold fun d hd hk => ?_⟩
      · rw [hget] at hw
        cases hw
      · cases hentry : l.get key with
        | none => exact h.idle hentry d hd hk
        | some w =>
            have hlate := hover w (Option.mem_def.mpr hentry)
            rcases (h.running w (Option.mem_def.mpr hentry)).2.2.2 d hd hk with heq | hlt <;> omega

/-- The new decision keeps to the windows. -/
theorem Windowed.step (hwin : Windowed window maxAttempts key log)
    (h : Remembers window key l log now) (c : Check) (hnow : c.now = now)
    (hmax : c.key = key → c.maxAttempts = maxAttempts) :
    Windowed window maxAttempts key (log ++ [l.decision window c]) := by
  subst hnow
  refine ⟨fun d hd hk => ?_, ?_, fun started => ?_⟩
  · rcases List.mem_append.mp hd with hd | hd
    · exact hwin.inside d hd hk
    · rw [List.mem_singleton.mp hd] at hk ⊢
      subst hk
      exact h.current.1
  · refine List.pairwise_append.mpr ⟨hwin.apart, List.pairwise_singleton _ _, ?_⟩
    intro d hd d' hd' hk hk'
    rw [List.mem_singleton.mp hd'] at hk' ⊢
    subst hk'
    exact h.current.2.2 d hd hk
  · rw [counted_append]
    split_ifs with hin
    · -- allowed, so the window had one call left
      rcases hin with ⟨hallowed, hk, rfl⟩
      subst hk
      rcases l.get_check_self c.key c.maxAttempts window c.now with ⟨-, hlt, -⟩ | ⟨hrefused, -⟩
      · have hlt' : (l.current c.key window c.now).count < maxAttempts := hmax rfl ▸ hlt
        have hcount : (l.current c.key window c.now).count = _ := h.current.2.1
        rw [hcount] at hlt'
        exact hlt'
      · rw [decision, hrefused] at hallowed
        cases hallowed
    · exact hwin.bounded started

end Remembers

/-! ## Runs -/

section Runs

variable {window maxAttempts : Nat} {key : String}

theorem call_mem_of_mem_decisions {l : RateLimiter} {calls : List Check} {d : Decision}
    (h : d ∈ l.decisions window calls) : d.call ∈ calls := by
  induction calls generalizing l with
  | nil => cases h
  | cons c calls ih =>
      rcases List.mem_cons.mp h with rfl | h
      · exact List.mem_cons_self ..
      · exact List.mem_cons_of_mem c (ih h)

theorem exists_instant (calls : List Check) : ∃ now, ∀ c ∈ calls, c.now ≤ now := by
  induction calls with
  | nil => exact ⟨0, fun _ h => (nomatch h)⟩
  | cons c calls ih =>
      rcases ih with ⟨now, hnow⟩
      refine ⟨c.now + now, fun c' hc' => ?_⟩
      rcases List.mem_cons.mp hc' with rfl | hc'
      · exact Nat.le_add_right _ now
      · exact Nat.le_trans (hnow c' hc') (Nat.le_add_left now _)

variable (window) in
/-- Over a run the decisions keep to the windows, and the map remembers them. -/
theorem run_invariant (calls : List Check) (htimes : calls.Pairwise fun c c' => c.now ≤ c'.now)
    (hmax : ∀ c ∈ calls, c.key = key → c.maxAttempts = maxAttempts) :
    Windowed window maxAttempts key (new.decisions window calls) ∧
      ∀ now, (∀ c ∈ calls, c.now ≤ now) →
        Remembers window key (new.afterChecks window calls) (new.decisions window calls) now := by
  induction calls using List.reverseRecOn with
  | nil => exact ⟨Windowed.nil, fun _ _ => Remembers.new⟩
  | append_singleton calls c ih =>
      rcases List.pairwise_append.mp htimes with ⟨hcalls, -, hlast⟩
      rcases ih hcalls fun c' hc' => hmax c' (List.mem_append_left _ hc') with ⟨hwin, hrem⟩
      have hrem := hrem c.now fun c' hc' => hlast c' hc' c (List.mem_singleton_self c)
      have hlog : new.decisions window (calls ++ [c]) =
          new.decisions window calls ++ [(new.afterChecks window calls).decision window c] :=
        decisions_append window new calls [c]
      have hmap : new.afterChecks window (calls ++ [c]) =
          ((new.afterChecks window calls).check c.key c.maxAttempts window c.now).1 :=
        afterChecks_append window new calls [c]
      rw [hlog, hmap]
      refine ⟨hwin.step hrem c rfl (hmax c (by simp)), fun now hnow => ?_⟩
      exact (hrem.step c rfl).mono (hnow c (by simp))

/-- **The rate bound**: what a window admits from its start on, what any stretch of
time admits that is no longer than a window, and what was admitted before a
refusal. -/
theorem rate_bound (window maxAttempts : Nat) (key : String) (calls : List Check)
    (htimes : calls.Pairwise fun c c' => c.now ≤ c'.now)
    (hmax : ∀ c ∈ calls, c.key = key → c.maxAttempts = maxAttempts) :
    (∀ before rest, calls = before ++ rest → ∀ w ∈ (new.afterChecks window before).get key,
      admitted key (new.decisions window calls) w.started (w.started + window) ≤ maxAttempts) ∧
    (∀ a b, b ≤ a + window → admitted key (new.decisions window calls) a b ≤ 2 * maxAttempts) ∧
    ∀ before c rest, calls = before ++ c :: rest → c.key = key →
      ((new.afterChecks window before).check c.key c.maxAttempts window c.now).2 = false →
      maxAttempts ≤ admitted key (new.decisions window before) (c.now - window) c.now := by
  have hwin := (run_invariant window calls htimes hmax).1
  refine ⟨?_, fun a b hab => hwin.admitted_le_two hab, ?_⟩
  · rintro before rest rfl w hw
    rcases List.pairwise_append.mp htimes with ⟨hbefore, -, -⟩
    have hrem := (run_invariant window before hbefore
      fun c hc => hmax c (List.mem_append_left _ hc)).2
    rcases exists_instant before with ⟨now, hnow⟩
    rcases ((hrem now hnow).running w hw).2.2.1 with ⟨d, hd, hkey, hstarted⟩
    rw [← hstarted]
    refine hwin.admitted_le ?_ hkey
    rw [decisions_append]
    exact List.mem_append_left _ hd
  · rintro before c rest rfl rfl hrefused
    rcases List.pairwise_append.mp htimes with ⟨hbefore, -, hcross⟩
    have hearlier : ∀ c' ∈ before, c'.now ≤ c.now :=
      fun c' hc' => hcross c' hc' c (List.mem_cons_self ..)
    have hinv := run_invariant window before hbefore
      fun c' hc' => hmax c' (List.mem_append_left _ hc')
    have hcurrent := (hinv.2 c.now hearlier).current
    rcases (new.afterChecks window before).check_cases c.key c.maxAttempts window c.now with
      ⟨-, hc⟩ | ⟨hfull, -⟩
    · rw [hc] at hrefused
      cases hrefused
    · rw [hmax c (by simp) rfl, hcurrent.2.1] at hfull
      refine Nat.le_trans hfull (List.countP_mono_left fun d hd hin => ?_)
      simp only [Bool.and_eq_true, beq_iff_eq, decide_eq_true_eq] at hin ⊢
      have hinside := hinv.1.inside d hd hin.1.2
      have := hearlier d.call (call_mem_of_mem_decisions hd)
      refine ⟨⟨hin.1, ?_⟩, this⟩
      omega

end Runs

/-- Three calls on one key within the window, one on another key in between. -/
def sampleChecks : List Check :=
  [⟨"login-account:OP-1", 2, 0⟩, ⟨"login:10.0.0.1:OP-1", 5, 1⟩, ⟨"login-account:OP-1", 2, 2⟩,
    ⟨"login-account:OP-1", 2, 3⟩]

theorem rate_bound_sample :
    (∀ a b, b ≤ a + 10 →
      admitted "login-account:OP-1" (new.decisions 10 sampleChecks) a b ≤ 2 * 2) ∧
    2 ≤ admitted "login-account:OP-1" (new.decisions 10 (sampleChecks.take 3)) (3 - 10) 3 := by
  have h := rate_bound 10 2 "login-account:OP-1" sampleChecks (by decide) (by decide)
  exact ⟨h.2.1, h.2.2 (sampleChecks.take 3) ⟨"login-account:OP-1", 2, 3⟩ [] rfl rfl (by decide)⟩

end RateLimiter

end AnatoliaBis
