import AnatoliaBis.RateLimit

/-! # Keys of the rate limiter

One map serves every key, and a call that finds it large sweeps it by the window of
its own key. Which calls on other keys a key notices.
-/

namespace AnatoliaBis

namespace RateLimiter

/-- What a key is always used with. -/
structure Limit where
  maxAttempts : Nat
  window : Nat

/-- One call of `check`, at the instant `now`. -/
structure Attempt where
  key : String
  now : Nat
  deriving DecidableEq

section Calls

variable (limits : String → Limit)

def attempt (l : RateLimiter) (a : Attempt) : RateLimiter × Bool :=
  l.check a.key (limits a.key).maxAttempts (limits a.key).window a.now

/-- The map after some calls. -/
def afterCalls (l : RateLimiter) (calls : List Attempt) : RateLimiter :=
  calls.foldl (fun l a => (attempt limits l a).1) l

/-- The calls, each with its answer. -/
def answers : RateLimiter → List Attempt → List (Attempt × Bool)
  | _, [] => []
  | l, a :: calls => (a, (attempt limits l a).2) :: answers (attempt limits l a).1 calls

/-- The entry of `k`, if its window is still running. -/
def running (k : String) (now : Nat) (l : RateLimiter) : Option Window :=
  (l.get k).filter fun w => decide (now - w.started ≤ (limits k).window)

/-- If the call sweeps the map, it leaves a window of `k` that is still running. -/
def Spares (k : String) (l : RateLimiter) (a : Attempt) : Prop :=
  l.windows.length > sweepSize → ∀ w ∈ running limits k a.now l,
    a.now - w.started ≤ (limits a.key).window

/-- All calls of a sequence do. -/
def SparesAll (k : String) : RateLimiter → List Attempt → Prop
  | _, [] => True
  | l, a :: calls => Spares limits k l a ∧ SparesAll k (attempt limits l a).1 calls

variable {limits} {l l' : RateLimiter} {k : String} {now : Nat} {a : Attempt}

@[simp] theorem answers_cons (calls : List Attempt) :
    answers limits l (a :: calls) =
      (a, (attempt limits l a).2) :: answers limits (attempt limits l a).1 calls := rfl

theorem answers_append (calls calls' : List Attempt) :
    answers limits l (calls ++ calls') =
      answers limits l calls ++ answers limits (afterCalls limits l calls) calls' := by
  induction calls generalizing l with
  | nil => rfl
  | cons a calls ih => exact congrArg _ ih

theorem afterCalls_append (calls calls' : List Attempt) :
    afterCalls limits l (calls ++ calls') =
      afterCalls limits (afterCalls limits l calls) calls' :=
  List.foldl_append

/-! ## One key through one call -/

/-- A call counts in the running window of its key, or in a new one. -/
theorem current_eq_running :
    l.current k (limits k).window now = (running limits k now l).getD ⟨0, now⟩ := by
  unfold running
  cases hget : l.get k with
  | none =>
      rcases l.current_cases k (limits k).window now with h | h
      · rw [hget] at h
        cases h
      · exact h
  | some w =>
      rw [current_of_get hget, Option.filter_some]
      by_cases hrunning : now - w.started ≤ (limits k).window
      · rw [if_pos hrunning, if_pos (decide_eq_true hrunning), Option.getD_some]
      · rw [if_neg hrunning, if_neg (by simpa using hrunning), Option.getD_none]

/-- Only the running window matters to a call on the key itself. -/
theorem attempt_congr (h : running limits a.key a.now l = running limits a.key a.now l') :
    (attempt limits l a).2 = (attempt limits l' a).2 ∧
      (attempt limits l a).1.get a.key = (attempt limits l' a).1.get a.key := by
  have hcurrent : l.current a.key (limits a.key).window a.now =
      l'.current a.key (limits a.key).window a.now := by
    rw [current_eq_running, current_eq_running, h]
  unfold attempt
  rcases l.check_cases a.key (limits a.key).maxAttempts (limits a.key).window a.now with
    ⟨hlt, hc⟩ | ⟨hle, hc⟩
  · rcases l'.check_cases a.key (limits a.key).maxAttempts (limits a.key).window a.now with
      ⟨-, hc'⟩ | ⟨hle', -⟩
    · rw [hc, hc', get_set_self, get_set_self, hcurrent]
      exact ⟨rfl, rfl⟩
    · rw [hcurrent] at hlt
      omega
  · rcases l'.check_cases a.key (limits a.key).maxAttempts (limits a.key).window a.now with
      ⟨hlt', -⟩ | ⟨-, hc'⟩
    · rw [hcurrent] at hle
      omega
    · rw [hc, hc', get_set_self, get_set_self, hcurrent]
      exact ⟨rfl, rfl⟩

/-- A call on another key that spares the running window leaves it. -/
theorem running_attempt_other (hk : k ≠ a.key) (hspares : Spares limits k l a) :
    running limits k a.now (attempt limits l a).1 = running limits k a.now l := by
  have hget : (attempt limits l a).1.get k =
      (l.swept (limits a.key).window a.now).get k := by
    unfold attempt
    rcases l.check_cases a.key (limits a.key).maxAttempts (limits a.key).window a.now with
      ⟨-, hc⟩ | ⟨-, hc⟩
    · rw [hc, get_set_of_ne hk]
    · rw [hc, get_set_of_ne hk]
  unfold running
  rw [hget]
  by_cases hsweeps : l.windows.length > sweepSize
  · have hkept := hspares hsweeps
    unfold running at hkept
    rw [swept, if_pos hsweeps, get_retain]
    cases hentry : l.get k with
    | none => rfl
    | some w =>
        rw [hentry, Option.filter_some] at hkept
        rw [Option.filter_some, Option.filter_some]
        by_cases hrunning : a.now - w.started ≤ (limits k).window
        · -- running by its own window, and so not swept
          rw [if_pos (decide_eq_true hrunning)] at hkept ⊢
          rw [if_pos (decide_eq_true (hkept w rfl)), Option.filter_some,
            if_pos (decide_eq_true hrunning)]
        · have hexpired : ¬ decide (a.now - w.started ≤ (limits k).window) = true := by
            simpa using hrunning
          rw [if_neg hexpired]
          split_ifs
          · rw [Option.filter_some, if_neg hexpired]
          · rfl
  · rw [swept, if_neg hsweeps]

/-- A window that runs later runs now. -/
theorem running_later {later : Nat} (hle : now ≤ later) :
    running limits k later l =
      (running limits k now l).filter fun w => decide (later - w.started ≤ (limits k).window) := by
  unfold running
  cases l.get k with
  | none => rfl
  | some w =>
      rw [Option.filter_some, Option.filter_some]
      by_cases hlater : later - w.started ≤ (limits k).window
      · have hnow : now - w.started ≤ (limits k).window := by omega
        rw [if_pos (decide_eq_true hlater), if_pos (decide_eq_true hnow), Option.filter_some,
          if_pos (decide_eq_true hlater)]
      · have hexpired : ¬ decide (later - w.started ≤ (limits k).window) = true := by
          simpa using hlater
        rw [if_neg hexpired]
        split_ifs
        · rw [Option.filter_some, if_neg hexpired]
        · rfl

/-! ## A key by itself -/

/-- Two limiters in which the running window of `k` is the same answer calls on `k`
alike, whatever else is called on the first one. -/
theorem answers_alone (calls : List Attempt) (hsorted : calls.Pairwise fun a b => a.now ≤ b.now)
    (hfrom : ∀ a ∈ calls, now ≤ a.now) (h : running limits k now l = running limits k now l')
    (hspares : SparesAll limits k l calls) :
    (answers limits l calls).filter (fun answer => answer.1.key = k) =
      answers limits l' (calls.filter fun a => a.key = k) := by
  induction calls generalizing l l' now with
  | nil => rfl
  | cons a calls ih =>
      rcases List.pairwise_cons.mp hsorted with ⟨hhead, htail⟩
      rcases hspares with ⟨hspare, hrest⟩
      have hnow : running limits k a.now l = running limits k a.now l' := by
        have hle := hfrom a (List.mem_cons_self ..)
        rw [running_later hle, running_later hle, h]
      rw [answers_cons]
      by_cases hkey : a.key = k
      · subst hkey
        rcases attempt_congr hnow with ⟨hanswer, hget⟩
        have hafter : running limits a.key a.now (attempt limits l a).1 =
            running limits a.key a.now (attempt limits l' a).1 := by
          unfold running
          rw [hget]
        rw [List.filter_cons_of_pos (by simp), List.filter_cons_of_pos (by simp), answers_cons,
          hanswer, ih htail hhead hafter hrest]
      · rw [List.filter_cons_of_neg (by simpa using hkey),
          List.filter_cons_of_neg (by simpa using hkey)]
        refine ih htail hhead ?_ hrest
        rw [running_attempt_other (Ne.symm hkey) hspare, hnow]

/-- **Independence of keys.** Calls at non-decreasing times, every key with its own
maximum and window: if no call sweeps a running window of `k` away, the answers on
`k` are those of a fresh limiter that only sees the calls on `k`. -/
theorem keys_independent (limits : String → Limit) (k : String) (calls : List Attempt)
    (hsorted : calls.Pairwise fun a b => a.now ≤ b.now)
    (hspares : SparesAll limits k new calls) :
    (answers limits new calls).filter (fun answer => answer.1.key = k) =
      answers limits new (calls.filter fun a => a.key = k) :=
  answers_alone calls hsorted (fun a _ => Nat.zero_le a.now) rfl hspares

end Calls

/-! ## A key that is not left alone -/

section Flood

variable {limits : String → Limit} {l : RateLimiter} {now : Nat}

/-- Calls on keys the map has not seen, all at one instant. -/
def flood (names : List String) (now : Nat) : List Attempt := names.map fun key => ⟨key, now⟩

/-- One new key is one entry more. -/
theorem check_new {key : String} (hnone : l.get key = none)
    (hstarted : ∀ e ∈ l.windows, e.2.started = now) (maxAttempts window : Nat) :
    (l.check key maxAttempts window now).1.windows.length = l.windows.length + 1 ∧
      (∀ e ∈ (l.check key maxAttempts window now).1.windows, e.2.started = now) ∧
      ∀ k ≠ key, (l.check key maxAttempts window now).1.get k = l.get k := by
  -- nothing is old enough to be swept
  have hswept : l.swept window now = l := by
    unfold swept
    split_ifs
    · have hall : l.windows.filter (fun e => decide (now - e.2.started ≤ window)) = l.windows := by
        apply List.filter_eq_self.mpr
        intro e he
        rw [hstarted e he]
        simp
      unfold retain
      congr
    · rfl
  have hcurrent : l.current key window now = ⟨0, now⟩ := by
    rcases l.current_cases key window now with h | h
    · rw [hnone] at h
      cases h
    · exact h
  have hset : ∃ w : Window, w.started = now ∧
      (l.check key maxAttempts window now).1 = l.set key w := by
    rcases l.check_cases key maxAttempts window now with ⟨-, hc⟩ | ⟨-, hc⟩
    · rw [hc, hswept, hcurrent]
      exact ⟨_, rfl, rfl⟩
    · rw [hc, hswept, hcurrent]
      exact ⟨_, rfl, rfl⟩
  rcases hset with ⟨w, hw, hset⟩
  have hfilter : (l.windows.filter fun e => e.1 != key) = l.windows := by
    apply List.filter_eq_self.mpr
    intro e he
    have hne := List.lookup_eq_none_iff.mp hnone e he
    exact bne_iff_ne.mpr (Ne.symm (bne_iff_ne.mp hne))
  rw [hset]
  refine ⟨?_, ?_, fun k hk => get_set_of_ne hk w⟩
  · show ((key, w) :: l.windows.filter fun e => e.1 != key).length = _
    rw [hfilter, List.length_cons]
  · show ∀ e ∈ (key, w) :: l.windows.filter fun e => e.1 != key, e.2.started = now
    intro e he
    rw [hfilter] at he
    rcases List.mem_cons.mp he with rfl | he
    · exact hw
    · exact hstarted e he

theorem afterCalls_flood (names : List String) (hnodup : names.Nodup)
    (hnew : ∀ name ∈ names, l.get name = none) (hstarted : ∀ e ∈ l.windows, e.2.started = now) :
    (afterCalls limits l (flood names now)).windows.length = l.windows.length + names.length ∧
      ∀ e ∈ (afterCalls limits l (flood names now)).windows, e.2.started = now := by
  induction names generalizing l with
  | nil => exact ⟨rfl, hstarted⟩
  | cons name names ih =>
      rcases List.nodup_cons.mp hnodup with ⟨hname, hnodup'⟩
      have hnone := hnew name (List.mem_cons_self ..)
      rcases check_new hnone hstarted (limits name).maxAttempts (limits name).window with
        ⟨hlength, hstarted', hget⟩
      have hrest := ih (l := (attempt limits l ⟨name, now⟩).1) hnodup' (fun other hother => ?_)
        hstarted'
      · rcases hrest with ⟨hlen, hall⟩
        refine ⟨?_, hall⟩
        show (afterCalls limits (attempt limits l ⟨name, now⟩).1 (flood names now)).windows.length = _
        rw [hlen]
        show (l.check name (limits name).maxAttempts (limits name).window now).1.windows.length +
          names.length = _
        rw [hlength, List.length_cons]
        omega
      · have hne : other ≠ name := fun h => hname (h ▸ hother)
        exact (hget other hne).trans (hnew other (List.mem_cons_of_mem _ hother))

/-- A large map is swept by the window of whoever calls. -/
theorem get_swept_all {window : Nat} (hlarge : l.windows.length > sweepSize)
    (hstarted : ∀ e ∈ l.windows, window < now - e.2.started) (k : String) :
    (l.swept window now).get k = none := by
  rw [swept, if_pos hlarge, get_retain]
  cases hget : l.get k with
  | none => rfl
  | some w =>
      rcases List.lookup_eq_some_iff.mp hget with ⟨before, later, hwindows, -⟩
      have hlate : window < now - w.started := hstarted (k, w) (by rw [hwindows]; simp)
      rw [Option.filter_some, if_neg]
      intro hkept
      have hyoung := of_decide_eq_true hkept
      omega

/-- The key starts again. -/
theorem attempt_after_sweep {a b : Attempt} (hne : b.key ≠ a.key)
    (hnone : (l.swept (limits a.key).window a.now).get b.key = none)
    (hmax : 0 < (limits b.key).maxAttempts) :
    (attempt limits (attempt limits l a).1 b).2 = true := by
  have hget : (attempt limits l a).1.get b.key = none := by
    unfold attempt
    rcases l.check_cases a.key (limits a.key).maxAttempts (limits a.key).window a.now with
      ⟨-, hc⟩ | ⟨-, hc⟩
    · rw [hc, get_set_of_ne hne, hnone]
    · rw [hc, get_set_of_ne hne, hnone]
  generalize (attempt limits l a).1 = l' at hget
  have hcurrent : l'.current b.key (limits b.key).window b.now = ⟨0, b.now⟩ := by
    rcases l'.current_cases b.key (limits b.key).window b.now with h | h
    · rw [hget] at h
      cases h
    · exact h
  rcases l'.check_cases b.key (limits b.key).maxAttempts (limits b.key).window b.now with
    ⟨-, hc⟩ | ⟨hle, -⟩
  · unfold attempt
    rw [hc]
  · rw [hcurrent] at hle
    have hzero : (limits b.key).maxAttempts ≤ 0 := hle
    omega

end Flood

/-- The limits of `login` on accounts, and on bursts from one address. -/
def sampleLimits (key : String) : Limit :=
  if key = "login-burst:10.0.0.1" then ⟨10, Timestamp.seconds 60⟩
  else ⟨10, Timestamp.minutes 15⟩

def sampleKey : String := "login-account:OP-1"

/-- Keys of codes that nobody has. -/
def sampleNames (n : Nat) : List String :=
  (List.range n).map fun i => String.ofList ("login-account:".toList ++ List.replicate i 'X')

theorem sampleNames_nodup (n : Nat) : (sampleNames n).Nodup := by
  refine List.nodup_range.map ?_
  intro i j h
  have hlist := congrArg List.length (String.ofList_injective h)
  simpa using hlist

theorem sampleKey_notMem (n : Nat) : sampleKey ∉ sampleNames n := by
  intro h
  rcases List.mem_map.mp h with ⟨i, -, hi⟩
  have hmem : 'O' ∈ sampleKey.toList := by decide
  rw [← hi, String.toList_ofList] at hmem
  rcases List.mem_append.mp hmem with hmem | hmem
  · exact absurd hmem (by decide)
  · have := List.eq_of_mem_replicate hmem
    exact absurd this (by decide)

/-- Ten attempts on one account and one on each of many others. -/
def sampleTraffic : List Attempt :=
  List.replicate 10 ⟨sampleKey, 0⟩ ++ flood (sampleNames sweepSize) 0

theorem sampleTraffic_instant : ∀ a ∈ sampleTraffic, a.now = 0 := by
  intro a ha
  rcases List.mem_append.mp ha with ha | ha
  · rw [List.eq_of_mem_replicate ha]
  · rcases List.mem_map.mp ha with ⟨name, -, rfl⟩
    rfl

/-- One entry for the account and one for each of the others. -/
theorem afterCalls_sampleTraffic :
    (afterCalls sampleLimits new sampleTraffic).windows.length = sweepSize + 1 ∧
      ∀ e ∈ (afterCalls sampleLimits new sampleTraffic).windows, e.2.started = 0 := by
  have hten : (afterCalls sampleLimits new (List.replicate 10 ⟨sampleKey, 0⟩)).windows =
      [(sampleKey, ⟨10, 0⟩)] := by decide +kernel
  unfold sampleTraffic
  rw [afterCalls_append]
  generalize afterCalls sampleLimits new (List.replicate 10 ⟨sampleKey, 0⟩) = l at hten
  have hnew : ∀ name ∈ sampleNames sweepSize, l.get name = none := by
    intro name hname
    have hne : name ≠ sampleKey := fun h => sampleKey_notMem sweepSize (h ▸ hname)
    unfold get
    rw [hten, List.lookup_cons, beq_eq_false_iff_ne.mpr hne, List.lookup_nil]
  have hstarted : ∀ e ∈ l.windows, e.2.started = 0 := by
    intro e he
    rw [hten] at he
    rw [List.mem_singleton.mp he]
  rcases afterCalls_flood (sampleNames sweepSize) (sampleNames_nodup sweepSize) hnew hstarted with
    ⟨hlength, hall⟩
  refine ⟨?_, hall⟩
  have hnames : (sampleNames sweepSize).length = sweepSize := by
    rw [sampleNames, List.length_map, List.length_range]
  rw [hlength, hten, hnames, List.length_singleton, Nat.add_comm]

/-- The calls of `sampleTraffic` on the account are the ten. -/
theorem filter_sampleTraffic :
    (sampleTraffic.filter fun a => a.key = sampleKey) = List.replicate 10 ⟨sampleKey, 0⟩ := by
  have hothers : ((flood (sampleNames sweepSize) 0).filter fun a => a.key = sampleKey) = [] := by
    apply List.filter_eq_nil_iff.mpr
    intro a ha hkey
    rcases List.mem_map.mp ha with ⟨name, hname, rfl⟩
    exact sampleKey_notMem sweepSize (of_decide_eq_true hkey ▸ hname)
  unfold sampleTraffic
  rw [List.filter_append, hothers, List.append_nil]
  rfl

/-- A minute later one from some address, and an eleventh on the account. -/
def sampleBurst : Attempt := ⟨"login-burst:10.0.0.1", Timestamp.seconds 61⟩

def sampleAgain : Attempt := ⟨sampleKey, Timestamp.seconds 61⟩

def sampleFlood : List Attempt := sampleTraffic ++ [sampleBurst, sampleAgain]

/-- The account alone is still refused; after the sweep it is not. -/
theorem flood_resets :
    (sampleFlood.Pairwise fun a b => a.now ≤ b.now) ∧
      (answers sampleLimits new sampleFlood).filter (fun answer => answer.1.key = sampleKey) ≠
        answers sampleLimits new (sampleFlood.filter fun a => a.key = sampleKey) := by
  constructor
  · unfold sampleFlood
    refine List.pairwise_append.mpr ⟨?_, by decide, ?_⟩
    · apply List.pairwise_of_forall_mem_list
      intro a ha b hb
      exact Nat.le_of_eq ((sampleTraffic_instant a ha).trans (sampleTraffic_instant b hb).symm)
    · intro a ha b _
      rw [sampleTraffic_instant a ha]
      exact Nat.zero_le b.now
  · intro heq
    have hlast := congrArg List.getLast? heq
    -- in the traffic the sweep has made room
    have hflooded : (attempt sampleLimits (attempt sampleLimits
        (afterCalls sampleLimits new sampleTraffic) sampleBurst).1 sampleAgain).2 = true := by
      apply attempt_after_sweep (by decide)
      · apply get_swept_all
        · have hlength := afterCalls_sampleTraffic.1
          omega
        · intro e he
          rw [afterCalls_sampleTraffic.2 e he]
          decide
      · decide
    -- alone the account is over its allowance
    have halone : answers sampleLimits new (List.replicate 10 ⟨sampleKey, 0⟩ ++ [sampleAgain]) =
        List.replicate 10 (⟨sampleKey, 0⟩, true) ++ [(sampleAgain, false)] := by decide
    have hcalls : (sampleFlood.filter fun a => a.key = sampleKey) =
        List.replicate 10 ⟨sampleKey, 0⟩ ++ [sampleAgain] := by
      unfold sampleFlood
      rw [List.filter_append, filter_sampleTraffic]
      rfl
    have hanswers : answers sampleLimits new sampleFlood =
        answers sampleLimits new sampleTraffic ++
          [(sampleBurst, (attempt sampleLimits
            (afterCalls sampleLimits new sampleTraffic) sampleBurst).2), (sampleAgain, true)] := by
      unfold sampleFlood
      rw [answers_append, answers_cons, answers_cons, hflooded]
      rfl
    have hkept : ∀ x, ([(sampleBurst, x), (sampleAgain, true)].filter
        fun answer : Attempt × Bool => answer.1.key = sampleKey) = [(sampleAgain, true)] := by
      intro x
      rfl
    rw [hcalls, halone, hanswers, List.filter_append, hkept, List.getLast?_append,
      List.getLast?_append] at hlast
    exact absurd hlast (by decide)

/-- An attempt on another account between two of this one. -/
theorem keys_independent_sample :
    ((answers sampleLimits new [⟨sampleKey, 0⟩, sampleBurst, sampleAgain]).filter
        fun answer => answer.1.key = sampleKey) =
      answers sampleLimits new ([⟨sampleKey, 0⟩, sampleBurst, sampleAgain].filter
        fun a => a.key = sampleKey) := by
  apply keys_independent
  · decide
  · refine ⟨?_, ?_, ?_, trivial⟩ <;> exact fun hlarge => absurd hlarge (by decide)

end RateLimiter

end AnatoliaBis
