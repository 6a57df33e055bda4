import AnatoliaBis.Basic
import Mathlib.Data.List.Nodup

/-! # The rate limiter

`ratelimit.rs`: a fixed-window counter per key, in a map that is swept when it
grows large. `check_cases` says what a call can do; `get_check_self` and
`get_check_other` follow one key through a call.
-/

namespace AnatoliaBis

/-- The value of a map entry: attempts counted, and `Instant` of the first. -/
structure Window where
  count : Nat
  started : Nat
  deriving Repr, DecidableEq

/-- `InMemoryRateLimiter`: a map from keys to windows. -/
structure RateLimiter where
  windows : List (String × Window)
  nodup : (windows.map Prod.fst).Nodup

namespace RateLimiter

/-- `RateLimiter::new`. -/
def new : RateLimiter := ⟨[], List.nodup_nil⟩

def get (l : RateLimiter) (key : String) : Option Window := l.windows.lookup key

/-- `HashMap::retain`, on the values. -/
def retain (l : RateLimiter) (keep : Window → Bool) : RateLimiter where
  windows := l.windows.filter fun e => keep e.2
  nodup := (List.Sublist.map Prod.fst List.filter_sublist).nodup l.nodup

/-- `HashMap::insert`. -/
def set (l : RateLimiter) (key : String) (w : Window) : RateLimiter where
  windows := (key, w) :: l.windows.filter fun e => e.1 != key
  nodup := by
    refine List.nodup_cons.mpr ⟨?_, (List.Sublist.map Prod.fst List.filter_sublist).nodup l.nodup⟩
    intro hmem
    obtain ⟨e, he, hkey⟩ := List.mem_map.mp hmem
    simp [hkey] at he

/-- Over this many keys the map is swept. -/
def sweepSize : Nat := 10000

/-- `RateLimiterBackend::check`. -/
def check (l : RateLimiter) (key : String) (maxAttempts window now : Nat) : RateLimiter × Bool :=
  let swept :=
    if l.windows.length > sweepSize then l.retain fun w => decide (now - w.started ≤ window)
    else l
  let entry := (swept.get key).getD ⟨0, now⟩
  let entry := if now - entry.started > window then ⟨0, now⟩ else entry
  if entry.count ≥ maxAttempts then (swept.set key entry, false)
  else (swept.set key { entry with count := entry.count + 1 }, true)

/-! ## Reading the map -/

@[simp] theorem get_set_self (l : RateLimiter) (key : String) (w : Window) :
    (l.set key w).get key = some w := by
  simp [get, set]

theorem lookup_filter_key {key k : String} (h : k ≠ key) (entries : List (String × Window)) :
    (entries.filter fun e => e.1 != key).lookup k = entries.lookup k := by
  induction entries with
  | nil => rfl
  | cons e es ih =>
      by_cases he : e.1 = key
      · have hk : (k == e.1) = false := by simpa [he] using h
        rw [List.filter_cons_of_neg (by simp [he]), ih, List.lookup_cons, hk]
      · rw [List.filter_cons_of_pos (by simp [he]), List.lookup_cons, List.lookup_cons, ih]

@[simp] theorem get_set_of_ne {l : RateLimiter} {key k : String} (h : k ≠ key) (w : Window) :
    (l.set key w).get k = l.get k := by
  have hk : (k == key) = false := by simpa using h
  rw [get, set, List.lookup_cons, hk]
  exact lookup_filter_key h l.windows

theorem lookup_eq_none_of_notMem {k : String} {entries : List (String × Window)}
    (h : k ∉ entries.map Prod.fst) : entries.lookup k = none := by
  induction entries with
  | nil => rfl
  | cons e es ih =>
      have hne : (k == e.1) = false := by
        simp only [List.map_cons, List.mem_cons, not_or] at h
        simpa using h.1
      rw [List.lookup_cons, hne]
      exact ih fun hk => h (by simp [hk])

/-- Sweeping keeps an entry or drops it. -/
theorem get_retain (l : RateLimiter) (keep : Window → Bool) (k : String) :
    (l.retain keep).get k = (l.get k).filter keep := by
  have aux : ∀ entries : List (String × Window), (entries.map Prod.fst).Nodup →
      (entries.filter fun e => keep e.2).lookup k = (entries.lookup k).filter keep := by
    intro entries
    induction entries with
    | nil => intro _; rfl
    | cons e es ih =>
        intro hnd
        obtain ⟨hnot, hnd'⟩ := List.nodup_cons.mp hnd
        by_cases hk : k = e.1
        · subst hk
          cases hkeep : keep e.2 with
          | true =>
              rw [List.filter_cons_of_pos (by simpa using hkeep), List.lookup_cons,
                List.lookup_cons, beq_self_eq_true, Option.filter_some, if_pos hkeep]
          | false =>
              -- dropped, and no other entry has this key
              rw [List.filter_cons_of_neg (by simp [hkeep]), ih hnd', lookup_eq_none_of_notMem hnot,
                List.lookup_cons, beq_self_eq_true, Option.filter_some,
                if_neg (Bool.eq_false_iff.mp hkeep), Option.filter_none]
        · have hne : (k == e.1) = false := by simpa using hk
          cases hkeep : keep e.2 with
          | true =>
              rw [List.filter_cons_of_pos (by simpa using hkeep), List.lookup_cons, hne,
                List.lookup_cons, hne]
              exact ih hnd'
          | false =>
              rw [List.filter_cons_of_neg (by simp [hkeep]), List.lookup_cons, hne]
              exact ih hnd'
  exact aux l.windows l.nodup

/-! ## One call -/

/-- The map a call works on: as it was, or swept. -/
def swept (l : RateLimiter) (window now : Nat) : RateLimiter :=
  if l.windows.length > sweepSize then l.retain fun w => decide (now - w.started ≤ window) else l

/-- The window a call counts in: the running one, or a new one. -/
def current (l : RateLimiter) (key : String) (window now : Nat) : Window :=
  let entry := ((l.swept window now).get key).getD ⟨0, now⟩
  if now - entry.started > window then ⟨0, now⟩ else entry

/-- **What a call does**: it counts the attempt and allows it, or refuses it and
leaves the count. -/
theorem check_cases (l : RateLimiter) (key : String) (maxAttempts window now : Nat) :
    let w := l.current key window now
    (w.count < maxAttempts ∧ l.check key maxAttempts window now =
        ((l.swept window now).set key { w with count := w.count + 1 }, true)) ∨
      (maxAttempts ≤ w.count ∧ l.check key maxAttempts window now =
        ((l.swept window now).set key w, false)) := by
  intro w
  by_cases h : maxAttempts ≤ w.count
  · exact Or.inr ⟨h, if_pos h⟩
  · exact Or.inl ⟨Nat.lt_of_not_le h, if_neg h⟩

/-- Sweeping leaves an entry alone, or drops it because its window is over. -/
theorem get_swept_cases (l : RateLimiter) (window now : Nat) (k : String) :
    (l.swept window now).get k = l.get k ∨
      (l.swept window now).get k = none ∧ ∀ w ∈ l.get k, window < now - w.started := by
  unfold swept
  split_ifs
  · rw [get_retain]
    cases h : l.get k with
    | none => exact Or.inl rfl
    | some w =>
        cases hw : decide (now - w.started ≤ window) with
        | true => exact Or.inl (by rw [Option.filter_some, if_pos hw])
        | false =>
            refine Or.inr ⟨by rw [Option.filter_some, if_neg (Bool.eq_false_iff.mp hw)], ?_⟩
            intro w' hw'
            rcases Option.mem_some_iff.mp hw' with rfl
            exact Nat.lt_of_not_le (of_decide_eq_false hw)
  · exact Or.inl rfl

theorem get_swept (l : RateLimiter) (window now : Nat) (k : String) :
    (l.swept window now).get k = l.get k ∨ (l.swept window now).get k = none :=
  (l.get_swept_cases window now k).imp_right And.left

/-- Another key's entry is kept, or swept away because its window is over. -/
theorem get_check_other_cases {l : RateLimiter} {key k : String} (h : k ≠ key)
    (maxAttempts window now : Nat) :
    (l.check key maxAttempts window now).1.get k = l.get k ∨
      (l.check key maxAttempts window now).1.get k = none ∧
        ∀ w ∈ l.get k, window < now - w.started := by
  rcases l.check_cases key maxAttempts window now with ⟨-, hc⟩ | ⟨-, hc⟩
  all_goals
    rw [hc]
    simpa only [get_set_of_ne h] using l.get_swept_cases window now k

theorem get_check_other {l : RateLimiter} {key k : String} (h : k ≠ key)
    (maxAttempts window now : Nat) :
    (l.check key maxAttempts window now).1.get k = l.get k ∨
      (l.check key maxAttempts window now).1.get k = none :=
  (get_check_other_cases h maxAttempts window now).imp_right And.left

/-- The key's own entry afterwards: the window the call counted in, one attempt
further if it was allowed. -/
theorem get_check_self (l : RateLimiter) (key : String) (maxAttempts window now : Nat) :
    let w := l.current key window now
    ((l.check key maxAttempts window now).2 = true ∧ w.count < maxAttempts ∧
        (l.check key maxAttempts window now).1.get key = some { w with count := w.count + 1 }) ∨
      ((l.check key maxAttempts window now).2 = false ∧
        (l.check key maxAttempts window now).1.get key = some w) := by
  intro w
  rcases l.check_cases key maxAttempts window now with ⟨hlt, hc⟩ | ⟨-, hc⟩
  · exact Or.inl ⟨by rw [hc], hlt, by rw [hc, get_set_self]⟩
  · exact Or.inr ⟨by rw [hc], by rw [hc, get_set_self]⟩

/-- A call counts in the entry it finds, or in a window that starts now. -/
theorem current_cases (l : RateLimiter) (key : String) (window now : Nat) :
    l.get key = some (l.current key window now) ∨ l.current key window now = ⟨0, now⟩ := by
  unfold current
  rcases l.get_swept window now key with h | h
  · rw [h]
    cases hg : l.get key with
    | none => right; simp
    | some w =>
        simp only [Option.getD_some]
        split_ifs
        · exact Or.inr rfl
        · exact Or.inl rfl
  · rw [h]
    right
    simp

/-- A running window is found again, an expired one is replaced. -/
theorem current_of_get {l : RateLimiter} {key : String} {w : Window} (h : l.get key = some w)
    (window now : Nat) :
    l.current key window now = if now - w.started ≤ window then w else ⟨0, now⟩ := by
  unfold current
  by_cases hrunning : now - w.started ≤ window
  · have hswept : (l.swept window now).get key = some w := by
      unfold swept
      split_ifs
      · rw [get_retain, h, Option.filter_some, if_pos (by simpa using hrunning)]
      · exact h
    rw [hswept, if_pos hrunning]
    exact if_neg (Nat.not_lt.mpr hrunning)
  · rw [if_neg hrunning]
    rcases l.get_swept window now key with hswept | hswept
    · rw [hswept, h]
      exact if_pos (Nat.lt_of_not_le hrunning)
    · rw [hswept]
      simp

/-- A call after which the window still starts when it did has counted in it. -/
theorem current_of_started {l : RateLimiter} {key : String} {w : Window}
    (h : l.get key = some w) {window now : Nat}
    (hstarted : (l.current key window now).started = w.started) :
    l.current key window now = w := by
  rw [current_of_get h] at hstarted ⊢
  by_cases hrunning : now - w.started ≤ window
  · exact if_pos hrunning
  · rw [if_neg hrunning] at hstarted
    have : now = w.started := hstarted
    omega

end RateLimiter

end AnatoliaBis
