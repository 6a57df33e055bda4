import AnatoliaBis.Basic
import AnatoliaBis.Lib.Digits
import Mathlib.Tactic.Linarith

/-! # Time texts on SQLite

SQLite has no time type: `sessions.expires_at` holds what
`DateTime::to_rfc3339` printed and is compared, as text, with what
`strftime('%Y-%m-%dT%H:%M:%fZ', 'now')` prints. Up to the whole second the two
formats agree, so there the texts are ordered as the numbers of seconds are; the
rest is modelled character by character. `textBefore_iff` says what the
comparison amounts to.
-/

namespace AnatoliaBis.SqliteTime

open Timestamp

/-- Nanoseconds in a second. -/
def nanosPerSec : Nat := 1000000000

/-- The offset `to_rfc3339` ends with. -/
def offset : List Char := "+00:00".toList

/-- What `to_rfc3339` prints after the seconds (`SecondsFormat::AutoSi`): no
fraction, or three, six or nine digits, as few as keep the value. -/
def rfc3339Tail (nanos : Nat) : List Char :=
  if nanos = 0 then offset
  else if nanos % 1000000 = 0 then '.' :: (Numeral.chars 10 3 (nanos / 1000000) ++ offset)
  else if nanos % 1000 = 0 then '.' :: (Numeral.chars 10 6 (nanos / 1000) ++ offset)
  else '.' :: (Numeral.chars 10 9 nanos ++ offset)

/-- What `%fZ` prints after the seconds: always three digits. -/
def strftimeTail (nanos : Nat) : List Char :=
  '.' :: (Numeral.chars 10 3 (nanos / 1000000) ++ ['Z'])

/-- `expires_at < strftime('%Y-%m-%dT%H:%M:%fZ', 'now')`, on a stored `expires`. -/
def textBefore (expires now : Timestamp) : Prop :=
  expires.timestamp < now.timestamp ∨
    expires.timestamp = now.timestamp ∧
      rfc3339Tail (expires % nanosPerSec) < strftimeTail (now % nanosPerSec)

instance (expires now : Timestamp) : Decidable (textBefore expires now) := by
  unfold textBefore
  infer_instance

/-! ## Comparing the tails -/

/-- Beyond the milliseconds, whatever `to_rfc3339` prints sorts before `Z`. -/
theorem rfc3339Tail_of_pos {nanos : Nat} (hpos : nanos ≠ 0) :
    ∃ rest, rfc3339Tail nanos = '.' :: (Numeral.chars 10 3 (nanos / 1000000) ++ rest) ∧
      rest < ['Z'] := by
  have digit_lt : ∀ (w n : Nat) (tail : List Char),
      Numeral.chars 10 (w + 1) n ++ tail < ['Z'] := by
    intro w n tail
    have hd : n / 10 ^ w % 10 < 10 := Nat.mod_lt _ (by omega)
    have : ∀ d < 10, d.digitChar < 'Z' := by decide
    exact List.cons_lt_cons_iff.mpr (Or.inl (this _ hd))
  unfold rfc3339Tail
  rw [if_neg hpos]
  split_ifs with hmillis hmicros
  · exact ⟨offset, rfl, by decide⟩
  · refine ⟨Numeral.chars 10 3 (nanos / 1000) ++ offset, ?_, digit_lt _ _ _⟩
    rw [Numeral.chars_add 10 3 3, Nat.div_div_eq_div_mul, List.append_assoc]
    norm_num
  · refine ⟨Numeral.chars 10 6 nanos ++ offset, ?_, digit_lt _ _ _⟩
    rw [Numeral.chars_add 10 3 6, List.append_assoc]
    norm_num

/-- Within one second the texts compare as the milliseconds do, equal ones
counting as before. -/
theorem rfc3339Tail_lt_iff {n m : Nat} (hn : n < nanosPerSec) (hm : m < nanosPerSec) :
    rfc3339Tail n < strftimeTail m ↔ n / 1000000 ≤ m / 1000000 := by
  by_cases hpos : n = 0
  · -- no fraction: `+` sorts before the dot
    subst hpos
    have hlt : rfc3339Tail 0 < strftimeTail m :=
      List.cons_lt_cons_iff.mpr (Or.inl (by decide))
    simp [hlt]
  · rcases rfc3339Tail_of_pos hpos with ⟨rest, hrest, hZ⟩
    have hn' : n / 1000000 < 10 ^ 3 := by unfold nanosPerSec at hn; omega
    have hm' : m / 1000000 < 10 ^ 3 := by unfold nanosPerSec at hm; omega
    have hlex : rfc3339Tail n < strftimeTail m ↔
        Numeral.chars 10 3 (n / 1000000) < Numeral.chars 10 3 (m / 1000000) ∨
          Numeral.chars 10 3 (n / 1000000) = Numeral.chars 10 3 (m / 1000000) := by
      rw [hrest, strftimeTail, List.cons_lt_cons_iff, Numeral.append_lt_append_iff (by simp)]
      simp [hZ]
    rw [hlex, Nat.le_iff_lt_or_eq]
    constructor
    · rintro (hlt | heq)
      · -- the other order would contradict `hlt`
        rcases Nat.lt_trichotomy (n / 1000000) (m / 1000000) with h | h | h
        · exact Or.inl h
        · exact Or.inr h
        · exact absurd hlt (List.lt_asymm (Numeral.chars_lt_chars hn' h))
      · exact Or.inr (Numeral.chars_injOn (by omega) (by omega) hn' hm' heq)
    · rintro (hlt | heq)
      · exact Or.inl (Numeral.chars_lt_chars hm' hlt)
      · exact Or.inr (by rw [heq])

/-- **What the comparison of texts decides**: whether the millisecond of the
expiry is over or has just begun. -/
theorem textBefore_iff (expires now : Timestamp) :
    textBefore expires now ↔ expires.truncMillis ≤ now.truncMillis := by
  have he := Nat.div_add_mod expires nanosPerSec
  have hn := Nat.div_add_mod now nanosPerSec
  have hre : expires % nanosPerSec < nanosPerSec := Nat.mod_lt _ (by decide)
  have hrn : now % nanosPerSec < nanosPerSec := Nat.mod_lt _ (by decide)
  unfold textBefore
  rw [rfc3339Tail_lt_iff hre hrn, truncMillis_le_truncMillis_iff]
  unfold timestamp nanosPerSec at *
  constructor
  · rintro (h | h) <;> omega
  · intro h
    omega

/-! ## The comparison the other way -/

/-- `expires_at > strftime('%Y-%m-%dT%H:%M:%fZ', 'now')`, on a stored `expires`. -/
def textAfter (expires now : Timestamp) : Prop :=
  now.timestamp < expires.timestamp ∨
    now.timestamp = expires.timestamp ∧
      strftimeTail (now % nanosPerSec) < rfc3339Tail (expires % nanosPerSec)

instance (expires now : Timestamp) : Decidable (textAfter expires now) := by
  unfold textAfter
  infer_instance

/-- One format ends in a digit, the other in `Z`. -/
theorem rfc3339Tail_ne_strftimeTail (n m : Nat) : rfc3339Tail n ≠ strftimeTail m := by
  have hlast : (strftimeTail m).getLast? = some 'Z' := by
    unfold strftimeTail
    rw [← List.cons_append, List.getLast?_append]
    rfl
  have hdigit : (rfc3339Tail n).getLast? = some '0' := by
    unfold rfc3339Tail
    split_ifs
    · rfl
    all_goals
      rw [← List.cons_append, List.getLast?_append]
      rfl
  intro heq
  rw [heq, hlast] at hdigit
  exact absurd hdigit (by decide)

/-- Of the two comparisons exactly one holds. -/
theorem textAfter_iff_not_textBefore (expires now : Timestamp) :
    textAfter expires now ↔ ¬ textBefore expires now := by
  have hne := rfc3339Tail_ne_strftimeTail (expires % nanosPerSec) (now % nanosPerSec)
  unfold textAfter textBefore
  constructor
  · rintro (hsec | ⟨hsec, hlt⟩) (hsec' | ⟨hsec', hlt'⟩)
    · omega
    · omega
    · omega
    · exact absurd hlt (List.lt_asymm hlt')
  · intro hnot
    have hsec : ¬ expires.timestamp < now.timestamp := fun h => hnot (Or.inl h)
    by_cases heq : now.timestamp = expires.timestamp
    · refine Or.inr ⟨heq, ?_⟩
      have hle : ¬ rfc3339Tail (expires % nanosPerSec) < strftimeTail (now % nanosPerSec) :=
        fun h => hnot (Or.inr ⟨heq.symm, h⟩)
      by_contra hge
      exact hne (List.le_antisymm hge hle)
    · exact Or.inl (by omega)

theorem textAfter_iff (expires now : Timestamp) :
    textAfter expires now ↔ now.truncMillis < expires.truncMillis := by
  rw [textAfter_iff_not_textBefore, textBefore_iff, Nat.not_le]

end AnatoliaBis.SqliteTime
