import AnatoliaBis.SqliteTime
import AnatoliaBis.TimeText
import Mathlib.Data.String.Basic

/-! # Instants that a client names

A bound of a period may lie before 1970 and in any year that `chrono` has. `toRfc3339` is
the text that SQLite gets for it, `timestamptz` the number that PostgreSQL gets, and
`canonicalText_lt_iff` says what comparing a stored text with a bound decides.
-/

namespace AnatoliaBis

open TimeText Calendar Numeral

/-- A `DateTime<Utc>` of a request: nanoseconds since the Unix epoch, or before it. -/
abbrev Instant := Int

namespace Instant

/-- The Gregorian calendar repeats itself after four hundred years. -/
def era : Nat := 12622780800000000000

/-- As many eras as lead to 1970 or later. -/
def eras (t : Instant) : Nat := ((-t).toNat + (era - 1)) / era

/-- The instant of the same text but for the year. -/
def shifted (t : Instant) : Nat := (t + eras t * era).toNat

def year (t : Instant) : Int := (date (shifted t)).year - 400 * eras t

/-- The year in RFC 3339: four digits, or a sign and at least four. -/
def yearText (year : Int) : List Char :=
  if year < 0 then
    '-' :: (if -year ≤ maxYear then chars 10 4 year.natAbs else Nat.toDigits 10 year.natAbs)
  else chronoYear year.toNat

/-- `DateTime::to_rfc3339`. -/
def toRfc3339 (t : Instant) : String :=
  String.ofList (yearText (year t) ++ minuteTail (shifted t) (chars 10 2 (second (shifted t)) ++
    SqliteTime.rfc3339Tail (shifted t % 1000000000)))

example : toRfc3339 1111111109000000000 = "2005-03-18T01:58:29+00:00" ∧
    toRfc3339 (-1) = "1969-12-31T23:59:59.999999999+00:00" := by decide +kernel

/-- 2000-01-01, where PostgreSQL begins to count. -/
def postgresEpoch : Int := 946684800000000000

/-- The microseconds bound for a `timestamptz`: `TimeDelta::num_microseconds`, which drops
the rest of a microsecond, on either side of 2000. -/
def timestamptz (t : Instant) : Int :=
  if postgresEpoch ≤ t then (t - postgresEpoch) / 1000 else -((postgresEpoch - t) / 1000)

/-- What PostgreSQL takes for a `timestamptz`, from 4714 BC to 294276 AD. -/
def IsTimestamptz (t : Instant) : Prop :=
  -211813488000000000 ≤ timestamptz t ∧ timestamptz t < 9223371331200000000

instance (t : Instant) : Decidable (IsTimestamptz t) := by
  unfold IsTimestamptz
  infer_instance

end Instant

namespace TimeText

/-- Microseconds past the second. -/
def micro (t : Timestamp) : Nat := t % 1000000000 / 1000

/-- `.ffffffZ`: `%.6f` of `chrono`. -/
def microsZ (t : Timestamp) : List Char := '.' :: (chars 10 6 (micro t) ++ ['Z'])

/-- `canonical_timestamp`. -/
def canonicalText (t : Timestamp) : String :=
  String.ofList (chronoYear (date t).year ++ minuteTail t (chars 10 2 (second t) ++ microsZ t))

end TimeText

namespace Instant

/-! ## The year of a bound -/

theorem eras_of_nonneg {t : Int} (h : 0 ≤ t) : eras t = 0 := by
  unfold eras era
  omega

theorem shifted_of_nonneg {t : Int} (h : 0 ≤ t) : shifted t = t.toNat := by
  unfold shifted
  rw [eras_of_nonneg h]
  omega

theorem year_of_nonneg {t : Int} (h : 0 ≤ t) : year t = (date t.toNat).year := by
  unfold year
  rw [eras_of_nonneg h, shifted_of_nonneg h]
  omega

theorem date_year_ge (t : Nat) : 1970 ≤ (date t).year := by
  have hfirst : (Date.ofDays 0).year = 1970 := by decide
  have hle := Date.ofDays_year_le (Nat.zero_le (minute t / 1440))
  rw [hfirst] at hle
  exact hle

/-- Before 1970 the year is an earlier one. -/
theorem year_lt_of_neg {t : Int} (h : t < 0) : year t < 1970 := by
  have heras : 1 ≤ eras t ∧ t + eras t * (12622780800000000000 : Int) < 12622780800000000000 := by
    unfold eras era
    omega
  have hshifted : shifted t < era := by
    have hdef : shifted t = (t + eras t * (12622780800000000000 : Int)).toNat := rfl
    unfold era
    omega
  have hday : minute (shifted t) / 1440 ≤ 146096 := by
    unfold era at hshifted
    unfold minute
    omega
  have hlast : (Date.ofDays 146096).year = 2369 := by decide +kernel
  have hyear := Date.ofDays_year_le hday
  rw [hlast] at hyear
  have hdate : (date (shifted t)).year ≤ 2369 := hyear
  unfold year
  omega

/-! ## A stored text and a bound -/

/-- A digit sorts behind the signs and in front of `Z`. -/
theorem digitChar_order {d : Nat} (h : d < 10) :
    '+' < d.digitChar ∧ '-' < d.digitChar ∧ d.digitChar < 'Z' := by
  have hall : ∀ d < 10, '+' < d.digitChar ∧ '-' < d.digitChar ∧ d.digitChar < 'Z' := by decide
  exact hall d h

theorem chars_succ (w n : Nat) : ∃ d < 10, ∃ ds, chars 10 (w + 1) n = d.digitChar :: ds :=
  ⟨n / 10 ^ w % 10, Nat.mod_lt _ (by omega), chars 10 w n, rfl⟩

/-- A text that begins with a digit does not come before one that begins with a sign. -/
theorem not_chars_lt_cons {w n : Nat} {c : Char} {rest rest' : List Char} (hc : c = '+' ∨ c = '-') :
    ¬ chars 10 (w + 1) n ++ rest < c :: rest' := by
  rcases chars_succ w n with ⟨d, hd, ds, hds⟩
  rcases digitChar_order hd with ⟨hplus, hminus, -⟩
  have hlt : c < d.digitChar := by
    rcases hc with rfl | rfl
    · exact hplus
    · exact hminus
  rw [hds, List.cons_append, List.cons_lt_cons_iff]
  rintro (hgt | ⟨heq, -⟩)
  · exact lt_asymm hlt hgt
  · exact absurd heq hlt.ne'

/-- `Z` sorts behind whatever follows the same microsecond in RFC 3339. -/
theorem microsZ_lt_iff {m n : Nat} (hm : m < 1000000) (hn : n < 1000000000) :
    '.' :: (chars 10 6 m ++ ['Z']) < SqliteTime.rfc3339Tail n ↔ m < n / 1000 := by
  have hoffset : ∀ w k, ¬ chars 10 (w + 1) k ++ ['Z'] < SqliteTime.offset :=
    fun w k => not_chars_lt_cons (Or.inl rfl)
  have hlast : ∀ w k rest, ¬ ['Z'] < chars 10 (w + 1) k ++ rest := by
    intro w k rest hlt
    rcases chars_succ w k with ⟨d, hd, ds, hds⟩
    rw [hds, List.cons_append, List.cons_lt_cons_iff] at hlt
    rcases hlt with hlt | ⟨heq, -⟩
    · exact lt_asymm (digitChar_order hd).2.2 hlt
    · exact absurd heq (digitChar_order hd).2.2.ne'
  unfold SqliteTime.rfc3339Tail
  split_ifs with hzero hmillis hmicros
  · -- no fraction: `.` against `+`
    have hnot : ¬ '.' :: (chars 10 6 m ++ ['Z']) < SqliteTime.offset := by
      show ¬ '.' :: (chars 10 6 m ++ ['Z']) < '+' :: "00:00".toList
      rw [List.cons_lt_cons_iff]
      rintro (hlt | ⟨heq, -⟩)
      · exact absurd hlt (by decide)
      · exact absurd heq (by decide)
    simp [hnot, hzero]
  · rw [List.cons_lt_cons_self, chars_add 10 3 3, List.append_assoc,
      field_lt_iff (by omega) (by omega)]
    simp only [hoffset 2 m, and_false, or_false]
    omega
  · rw [List.cons_lt_cons_self, field_lt_iff (by omega) (by omega)]
    have hnot : ¬ ['Z'] < SqliteTime.offset := by decide
    simp only [hnot, and_false, or_false]
  · rw [List.cons_lt_cons_self, chars_add 10 6 3, List.append_assoc,
      field_lt_iff (by omega) (by omega)]
    simp only [hlast 2 n, and_false, or_false]
    omega

theorem yearText_of_four {y : Int} (h : 0 ≤ y ∧ y ≤ maxYear) : yearText y = chars 10 4 y.toNat := by
  have hle : y.toNat ≤ maxYear := by omega
  unfold yearText chronoYear
  rw [if_neg (by omega), if_pos hle]

/-- Any other year begins with a sign. -/
theorem yearText_of_sign {y : Int} (h : ¬ (0 ≤ y ∧ y ≤ maxYear)) :
    ∃ c rest, (c = '+' ∨ c = '-') ∧ yearText y = c :: rest := by
  unfold yearText chronoYear
  by_cases hneg : y < 0
  · rw [if_pos hneg]
    exact ⟨'-', _, Or.inr rfl, rfl⟩
  · have hlate : ¬ y.toNat ≤ maxYear := by omega
    rw [if_neg hneg, if_neg hlate]
    exact ⟨'+', _, Or.inl rfl, rfl⟩

/-- Within the years of four digits microseconds decide. -/
theorem micros_lt_iff {t bound : Nat} {y y' : Nat} (hy : y ≤ maxYear) (hy' : y' ≤ maxYear)
    (ht : y = (date t).year) (hb : y' = (date bound).year) :
    chars 10 4 y ++ minuteTail t (chars 10 2 (second t) ++ microsZ t) <
        chars 10 4 y' ++ minuteTail bound (chars 10 2 (second bound) ++
          SqliteTime.rfc3339Tail (bound % 1000000000)) ↔ t / 1000 < bound / 1000 := by
  subst ht hb
  have hmicro : micro t < 1000000 := by
    unfold micro
    omega
  rw [minuteText_lt_iff hy hy']
  unfold microsZ
  rw [field_lt_iff (by unfold second; omega) (by unfold second; omega),
    microsZ_lt_iff hmicro (by omega)]
  unfold micro minute second Timestamp.timestamp
  omega

/-- **What the comparison decides**: a stored event comes before the text of a bound where
its microsecond is an earlier one, and the year of the bound has four digits. -/
theorem canonicalText_lt_iff {t : Nat} (ht : (date t).year ≤ maxYear) (bound : Int) :
    canonicalText t < toRfc3339 bound ↔ (t : Int) / 1000 < bound / 1000 ∧ year bound ≤ maxYear := by
  have hsince := date_year_ge t
  unfold canonicalText toRfc3339 chronoYear
  rw [if_pos ht, String.lt_iff_toList_lt, String.toList_ofList, String.toList_ofList]
  by_cases hfour : 0 ≤ year bound ∧ year bound ≤ maxYear
  · rw [yearText_of_four hfour, and_iff_left hfour.2]
    by_cases hbound : 0 ≤ bound
    · rw [shifted_of_nonneg hbound, year_of_nonneg hbound, Int.toNat_natCast] at *
      rw [micros_lt_iff ht (by omega) rfl rfl]
      omega
    · -- an earlier year
      have hyear := year_lt_of_neg (lt_of_not_ge hbound)
      rw [field_lt_iff (by unfold maxYear at ht; omega) (by omega)]
      omega
  · rcases yearText_of_sign hfour with ⟨c, rest, hc, htext⟩
    rw [htext, List.cons_append]
    constructor
    · exact fun hlt => absurd hlt (not_chars_lt_cons hc)
    · rintro ⟨hlt, hle⟩
      by_cases hbound : 0 ≤ bound
      · rw [year_of_nonneg hbound] at hfour hle
        omega
      · omega

theorem rfc3339Tail_offset (n : Nat) :
    ∃ fraction, SqliteTime.rfc3339Tail n = fraction ++ SqliteTime.offset := by
  unfold SqliteTime.rfc3339Tail
  split_ifs
  · exact ⟨[], rfl⟩
  · exact ⟨'.' :: chars 10 3 (n / 1000000), rfl⟩
  · exact ⟨'.' :: chars 10 6 (n / 1000), rfl⟩
  · exact ⟨'.' :: chars 10 9 n, rfl⟩

/-- No stored text is the text of a bound: they end differently. -/
theorem canonicalText_ne (t : Nat) (bound : Int) : canonicalText t ≠ toRfc3339 bound := by
  rcases rfc3339Tail_offset (shifted bound % 1000000000) with ⟨fraction, htail⟩
  intro heq
  have hlast := congrArg (fun text => text.toList.getLast?) heq
  unfold canonicalText toRfc3339 microsZ minuteTail at hlast
  simp [htail, SqliteTime.offset, List.getLast?_append, List.getLast?_cons] at hlast

/-- `timestamp >= …` on SQLite: not before the microsecond of the bound. -/
theorem toRfc3339_le_iff {t : Nat} (ht : (date t).year ≤ maxYear) (bound : Int) :
    toRfc3339 bound ≤ canonicalText t ↔ bound / 1000 ≤ (t : Int) / 1000 ∨ maxYear < year bound := by
  rw [← not_lt, canonicalText_lt_iff ht]
  omega

/-- `timestamp <= …` on SQLite: before the microsecond of the bound. -/
theorem le_toRfc3339_iff {t : Nat} (ht : (date t).year ≤ maxYear) (bound : Int) :
    canonicalText t ≤ toRfc3339 bound ↔ (t : Int) / 1000 < bound / 1000 ∧ year bound ≤ maxYear := by
  rw [le_iff_lt_or_eq, or_iff_left (canonicalText_ne t bound), canonicalText_lt_iff ht]

/-! ## Microseconds -/

theorem le_of_micros_lt {t u : Int} (h : t / 1000 < u / 1000) : t ≤ u := by omega

theorem micros_lt_of_le {t u : Int} (h : t ≤ u) (hne : u / 1000 ≠ t / 1000) :
    t / 1000 < u / 1000 := by omega

/-- A bound as PostgreSQL has it. -/
def toMicros (t : Instant) : Int := postgresEpoch + timestamptz t * 1000

theorem timestamptz_le_timestamptz {t u : Int} (h : t ≤ u) : timestamptz t ≤ timestamptz u := by
  unfold timestamptz postgresEpoch
  omega

theorem toMicros_of_dvd {t : Int} (h : t % 1000 = 0) : toMicros t = t := by
  unfold toMicros timestamptz postgresEpoch
  omega

/-- Against whole microseconds, comparing in microseconds is comparing what is left of a
bound. -/
theorem timestamptz_le_iff {t u : Int} (h : u % 1000 = 0) :
    timestamptz t ≤ timestamptz u ↔ toMicros t ≤ u := by
  have hu := toMicros_of_dvd h
  unfold toMicros at *
  omega

theorem le_timestamptz_iff {t u : Int} (h : u % 1000 = 0) :
    timestamptz u ≤ timestamptz t ↔ u ≤ toMicros t := by
  have hu := toMicros_of_dvd h
  unfold toMicros at *
  omega

end Instant

end AnatoliaBis
