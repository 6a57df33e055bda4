import AnatoliaBis.Basic
import AnatoliaBis.Lib.Calendar
import AnatoliaBis.Lib.Digits

/-! # Time texts to the minute

`chrono` and SQLite's `strftime` spell an instant alike up to the minute:
`%Y-%m-%dT%H:%M:`. They differ outside the years of four digits, where `chrono`
writes a sign and SQLite has no text at all. `minuteText_lt_iff` says what
comparing two such texts decides.
-/

namespace AnatoliaBis.TimeText

open Calendar Numeral

/-- Whole minutes since the Unix epoch. -/
def minute (t : Timestamp) : Nat := t / 60000000000

/-- The day an instant falls on. -/
def date (t : Timestamp) : Date := Date.ofDays (minute t / 1440)

/-- Seconds past the minute. -/
def second (t : Timestamp) : Nat := t.timestamp % 60

/-- Milliseconds past the second. -/
def milli (t : Timestamp) : Nat := t % 1000000000 / 1000000

/-- The last year `strftime` knows. -/
def maxYear : Nat := 9999

/-- `%Y` of `chrono`: four digits, or a sign and as many as it takes. -/
def chronoYear (year : Nat) : List Char :=
  if year ≤ maxYear then chars 10 4 year else '+' :: Nat.toDigits 10 year

/-- `-%m-%dT%H:%M:`, what follows the year, in front of `rest`. -/
def minuteTail (t : Timestamp) (rest : List Char) : List Char :=
  '-' :: (chars 10 2 (date t).month ++ '-' :: (chars 10 2 (date t).day ++
    'T' :: (chars 10 2 (minute t / 60 % 24) ++ ':' :: (chars 10 2 (minute t % 60) ++ ':' :: rest))))

/-- `.mmmZ`: `%.3f` of `chrono`, or the end of `%f`. -/
def millisZ (t : Timestamp) : List Char := '.' :: (chars 10 3 (milli t) ++ ['Z'])

/-- `strftime('%Y-%m-%dT%H:%M:%fZ', …)`, where `%f` is `SS.SSS`; `NULL` past the
year 9999. -/
def strftime (t : Timestamp) : Option String :=
  if (date t).year ≤ maxYear then
    some (String.ofList (chars 10 4 (date t).year ++
      minuteTail t (chars 10 2 (second t) ++ millisZ t)))
  else none

example : strftime 1111111111250000000 = some "2005-03-18T01:58:31.250Z" := by decide +kernel

/-! ## Comparing two texts -/

/-- **What the comparison decides**: which minute comes first and, in one minute,
how the rest of the texts compares. -/
theorem minuteText_lt_iff {t u : Timestamp} {rest rest' : List Char}
    (ht : (date t).year ≤ maxYear) (hu : (date u).year ≤ maxYear) :
    chars 10 4 (date t).year ++ minuteTail t rest <
        chars 10 4 (date u).year ++ minuteTail u rest' ↔
      minute t < minute u ∨ minute t = minute u ∧ rest < rest' := by
  have hdays : (date t).Before (date u) ↔ minute t / 1440 < minute u / 1440 :=
    Date.ofDays_before_iff
  have hsame : date t = date u ↔ minute t / 1440 = minute u / 1440 :=
    Date.ofDays_injective.eq_iff
  have hrt := Date.ofDays_range (minute t / 1440)
  have hru := Date.ofDays_range (minute u / 1440)
  change (_ ∧ (date t).month ≤ 12) ∧ _ ∧ (date t).day ≤ 31 at hrt
  change (_ ∧ (date u).month ≤ 12) ∧ _ ∧ (date u).day ≤ 31 at hru
  unfold maxYear at ht hu
  simp only [minuteTail]
  rw [field_lt_iff (by omega) (by omega), List.cons_lt_cons_self,
    field_lt_iff (by omega) (by omega), List.cons_lt_cons_self,
    field_lt_iff (by omega) (by omega), List.cons_lt_cons_self,
    field_lt_iff (by omega) (by omega), List.cons_lt_cons_self,
    field_lt_iff (by omega) (by omega), List.cons_lt_cons_self]
  have heq : date t = date u ↔ (date t).year = (date u).year ∧
      (date t).month = (date u).month ∧ (date t).day = (date u).day := by
    rw [Date.mk.injEq]
  rw [hsame] at heq
  unfold Date.Before at hdays
  by_cases hrest : rest < rest' <;> simp only [hrest, and_true, and_false, or_false] <;> omega

end AnatoliaBis.TimeText
