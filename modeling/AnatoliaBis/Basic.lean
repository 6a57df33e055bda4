import Mathlib.Data.List.Basic

/-! # Shared vocabulary

Time, the two database backends and the way a query can fail. -/

namespace AnatoliaBis

/-- An instant of `DateTime<Utc>`: nanoseconds since the Unix epoch. -/
abbrev Timestamp := Nat

namespace Timestamp

def seconds (n : Nat) : Nat := n * 1000000000
def minutes (n : Nat) : Nat := seconds (n * 60)
def days (n : Nat) : Nat := minutes (n * 24 * 60)

/-- `DateTime::timestamp`: whole seconds. -/
def timestamp (t : Timestamp) : Nat := t / 1000000000

/-- `SubsecRound::trunc_subsecs(6)`: down to a whole microsecond, which is also
the resolution of a `timestamptz` column. -/
def truncMicros (t : Timestamp) : Timestamp := t / 1000 * 1000

/-- Whole milliseconds, the resolution of `%.3f` and of SQLite's `%f`. -/
def truncMillis (t : Timestamp) : Timestamp := t / 1000000 * 1000000

@[simp] theorem truncMicros_truncMicros (t : Timestamp) :
    truncMicros (truncMicros t) = truncMicros t := by
  simp [truncMicros]

theorem truncMillis_le_truncMillis_iff {t u : Nat} :
    truncMillis t ≤ truncMillis u ↔ t / 1000000 ≤ u / 1000000 :=
  Nat.mul_le_mul_right_iff (by omega)

end Timestamp

/-- `db::DbBackend`, without the connection pools. -/
inductive Backend where
  | postgres
  | sqlite
  deriving Repr, DecidableEq

/-- Why a query returned `Err`: the statement itself failed, or a function of
`db` gave up before sending one. -/
inductive DbError where
  | failed
  | rowNotFound
  deriving Repr, DecidableEq

end AnatoliaBis
