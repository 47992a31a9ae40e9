import Mathlib.Algebra.Group.Int.Defs
import Mathlib.Algebra.Group.Nat.Defs

/-!
# Instants and 64-bit arithmetic

A `time.Time` is an integer number of nanoseconds since the Unix epoch, and a
`time.Duration` a number of nanoseconds.  The clock readings the proxy compares
are all taken from one process, so wall and monotonic readings are not told
apart.  Go's fixed-width integer arithmetic wraps; where a computation of the
source can overflow, its model says so with `wrap64`.
-/

namespace LunaZTrust.Go

/-- An instant, in nanoseconds since the Unix epoch. -/
abbrev Time := Int

/-- A `time.Duration`, in nanoseconds. -/
abbrev Duration := Int

/-- The result of a computation in `int64`. -/
def wrap64 (n : Int) : Int := n.bmod (2 ^ 64)

/-- The values of an `int64`. -/
def IsInt64 (n : Int) : Prop := -2 ^ 63 ≤ n ∧ n < 2 ^ 63

instance (n : Int) : Decidable (IsInt64 n) := inferInstanceAs (Decidable (_ ∧ _))

theorem wrap64_of_small {n : Int} (h : -2 ^ 63 ≤ n) (h' : n < 2 ^ 63) : wrap64 n = n := by
  rw [wrap64, Int.bmod]
  split <;> omega

theorem isInt64_wrap64 (n : Int) : IsInt64 (wrap64 n) := by
  rw [IsInt64, wrap64, Int.bmod]
  split <;> omega

/-- The least `int64` is its own negation. -/
theorem wrap64_neg {n : Int} (h : IsInt64 n) : wrap64 (-n) = if n = -2 ^ 63 then n else -n := by
  rw [IsInt64] at h
  rw [wrap64, Int.bmod]
  split <;> split <;> omega

/-- The difference of two `int64` is off by a multiple of `2 ^ 64` if it is not an `int64`. -/
theorem wrap64_sub_cases {a b : Int} (ha : IsInt64 a) (hb : IsInt64 b) :
    IsInt64 (a - b) ∧ wrap64 (a - b) = a - b ∨
      2 ^ 63 ≤ a - b ∧ wrap64 (a - b) = a - b - 2 ^ 64 ∨
      a - b < -2 ^ 63 ∧ wrap64 (a - b) = a - b + 2 ^ 64 := by
  rw [IsInt64] at *
  rw [wrap64, Int.bmod]
  split <;> omega

namespace Time

/-- `time.Second`. -/
def second : Duration := 1000000000

/-- `time.Minute`. -/
def minute : Duration := 60 * second

/-- The zero `time.Time`: midnight on January 1 of the year 1. -/
def zero : Time := -62135596800 * second

/-- `Time.IsZero`. -/
def isZero (t : Time) : Bool := t == zero

/-- `Time.Unix`: whole seconds since the epoch, rounded down. -/
def unix (t : Time) : Int := t / second

/-- Whole seconds keep up with instants. -/
theorem unix_add_le {t u n : Int} (h : t + n * second ≤ u) : unix t + n ≤ unix u := by
  rw [second] at h
  rw [unix, unix, second]
  omega

/-- A later instant cut to whole seconds is no later than the earlier one exactly if the second
has not changed in between. -/
theorem unix_add_mul_second_le_iff {t d : Int} (hd : 0 ≤ d) :
    unix (t + d) * second ≤ t ↔ t % second + d < second := by
  rw [unix, second]
  omega

/-- A whole number of seconds as a duration, `time.Duration(n) * time.Second`. -/
def ofSeconds (n : Int) : Duration := wrap64 (n * second)

end Time

end LunaZTrust.Go
