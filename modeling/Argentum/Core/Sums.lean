import Argentum.Core.Rounding
import Mathlib.Data.List.Induction

/-! `SUM` of a REAL column. How the doubles add up is the database's: SQLite added them
from left to right before its version 3.43, and has carried the error along since. In
either way a number that is not negative does not lower the sum. -/
namespace Argentum

/-- What `SUM` makes of the doubles of a column, in the order of their rows. -/
class SqliteSum where
  sum : List ℚ → ℚ
  sum_le_concat : ∀ weights weight, 0 ≤ weight → sum weights ≤ sum (weights ++ [weight])

theorem sum_le_append [SqliteSum] (weights : List ℚ) {more : List ℚ} (nonneg : ∀ weight ∈ more, 0 ≤ weight) :
    SqliteSum.sum weights ≤ SqliteSum.sum (weights ++ more) := by
  induction more generalizing weights with
  | nil => rw [List.append_nil]
  | cons weight rest ih =>
      have first := SqliteSum.sum_le_concat weights weight (nonneg weight List.mem_cons_self)
      have later := ih (weights ++ [weight]) fun other member => nonneg other (List.mem_cons_of_mem _ member)
      rw [List.append_assoc, List.singleton_append] at later
      exact first.trans later

namespace Sqlite

/-- From left to right. -/
def addUp (weights : List ℚ) : ℚ := weights.foldl doubleSum 0

theorem doubleOf_addUp (weights : List ℚ) : doubleOf (addUp weights) = addUp weights := by
  cases weights using List.reverseRecOn with
  | nil => exact (doubleOf_of_nonneg le_rfl).trans nearestDouble_zero
  | append_singleton weights last =>
      rw [addUp, List.foldl_concat]
      exact doubleOf_doubleOf _

/-- SQLite before its version 3.43. -/
scoped instance leftToRight : SqliteSum where
  sum := addUp
  sum_le_concat weights weight nonneg := by
    have later : addUp (weights ++ [weight]) = doubleOf (addUp weights + doubleOf weight) := by
      rw [addUp, List.foldl_concat, doubleSum]
      exact congrArg (fun sum => doubleOf (sum + doubleOf weight)) (doubleOf_addUp weights)
    calc addUp weights = doubleOf (addUp weights) := (doubleOf_addUp weights).symm
      _ ≤ doubleOf (addUp weights + doubleOf weight) :=
          doubleOf_mono (le_add_of_nonneg_right (doubleOf_nonneg nonneg))
      _ = addUp (weights ++ [weight]) := later.symm

end Sqlite
end Argentum
