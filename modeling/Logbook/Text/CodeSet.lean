/-!
Sets of code points, written as the ascending list of the points where membership changes.
-/
namespace Logbook.Text

/-- A code point belongs when an odd number of the changes lie at or below it. -/
structure CodeSet where
  changes : List Nat

def CodeSet.contains (s : CodeSet) (c : Char) : Bool :=
  (s.changes.takeWhile (· ≤ c.toNat)).length % 2 == 1

end Logbook.Text
