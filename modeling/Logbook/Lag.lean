import Logbook.Partition

/-!
How far a consumer group is behind the end of a partition.
-/
namespace Logbook

structure Lag where
  partition : Partition
  committed : Nat
  logEnd : Nat
deriving DecidableEq, Repr

namespace Lag

/-- A group that has committed past the end is not behind. -/
def behind (l : Lag) : Nat := l.logEnd - l.committed

def total : List Lag → Nat
  | [] => 0
  | l :: ls => l.behind + total ls

end Lag

end Logbook
