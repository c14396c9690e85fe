import Logbook.Partition

/-!
Consumer groups. The members of a group share the partitions of the logs they subscribe to: of
every log, each of its subscribers takes a range, in the order in which they joined.
-/
namespace Logbook

/-- A consumer group: its members with the names they subscribe to, in the order of joining, the
partitions each of them has, and how often these were handed out anew. -/
structure Group where
  members : List (Nat × List String) := []
  assignment : List (Nat × List Partition) := []
  generation : Nat := 0
deriving DecidableEq, Repr

namespace Group

/-- The members that subscribe to a log. -/
def subscribers (members : List (Nat × List String)) (log : String) : List Nat :=
  (members.filter (·.2.contains log)).map (·.1)

/-- How many of `size` partitions the subscriber at a place gets, out of `count` subscribers. The
first ones get one more when the division leaves a remainder. -/
def shareSize (size count place : Nat) : Nat :=
  size / count + if place < size % count then 1 else 0

/-- The first partition of the subscriber at a place: the shares before it. -/
def shareStart (size count place : Nat) : Nat :=
  place * (size / count) + min place (size % count)

/-- The partitions of one log for the subscriber at a place. -/
def share (log : String) (size count place : Nat) : List Partition :=
  (List.range' (shareStart size count place) (shareSize size count place)).map (⟨log, ·⟩)

/-- Names in order, each once. -/
def distinctNames (names : List String) : List String := names.mergeSort.eraseDups

/-- The partitions of a member: its range of every log that exists. -/
def partitionsOf (members : List (Nat × List String)) (sizeOf : String → Option Nat)
    (member : Nat × List String) : List Partition :=
  (distinctNames member.2).flatMap fun log =>
    match sizeOf log with
    | none => []
    | some size =>
      let consumers := subscribers members log
      share log size consumers.length (consumers.idxOf member.1)

/-- The range assignment of all members. -/
def assignRanges (members : List (Nat × List String)) (sizeOf : String → Option Nat) :
    List (Nat × List Partition) :=
  members.map fun m => (m.1, partitionsOf members sizeOf m)

/-- Hands the partitions out anew. -/
def rebalance (g : Group) (sizeOf : String → Option Nat) : Group :=
  { g with assignment := assignRanges g.members sizeOf, generation := g.generation + 1 }

/-- Members join with growing numbers. -/
def join (g : Group) (member : Nat) (names : List String) (sizeOf : String → Option Nat) : Group :=
  { g with members := g.members ++ [(member, names)] }.rebalance sizeOf

/-- A member that is not in the group leaves it as it was. -/
def leave (g : Group) (member : Nat) (sizeOf : String → Option Nat) : Group :=
  if g.members.any (·.1 = member) then
    { g with members := g.members.filter (·.1 ≠ member) }.rebalance sizeOf
  else g

def watches (g : Group) (log : String) : Bool := g.members.any (·.2.contains log)

/-- The partitions that a member has now. -/
def assigned (g : Group) (member : Nat) : List Partition := (g.assignment.lookup member).getD []

end Group

end Logbook
