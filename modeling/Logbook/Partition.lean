import Logbook.Text.Number
import Logbook.Text.Quoted

/-!
Names of partitions, of partitions within a consumer group, and of places in a partition, each
with one printed form.
-/
namespace Logbook

structure Partition where
  log : String
  index : Nat
deriving DecidableEq, Repr

namespace Partition

/-- The index has at least two digits. -/
def display (p : Partition) : String := p.log ++ "-" ++ Text.padded 2 p.index

def describe (p : Partition) : String :=
  "LogPartition \x7b name: " ++ Text.quoted p.log ++ s!", partition: {p.index} \x7d"

/-- The partitions of a log of the given size. -/
def allOf (log : String) (size : Nat) : List Partition := (List.range size).map (⟨log, ·⟩)

def compare (p q : Partition) : Ordering :=
  (Ord.compare p.log q.log).then (Ord.compare p.index q.index)

end Partition

/-- A partition as one consumer group sees it. -/
structure GroupPartition where
  group : String
  partition : Partition
deriving DecidableEq, Repr

def GroupPartition.display (k : GroupPartition) : String := k.group ++ ":" ++ k.partition.display

/-- The largest offset there is. -/
def maxOffset : Nat := 0xffffffffffffffff

structure Offset where
  partition : Partition
  position : Nat
deriving DecidableEq, Repr

namespace Offset

def display (o : Offset) : String :=
  o.partition.display ++ ":+" ++ String.ofList (Text.decimal o.position)

/-- The place after this one; the largest offset is its own successor. -/
def next (o : Offset) : Offset := { o with position := min (o.position + 1) maxOffset }

def compare (a b : Offset) : Ordering :=
  (a.partition.compare b.partition).then (Ord.compare a.position b.position)

def sort (os : List Offset) : List Offset := os.mergeSort fun a b => (a.compare b).isLE

end Offset

end Logbook
