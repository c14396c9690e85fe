import Logbook.Store.Basic

/-!
Who reads what. Within a group every partition belongs to at most one tailer, identified by a
number: from the moment its creation begins, and then until it is closed.
-/
namespace Logbook

/-- The owners of partitions, the numbers whose creation is in progress, and the tailers that
were handed out, by number. -/
structure Ownership where
  owners : List (GroupPartition × Nat) := []
  reserved : List Nat := []
  live : List (Nat × TailerRef) := []
deriving DecidableEq, Repr

namespace Ownership

/-- Whether a number is in progress or stands for a tailer that is not closed. -/
def isActive (o : Ownership) (isClosed : TailerRef → Bool) (id : Nat) : Bool :=
  o.reserved.contains id || o.live.any fun e => e.1 = id && !isClosed e.2

/-- The first key that belongs to someone. -/
def taken? (o : Ownership) (isClosed : TailerRef → Bool) (keys : List GroupPartition) :
    Option GroupPartition :=
  keys.find? fun key => (o.owners.lookup key).any (o.isActive isClosed)

/-- Gives all keys to a number that is in progress from now on. -/
def reserve (o : Ownership) (id : Nat) (keys : List GroupPartition) : Ownership where
  owners := keys.map (·, id) ++ o.owners.filter (!keys.contains ·.1)
  reserved := id :: o.reserved
  live := o.live

/-- Puts a tailer in the place of the reservation. -/
def activate (o : Ownership) (id : Nat) (tailer : TailerRef) : Ownership :=
  { o with reserved := o.reserved.filter (· ≠ id), live := (id, tailer) :: o.live }

/-- Gives the keys of a failed creation back. -/
def release (o : Ownership) (id : Nat) (keys : List GroupPartition) : Ownership :=
  { o with reserved := o.reserved.filter (· ≠ id)
           owners := o.owners.filter fun e => !(e.2 = id && keys.contains e.1) }

/-- Tracks a tailer that owns no keys. -/
def track (o : Ownership) (id : Nat) (tailer : TailerRef) : Ownership :=
  { o with live := (id, tailer) :: o.live }

/-- Forgets closed tailers and the keys they owned. -/
def prune (o : Ownership) (isClosed : TailerRef → Bool) : Ownership :=
  let live := o.live.filter (!isClosed ·.2)
  { o with live, owners := o.owners.filter fun e =>
      o.reserved.contains e.2 || live.any (·.1 = e.2) }

def liveCount (o : Ownership) (isClosed : TailerRef → Bool) : Nat :=
  (o.live.filter (!isClosed ·.2)).length

/-- The tailers that were handed out, in the order of their numbers. -/
def inOrder (o : Ownership) : List (Nat × TailerRef) := o.live.mergeSort fun a b => a.1 ≤ b.1

end Ownership

end Logbook
