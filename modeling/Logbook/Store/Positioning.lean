import Logbook.Store.Tailing

/-!
Committing positions and moving them. Every change is made to the partitions that the tailer has
at hand, also when its group has handed out others meanwhile.
-/
namespace Logbook.Store

/-- An assigned partition of an open tailer. -/
def assignedTailer (s : Store) (r : TailerRef) (p : Partition) : Outcome Tailer := do
  let t ← s.openTailer r
  if t.assignments.contains p then return t else throw (.notAssigned p)

/-- Commits the positions in all partitions. -/
def commitAll (s : Store) (r : TailerRef) : Outcome Store := do
  let t ← s.openTailer r
  return t.assignments.foldl (fun s p => s.commit r.group p (t.position p)) s

/-- Commits the position in one partition; the answer is that position. -/
def commitPartition (s : Store) (r : TailerRef) (p : Partition) : Outcome (Offset × Store) := do
  let t ← s.assignedTailer r p
  return (⟨p, t.position p⟩, s.commit r.group p (t.position p))

/-- Moves all partitions and lets stopped ones go on. -/
def moveAll (s : Store) (r : TailerRef) (position : Partition → Nat) : Outcome Store := do
  let t ← s.openTailer r
  let moved := t.assignments.foldl (fun t p => t.setPosition p (position p)) t
  return s.setTailer r { moved with stopped := [] }

def toStart (s : Store) (r : TailerRef) : Outcome Store := s.moveAll r fun _ => 0

def toLastCommitted (s : Store) (r : TailerRef) : Outcome Store :=
  s.moveAll r fun p => (s.committed? r.group p).getD 0

/-- The end of a partition, zero if its log is gone. -/
def endOrStart (s : Store) (p : Partition) : Outcome Nat :=
  match s.log? p.log with
  | some l => l.endOffset p.index
  | none => .ok 0

/-- Moves partitions to their ends, one after the other, up to the first that does not exist. -/
def moveToEnds (s : Store) (t : Tailer) : List Partition → Outcome Unit × Tailer
  | [] => (.ok (), { t with stopped := [] })
  | p :: rest =>
    match s.endOrStart p with
    | .error e => (.error e, t)
    | .ok position => s.moveToEnds (t.setPosition p position) rest

/-- Moves all partitions to their ends. When one of them does not exist, those before it stay
moved. -/
def toEnd (s : Store) (r : TailerRef) : Outcome Unit × Store :=
  match s.openTailer r with
  | .error e => (.error e, s)
  | .ok t =>
    let (done, t) := s.moveToEnds t t.assignments
    (done, s.setTailer r t)

/-- Moves one partition, to any position, and lets it go on if it was stopped. -/
def seek (s : Store) (r : TailerRef) (o : Offset) : Outcome Store := do
  let t ← s.assignedTailer r o.partition
  let moved := t.setPosition o.partition o.position
  return s.setTailer r { moved with stopped := moved.stopped.filter (· ≠ o.partition) }

end Logbook.Store
