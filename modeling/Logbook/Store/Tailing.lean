import Logbook.Store.Basic

/-!
Handing tailers out and reading with them. A read first takes over the partitions that the group
has assigned meanwhile, and then looks once at every partition, starting after the one that
delivered last. A record that cannot be decoded is passed over once it was reported.
-/
namespace Logbook

/-- What a tailer tells about a change of its partitions. -/
inductive Notification where
  | revoked (partitions : List Partition)
  | assigned (partitions : List Partition)
deriving DecidableEq, Repr

namespace Tailer

/-- The position in a partition, zero where none is kept. -/
def position (t : Tailer) (p : Partition) : Nat := (t.positions.lookup p).getD 0

def setPosition (t : Tailer) (p : Partition) (position : Nat) : Tailer :=
  { t with positions := (p, position) :: t.positions.filter (·.1 ≠ p) }

/-- The partitions given up when others take their place. -/
def lost (t : Tailer) (assigned : List Partition) : List Partition :=
  t.assignments.filter (!assigned.contains ·)

/-- The partitions among these that are new. -/
def gained (t : Tailer) (assigned : List Partition) : List Partition :=
  assigned.filter (!t.assignments.contains ·)

/-- Forgets partitions: their positions and whether they are stopped. -/
def forget (t : Tailer) (ps : List Partition) : Tailer :=
  { t with positions := t.positions.filter (!ps.contains ·.1)
           stopped := t.stopped.filter (!ps.contains ·) }

/-- Takes over the partitions of a generation, unless it is the one at hand. New partitions are read
from the offset that the group has committed. -/
def follow (t : Tailer) (generation : Nat) (assigned : List Partition)
    (committed? : Partition → Option Nat) : Tailer × List Notification :=
  if t.generation = generation then (t, [])
  else
    let lost := t.lost assigned
    let gained := t.gained assigned
    let start (t : Tailer) (p : Partition) : Tailer := t.setPosition p ((committed? p).getD 0)
    let moved := gained.foldl start (t.forget lost)
    let notices := (if lost.isEmpty then [] else [.revoked lost]) ++
      if gained.isEmpty then [] else [.assigned gained]
    ({ moved with generation, assignments := assigned, next := 0 }, notices)

/-- The places of the assigned partitions in the order of a look. -/
def lookOrder (t : Tailer) : List Nat :=
  (List.range t.assignments.length).map fun k => (t.next + k) % t.assignments.length

end Tailer

namespace Store

def tailer? (s : Store) (r : TailerRef) : Option Tailer := s.tailers.lookup r

/-- A tailer that is still open; one that was never handed out counts as closed. -/
def openTailer (s : Store) (r : TailerRef) : Outcome Tailer :=
  match s.tailer? r with
  | some t => if t.closed then .error (.closed .tailer) else .ok t
  | none => .error (.closed .tailer)

def isClosedTailer (s : Store) (r : TailerRef) : Bool := ((s.tailer? r).map (·.closed)).getD true

def setTailer (s : Store) (r : TailerRef) (t : Tailer) : Store :=
  { s with tailers := s.tailers.map fun e => if e.1 = r then (r, t) else e }

/-- Hands a tailer out to a group. -/
def addTailer (s : Store) (group : String) (t : Tailer) : TailerRef × Store :=
  let r : TailerRef := ⟨group, s.tailers.countP (·.1.group = group)⟩
  (r, { s with tailers := s.tailers ++ [(r, t)] })

/-- All partitions exist. -/
def checkPartitions (s : Store) : List Partition → Outcome Unit
  | [] => .ok ()
  | p :: rest => do
    let size ← s.size p.log
    if size ≤ p.index then throw (.outOfRange p size)
    s.checkPartitions rest

/-- Hands out a tailer for partitions, to be read from the offsets that the group has committed. -/
def createTailer (s : Store) (group : String) (partitions : List Partition) (type : MessageType)
    (codec : Option Codec) : Outcome TailerRef × Store :=
  match s.checkPartitions partitions with
  | .error e => (.error e, s)
  | .ok () =>
    if s.failNextTailer then (.error (.injected .createTailer), { s with failNextTailer := false })
    else
      let start (t : Tailer) (p : Partition) : Tailer :=
        t.setPosition p ((s.committed? group p).getD 0)
      let t : Tailer := { type, codec, subscribed := false, assignments := partitions }
      let (r, s) := s.addTailer group (partitions.foldl start t)
      (.ok r, s)

/-- Hands out a tailer that joins a group. It has no partitions before its first read. -/
def subscribe (s : Store) (group : String) (names : List String) (type : MessageType)
    (codec : Option Codec) : Outcome (TailerRef × Store) := do
  if !s.config.canSubscribe then throw .subscribeUnsupported
  (s.config.limits.checkGroupName group).mapError .argument
  let (r, s) := s.addTailer group { type, codec, subscribed := true }
  return (r, s.putGroup group (((s.group? group).getD {}).join r.number names s.sizeOf?))

/-- Takes a member out of its group. -/
def leaveGroup (s : Store) (r : TailerRef) : Store :=
  match s.group? r.group with
  | none => s
  | some g => s.putGroup r.group (g.leave r.number s.sizeOf?)

/-- A closed subscribed tailer has left its group. Closing is done when it fails, too, and closing
again does nothing. -/
def closeTailer (s : Store) (r : TailerRef) : Outcome Unit × Store :=
  match s.openTailer r with
  | .error _ => (.ok (), s)
  | .ok t =>
    let s := s.setTailer r { t with closed := true }
    let s := if t.subscribed then s.leaveGroup r else s
    let (fails, s) := s.takeCloseFault
    (if fails then .error (.injected .closeTailer) else .ok (), s)

/-- The generation of a group and the partitions of a member; there are none without the group. -/
def assignmentOf (s : Store) (r : TailerRef) : Nat × List Partition :=
  match s.group? r.group with
  | some g => (g.generation, g.assigned r.number)
  | none => (0, [])

/-- A tailer after it has taken over what its group assigns to it. -/
def follow (s : Store) (r : TailerRef) (t : Tailer) : Tailer × List Notification :=
  if t.subscribed then
    let (generation, assigned) := s.assignmentOf r
    t.follow generation assigned (s.committed? r.group)
  else (t, [])

/-- The record at a tailer's position in a partition. There is none in a stopped partition and in
a log that is gone. -/
def peek (s : Store) (t : Tailer) (p : Partition) : Outcome (Option Bytes) :=
  if t.stopped.contains p then .ok none
  else match s.log? p.log with
    | none => .ok none
    | some l => (l.records p.index).map (·[t.position p]?)

/-- The first of some places with a record: the place, the partition and the record. -/
def firstRecord (s : Store) (t : Tailer) : List Nat → Outcome (Option (Nat × Partition × Bytes))
  | [] => .ok none
  | i :: rest =>
    match t.assignments[i]? with
    | none => s.firstRecord t rest
    | some p =>
      match s.peek t p with
      | .error e => .error e
      | .ok (some data) => .ok (some (i, p, data))
      | .ok none => s.firstRecord t rest

/-- A tailer after it has consumed the record at its position in the partition at a place. -/
def consume (t : Tailer) (i : Nat) (p : Partition) (data : Bytes) :
    Outcome (Offset × Message) × Tailer :=
  let position := t.position p
  let codec := defaultCodec t.codec
  let moved := { t.setPosition p (position + 1) with next := (i + 1) % t.assignments.length }
  match codec.decode t.type data with
  | .error f => (.error (.codec (.decode codec f)), moved)
  | .ok m =>
    let stopped := if m.isPoisonPill then p :: moved.stopped else moved.stopped
    (.ok (⟨p, position⟩, m), { moved with stopped })

/-- One look at all partitions. -/
def poll (s : Store) (t : Tailer) : Outcome (Option (Offset × Message)) × Tailer :=
  match s.firstRecord t t.lookOrder with
  | .error e => (.error e, t)
  | .ok none => (.ok none, t)
  | .ok (some (i, p, data)) =>
    let (found, t) := consume t i p data
    (found.map some, t)

/-- The first part of a read: an open tailer takes over what its group assigns to it. -/
def takeOver (s : Store) (r : TailerRef) : Outcome (List Notification × Store) := do
  let t ← s.openTailer r
  let (t, notices) := s.follow r t
  return (notices, s.setTailer r t)

/-- The second part of a read: one look. A tailer that was closed since the first part looks,
too. -/
def look (s : Store) (r : TailerRef) : Outcome (Option (Offset × Message)) × Store :=
  match s.tailer? r with
  | none => (.error (.closed .tailer), s)
  | some t =>
    let (found, t) := s.poll t
    (found, s.setTailer r t)

/-- One read: the next record, if there is one. -/
def read (s : Store) (r : TailerRef) :
    Outcome (Option (Offset × Message)) × List Notification × Store :=
  match s.takeOver r with
  | .error e => (.error e, [], s)
  | .ok (notices, s) =>
    let (found, s) := s.look r
    (found, notices, s)

end Store

end Logbook
