import Logbook.Store.Fault
import Logbook.Store.Group
import Logbook.Limits

/-!
The store: logs with their records, the offsets that groups have committed, the groups, and every
appender and tailer that was handed out. A log that is created again under its old name is a new
one and has a number of its own.
-/
namespace Logbook

abbrev Outcome (α : Type) := Except LogFault α

/-- A log: for each partition the records in the order of appending. -/
structure Log where
  number : Nat
  name : String
  partitions : List (List Bytes)
deriving DecidableEq, Repr

namespace Log

def size (l : Log) : Nat := l.partitions.length

/-- The records of a partition. -/
def records (l : Log) (index : Nat) : Outcome (List Bytes) :=
  match l.partitions[index]? with
  | some rs => .ok rs
  | none => .error (.outOfRange ⟨l.name, index⟩ l.size)

def endOffset (l : Log) (index : Nat) : Outcome Nat := (l.records index).map List.length

/-- Puts a record at the end of a partition. -/
def push (l : Log) (index : Nat) (data : Bytes) : Log :=
  { l with partitions := l.partitions.modify index (· ++ [data]) }

end Log

/-- What was handed out for writing: bound to one log, also after the log is gone. -/
structure Appender where
  log : Nat
  name : String
  size : Nat
  type : MessageType
  codec : Option Codec
  closed : Bool := false
deriving DecidableEq, Repr

/-- Which tailer: its group, and how many tailers the group was handed before. -/
structure TailerRef where
  group : String
  number : Nat
deriving DecidableEq, Repr

/-- What was handed out for reading: the partitions to read, the position in each, the partitions
that a poison pill has stopped, and where the next look begins. A subscribed tailer takes its
partitions from its group, as of some generation. -/
structure Tailer where
  type : MessageType
  codec : Option Codec
  subscribed : Bool
  generation : Nat := 0
  assignments : List Partition := []
  positions : List (Partition × Nat) := []
  stopped : List Partition := []
  next : Nat := 0
  closed : Bool := false
deriving DecidableEq, Repr

def Appender.describe (w : Appender) : String :=
  "LogAppender \x7b name: " ++ Text.quoted w.name ++ s!", size: {w.size}, .. \x7d"

def Tailer.describe (t : Tailer) (group : String) : String :=
  "LogTailer \x7b group: " ++ Text.quoted group ++ ", assignments: [" ++
    ", ".intercalate (t.assignments.map Partition.describe) ++ "], .. \x7d"

/-- Without a codec of its own an appender writes, and a tailer reads, the binary layout. -/
def defaultCodec (c : Option Codec) : Codec := c.getD .binary

/-- What a store allows. A listener that takes longer than its time, in milliseconds, is no longer
waited for. -/
structure StoreConfig where
  limits : Limits := {}
  listenerTime : Nat := 5000
  canSubscribe : Bool := true
  canDelete : Bool := true
deriving DecidableEq, Repr

structure Store where
  config : StoreConfig := {}
  logs : List Log := []
  created : Nat := 0
  committed : List (GroupPartition × Nat) := []
  groups : List (String × Group) := []
  appenders : List Appender := []
  tailers : List (TailerRef × Tailer) := []
  failNextTailer : Bool := false
  failNextClose : Bool := false
deriving DecidableEq, Repr

/-- How many logs there are, and how many appenders, tailers for given partitions and subscribed
tailers were handed out. -/
structure Statistics where
  logs : Nat
  appenders : Nat
  tailers : Nat
  subscriptions : Nat
deriving DecidableEq, Repr

namespace Store

def statistics (s : Store) : Statistics where
  logs := s.logs.length
  appenders := s.appenders.length
  tailers := s.tailers.countP (!·.2.subscribed)
  subscriptions := s.tailers.countP (·.2.subscribed)

def log? (s : Store) (name : String) : Option Log := s.logs.find? (·.name = name)

def log (s : Store) (name : String) : Outcome Log :=
  match s.log? name with
  | some l => .ok l
  | none => .error (.unknownLog name)

def contains (s : Store) (name : String) : Bool := (s.log? name).isSome

def sizeOf? (s : Store) (name : String) : Option Nat := (s.log? name).map Log.size

def size (s : Store) (name : String) : Outcome Nat := (s.log name).map Log.size

/-- The names of all logs, in order. -/
def names (s : Store) : List String := (s.logs.map (·.name)).mergeSort

def endOffset (s : Store) (p : Partition) : Outcome Nat := do (← s.log p.log).endOffset p.index

/-- The offset from which a group goes on in a partition, if it has committed one. -/
def committed? (s : Store) (group : String) (p : Partition) : Option Nat :=
  s.committed.lookup ⟨group, p⟩

def commit (s : Store) (group : String) (p : Partition) (position : Nat) : Store :=
  let key : GroupPartition := ⟨group, p⟩
  { s with committed := (key, position) :: s.committed.filter (·.1 ≠ key) }

def group? (s : Store) (name : String) : Option Group := s.groups.lookup name

/-- Puts a group under its name; a group without members is no group. -/
def putGroup (s : Store) (name : String) (g : Group) : Store :=
  let others := s.groups.filter (·.1 ≠ name)
  { s with groups := if g.members.isEmpty then others else (name, g) :: others }

/-- Hands out anew the partitions in all groups that subscribe to a log. -/
def rebalanceWatchers (s : Store) (name : String) : Store :=
  { s with groups := s.groups.map fun e =>
      if e.2.watches name then (e.1, e.2.rebalance s.sizeOf?) else e }

/-- Creates a log with empty partitions. A log of that name that exists stays as it is. -/
def create (s : Store) (name : String) (size : Nat) : Outcome Store := do
  (s.config.limits.checkLogName name).mapError .argument
  (s.config.limits.checkPartitionCount size).mapError .argument
  if s.contains name then return s
  let l : Log := ⟨s.created, name, List.replicate size []⟩
  return { s with logs := s.logs ++ [l], created := s.created + 1 }.rebalanceWatchers name

/-- Deletes a log with all offsets committed for it; the answer tells whether it was there. -/
def delete (s : Store) (name : String) : Bool × Store :=
  if s.config.canDelete && s.contains name then
    let logs := s.logs.filter (·.name ≠ name)
    let committed := s.committed.filter (·.1.partition.log ≠ name)
    (true, { s with logs, committed }.rebalanceWatchers name)
  else (false, s)

/-- Takes back the order that the next closing fails. -/
def takeCloseFault (s : Store) : Bool × Store :=
  (s.failNextClose, { s with failNextClose := false })

end Store

end Logbook
