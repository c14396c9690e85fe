import Logbook.Broker.Ownership
import Logbook.Lag
import Logbook.Store.Appending
import Logbook.Store.Positioning

/-!
The broker: the store behind one entrance. It keeps one appender for each log, sees to it that
tailers of a group do not share partitions and that all who use a log agree on its codec, and
closes everything that it handed out when it is closed itself.
-/
namespace Logbook

structure Broker where
  store : Store := {}
  limits : Limits := {}
  closed : Bool := false
  appenders : List (String × Nat) := []
  ownership : Ownership := {}
  nextNumber : Nat := 1
deriving DecidableEq, Repr

namespace Broker

def checkOpen (b : Broker) : Outcome Unit :=
  if b.closed then .error (.closed .manager) else .ok ()

/-- Creates a log unless there is one of that name; the answer tells whether it was created. -/
def createIfMissing (b : Broker) (name : String) (size : Nat) : Outcome (Bool × Broker) := do
  b.checkOpen
  (b.limits.checkLogName name).mapError .argument
  (b.limits.checkPartitionCount size).mapError .argument
  if b.store.contains name then return (false, b)
  return (true, { b with store := ← b.store.create name size })

def contains (b : Broker) (name : String) : Outcome Bool := do
  b.checkOpen
  return b.store.contains name

def size (b : Broker) (name : String) : Outcome Nat := do
  b.checkOpen
  b.store.size name

def names (b : Broker) : Outcome (List String) := do
  b.checkOpen
  return b.store.names

/-- Deletes a log and closes its appender. That the appender fails to close is of no consequence. -/
def delete (b : Broker) (name : String) : Outcome (Bool × Broker) := do
  b.checkOpen
  let (there, store) := b.store.delete name
  if !there then return (false, b)
  let store := match b.appenders.lookup name with
    | some a => (store.closeAppender a).2
    | none => store
  return (true, { b with store, appenders := b.appenders.filter (·.1 ≠ name) })

/-- How far a group is behind in every partition of a log. -/
def lag (b : Broker) (name group : String) : Outcome (List Lag) := do
  b.checkOpen
  let size ← b.store.size name
  (Partition.allOf name size).mapM fun p => do
    return ⟨p, (b.store.committed? group p).getD 0, ← b.store.endOffset p⟩

/-- The codec that the appender of a log was created with. -/
def codecOf? (b : Broker) (name : String) : Option Codec := do
  (← b.store.appenders[← b.appenders.lookup name]?).codec

/-- The appender of a log: the one that is there, if type and codec agree with it, otherwise a new
one. -/
def appender (b : Broker) (name : String) (type : MessageType) (codec : Option Codec) :
    Outcome (Nat × Broker) := do
  b.checkOpen
  match b.appenders.lookup name with
  | some a =>
    match b.store.appenders[a]? with
    | none => throw (.unknownLog name)
    | some w =>
      if w.type ≠ type then throw (.typeMismatch name w.type type)
      if codec.isSome && !sameIdentity w.codec codec then
        throw (.codecMismatch name (w.codec.map Codec.identity) (codec.map Codec.identity))
      return (a, b)
  | none =>
    let (a, store) ← b.store.createAppender name type codec
    return (a, { b with store, appenders := (name, a) :: b.appenders })

/-- Closes the appenders one after the other; the answer lists the logs of those that failed. -/
def closeAppenders (s : Store) : List (String × Nat) → List CloseFailure × Store
  | [] => ([], s)
  | (name, a) :: rest =>
    let (done, s) := s.closeAppender a
    let (failures, s) := closeAppenders s rest
    (if done.isOk then failures else .appender name :: failures, s)

/-- Closes the tailers one after the other; the answer lists the numbers of those that failed. -/
def closeTailers (s : Store) : List (Nat × TailerRef) → List CloseFailure × Store
  | [] => ([], s)
  | (id, r) :: rest =>
    let (done, s) := s.closeTailer r
    let (failures, s) := closeTailers s rest
    (if done.isOk then failures else .tailer id :: failures, s)

/-- Closes everything that was handed out, appenders by name and then tailers by number, also when
some of it fails to close. -/
def close (b : Broker) : Outcome Unit × Broker :=
  if b.closed then (.ok (), b)
  else
    let appenders := b.appenders.mergeSort fun x y => x.1 ≤ y.1
    let (failed, store) := closeAppenders b.store appenders
    let (failedTailers, store) := closeTailers store b.ownership.inOrder
    let failures := failed ++ failedTailers
    (if failures.isEmpty then .ok () else .error (.closeFailed failures),
      { b with store, closed := true, appenders := [], ownership := {} })

/-- How many tailers that were handed out are not closed. -/
def liveTailers (b : Broker) : Nat := b.ownership.liveCount b.store.isClosedTailer

end Broker

end Logbook
