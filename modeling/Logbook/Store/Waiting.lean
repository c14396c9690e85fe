import Logbook.Store.Tailing

/-!
A read that waits. It is cut in two where it first has to wait, so that other operations can come in
between: either its listener is being told of new partitions, and the look comes after that, or a
look found nothing and there is time left for another read.
-/
namespace Logbook

/-- How long a read waits for a record: some milliseconds, or until there is one. -/
inductive Patience where
  | milliseconds (n : Nat)
  | endless
deriving DecidableEq, Repr

/-- Some time is left after so many milliseconds. -/
def Patience.outlasts : Patience → Nat → Bool
  | milliseconds n, elapsed => elapsed < n
  | endless, _ => true

/-- How far a read comes without waiting. -/
inductive Reading where
  | ended (found : Outcome (Option (Offset × Message)))
  | telling (notices : List Notification)
  | waiting

/-- How long the store waits for a listener that takes so many milliseconds for a notification. -/
def StoreConfig.tellingTime (c : StoreConfig) (pace : Nat) (notices : List Notification) : Nat :=
  notices.length * min pace c.listenerTime

namespace Store

/-- Begins a read. The partitions are taken over before the listener is told of them. -/
def beginRead (s : Store) (r : TailerRef) (patience : Patience) : Reading × Store :=
  match s.takeOver r with
  | .error e => (.ended (.error e), s)
  | .ok (n :: notices, s) => (.telling (n :: notices), s)
  | .ok ([], s) =>
    match s.look r with
    | (.ok none, s) => (if patience.outlasts 0 then .waiting else .ended (.ok none), s)
    | (found, s) => (.ended found, s)

/-- Goes on with a read. When the listener has been told, the tailer looks; when there is nothing
and time is left, it reads once more. Later reads would find nothing else, since by then no
operation comes in between. -/
def finishRead (s : Store) (r : TailerRef) (patience : Patience) (pace : Nat) (reading : Reading) :
    Outcome (Option (Offset × Message)) × List Notification × Store :=
  match reading with
  | .ended found => (found, [], s)
  | .waiting => s.read r
  | .telling notices =>
    match s.look r with
    | (.ok none, s) =>
      if patience.outlasts (s.config.tellingTime pace notices) then
        let (found, more, s) := s.read r
        (found, notices ++ more, s)
      else (.ok none, notices, s)
    | (found, s) => (found, notices, s)

end Store

end Logbook
