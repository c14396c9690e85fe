import Logbook.Checksum.SipHash
import Logbook.Store.Basic

/-!
Appending. A key decides on the partition, so that records of one key stay in order. Nothing is
written once the appender is closed or its log is gone.
-/
namespace Logbook

/-- The partition of a key, out of `size`. -/
def partitionOfKey (key : String) (size : Nat) : Nat :=
  (Checksum.sipHash (Text.Utf8.encode key ++ [0xff])).toNat % size

namespace Store

/-- An appender that is still open; one that was never handed out counts as closed. -/
def openAppender (s : Store) (a : Nat) : Outcome Appender :=
  match s.appenders[a]? with
  | some w => if w.closed then .error (.closed .appender) else .ok w
  | none => .error (.closed .appender)

/-- Hands out an appender for a log; the answer is its number. -/
def createAppender (s : Store) (name : String) (type : MessageType) (codec : Option Codec) :
    Outcome (Nat × Store) := do
  let l ← s.log name
  let w : Appender := { log := l.number, name := l.name, size := l.size, type, codec }
  return (s.appenders.length, { s with appenders := s.appenders ++ [w] })

/-- The log of an appender, unless it is gone. -/
def logOf (s : Store) (w : Appender) : Outcome Log :=
  match s.logs.find? (·.number = w.log) with
  | some l => .ok l
  | none => .error (.unknownLog w.name)

/-- Puts a record at the end of a partition; the answer is its offset. -/
def pushRecord (s : Store) (l : Log) (index : Nat) (data : Bytes) : Outcome (Offset × Store) := do
  let position ← l.endOffset index
  let logs := s.logs.map fun k => if k.number = l.number then k.push index data else k
  return (⟨⟨l.name, index⟩, position⟩, { s with logs })

def appendTo (s : Store) (a : Nat) (index : Nat) (m : Message) : Outcome (Offset × Store) := do
  let w ← s.openAppender a
  let codec := defaultCodec w.codec
  let data ← (codec.encode m).mapError fun f => .codec (.encode codec f)
  s.pushRecord (← s.logOf w) index data

def append (s : Store) (a : Nat) (key : String) (m : Message) : Outcome (Offset × Store) :=
  match s.appenders[a]? with
  | some w => s.appendTo a (partitionOfKey key w.size) m
  | none => .error (.closed .appender)

/-- Closing is done when it fails, too, and closing again does nothing. -/
def closeAppender (s : Store) (a : Nat) : Outcome Unit × Store :=
  match s.openAppender a with
  | .error _ => (.ok (), s)
  | .ok w =>
    let s := { s with appenders := s.appenders.set a { w with closed := true } }
    let (fails, s) := s.takeCloseFault
    (if fails then .error (.injected .closeAppender) else .ok (), s)

end Store

end Logbook
