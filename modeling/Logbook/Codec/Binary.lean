import Logbook.Codec.Varint
import Logbook.Message
import Logbook.Text.Utf8

/-!
The compact binary layout: texts and byte strings after their length, the watermark as a number
of variable length, the flags as one byte; a record's fields in the order key, data, watermark,
flags. Reading takes the message from the front and returns the bytes after it.
-/
namespace Logbook.Codec.Binary

/-- No memory holds so many bytes in a row. -/
def capacity : Nat := 0x8000000000000000

/-- Why bytes are no message. A length that no memory holds is told apart from missing bytes, since
the content is given its place before it is read. -/
inductive Fault where
  | read (f : ReadFault)
  | capacity
  | notUtf8 (f : Text.Utf8.Fault)
  | flags (e : ArgumentError)
  | trailing (count : Nat)
deriving DecidableEq, Repr

def Fault.message : Fault → String
  | read (.missing n) => "UnexpectedEnd \x7b additional: " ++ toString n ++ " \x7d"
  | read (.integer expected found) =>
    "InvalidIntegerType \x7b expected: " ++ expected.name ++ ", found: " ++ found.name ++ " \x7d"
  | capacity => "capacity overflow"
  | notUtf8 f =>
    let length := match f.length with
      | some n => s!"Some({n})"
      | none => "None"
    s!"Utf8 \x7b inner: Utf8Error \x7b valid_up_to: {f.validUpTo}, error_len: {length} \x7d \x7d"
  | flags e => "OtherString(" ++ Text.quoted e.message ++ ")"
  | trailing n => s!"{n} trailing bytes"

def writeBytes (bs : Bytes) : Bytes := Varint.write bs.length ++ bs

def writeText (s : String) : Bytes := writeBytes (Text.Utf8.encode s)

def writeRecord (r : Record) : Bytes :=
  writeText r.key ++ writeBytes r.data ++ Varint.write r.watermark.toNat ++ [r.flags.bits]

def write : Message → Bytes
  | .record r => writeRecord r
  | .text s => writeText s

def lift {α : Type} (x : Except ReadFault α) : Except Fault α := x.mapError .read

def readBytes (bs : Bytes) : Except Fault (Bytes × Bytes) := do
  let (n, rest) ← lift (Varint.read bs)
  if capacity ≤ n then throw .capacity
  lift (take n rest)

def readText (bs : Bytes) : Except Fault (String × Bytes) := do
  let (content, rest) ← readBytes bs
  match Text.Utf8.decode content with
  | .ok s => return (s, rest)
  | .error f => throw (.notUtf8 f)

def readFlags (bs : Bytes) : Except Fault (Flags × Bytes) :=
  match bs with
  | [] => .error (.read (.missing 1))
  | b :: rest =>
    match Flags.ofBits b with
    | .ok flags => .ok (flags, rest)
    | .error e => .error (.flags e)

def readRecord (bs : Bytes) : Except Fault (Record × Bytes) := do
  let (key, rest) ← readText bs
  let (data, rest) ← readBytes rest
  let (watermark, rest) ← lift (Varint.read rest)
  let (flags, rest) ← readFlags rest
  return ({ key, data, watermark := watermark.toUInt64, flags }, rest)

def read : MessageType → Bytes → Except Fault (Message × Bytes)
  | .record, bs => do
    let (r, rest) ← readRecord bs
    return (.record r, rest)
  | _, bs => do
    let (s, rest) ← readText bs
    return (.text s, rest)

/-- Reads one message that takes all bytes. -/
def readAll (t : MessageType) (bs : Bytes) : Except Fault Message := do
  let (m, rest) ← read t bs
  if rest.isEmpty then return m else throw (.trailing rest.length)

end Logbook.Codec.Binary
