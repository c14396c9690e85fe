import Logbook.Json.Skip
import Logbook.Message

/-!
Messages as JSON. A record is written as an object with its four fields in order, and read from
an object with the fields in any order, or from an array of their values. Faults are reported in
the order of reading.
-/
namespace Logbook.Json

/-- The fault of a value that starts with `b` and is not of the expected kind. -/
def mismatch (expected : String) (b : UInt8) (rest : Bytes) : Fault :=
  let found (f : Found) : Fault := .invalidType f expected
  let after (f : Found) : Except Fault Bytes → Fault
    | .ok _ => found f
    | .error e => e
  let number : Reading Number → Fault
    | .ok (n, _) => found n.found
    | .error e => e
  if b = 0x6e then after .null (readNull rest)
  else if b = 0x74 then after (.bool true) (readTrue rest)
  else if b = 0x66 then after (.bool false) (readFalse rest)
  else if b = 0x2d then number (readUnsigned false rest)
  else if isDigit b then number (readUnsigned true (b :: rest))
  else if b = 0x22 then
    match readText rest with
    | .ok (s, _) => found (.string s)
    | .error e => e
  else if b = 0x5b then found .sequence
  else if b = 0x7b then found .map
  else .expectedValue

/-- Reads a value by its first byte, after blanks. -/
def readStart {α : Type} (read : UInt8 → Bytes → Reading α) (bs : Bytes) : Reading α :=
  match skipBlanks bs with
  | [] => .error .endInValue
  | b :: rest => read b rest

def readString : Bytes → Reading String :=
  readStart fun b rest =>
    if b = 0x22 then readText rest else .error (mismatch "a string" b rest)

/-- An integer from 0 to `max`. -/
def readInteger (expected : String) (max : Nat) : Bytes → Reading Nat :=
  let check : Number × Bytes → Reading Nat
    | (.natural n, rest) =>
      if n ≤ max then .ok (n, rest) else .error (.invalidValue n expected)
    | (.negative n, _) => .error (.invalidValue n expected)
    | (.float f, _) => .error (.invalidType (.float f) expected)
  readStart fun b rest =>
    if b = 0x2d then (readUnsigned false rest).bind check
    else if isDigit b then (readUnsigned true (b :: rest)).bind check
    else .error (mismatch expected b rest)

def readByte (bs : Bytes) : Reading UInt8 :=
  (readInteger "u8" 255 bs).map fun (n, rest) => (n.toUInt8, rest)

def readWatermark (bs : Bytes) : Reading UInt64 :=
  (readInteger "u64" 0xffffffffffffffff bs).map fun (n, rest) => (n.toUInt64, rest)

def readFlags (bs : Bytes) : Except Fault (Flags × Bytes) := do
  let (b, rest) ← readByte bs
  match Flags.ofBits b with
  | .ok flags => return (flags, rest)
  | .error e => throw (.flags e)

/-- Moves to the next element of an array, after a comma unless it is the first. The answer tells
whether there is one; at the closing bracket the rest still holds it. -/
def nextElement (first : Bool) (bs : Bytes) : Reading Bool :=
  match skipBlanks bs with
  | [] => .error .endInList
  | b :: rest =>
    if b = 0x5d then .ok (false, b :: rest)
    else if first then .ok (true, b :: rest)
    else if b = 0x2c then
      match skipBlanks rest with
      | [] => .error .endInValue
      | c :: more => if c = 0x5d then .error .trailingComma else .ok (true, c :: more)
    else .error .expectedListEnd

/-- The bracket that closes an array. -/
def endList (bs : Bytes) : Except Fault Bytes :=
  match skipBlanks bs with
  | [] => .error .endInList
  | b :: rest =>
    if b = 0x5d then .ok rest
    else if b = 0x2c then
      match skipBlanks rest with
      | c :: _ => if c = 0x5d then .error .trailingComma else .error .trailingCharacters
      | [] => .error .trailingCharacters
    else .error .trailingCharacters

/-- The elements of an array of bytes up to its bracket; every element takes at least one byte. -/
def readElements : Nat → Bool → Bytes → Except Fault (Bytes × Bytes)
  | 0, _, _ => .error .endInList
  | fuel + 1, first, bs => do
    let (more, rest) ← nextElement first bs
    if more then
      let (b, rest) ← readByte rest
      let (tail, rest) ← readElements fuel false rest
      return (b :: tail, rest)
    else return ([], rest)

/-- Data as an array of bytes, or as a string whose bytes are kept as they are. -/
def readData : Bytes → Reading Bytes :=
  readStart fun b rest =>
    if b = 0x22 then readContent false rest
    else if b = 0x5b then
      (readElements (rest.length + 1) true rest).bind fun (data, rest) =>
        (endList rest).map (data, ·)
    else .error (mismatch "byte array" b rest)

/-- The fields of a record read so far. -/
structure Fields where
  key : Option String := none
  data : Option Bytes := none
  watermark : Option UInt64 := none
  flags : Option Flags := none

def Fields.toRecord (fs : Fields) : Except Fault Record := do
  let some key := fs.key | throw (.missingField "key")
  let some data := fs.data | throw (.missingField "data")
  let some watermark := fs.watermark | throw (.missingField "watermark")
  let some flags := fs.flags | throw (.missingField "flags")
  return { key, data, watermark, flags }

/-- The value of a field after its colon, unless the field was there before. -/
def readField {α : Type} (name : String) (present : Option α) (read : Bytes → Reading α)
    (bs : Bytes) : Reading α :=
  if present.isSome then .error (.duplicateField name) else (expectColon bs).bind read

/-- Takes the value of the named field; the values of unknown fields are passed over. -/
def Fields.readNamed (fs : Fields) (name : String) (bs : Bytes) : Reading Fields :=
  if name = "key" then
    (readField name fs.key readString bs).map fun (v, rest) => ({ fs with key := some v }, rest)
  else if name = "data" then
    (readField name fs.data readData bs).map fun (v, rest) => ({ fs with data := some v }, rest)
  else if name = "watermark" then
    (readField name fs.watermark readWatermark bs).map
      fun (v, rest) => ({ fs with watermark := some v }, rest)
  else if name = "flags" then
    (readField name fs.flags readFlags bs).map fun (v, rest) => ({ fs with flags := some v }, rest)
  else ((expectColon bs).bind skipValue).map fun rest => (fs, rest)

/-- Moves to the next key of an object, after a comma unless it is the first; the rest follows the
key's opening quote, or the brace that closes the object. -/
def nextKey (first : Bool) (bs : Bytes) : Reading Bool :=
  match skipBlanks bs with
  | [] => .error .endInObject
  | b :: rest =>
    if b = 0x7d then .ok (false, rest)
    else if first then if b = 0x22 then .ok (true, rest) else .error .keyNotString
    else if b = 0x2c then
      match skipBlanks rest with
      | [] => .error .endInValue
      | c :: more =>
        if c = 0x22 then .ok (true, more)
        else if c = 0x7d then .error .trailingComma
        else .error .keyNotString
    else .error .expectedObjectEnd

/-- The fields of an object up to its brace; every field takes at least one byte. -/
def readFields : Nat → Bool → Fields → Bytes → Except Fault (Fields × Bytes)
  | 0, _, _, _ => .error .endInObject
  | fuel + 1, first, fs, bs => do
    let (more, rest) ← nextKey first bs
    if more then
      let (name, rest) ← readText rest
      let (fs, rest) ← fs.readNamed name rest
      readFields fuel false fs rest
    else return (fs, rest)

def recordDescription : String := "struct Record with 4 elements"

/-- The element at a place of an array that stands for a record. -/
def readElement {α : Type} (place : Nat) (read : Bytes → Reading α) (bs : Bytes) :
    Except Fault (α × Bytes) := do
  let (more, rest) ← nextElement (place = 0) bs
  if more then read rest else throw (.invalidLength place recordDescription)

/-- A record as the array of its fields, after the bracket. -/
def readTuple (bs : Bytes) : Except Fault (Record × Bytes) := do
  let (key, rest) ← readElement 0 readString bs
  let (data, rest) ← readElement 1 readData rest
  let (watermark, rest) ← readElement 2 readWatermark rest
  let (flags, rest) ← readElement 3 readFlags rest
  let rest ← endList rest
  return ({ key, data, watermark, flags }, rest)

def readRecord : Bytes → Reading Record :=
  readStart fun b rest =>
    if b = 0x5b then readTuple rest
    else if b = 0x7b then
      (readFields (rest.length + 1) true {} rest).bind fun (fs, rest) => fs.toRecord.map (·, rest)
    else .error (mismatch "struct Record" b rest)

def readMessage : MessageType → Bytes → Reading Message
  | .record, bs => (readRecord bs).map fun (r, rest) => (.record r, rest)
  | _, bs => (readString bs).map fun (s, rest) => (.text s, rest)

/-- Reads one message; only blanks may follow it. -/
def read (t : MessageType) (bs : Bytes) : Except Fault Message := do
  let (m, rest) ← readMessage t bs
  if (skipBlanks rest).isEmpty then return m else throw .trailingCharacters

/-- Line breaks and blanks between the parts of a written text. -/
inductive Layout where
  | compact | pretty
deriving DecidableEq, Repr

def Layout.isPretty : Layout → Bool
  | compact => false
  | pretty => true

/-- A new line at a depth, in the pretty layout. -/
def Layout.line (l : Layout) (depth : Nat) : Bytes :=
  match l with
  | compact => []
  | pretty => 0x0a :: List.replicate (2 * depth) 0x20

def ascii (s : String) : Bytes := s.toList.flatMap String.utf8EncodeChar

def writeNat (n : Nat) : Bytes := (Text.decimal n).flatMap String.utf8EncodeChar

def Layout.colon : Layout → Bytes
  | compact => [0x3a]
  | pretty => [0x3a, 0x20]

/-- Items between brackets, each on a line of its own in the pretty layout. -/
def writeItems (l : Layout) (depth : Nat) (items : List Bytes) : Bytes :=
  l.line (depth + 1) ++ ([0x2c] ++ l.line (depth + 1)).intercalate items ++ l.line depth

def writeData (l : Layout) (depth : Nat) (data : Bytes) : Bytes :=
  if data.isEmpty then [0x5b, 0x5d]
  else [0x5b] ++ writeItems l depth (data.map fun b => writeNat b.toNat) ++ [0x5d]

def writeRecord (l : Layout) (r : Record) : Bytes :=
  let field (name : String) (value : Bytes) : Bytes := writeText name ++ l.colon ++ value
  [0x7b] ++ writeItems l 0
    [field "key" (writeText r.key), field "data" (writeData l 1 r.data),
      field "watermark" (writeNat r.watermark.toNat),
      field "flags" (writeNat r.flags.bits.toNat)] ++
    [0x7d]

def write (l : Layout) : Message → Bytes
  | .record r => writeRecord l r
  | .text s => writeText s

end Logbook.Json
