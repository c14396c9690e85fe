import Logbook.Json.Number
import Logbook.Json.Text

/-!
Passing over a JSON value that is not needed. Nesting is kept on a stack, so there is no limit on
its depth.
-/
namespace Logbook.Json

/-- What a value may be nested in. -/
inductive Frame where
  | list | object
deriving DecidableEq

/-- The rest of a word, after its first letter. -/
def readWord : Bytes → Bytes → Except Fault Bytes
  | [], bs => .ok bs
  | _ :: _, [] => .error .endInValue
  | e :: word, b :: rest => if b = e then readWord word rest else .error .expectedIdent

def readNull (bs : Bytes) : Except Fault Bytes := readWord [0x75, 0x6c, 0x6c] bs

def readTrue (bs : Bytes) : Except Fault Bytes := readWord [0x72, 0x75, 0x65] bs

def readFalse (bs : Bytes) : Except Fault Bytes := readWord [0x61, 0x6c, 0x73, 0x65] bs

def expectColon (bs : Bytes) : Except Fault Bytes :=
  match skipBlanks bs with
  | b :: rest => if b = 0x3a then .ok rest else .error .expectedColon
  | [] => .error .endInObject

/-- A key and its colon, when the frame is an object. -/
def skipKey (frame : Frame) (bs : Bytes) : Except Fault Bytes :=
  match frame with
  | .list => .ok bs
  | .object =>
    match skipBlanks bs with
    | b :: rest =>
      if b = 0x22 then (skipText rest).bind expectColon else .error .keyNotString
    | [] => .error .endInObject

/-- The start of a value: what it opens, if it is not complete, and the rest. -/
def skipStart (bs : Bytes) : Except Fault (Option Frame × Bytes) :=
  match skipBlanks bs with
  | [] => .error .endInValue
  | b :: rest =>
    if b = 0x6e then (readNull rest).map (none, ·)
    else if b = 0x74 then (readTrue rest).map (none, ·)
    else if b = 0x66 then (readFalse rest).map (none, ·)
    else if b = 0x2d then (skipUnsigned rest).map (none, ·)
    else if isDigit b then (skipUnsigned (b :: rest)).map (none, ·)
    else if b = 0x22 then (skipText rest).map (none, ·)
    else if b = 0x5b then .ok (some .list, rest)
    else if b = 0x7b then .ok (some .object, rest)
    else .error .expectedValue

def Frame.closer : Frame → UInt8
  | list => 0x5d
  | object => 0x7d

def Frame.unended : Frame → Fault
  | list => .endInList
  | object => .endInObject

def Frame.unseparated : Frame → Fault
  | list => .expectedListEnd
  | object => .expectedObjectEnd

/-- Closes frames until a value follows: the frames left, and the rest at that value. A comma
may follow only a value. -/
def skipEnds (comma : Bool) (stack : List Frame) (bs : Bytes) : Except Fault (List Frame × Bytes) :=
  match stack with
  | [] => .ok ([], bs)
  | frame :: outer =>
    match skipBlanks bs with
    | [] => .error frame.unended
    | b :: rest =>
      if comma && b = 0x2c then (skipKey frame rest).map (frame :: outer, ·)
      else if b = frame.closer then skipEnds true outer rest
      else if comma then .error frame.unseparated
      else (skipKey frame (b :: rest)).map (frame :: outer, ·)

/-- Passes over values until the stack is empty; every value takes at least one byte of fuel. -/
def skipValues : Nat → List Frame → Bytes → Except Fault Bytes
  | 0, _, _ => .error .endInValue
  | fuel + 1, stack, bs => do
    let (opened, rest) ← skipStart bs
    let (stack, rest) ← match opened with
      | some frame => skipEnds false (frame :: stack) rest
      | none => skipEnds true stack rest
    if stack.isEmpty then return rest else skipValues fuel stack rest

def skipValue (bs : Bytes) : Except Fault Bytes := skipValues (bs.length + 1) [] bs

end Logbook.Json
