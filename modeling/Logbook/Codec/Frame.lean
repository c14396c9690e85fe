import Logbook.Checksum.Crc32
import Logbook.Codec.Binary

/-!
Framed messages: two magic bytes, the fingerprint of the schema, the length of the payload, the
payload in the binary layout, and its checksum. A frame is bound to one schema name.
-/
namespace Logbook.Codec.Frame

def magic : Bytes := [0xc3, 0x01]

/-- Magic, fingerprint and length. -/
def headerSize : Nat := 10

def trailerSize : Nat := 4

def fingerprint (schema : String) : UInt32 := Checksum.crc32 (Text.Utf8.encode schema)

inductive Fault where
  | tooShort (size : Nat)
  | magic
  | schema (expected found : UInt32)
  | length (payload frame : Nat)
  | checksum (expected found : UInt32)
  | payload (f : Binary.Fault)
  | trailing
deriving DecidableEq, Repr

def Fault.message : Fault → String
  | tooShort size => s!"frame of {size} bytes is shorter than its header"
  | magic => "bad magic bytes"
  | schema expected found =>
    "schema fingerprint mismatch: expected " ++ Text.hexPadded 8 expected.toNat ++ ", found " ++
      Text.hexPadded 8 found.toNat
  | length claimed frame => s!"payload length {claimed} does not match frame of {frame} bytes"
  | checksum expected found =>
    "checksum mismatch: " ++ Text.hexPadded 8 expected.toNat ++ " != " ++
      Text.hexPadded 8 found.toNat
  | payload f => f.message
  | trailing => "payload has trailing bytes"

/-- The frame of a payload. -/
def wrap (schema : String) (payload : Bytes) : Bytes :=
  magic ++ Bytes.ofNatLE 4 (fingerprint schema).toNat ++ Bytes.ofNatLE 4 payload.length ++
    payload ++ Bytes.ofNatLE 4 (Checksum.crc32 payload).toNat

def word (bs : Bytes) : UInt32 := (Bytes.toNatLE (bs.take 4)).toUInt32

/-- The payload of a frame; the checks are made from the front to the back. -/
def unwrap (schema : String) (bs : Bytes) : Except Fault Bytes :=
  if bs.length < headerSize + trailerSize then .error (.tooShort bs.length)
  else if bs.take 2 ≠ magic then .error .magic
  else
    let found := word (bs.drop 2)
    if found ≠ fingerprint schema then .error (.schema (fingerprint schema) found)
    else
      let length := (word (bs.drop 6)).toNat
      if bs.length - headerSize ≠ length + trailerSize then .error (.length length bs.length)
      else
        let payload := (bs.drop headerSize).take length
        let expected := word (bs.drop (headerSize + length))
        let actual := Checksum.crc32 payload
        if expected ≠ actual then .error (.checksum expected actual) else .ok payload

/-- Reads the payload of a frame, which must be one message and nothing more. -/
def read (schema : String) (t : MessageType) (bs : Bytes) : Except Fault Message := do
  let payload ← unwrap schema bs
  match Binary.read t payload with
  | .ok (m, rest) => if rest.isEmpty then return m else throw .trailing
  | .error f => throw (.payload f)

end Logbook.Codec.Frame
