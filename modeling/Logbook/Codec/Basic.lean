import Logbook.Codec.Fixed
import Logbook.Codec.Frame
import Logbook.Json.Message

/-!
Codecs: the four ways in which messages become bytes, with one identity each, and the causes for
which coding fails.
-/
namespace Logbook

/-- A codec: the compact binary layout, frames bound to a schema, JSON in a layout, or the fixed
record layout. -/
inductive Codec where
  | binary
  | frame (schema : String)
  | json (layout : Json.Layout)
  | fixed
deriving DecidableEq, Repr

namespace Codec

/-- Codecs that read each other's bytes, given equal options, have one identity. -/
def identity : Codec → String
  | binary => "binary"
  | frame _ => "message"
  | json _ => "json"
  | fixed => "record"

def describe : Codec → String
  | binary => "BinaryCodec"
  | frame schema =>
    "MessageCodec \x7b schema: " ++ Text.quoted schema ++ ", fingerprint: " ++
      Text.hexPadded 8 (Frame.fingerprint schema).toNat ++ " \x7d"
  | json layout => s!"JsonCodec \x7b pretty: {layout.isPretty} \x7d"
  | fixed => "RecordCodec"

/-- Why a message could not be encoded. -/
inductive EncodeFault where
  | oversizedPayload (size : Nat)
  | oversizedField
  | notRecord
deriving DecidableEq, Repr

def EncodeFault.message : EncodeFault → String
  | oversizedPayload size => s!"payload of {size} bytes does not fit a frame"
  | oversizedField => "key or data exceeds u32 length"
  | notRecord => "message is not a record"

/-- Why bytes could not be decoded. -/
inductive DecodeFault where
  | binary (f : Binary.Fault)
  | frame (f : Frame.Fault)
  | json (f : Json.Fault)
  | fixed (f : Fixed.Fault)
  | notRecord

def DecodeFault.message : DecodeFault → String
  | binary f => f.message
  | frame f => f.message
  | json f => f.message
  | fixed f => f.message
  | notRecord => "message type is not the record"

/-- Lengths are written as 32-bit words. -/
def lengthLimit : Nat := 0x100000000

def encode (c : Codec) (m : Message) : Except EncodeFault Bytes :=
  match c with
  | binary => .ok (Binary.write m)
  | frame schema =>
    let payload := Binary.write m
    if payload.length < lengthLimit then .ok (Frame.wrap schema payload)
    else .error (.oversizedPayload payload.length)
  | json layout => .ok (Json.write layout m)
  | fixed =>
    match m with
    | .record r =>
      if r.key.utf8ByteSize < lengthLimit ∧ r.data.length < lengthLimit then .ok (Fixed.write r)
      else .error .oversizedField
    | .text _ => .error .notRecord

def decode (c : Codec) (t : MessageType) (bs : Bytes) : Except DecodeFault Message :=
  match c with
  | binary => (Binary.readAll t bs).mapError .binary
  | frame schema => (Frame.read schema t bs).mapError .frame
  | json _ => (Json.read t bs).mapError .json
  | fixed => if t.isRecord then ((Fixed.read bs).mapError .fixed).map .record else .error .notRecord

end Codec

/-- Whether two codecs, or the absence of codecs, can stand for each other. -/
def sameIdentity (a b : Option Codec) : Bool := a.map Codec.identity == b.map Codec.identity

/-- A failure of one codec. -/
inductive CodecError where
  | encode (codec : Codec) (fault : Codec.EncodeFault)
  | decode (codec : Codec) (fault : Codec.DecodeFault)

namespace CodecError

/-- The kinds of failure. One of capacity stops the program, the others are answers. -/
inductive Kind where
  | encode | decode | schemaMismatch | capacity
deriving DecidableEq, Repr

/-- A frame of another schema is told apart from bytes that are no frame. -/
def kind : CodecError → Kind
  | encode _ _ => .encode
  | decode _ (.frame (.schema _ _)) => .schemaMismatch
  | decode _ (.binary .capacity) | decode _ (.frame (.payload .capacity)) => .capacity
  | decode _ _ => .decode

def message : CodecError → String
  | encode c f => c.identity ++ " codec failed to encode: " ++ f.message
  | decode _ (.frame (.schema expected found)) => (Codec.Frame.Fault.schema expected found).message
  | decode _ (.binary .capacity) | decode _ (.frame (.payload .capacity)) =>
    Codec.Binary.Fault.capacity.message
  | decode c f => c.identity ++ " codec failed to decode: " ++ f.message

end CodecError

end Logbook
