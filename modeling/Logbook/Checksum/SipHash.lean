import Logbook.Bytes

/-!
The keyed hash SipHash with one compression round, three finalization rounds and a zero key.
-/
namespace Logbook.Checksum

structure SipState where
  v0 : UInt64
  v1 : UInt64
  v2 : UInt64
  v3 : UInt64

def rotl (x : UInt64) (n : UInt64) : UInt64 := (x <<< n) ||| (x >>> (64 - n))

namespace SipState

def round (s : SipState) : SipState :=
  let a := s.v0 + s.v1
  let b := rotl s.v1 13 ^^^ a
  let a := rotl a 32
  let c := s.v2 + s.v3
  let d := rotl s.v3 16 ^^^ c
  let e := a + d
  let d := rotl d 21 ^^^ e
  let c := c + b
  let b := rotl b 17 ^^^ c
  ⟨e, b, rotl c 32, d⟩

/-- The state of the zero key. -/
def start : SipState :=
  ⟨0x736f6d6570736575, 0x646f72616e646f6d, 0x6c7967656e657261, 0x7465646279746573⟩

def compress (s : SipState) (word : UInt64) : SipState :=
  let t := { s with v3 := s.v3 ^^^ word }.round
  { t with v0 := t.v0 ^^^ word }

def finish (s : SipState) : UInt64 :=
  let t := { s with v2 := s.v2 ^^^ 0xff }.round.round.round
  t.v0 ^^^ t.v1 ^^^ t.v2 ^^^ t.v3

end SipState

def sipWords (s : SipState) : Bytes → SipState × Bytes
  | b0 :: b1 :: b2 :: b3 :: b4 :: b5 :: b6 :: b7 :: rest =>
    sipWords (s.compress (Bytes.toNatLE [b0, b1, b2, b3, b4, b5, b6, b7]).toUInt64) rest
  | tail => (s, tail)

/-- The last word holds the bytes left over and, in its highest byte, the length. -/
def sipHash (bs : Bytes) : UInt64 :=
  let (s, tail) := sipWords .start bs
  let last := (Bytes.toNatLE tail).toUInt64 ||| (bs.length.toUInt64 <<< 56)
  (s.compress last).finish

end Logbook.Checksum
