import Logbook.Bytes

/-!
The cyclic redundancy check of IEEE 802.3: reflected, with ones before and after.
-/
namespace Logbook.Checksum

def crcPolynomial : UInt32 := 0xedb88320

def crcShift (c : UInt32) : UInt32 :=
  if c &&& 1 = 1 then (c >>> 1) ^^^ crcPolynomial else c >>> 1

def crcShifts : Nat → UInt32 → UInt32
  | 0, c => c
  | n + 1, c => crcShifts n (crcShift c)

/-- Takes one byte into the remainder, lowest bit first. -/
def crcByte (c : UInt32) (b : UInt8) : UInt32 :=
  crcShifts 8 (c ^^^ b.toUInt32)

def crc32 (bs : Bytes) : UInt32 :=
  bs.foldl crcByte 0xffffffff ^^^ 0xffffffff

end Logbook.Checksum
