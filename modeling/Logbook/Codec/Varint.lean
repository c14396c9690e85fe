import Logbook.Bytes

/-!
Numbers of variable length: one byte below 251, otherwise a marker and two, four or eight bytes,
lowest first. Longer forms than needed are read as well.
-/
namespace Logbook.Codec

/-- The kinds of integer that a diagnostic names. -/
inductive IntegerKind where
  | u32 | u64 | u128 | reserved
deriving DecidableEq, Repr

def IntegerKind.name : IntegerKind → String
  | u32 => "U32"
  | u64 => "U64"
  | u128 => "U128"
  | reserved => "Reserved"

/-- Why bytes could not be read: some are missing, or a marker announces no readable number. -/
inductive ReadFault where
  | missing (count : Nat)
  | integer (expected found : IntegerKind)
deriving DecidableEq, Repr

/-- The first `n` bytes and the rest. -/
def take (n : Nat) (bs : Bytes) : Except ReadFault (Bytes × Bytes) :=
  if bs.length < n then .error (.missing (n - bs.length)) else .ok (bs.take n, bs.drop n)

namespace Varint

def write (n : Nat) : Bytes :=
  if n < 251 then [n.toUInt8]
  else if n < 0x10000 then 251 :: Bytes.ofNatLE 2 n
  else if n < 0x100000000 then 252 :: Bytes.ofNatLE 4 n
  else 253 :: Bytes.ofNatLE 8 n

/-- The integer a diagnostic expects: the narrow one where the longest form would fit. -/
def expectedKind (bs : Bytes) : IntegerKind := if 9 ≤ bs.length then .u32 else .u64

def readWord (width : Nat) (rest : Bytes) : Except ReadFault (Nat × Bytes) := do
  let (word, rest) ← take width rest
  return (word.toNatLE, rest)

def read (bs : Bytes) : Except ReadFault (Nat × Bytes) :=
  match bs with
  | [] => .error (.missing 1)
  | b :: rest =>
    if b < 251 then .ok (b.toNat, rest)
    else if b = 251 then readWord 2 rest
    else if b = 252 then readWord 4 rest
    else if b = 253 then readWord 8 rest
    else if b = 254 then .error (.integer (expectedKind bs) .u128)
    else .error (.integer (expectedKind bs) .reserved)

end Varint

end Logbook.Codec
