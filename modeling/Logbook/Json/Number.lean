import Logbook.Json.Fault

/-!
JSON numbers. Integers within 64 bits stay integers; every other number, and negative zero, is a
floating-point value, computed from at most nineteen digits and a power of ten.
-/
namespace Logbook.Json

inductive Number where
  | natural (n : Nat)
  | negative (n : Int)
  | float (f : Float)

def Number.found : Number → Found
  | natural n => .integer n
  | negative n => .integer n
  | float f => .float f

/-- The largest 64-bit significand. -/
def maxSignificand : Nat := 0xffffffffffffffff

/-- The largest exponent that is counted. -/
def maxExponent : Nat := 0x7fffffff

def powerOfTen (n : Nat) : Float := Float.ofScientific 1 false n

def divideTens (f : Float) (tens : Nat) : Float :=
  if tens ≤ 308 then f / powerOfTen tens
  else if f == 0.0 then f
  else divideTens (f / powerOfTen 308) (tens - 308)
termination_by tens

/-- A significand times a power of ten, or an error when it is too large. -/
def scale (positive : Bool) (significand : Nat) (exponent : Int) : Except Fault Float :=
  let f := significand.toUInt64.toFloat
  let signed (f : Float) := if positive then f else -f
  if exponent < 0 then .ok (signed (divideTens f (-exponent).toNat))
  else if exponent ≤ 308 then
    let g := f * powerOfTen exponent.toNat
    if g.isInf then .error .outOfRange else .ok (signed g)
  else if f == 0.0 then .ok (signed f)
  else .error .outOfRange

def digitValue (b : UInt8) : Nat := b.toNat - 0x30

/-- Takes digits into the significand while it fits in 64 bits: the significand, how many digits
were taken, and the rest. -/
def takeDigits (limit significand count : Nat) : Bytes → Nat × Nat × Bytes
  | [] => (significand, count, [])
  | b :: rest =>
    if isDigit b && significand * 10 + digitValue b ≤ limit then
      takeDigits limit (significand * 10 + digitValue b) (count + 1) rest
    else (significand, count, b :: rest)

def startsWithDigit (bs : Bytes) : Bool :=
  match bs with
  | b :: _ => isDigit b
  | [] => false

/-- `e` or `E`. -/
def isExponentMark (b : UInt8) : Bool := b = 0x65 || b = 0x45

/-- The exponent after its mark, added to `start`, and the value. -/
def readExponent (positive : Bool) (significand : Nat) (start : Int) (bs : Bytes) :
    Reading Number :=
  let (up, digits) := match bs with
    | b :: rest => if b = 0x2b then (true, rest) else if b = 0x2d then (false, rest) else (true, bs)
    | [] => (true, [])
  match digits with
  | [] => .error .endInValue
  | b :: _ =>
    if !isDigit b then .error .number
    else
      let (exponent, _, rest) := takeDigits maxExponent 0 0 digits
      if startsWithDigit rest then
        if significand ≠ 0 && up then .error .outOfRange
        else .ok (.float (if positive then 0.0 else -0.0), rest.dropWhile isDigit)
      else
        let total := if up then min (start + exponent) maxExponent
          else max (start - exponent) (-(maxExponent + 1))
        (scale positive significand total).map fun f => (.float f, rest)

/-- The value once all digits are read, with the exponent if one follows. -/
def finish (positive : Bool) (significand : Nat) (exponent : Int) (bs : Bytes) : Reading Number :=
  match bs with
  | b :: rest =>
    if isExponentMark b then readExponent positive significand exponent rest
    else (scale positive significand exponent).map fun f => (.float f, bs)
  | [] => (scale positive significand exponent).map fun f => (.float f, bs)

/-- The digits after the point; `before` counts digits before it that did not fit. -/
def readFraction (positive : Bool) (significand before : Nat) (bs : Bytes) : Reading Number :=
  let (significand, count, rest) := takeDigits maxSignificand significand 0 bs
  if count = 0 && !startsWithDigit rest then
    if rest.isEmpty then .error .endInValue else .error .number
  else finish positive significand ((before : Int) - count) (rest.dropWhile isDigit)

/-- An integer that fits in 64 bits with its sign, a floating-point value otherwise. -/
def ofInteger (positive : Bool) (significand : Nat) : Number :=
  if positive then .natural significand
  else if 0 < significand && significand ≤ 0x8000000000000000 then .negative (-(significand : Int))
  else .float (-significand.toUInt64.toFloat)

/-- What follows the digits before the point. -/
def afterInteger (positive : Bool) (significand : Nat) (bs : Bytes) : Reading Number :=
  match bs with
  | b :: rest =>
    if b = 0x2e then readFraction positive significand 0 rest
    else if isExponentMark b then readExponent positive significand 0 rest
    else .ok (ofInteger positive significand, bs)
  | [] => .ok (ofInteger positive significand, bs)

/-- What follows digits of which `before` did not fit. -/
def afterLongInteger (positive : Bool) (significand before : Nat) (bs : Bytes) : Reading Number :=
  match bs with
  | b :: rest =>
    if b = 0x2e then readFraction positive significand before rest
    else finish positive significand before bs
  | [] => finish positive significand before bs

/-- A number after its sign. -/
def readUnsigned (positive : Bool) (bs : Bytes) : Reading Number :=
  match bs with
  | [] => .error .endInValue
  | b :: rest =>
    if b = 0x30 then
      if startsWithDigit rest then .error .number else afterInteger positive 0 rest
    else if isDigit b then
      let (significand, _, rest) := takeDigits maxSignificand 0 0 bs
      if startsWithDigit rest then
        let long := rest.takeWhile isDigit
        afterLongInteger positive significand long.length (rest.dropWhile isDigit)
      else afterInteger positive significand rest
    else .error .number

/-- Passes over the digits after an exponent's mark. -/
def skipExponent (bs : Bytes) : Except Fault Bytes :=
  let digits := match bs with
    | b :: rest => if b = 0x2b || b = 0x2d then rest else bs
    | [] => []
  if startsWithDigit digits then .ok (digits.dropWhile isDigit) else .error .number

def skipAfterFraction (bs : Bytes) : Except Fault Bytes :=
  match bs with
  | b :: rest => if isExponentMark b then skipExponent rest else .ok bs
  | [] => .ok bs

/-- Passes over a number whose value is not needed, after its sign. -/
def skipUnsigned (bs : Bytes) : Except Fault Bytes := do
  let rest ← match bs with
    | [] => throw .number
    | b :: rest =>
      if b = 0x30 then
        if startsWithDigit rest then throw .number else pure rest
      else if isDigit b then pure (rest.dropWhile isDigit)
      else throw .number
  match rest with
  | b :: r =>
    if b = 0x2e then
      if startsWithDigit r then skipAfterFraction (r.dropWhile isDigit) else throw .number
    else skipAfterFraction rest
  | [] => return []

end Logbook.Json
