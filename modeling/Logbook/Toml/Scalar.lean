import Logbook.Toml.Quoted

/-!
Numbers, truth values, dates and times of TOML. A value that starts like a date or a time is one.
-/
namespace Logbook.Toml

def isDigit (c : Char) : Bool := '0' ≤ c && c ≤ '9'

/-- Digits of a base, highest first; every underscore stands between two of them. -/
def readDigits (base : Nat) : Reader (List Nat)
  | [] => .error .malformed
  | c :: rest =>
    match hexValue? c with
    | none => .error .malformed
    | some d =>
      if base ≤ d then .error .malformed
      else match rest with
        | '_' :: more => (readDigits base more).map fun (ds, rest) => (d :: ds, rest)
        | [] => .ok ([d], [])
        | e :: more =>
          if (hexValue? e).any (· < base) then
            (readDigits base (e :: more)).map fun (ds, rest) => (d :: ds, rest)
          else .ok ([d], e :: more)

def ofDigits (base : Nat) (ds : List Nat) : Nat := ds.foldl (fun n d => n * base + d) 0

/-- An integer lies within 64 bits, the sign included. -/
def checkInteger (n : Int) : Except Fault Value :=
  if -0x8000000000000000 ≤ n ∧ n < 0x8000000000000000 then .ok (.integer n) else .error .malformed

/-- The digits before the point: no zero in front of others. -/
def readWhole : Reader (List Nat)
  | '0' :: rest => .ok ([0], rest)
  | cs => readDigits 10 cs

/-- The value nearest to `digits * 10 ^ exponent`. Exponents that only infinity or zero can have
are cut before any power is computed. -/
def floatOf (digits : List Nat) (exponent : Int) : Float :=
  let n := ofDigits 10 digits
  let place := exponent + (Text.decimal n).length
  if n = 0 ∨ place < -400 then 0.0
  else if 400 < place then 1.0 / 0.0
  else Float.ofScientific n (exponent < 0) exponent.natAbs

/-- The exponent after its mark. -/
def readExponent (cs : List Char) : Except Fault (Int × List Char) :=
  match cs with
  | '-' :: rest => (readDigits 10 rest).map fun (ds, rest) => (-(ofDigits 10 ds : Int), rest)
  | '+' :: rest => (readDigits 10 rest).map fun (ds, rest) => ((ofDigits 10 ds : Int), rest)
  | rest => (readDigits 10 rest).map fun (ds, rest) => ((ofDigits 10 ds : Int), rest)

/-- A number with a point or an exponent; only the positive infinity is refused as too large. -/
def signedFloat (negative : Bool) (f : Float) : Except Fault Value :=
  if negative then .ok (.float (-f))
  else if f.isInf then .error .malformed
  else .ok (.float f)

/-- What follows the digits before the point. -/
def readFraction (negative : Bool) (whole : List Nat) (cs : List Char) :
    Except Fault (Value × List Char) := do
  match cs with
  | '.' :: rest =>
    let (part, rest) ← readDigits 10 rest
    let (exponent, rest) ← match rest with
      | 'e' :: more | 'E' :: more => readExponent more
      | _ => pure (0, rest)
    return (← signedFloat negative (floatOf (whole ++ part) (exponent - part.length)), rest)
  | 'e' :: rest | 'E' :: rest =>
    let (exponent, rest) ← readExponent rest
    return (← signedFloat negative (floatOf whole exponent), rest)
  | _ =>
    let n : Int := ofDigits 10 whole
    return (← checkInteger (if negative then -n else n), cs)

/-- A decimal number, infinity or no number, after its sign. -/
def readUnsigned (negative : Bool) : Reader Value
  | 'i' :: 'n' :: 'f' :: rest =>
    let f : Float := 1.0 / 0.0
    .ok (.float (if negative then -f else f), rest)
  | 'n' :: 'a' :: 'n' :: rest => .ok (.float (0.0 / 0.0), rest)
  | cs => (readWhole cs).bind fun (whole, rest) => readFraction negative whole rest

/-- An integer in another base, after the mark of the base. -/
def readBase (base : Nat) : Reader Value := fun cs => do
  let (ds, rest) ← readDigits base cs
  return (← checkInteger (ofDigits base ds), rest)

def readNumber : Reader Value
  | '0' :: 'x' :: rest => readBase 16 rest
  | '0' :: 'o' :: rest => readBase 8 rest
  | '0' :: 'b' :: rest => readBase 2 rest
  | '-' :: rest => readUnsigned true rest
  | '+' :: rest => readUnsigned false rest
  | cs => readUnsigned false cs

/-- A number with exactly `width` digits at the front. -/
def fixedDigits? (width : Nat) (cs : List Char) : Option (Nat × List Char) :=
  let digits := cs.take width
  if digits.length = width && digits.all isDigit then
    some (ofDigits 10 (digits.map (·.toNat - 48)), cs.drop width)
  else none

/-- A number with exactly `width` digits between two bounds. -/
def readBounded (width low high : Nat) (cs : List Char) : Except Fault (Nat × List Char) :=
  match fixedDigits? width cs with
  | some (n, rest) => if low ≤ n ∧ n ≤ high then .ok (n, rest) else .error .malformed
  | none => .error .malformed

def readMark (mark : Char) : List Char → Except Fault (List Char)
  | c :: rest => if c = mark then .ok rest else .error .malformed
  | [] => .error .malformed

def isLeap (year : Nat) : Bool := year % 4 == 0 && (year % 100 != 0 || year % 400 == 0)

def daysIn (year month : Nat) : Nat :=
  if month = 2 then if isLeap year then 29 else 28
  else if month = 4 ∨ month = 6 ∨ month = 9 ∨ month = 11 then 30
  else 31

/-- A fraction of a second, in nanoseconds; digits past the ninth are dropped. -/
def readNanoseconds (cs : List Char) : Nat × List Char :=
  match cs with
  | '.' :: rest =>
    let digits := (rest.takeWhile isDigit).map (·.toNat - 48)
    if digits.isEmpty then (0, cs)
    else
      let kept := digits.take 9
      (ofDigits 10 (kept ++ List.replicate (9 - kept.length) 0), rest.dropWhile isDigit)
  | _ => (0, cs)

/-- The minutes, seconds and fraction of a time, after the colon that follows the hour. -/
def readTime (hour : Nat) (cs : List Char) : Except Fault (Time × List Char) := do
  let (minute, rest) ← readBounded 2 0 59 cs
  let rest ← readMark ':' rest
  let (second, rest) ← readBounded 2 0 60 rest
  let (nanosecond, rest) := readNanoseconds rest
  return ({ hour, minute, second, nanosecond }, rest)

/-- An hour and its colon at the front. -/
def hour? (cs : List Char) : Option (Nat × List Char) := do
  let (hour, rest) ← fixedDigits? 2 cs
  match rest with
  | ':' :: rest => if hour ≤ 23 then some (hour, rest) else none
  | _ => none

/-- The offset of a date with a time. -/
def readZone (cs : List Char) : Except Fault (Option ZoneOffset × List Char) :=
  let minutes (sign : Int) (rest : List Char) : Except Fault (Option ZoneOffset × List Char) := do
    let some (hour, rest) := hour? rest | throw .malformed
    let (minute, rest) ← readBounded 2 0 59 rest
    return (some (.minutes (sign * (hour * 60 + minute))), rest)
  match cs with
  | 'Z' :: rest | 'z' :: rest => .ok (some .utc, rest)
  | '+' :: rest => minutes 1 rest
  | '-' :: rest => minutes (-1) rest
  | _ => .ok (none, cs)

/-- The time and the offset after a date, if there is a time. -/
def readClock (date : Date) (cs : List Char) : Except Fault (Value × List Char) :=
  let plain : Except Fault (Value × List Char) := .ok (.moment ⟨some date, none, none⟩, cs)
  match cs with
  | c :: rest =>
    if c = 'T' ∨ c = 't' ∨ c = ' ' then
      match hour? rest with
      | some (hour, rest) => do
        let (time, rest) ← readTime hour rest
        let (zone, rest) ← readZone rest
        return (.moment ⟨some date, some time, zone⟩, rest)
      | none => plain
    else plain
  | [] => plain

/-- A date after its year and a hyphen. -/
def readDate (year : Nat) (cs : List Char) : Except Fault (Value × List Char) := do
  let (month, rest) ← readBounded 2 1 12 cs
  let rest ← readMark '-' rest
  let (day, rest) ← readBounded 2 1 (daysIn year month) rest
  readClock { year, month, day } rest

/-- What starts with a digit. -/
def readDigitStart (cs : List Char) : Except Fault (Value × List Char) :=
  match fixedDigits? 4 cs with
  | some (year, '-' :: rest) => readDate year rest
  | _ =>
    match hour? cs with
    | some (hour, rest) =>
      (readTime hour rest).map fun (time, rest) => (.moment ⟨none, some time, none⟩, rest)
    | none => readNumber cs

/-- Every value that is no string, array or table. -/
def readScalar : Reader Value
  | 't' :: 'r' :: 'u' :: 'e' :: rest => .ok (.boolean true, rest)
  | 'f' :: 'a' :: 'l' :: 's' :: 'e' :: rest => .ok (.boolean false, rest)
  | cs => readDigitStart cs

end Logbook.Toml
