import Logbook.Text.Number

/-!
Shortest decimals: the fewest digits that lie within half a unit of a binary floating-point
value, and of those the nearest. All arithmetic is exact, on natural numbers. When two decimals
are equally near, the format that is written decides.
-/
namespace Logbook.Text

/-- A positive value `mantissa * 2 ^ exponent`; `lowest` marks the least mantissa of a binade
above the first, whose lower neighbour is only half as far away. -/
structure Binary64 where
  mantissa : Nat
  exponent : Int
  lowest : Bool

/-- The magnitude that a bit pattern stands for. -/
def Binary64.ofBits (bits : UInt64) : Binary64 :=
  let fraction : Nat := (bits &&& 0xfffffffffffff).toNat
  let biased : Nat := ((bits >>> 52) &&& 0x7ff).toNat
  if biased = 0 then ⟨fraction, -1074, false⟩
  else ⟨fraction + 0x10000000000000, (biased : Int) - 1075, fraction == 0 && biased > 1⟩

/-- `digits * 10 ^ exponent`. -/
structure Decimal where
  digits : Nat
  exponent : Int
deriving DecidableEq, Repr

/-- A value, and the ends of the interval that rounds to it, over one denominator. -/
structure Interval where
  low : Nat
  value : Nat
  high : Nat
  denominator : Nat
  closed : Bool

def Binary64.interval (x : Binary64) : Interval :=
  let scale := Nat.pow 2 (x.exponent - 2).toNat
  { low := (4 * x.mantissa - if x.lowest then 1 else 2) * scale
    value := 4 * x.mantissa * scale
    high := (4 * x.mantissa + 2) * scale
    denominator := Nat.pow 2 (2 - x.exponent).toNat
    closed := x.mantissa % 2 == 0 }

/-- Whether `d * 10 ^ exponent` lies in the interval. -/
def Interval.admits (i : Interval) (exponent : Int) (d : Nat) : Bool :=
  let point := d * Nat.pow 10 exponent.toNat * i.denominator
  let unit := Nat.pow 10 (-exponent).toNat
  if i.closed then i.low * unit ≤ point && point ≤ i.high * unit
  else i.low * unit < point && point < i.high * unit

/-- Which of two equally near decimals is taken. -/
inductive Tie where
  | even | up
deriving DecidableEq, Repr

/-- Whether the decimal after `below` is taken when both are equally near. -/
def Tie.takesAbove (tie : Tie) (below : Nat) : Bool :=
  match tie with
  | even => below % 2 == 1
  | up => true

/-- The neighbour of the value on the grid of `10 ^ exponent` that the interval admits; of two,
the nearer. -/
def Interval.onGrid? (i : Interval) (tie : Tie) (exponent : Int) : Option Nat :=
  let unit := Nat.pow 10 exponent.toNat * i.denominator
  let value := i.value * Nat.pow 10 (-exponent).toNat
  let below := value / unit
  let preferAbove :=
    2 * (value % unit) > unit || (2 * (value % unit) == unit && tie.takesAbove below)
  match i.admits exponent below && below != 0, i.admits exponent (below + 1) with
  | true, true => some (if preferAbove then below + 1 else below)
  | true, false => some below
  | false, true => some (below + 1)
  | false, false => none

/-- The first grid, from coarse to fine, with a point in the interval. -/
def Interval.shortestFrom (i : Interval) (tie : Tie) : Nat → Int → Option Decimal
  | 0, exponent => (i.onGrid? tie exponent).map (⟨·, exponent⟩)
  | n + 1, exponent =>
    match i.onGrid? tie exponent with
    | some d => some ⟨d, exponent⟩
    | none => i.shortestFrom tie n (exponent - 1)

/-- The least `k` with the value below `10 ^ k`. -/
def Interval.magnitude (i : Interval) : Int :=
  let whole := i.value / i.denominator
  if whole ≠ 0 then (decimal whole).length
  else
    let inverse := (i.denominator - 1) / i.value
    1 - ((decimal inverse).length : Int)

def stripZeros : Nat → Decimal → Decimal
  | 0, d => d
  | n + 1, d =>
    if d.digits % 10 = 0 ∧ d.digits ≠ 0 then stripZeros n ⟨d.digits / 10, d.exponent + 1⟩ else d

/-- The shortest decimal of a positive value: seventeen digits are always enough. -/
def Binary64.shortest (x : Binary64) (tie : Tie) : Decimal :=
  let i := x.interval
  match i.shortestFrom tie 18 i.magnitude with
  | some d => stripZeros 20 d
  | none => ⟨0, 0⟩

/-- Between which places of the first digit a number is written without an exponent, and which of
two equally near decimals is taken. -/
structure FloatStyle where
  leastPositional : Int
  mostPositional : Int
  tie : Tie

def FloatStyle.render (style : FloatStyle) (d : Decimal) : String :=
  let digits := decimal d.digits
  let place := d.exponent + digits.length - 1
  if place < style.leastPositional || style.mostPositional < place then
    let sign := if place < 0 then "-" else "+"
    let tail := match digits.drop 1 with
      | [] => ""
      | more => "." ++ String.ofList more
    String.ofList (digits.take 1) ++ tail ++ "e" ++ sign ++ String.ofList (decimal place.natAbs)
  else if place < 0 then
    "0." ++ String.ofList (List.replicate (place.natAbs - 1) '0' ++ digits)
  else
    let whole := place.toNat + 1
    if digits.length ≤ whole then
      String.ofList (digits ++ List.replicate (whole - digits.length) '0') ++ ".0"
    else String.ofList (digits.take whole) ++ "." ++ String.ofList (digits.drop whole)

/-- A floating-point value in a style; infinities by their sign and name, and no number as such. -/
def FloatStyle.renderFloat (style : FloatStyle) (f : Float) : String :=
  let bits := f.toBits
  let sign := if bits >>> 63 = 1 then "-" else ""
  let x := Binary64.ofBits bits
  if f.isNaN then "NaN"
  else if f.isInf then sign ++ "inf"
  else sign ++ if x.mantissa = 0 then "0.0" else style.render (x.shortest style.tie)

end Logbook.Text
