import Logbook.Text.Number
import Logbook.Text.Shortest
import Logbook.Text.Quoted

/-!
Values of a TOML document. A table remembers how it came to be, which decides whether later
lines may add to it.
-/
namespace Logbook.Toml

structure Date where
  year : Nat
  month : Nat
  day : Nat
deriving DecidableEq, Repr

structure Time where
  hour : Nat
  minute : Nat
  second : Nat
  nanosecond : Nat
deriving DecidableEq, Repr

/-- Universal time, or minutes ahead of it. -/
inductive ZoneOffset where
  | utc
  | minutes (ahead : Int)
deriving DecidableEq, Repr

/-- A date, a time of day, or both, then with or without an offset. -/
structure Moment where
  date : Option Date
  time : Option Time
  zone : Option ZoneOffset
deriving DecidableEq, Repr

def Date.render (d : Date) : String :=
  Text.padded 4 d.year ++ "-" ++ Text.padded 2 d.month ++ "-" ++ Text.padded 2 d.day

/-- Fractions of a second are written without zeros at the end. -/
def Time.render (t : Time) : String :=
  let fraction := (Text.padded 9 t.nanosecond).toList.reverse.dropWhile (· = '0')
  Text.padded 2 t.hour ++ ":" ++ Text.padded 2 t.minute ++ ":" ++ Text.padded 2 t.second ++
    if fraction.isEmpty then "" else String.ofList ('.' :: fraction.reverse)

def ZoneOffset.render : ZoneOffset → String
  | utc => "Z"
  | minutes ahead =>
    (if ahead < 0 then "-" else "+") ++ Text.padded 2 (ahead.natAbs / 60) ++ ":" ++
      Text.padded 2 (ahead.natAbs % 60)

def Moment.render (m : Moment) : String :=
  let date := (m.date.map Date.render).toList
  let time := (m.time.map Time.render).toList
  "T".intercalate (date ++ time) ++ (m.zone.map ZoneOffset.render).getD ""

/-- How a table came to be: by a header of its own, as a step on the way to another header, as a
step of a dotted key, or between braces. -/
inductive Origin where
  | header | path | dotted | inline
deriving DecidableEq, Repr

inductive Value where
  | text (s : String)
  | integer (n : Int)
  | float (f : Float)
  | boolean (b : Bool)
  | moment (m : Moment)
  | array (items : List Value)
  | table (origin : Origin) (entries : List (String × Value))
  | tables (elements : List (List (String × Value)))

/-- What a key holds when it holds no table that headers and dotted keys could go on through. -/
def Value.kind : Value → String
  | text _ => "string"
  | integer _ => "integer"
  | float _ => "float"
  | boolean _ => "boolean"
  | moment _ => "datetime"
  | array _ => "array"
  | table .inline _ => "inline table"
  | table _ _ => "table"
  | tables _ => "array of tables"

/-- Keys and values, in the order in which the keys appeared. -/
abbrev Entries := List (String × Value)

/-- Never an exponent, and of two equally near decimals the one farther from zero. -/
def floatStyle : Text.FloatStyle := ⟨-400, 400, .up⟩

/-- How a diagnostic names a value that is out of place. -/
def Value.describe : Value → String
  | text s => "string " ++ Text.quoted s
  | integer n => "integer `" ++ toString n ++ "`"
  | float f => "floating point `" ++ floatStyle.renderFloat f ++ "`"
  | boolean b => if b then "boolean `true`" else "boolean `false`"
  | array _ | tables _ => "sequence"
  | moment _ | table _ _ => "map"

end Logbook.Toml
