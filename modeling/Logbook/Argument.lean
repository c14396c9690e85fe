import Logbook.Text.Number

/-!
Refusals of arguments, and their wording.
-/
namespace Logbook

inductive ArgumentError where
  | invalid (name reason : String)
  | limitExceeded (limit : String) (max actual : Nat)
  | unknownFlags (bits : UInt8)
deriving DecidableEq, Repr

def ArgumentError.message : ArgumentError → String
  | invalid name reason => s!"invalid argument '{name}': {reason}"
  | limitExceeded limit max actual =>
    s!"limit exceeded: {limit} (max={max}, actual={actual})"
  | unknownFlags bits => "unknown record flag bits: " ++ Text.hexPadded 2 bits.toNat

end Logbook
