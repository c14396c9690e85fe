/-!
Numbers in text: decimal digits, padded to a least width, and hexadecimal digits.
-/
namespace Logbook.Text

def digitChar (d : Nat) : Char :=
  if d < 10 then Char.ofNat (48 + d) else Char.ofNat (87 + d)

/-- The digits of a number in a base, highest first, in front of `acc`. -/
def digitsInto (base n : Nat) (acc : List Char) : List Char :=
  if _ : base < 2 ∨ n < base then digitChar n :: acc
  else digitsInto base (n / base) (digitChar (n % base) :: acc)
termination_by n
decreasing_by exact Nat.div_lt_self (by omega) (by omega)

def decimal (n : Nat) : List Char := digitsInto 10 n []

def padLeft (width : Nat) (cs : List Char) : List Char :=
  List.replicate (width - cs.length) '0' ++ cs

/-- Decimal digits with zeros in front up to a width. -/
def padded (width n : Nat) : String :=
  String.ofList (padLeft width (decimal n))

def hex (n : Nat) : String :=
  String.ofList (digitsInto 16 n [])

/-- `0x` and at least `width` hexadecimal digits. -/
def hexPadded (width n : Nat) : String :=
  "0x" ++ String.ofList (padLeft width (digitsInto 16 n []))

end Logbook.Text
