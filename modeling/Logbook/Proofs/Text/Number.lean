import Mathlib.Logic.Function.Basic
import Logbook.Proofs.Text.Utf8
import Logbook.Text.Number

/-! Digits, one at a time from the last one, and as bytes; no two numbers have the same digits. -/
namespace Logbook.Text

theorem digitsInto_append (base n : Nat) (acc tail : List Char) :
    digitsInto base n (acc ++ tail) = digitsInto base n acc ++ tail := by
  fun_induction digitsInto base n acc with
  | case1 n acc last =>
    rw [digitsInto, dif_pos last]
    rfl
  | case2 n acc more ih =>
    rw [digitsInto, dif_neg more]
    exact ih

theorem digitsInto_last {base n : Nat} (small : n < base) : digitsInto base n [] = [digitChar n] := by
  rw [digitsInto, dif_pos (.inr small)]

/-- The digits of a number with more than one. -/
theorem digitsInto_more {base n : Nat} (positional : 2 ≤ base) (large : base ≤ n) :
    digitsInto base n [] = digitsInto base (n / base) [] ++ [digitChar (n % base)] := by
  rw [digitsInto, dif_neg (by omega)]
  exact digitsInto_append base (n / base) [] [digitChar (n % base)]

def digitByte (d : Nat) : UInt8 :=
  if d < 10 then (48 + d).toUInt8 else (87 + d).toUInt8

theorem encodeChar_ofNat {n : Nat} (small : n < 0x80) :
    String.utf8EncodeChar (Char.ofNat n) = [n.toUInt8] := by
  have value : n.toUInt8.toNat = n := Utf8.toNat_ofNat_byte (by omega)
  exact (Utf8.Form.one (by omega) value.symm).encodeChar

theorem encodeChar_digitChar {d : Nat} (small : d < 16) :
    String.utf8EncodeChar (digitChar d) = [digitByte d] := by
  rw [digitChar, digitByte]
  split
  · exact encodeChar_ofNat (by omega)
  · exact encodeChar_ofNat (by omega)

theorem digitChar_eq {d : Nat} (small : d < 10) : digitChar d = Nat.digitChar d := by
  have each : ∀ d, d < 10 → digitChar d = Nat.digitChar d := by decide
  exact each d small

/-- The digits are those of the standard library. -/
theorem decimal_eq (n : Nat) : decimal n = Nat.toDigits 10 n := by
  induction n using Nat.strongRecOn with
  | ind n ih =>
    by_cases small : n < 10
    · rw [decimal, digitsInto_last small, Nat.toDigits_of_lt_base small, digitChar_eq small]
    · have shorter : digitsInto 10 (n / 10) [] = Nat.toDigits 10 (n / 10) := ih (n / 10) (by omega)
      have last : digitChar (n % 10) = Nat.digitChar (n % 10) := digitChar_eq (by omega)
      calc
        decimal n = digitsInto 10 (n / 10) [] ++ [digitChar (n % 10)] :=
          digitsInto_more (by omega) (by omega)
        _ = Nat.toDigits 10 (n / 10) ++ [Nat.digitChar (n % 10)] := by rw [shorter, last]
        _ = Nat.toDigits 10 n := (Nat.toDigits_of_base_le (by omega) (by omega)).symm

theorem isDigit_of_mem_decimal {n : Nat} {c : Char} (here : c ∈ decimal n) : c.isDigit = true := by
  rw [decimal_eq] at here
  exact Nat.isDigit_of_mem_toDigits (by omega) (by omega) here

theorem isDigit_of_mem_padLeft {width n : Nat} {c : Char} (here : c ∈ padLeft width (decimal n)) :
    c.isDigit = true := by
  rcases List.mem_append.mp here with zero | digit
  · rw [List.eq_of_mem_replicate zero]
    rfl
  · exact isDigit_of_mem_decimal digit

/-- Zeros in front do not count. -/
theorem ofDigitChars_padLeft (width n : Nat) :
    Nat.ofDigitChars 10 (padLeft width (decimal n)) 0 = n := by
  rw [padLeft, Nat.ofDigitChars_append, Nat.ofDigitChars_replicate_zero, decimal_eq]
  exact Nat.ofDigitChars_ten_toDigits

theorem padLeft_decimal_injective (width : Nat) :
    Function.Injective fun n => padLeft width (decimal n) := by
  intro m n same
  calc
    m = Nat.ofDigitChars 10 (padLeft width (decimal m)) 0 := (ofDigitChars_padLeft width m).symm
    _ = Nat.ofDigitChars 10 (padLeft width (decimal n)) 0 := congrArg (Nat.ofDigitChars 10 · 0) same
    _ = n := ofDigitChars_padLeft width n

theorem decimal_injective : Function.Injective decimal := by
  intro m n same
  have zeros (n : Nat) : padLeft 0 (decimal n) = decimal n := by simp [padLeft]
  apply padLeft_decimal_injective 0
  simpa only [zeros] using same

end Logbook.Text
