import Logbook.Json.Message
import Logbook.Proofs.Text.Number

/-! JSON numbers: every natural number of 64 bits is read back from its digits. -/
namespace Logbook.Json

/-- What follows does not go on with the number before it. -/
def EndsNumber (rest : Bytes) : Prop :=
  ∀ b more, rest = b :: more → isDigit b = false ∧ b ≠ 0x2e ∧ isExponentMark b = false

variable {n limit : Nat} {b : UInt8} {rest : Bytes}

theorem isDigit_digitByte {d : Nat} (small : d < 10) :
    isDigit (Text.digitByte d) = true ∧ digitValue (Text.digitByte d) = d := by
  have each : ∀ d, d < 10 → isDigit (Text.digitByte d) = true ∧
      digitValue (Text.digitByte d) = d := by decide
  exact each d small

theorem writeNat_last (small : n < 10) : writeNat n = [Text.digitByte n] := by
  rw [writeNat, Text.decimal, Text.digitsInto_last small, List.flatMap_singleton,
    Text.encodeChar_digitChar (by omega)]

theorem writeNat_more (large : 10 ≤ n) :
    writeNat n = writeNat (n / 10) ++ [Text.digitByte (n % 10)] := by
  rw [writeNat, Text.decimal, Text.digitsInto_more (by omega) large, List.flatMap_append,
    List.flatMap_singleton, Text.encodeChar_digitChar (by omega)]
  rfl

theorem isDigit_of_mem_writeNat (here : b ∈ writeNat n) : isDigit b = true := by
  induction n using Nat.strongRecOn with
  | ind n ih =>
    by_cases small : n < 10
    · rw [writeNat_last small] at here
      rw [List.mem_singleton.mp here]
      exact (isDigit_digitByte small).1
    · rw [writeNat_more (by omega)] at here
      rcases List.mem_append.mp here with front | last
      · exact ih (n / 10) (by omega) front
      · rw [List.mem_singleton.mp last]
        exact (isDigit_digitByte (by omega)).1

theorem takeDigits_cons {d significand count : Nat} (small : d < 10)
    (fits : significand * 10 + d ≤ limit) :
    takeDigits limit significand count (Text.digitByte d :: rest) =
      takeDigits limit (significand * 10 + d) (count + 1) rest := by
  obtain ⟨digit, value⟩ := isDigit_digitByte small
  simp [takeDigits, digit, value, fits]

/-- The digits of a number within the limit are all taken. -/
theorem takeDigits_writeNat (fits : n ≤ limit) (count : Nat) (rest : Bytes) :
    ∃ count', takeDigits limit 0 count (writeNat n ++ rest) = takeDigits limit n count' rest := by
  induction n using Nat.strongRecOn generalizing rest with
  | ind n ih =>
    by_cases small : n < 10
    · refine ⟨count + 1, ?_⟩
      rw [writeNat_last small, List.singleton_append, takeDigits_cons small (by omega),
        Nat.zero_mul, Nat.zero_add]
    · obtain ⟨before, taken⟩ := ih (n / 10) (by omega) (by omega) (Text.digitByte (n % 10) :: rest)
      refine ⟨before + 1, ?_⟩
      have whole : n / 10 * 10 + n % 10 = n := by omega
      rw [writeNat_more (by omega), List.append_assoc, List.singleton_append, taken,
        takeDigits_cons (by omega) (by omega), whole]

/-- A number starts with a digit, with a zero only if it is zero. -/
theorem writeNat_first (n : Nat) :
    ∃ d tail, d < 10 ∧ (d = 0 → n = 0) ∧ writeNat n = Text.digitByte d :: tail := by
  induction n using Nat.strongRecOn with
  | ind n ih =>
    by_cases small : n < 10
    · exact ⟨n, [], small, id, writeNat_last small⟩
    · obtain ⟨d, tail, digit, zero, first⟩ := ih (n / 10) (by omega)
      refine ⟨d, tail ++ [Text.digitByte (n % 10)], digit, fun is => ?_, ?_⟩
      · have := zero is
        omega
      · rw [writeNat_more (by omega), first, List.cons_append]

theorem EndsNumber.takeDigits (ends : EndsNumber rest) (count : Nat) :
    takeDigits limit n count rest = (n, count, rest) := by
  cases rest with
  | nil => rfl
  | cons b more => simp [Json.takeDigits, (ends b more rfl).1]

theorem EndsNumber.startsWithDigit (ends : EndsNumber rest) : startsWithDigit rest = false := by
  cases rest with
  | nil => rfl
  | cons b more => exact (ends b more rfl).1

theorem EndsNumber.afterInteger (ends : EndsNumber rest) :
    afterInteger true n rest = .ok (.natural n, rest) := by
  cases rest with
  | nil => rfl
  | cons b more =>
    obtain ⟨-, point, mark⟩ := ends b more rfl
    simp [Json.afterInteger, point, mark, ofInteger]

theorem readUnsigned_writeNat (fits : n ≤ maxSignificand) (ends : EndsNumber rest) :
    readUnsigned true (writeNat n ++ rest) = .ok (.natural n, rest) := by
  by_cases none : n = 0
  · subst none
    have zero : writeNat 0 = [0x30] := writeNat_last (by omega)
    rw [zero, List.singleton_append, readUnsigned, if_pos rfl, ends.startsWithDigit]
    exact ends.afterInteger
  · -- the first digit is no zero, so all digits are read as one number
    obtain ⟨count, taken⟩ := takeDigits_writeNat fits 0 rest
    obtain ⟨d, tail, small, zero, first⟩ := writeNat_first n
    obtain ⟨digit, value⟩ := isDigit_digitByte small
    have nonzero : Text.digitByte d ≠ 0x30 := by
      intro is
      rw [is] at value
      exact none (zero value.symm)
    rw [ends.takeDigits, first, List.cons_append] at taken
    rw [first, List.cons_append, readUnsigned, if_neg nonzero, if_pos digit, taken]
    simp only [ends.startsWithDigit, Bool.false_eq_true, if_false]
    exact ends.afterInteger

end Logbook.Json
