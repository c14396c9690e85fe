import Logbook.Checksum.Crc32
import Logbook.Proofs.Bytes

/-! The remainder as a linear function that loses nothing. Up to four bytes enter it as one word, so a
change of them changes the remainder, whatever stands before and after; a byte string with its checksum
behind it has the same remainder as every other one. -/
namespace Logbook.Checksum

variable {c d : UInt32} {bs cs front old new back : Bytes}

theorem low_xor (c d : UInt32) : (c ^^^ d) &&& 1 = (c &&& 1) ^^^ (d &&& 1) := by
  apply UInt32.eq_of_toBitVec_eq
  ext i
  simp [Bool.and_xor_distrib_right]

theorem toNat_low (c : UInt32) : (c &&& 1).toNat = c.toNat % 2 := by
  rw [UInt32.toNat_and]
  exact Nat.and_one_is_mod c.toNat

theorem low_bit (c : UInt32) : c &&& 1 = 0 ∨ c &&& 1 = 1 := by
  rcases Nat.mod_two_eq_zero_or_one c.toNat with even | odd
  · exact .inl (UInt32.toNat_inj.mp ((toNat_low c).trans even))
  · exact .inr (UInt32.toNat_inj.mp ((toNat_low c).trans odd))

theorem crcShift_even (even : c &&& 1 = 0) : crcShift c = c >>> 1 :=
  if_neg (by rw [even]; decide)

theorem crcShift_odd (odd : c &&& 1 = 1) : crcShift c = (c >>> 1) ^^^ crcPolynomial := if_pos odd

theorem toNat_half (c : UInt32) : (c >>> 1).toNat = c.toNat / 2 := by
  rw [UInt32.toNat_shiftRight]
  rfl

theorem crcShift_xor (c d : UInt32) : crcShift (c ^^^ d) = crcShift c ^^^ crcShift d := by
  have low := low_xor c d
  rcases low_bit c with even | odd <;> rcases low_bit d with even' | odd'
  · rw [even, even'] at low
    rw [crcShift_even low, crcShift_even even, crcShift_even even', UInt32.shiftRight_xor]
  · rw [even, odd'] at low
    rw [crcShift_odd low, crcShift_even even, crcShift_odd odd', UInt32.shiftRight_xor,
      UInt32.xor_assoc]
  · rw [odd, even'] at low
    rw [crcShift_odd low, crcShift_odd odd, crcShift_even even', UInt32.shiftRight_xor,
      UInt32.xor_assoc, UInt32.xor_assoc, UInt32.xor_comm crcPolynomial]
  · rw [odd, odd'] at low
    rw [crcShift_even low, crcShift_odd odd, crcShift_odd odd', UInt32.shiftRight_xor,
      UInt32.xor_assoc, UInt32.xor_comm crcPolynomial, UInt32.xor_assoc, UInt32.xor_self,
      UInt32.xor_zero]

/-- Nothing is lost: the polynomial has the highest bit, which no shifted word has. -/
theorem crcShift_eq_zero (zero : crcShift c = 0) : c = 0 := by
  have half := toNat_half c
  rcases low_bit c with even | odd
  · rw [crcShift_even even] at zero
    rw [zero] at half
    have low := toNat_low c
    rw [even] at low
    apply UInt32.toNat_inj.mp
    simp only [UInt32.toNat_zero] at half low ⊢
    omega
  · rw [crcShift_odd odd, UInt32.xor_eq_zero_iff] at zero
    have high : crcPolynomial.toNat = 0xedb88320 := rfl
    have := c.toNat_lt
    rw [zero, high] at half
    omega

theorem crcShifts_xor (n : Nat) (c d : UInt32) :
    crcShifts n (c ^^^ d) = crcShifts n c ^^^ crcShifts n d := by
  induction n generalizing c d with
  | zero => rfl
  | succ n ih => rw [crcShifts, crcShift_xor, ih, crcShifts, crcShifts]

theorem crcShifts_eq_zero {n : Nat} (zero : crcShifts n c = 0) : c = 0 := by
  induction n generalizing c with
  | zero => exact zero
  | succ n ih => exact crcShift_eq_zero (ih zero)

theorem crcShifts_inj {n : Nat} (same : crcShifts n c = crcShifts n d) : c = d := by
  apply UInt32.xor_eq_zero_iff.mp
  apply crcShifts_eq_zero (n := n)
  rw [crcShifts_xor, same, UInt32.xor_self]

theorem crcShifts_add (m n : Nat) (c : UInt32) :
    crcShifts (m + n) c = crcShifts n (crcShifts m c) := by
  induction m generalizing c with
  | zero => rw [Nat.zero_add, crcShifts]
  | succ m ih => rw [Nat.succ_add, crcShifts, ih, crcShifts]

theorem crcShift_double {m : Nat} (fits : 2 * m < 0x100000000) :
    crcShift (2 * m).toUInt32 = m.toUInt32 := by
  have value : (2 * m).toUInt32.toNat = 2 * m := Nat.mod_eq_of_lt fits
  have even : (2 * m).toUInt32 &&& 1 = 0 := by
    apply UInt32.toNat_inj.mp
    rw [toNat_low, value, Nat.mul_mod_right]
    rfl
  rw [crcShift_even even]
  apply UInt32.toNat_inj.mp
  rw [toNat_half, value, Nat.mul_div_cancel_left m (by decide)]
  exact (Nat.mod_eq_of_lt (by omega)).symm

/-- A word with zeros at its end is only moved. -/
theorem crcShifts_place {k n : Nat} (fits : Nat.pow 2 k * n < 0x100000000) :
    crcShifts k (Nat.pow 2 k * n).toUInt32 = n.toUInt32 := by
  induction k with
  | zero => exact congrArg Nat.toUInt32 (Nat.one_mul n)
  | succ k ih =>
    have double : Nat.pow 2 (k + 1) * n = 2 * (Nat.pow 2 k * n) := by
      have step : Nat.pow 2 (k + 1) = 2 * Nat.pow 2 k := Nat.mul_comm _ _
      rw [step, Nat.mul_assoc]
    rw [double] at fits ⊢
    rw [crcShifts, crcShift_double fits]
    exact ih (by omega)

theorem add_eq_xor {b n : Nat} (low : b < 256) : b + 256 * n = b ^^^ (256 * n) := by
  apply Nat.eq_of_testBit_eq
  intro i
  have sum : (256 * n + b).testBit i = if i < 8 then b.testBit i else n.testBit (i - 8) :=
    Nat.testBit_two_pow_mul_add (i := 8) n low i
  have place : (256 * n).testBit i = (decide (8 ≤ i) && n.testBit (i - 8)) :=
    Nat.testBit_two_pow_mul (i := 8)
  rw [Nat.add_comm, Nat.testBit_xor, sum, place]
  by_cases inside : i < 8
  · simp [inside, Nat.not_le.mpr inside]
  · have above : b.testBit i = false := by
      apply Nat.testBit_lt_two_pow
      have := Nat.pow_le_pow_right (n := 2) (by decide) (Nat.le_of_not_lt inside)
      omega
    simp [inside, above, Nat.le_of_not_lt inside]

/-- The lowest byte and those above it have no bit in common. -/
theorem toUInt32_cons (b : UInt8) (n : Nat) :
    (b.toNat + 256 * n).toUInt32 = b.toUInt32 ^^^ (256 * n).toUInt32 := by
  rw [add_eq_xor b.toNat_lt, Nat.toUInt32, UInt32.ofNat_xor, UInt32.ofNat_uInt8ToNat]

theorem toNatLE_lt_word {width : Nat} (short : bs.length ≤ width) :
    Bytes.toNatLE bs < Nat.pow 256 width :=
  Nat.lt_of_lt_of_le (Bytes.toNatLE_lt bs) (Nat.pow_le_pow_right (by decide) short)

/-- Up to four bytes enter the remainder as one word. -/
theorem foldl_crcByte (short : bs.length ≤ 4) :
    bs.foldl crcByte c = crcShifts (8 * bs.length) (c ^^^ (Bytes.toNatLE bs).toUInt32) := by
  induction bs generalizing c with
  | nil => exact UInt32.xor_zero.symm
  | cons b rest ih =>
    have size : rest.length ≤ 3 := Nat.le_of_succ_le_succ short
    have fits : 256 * Bytes.toNatLE rest < 0x100000000 := by
      have low : Bytes.toNatLE rest < 0x1000000 := toNatLE_lt_word size
      omega
    have placed : crcShifts 8 (256 * Bytes.toNatLE rest).toUInt32 =
        (Bytes.toNatLE rest).toUInt32 := crcShifts_place (k := 8) fits
    rw [List.foldl_cons, ih (by omega), crcByte, List.length_cons, Nat.mul_succ, Nat.add_comm,
      crcShifts_add, Bytes.toNatLE, toUInt32_cons, ← UInt32.xor_assoc, crcShifts_xor 8 (_ ^^^ _),
      placed]

theorem crcByte_inj {b : UInt8} (same : crcByte c b = crcByte d b) : c = d :=
  (UInt32.xor_left_inj _).mp (crcShifts_inj same)

theorem foldl_crcByte_inj (same : bs.foldl crcByte c = bs.foldl crcByte d) : c = d := by
  induction bs generalizing c d with
  | nil => exact same
  | cons b rest ih => exact crcByte_inj (ih same)

theorem eq_of_word (size : old.length = new.length) (short : old.length ≤ 4)
    (same : (Bytes.toNatLE old).toUInt32 = (Bytes.toNatLE new).toUInt32) : old = new := by
  have value (bs : Bytes) (short : bs.length ≤ 4) :
      (Bytes.toNatLE bs).toUInt32.toNat = Bytes.toNatLE bs :=
    Nat.mod_eq_of_lt (toNatLE_lt_word short)
  have numbers := congrArg UInt32.toNat same
  rw [value old short, value new (size ▸ short)] at numbers
  rw [← Bytes.ofNatLE_toNatLE old, size, numbers, Bytes.ofNatLE_toNatLE]

/-- A change of up to four bytes in a row changes the remainder. -/
theorem eq_of_foldl_crcByte (same : (front ++ old ++ back).foldl crcByte c =
      (front ++ new ++ back).foldl crcByte c) (size : old.length = new.length)
    (short : old.length ≤ 4) : old = new := by
  simp only [List.foldl_append] at same
  have words := foldl_crcByte_inj same
  have short' : new.length ≤ 4 := size ▸ short
  rw [foldl_crcByte short, foldl_crcByte short', size] at words
  exact eq_of_word size short ((UInt32.xor_right_inj _).mp (crcShifts_inj words))

/-- A byte string with its checksum behind it leaves what all of them leave. -/
theorem foldl_crcByte_checksum (bs : Bytes) :
    (bs ++ Bytes.ofNatLE 4 (crc32 bs).toNat).foldl crcByte 0xffffffff = crcShifts 32 0xffffffff := by
  have four : (Bytes.ofNatLE 4 (crc32 bs).toNat).length = 4 := Bytes.length_ofNatLE 4 _
  have word : (Bytes.toNatLE (Bytes.ofNatLE 4 (crc32 bs).toNat)).toUInt32 = crc32 bs := by
    rw [Bytes.toNatLE_word (crc32 bs).toNat_lt]
    exact UInt32.ofNat_toNat
  rw [List.foldl_append, foldl_crcByte (Nat.le_of_eq four), four, word, crc32, ← UInt32.xor_assoc,
    UInt32.xor_self, UInt32.zero_xor]

end Logbook.Checksum
