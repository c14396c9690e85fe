import Logbook.Proofs.Flags
import Logbook.Proofs.Json.Message
import Logbook.Proofs.Success
import Mathlib.Data.List.TakeWhile

/-! Natural numbers in JSON. A natural number is read from its digits and from nothing else: from no
number with a sign, a fraction or an exponent, and from none that is too long. -/
namespace Logbook.Json

variable {positive : Bool} {n significand significand' count count' limit max : Nat} {b : UInt8}
  {bs rest after : Bytes} {flags : Flags}

def NoNatural (reading : Reading Number) : Prop := ∀ n rest, reading ≠ .ok (.natural n, rest)

theorem noNatural_error (fault : Fault) : NoNatural (.error fault) := nofun

theorem noNatural_scale (scaled : Except Fault Float) (rest : Bytes) :
    NoNatural (scaled.map fun f => (.float f, rest)) := by
  intro n after read
  obtain ⟨f, -, same⟩ := map_eq_ok.mp read
  cases same

theorem noNatural_exponent (start : Int) :
    NoNatural (readExponent positive significand start bs) := by
  unfold readExponent
  split
  case h_1 up digits sign =>
  cases digits with
  | nil => exact noNatural_error _
  | cons b more =>
    simp only
    split
    · exact noNatural_error _
    split
    · split
      · exact noNatural_error _
      · exact nofun
    · exact noNatural_scale _ _

theorem noNatural_finish (exponent : Int) :
    NoNatural (finish positive significand exponent bs) := by
  cases bs with
  | nil => exact noNatural_scale _ _
  | cons b bs =>
    rw [finish]
    split
    · exact noNatural_exponent _
    · exact noNatural_scale _ _

theorem noNatural_fraction (before : Nat) :
    NoNatural (readFraction positive significand before bs) := by
  rw [readFraction]
  simp only
  split
  · split
    · exact noNatural_error _
    · exact noNatural_error _
  · exact noNatural_finish _

theorem noNatural_long (before : Nat) :
    NoNatural (afterLongInteger positive significand before bs) := by
  cases bs with
  | nil => exact noNatural_scale _ _
  | cons b bs =>
    rw [afterLongInteger]
    split
    · exact noNatural_fraction _
    · exact noNatural_finish _

/-- A number of digits alone is natural if it has no sign. -/
theorem ofInteger_natural
    (natural : (.ok (ofInteger positive significand, bs) : Reading Number) = .ok (.natural n, rest)) :
    positive = true ∧ significand = n ∧ bs = rest := by
  rw [ofInteger] at natural
  split at natural
  case isTrue unsigned =>
    cases natural
    exact ⟨unsigned, rfl, rfl⟩
  case isFalse =>
    split at natural
    · cases natural
    · cases natural

theorem afterInteger_natural (stop : startsWithDigit bs = false)
    (natural : afterInteger positive significand bs = .ok (.natural n, rest)) :
    positive = true ∧ significand = n ∧ bs = rest ∧ EndsNumber bs := by
  cases bs with
  | nil =>
    obtain ⟨unsigned, value, same⟩ := ofInteger_natural natural
    exact ⟨unsigned, value, same, nofun⟩
  | cons b bs =>
    rw [afterInteger] at natural
    split at natural
    · exact absurd natural (noNatural_fraction _ _ _)
    case isFalse point =>
      split at natural
      · exact absurd natural (noNatural_exponent _ _ _)
      case isFalse mark =>
        obtain ⟨unsigned, value, same⟩ := ofInteger_natural natural
        refine ⟨unsigned, value, same, ?_⟩
        rintro _ _ ⟨⟩
        exact ⟨stop, point, eq_false_of_ne_true mark⟩

/-- A digit after a number that is not zero goes on with it. -/
theorem writeNat_digit {d : Nat} (digit : d < 10) (nonzero : 0 < n) :
    writeNat (n * 10 + d) = writeNat n ++ [Text.digitByte d] := by
  have quotient : (n * 10 + d) / 10 = n := by omega
  have remainder : (n * 10 + d) % 10 = d := by omega
  rw [writeNat_more (by omega), quotient, remainder]

theorem digitByte_digitValue (digit : isDigit b = true) :
    digitValue b < 10 ∧ Text.digitByte (digitValue b) = b := by
  have range : 0x30 ≤ b.toNat ∧ b.toNat ≤ 0x39 := by
    simpa [isDigit, UInt8.le_iff_toNat_le] using digit
  have small : digitValue b < 10 := by
    rw [digitValue]
    omega
  refine ⟨small, ?_⟩
  rw [Text.digitByte, if_pos small, digitValue, Nat.add_sub_cancel' range.1]
  exact UInt8.ofNat_toNat

/-- The digits that are taken are those of the significand. -/
theorem writeNat_takeDigits (nonzero : 0 < significand)
    (taken : takeDigits limit significand count bs = (significand', count', rest)) :
    writeNat significand ++ bs = writeNat significand' ++ rest := by
  -- a digit that is taken goes over from the bytes to the significand
  induction bs generalizing significand count with
  | nil =>
    cases taken
    rfl
  | cons b bs ih =>
    rw [takeDigits] at taken
    split at taken
    case isTrue more =>
      rw [Bool.and_eq_true] at more
      obtain ⟨small, back⟩ := digitByte_digitValue more.1
      have follows := ih (by omega) taken
      rwa [writeNat_digit small nonzero, back, List.append_assoc] at follows
    case isFalse =>
      cases taken
      rfl

/-- A first digit that is no zero begins a number. -/
theorem takeDigits_first (digit : isDigit b = true) (nonzero : b ≠ 0x30)
    (taken : takeDigits maxSignificand 0 0 (b :: bs) = (significand, count, rest)) :
    b :: bs = writeNat significand ++ rest := by
  obtain ⟨small, back⟩ := digitByte_digitValue digit
  have positive : 0 < digitValue b := by
    apply Nat.pos_of_ne_zero
    intro zero
    rw [zero] at back
    exact nonzero back.symm
  have fits : digitValue b ≤ maxSignificand := Nat.le_trans (Nat.le_of_lt small) (by decide)
  rw [← back, takeDigits_cons small (by omega), Nat.zero_mul, Nat.zero_add] at taken
  have whole := writeNat_takeDigits positive taken
  rwa [writeNat_last small, back] at whole

/-- Only its digits are read as a natural number. -/
theorem readUnsigned_natural (natural : readUnsigned positive bs = .ok (.natural n, rest)) :
    positive = true ∧ bs = writeNat n ++ rest ∧ EndsNumber rest := by
  cases bs with
  | nil => cases natural
  | cons b bs =>
    rw [readUnsigned] at natural
    split at natural
    case isTrue zero =>
      -- no digits follow a zero
      obtain ⟨stop, natural⟩ := check_eq_ok.mp natural
      obtain ⟨unsigned, rfl, rfl, ends⟩ :=
        afterInteger_natural (eq_false_of_ne_true stop) natural
      rw [zero, writeNat_last (by omega)]
      exact ⟨unsigned, rfl, ends⟩
    case isFalse nonzero =>
      split at natural
      case isTrue digit =>
        cases taken : takeDigits maxSignificand 0 0 (b :: bs) with
        | mk significand others =>
          rw [taken] at natural
          simp only at natural
          split at natural
          · exact absurd natural (noNatural_long _ _ _)
          case isFalse stop =>
            obtain ⟨unsigned, rfl, rfl, ends⟩ :=
              afterInteger_natural (eq_false_of_ne_true stop) natural
            exact ⟨unsigned, takeDigits_first digit nonzero taken, ends⟩
      case isFalse => cases natural

/-! ### Integers -/

/-- The first byte of a value after blanks. -/
theorem readStart_eq_ok {α : Type} {read : UInt8 → Bytes → Reading α} {a : α}
    (ok : readStart read bs = .ok (a, rest)) :
    ∃ b more, skipBlanks bs = b :: more ∧ read b more = .ok (a, rest) := by
  rw [readStart] at ok
  split at ok
  · cases ok
  case h_2 b more first => exact ⟨b, more, first, ok⟩

theorem skipBlanks_writeNat (n : Nat) (rest : Bytes) :
    skipBlanks (writeNat n ++ rest) = writeNat n ++ rest := by
  obtain ⟨d, tail, small, -, first⟩ := writeNat_first n
  rw [first, List.cons_append, skipBlanks_cons (solid_digitByte small).1]

def within (expected : String) (max : Nat) : Number × Bytes → Reading Nat
  | (.natural n, rest) => if n ≤ max then .ok (n, rest) else .error (.invalidValue n expected)
  | (.negative n, _) => .error (.invalidValue n expected)
  | (.float f, _) => .error (.invalidType (.float f) expected)

theorem readInteger_eq (expected : String) (max : Nat) : readInteger expected max =
    readStart fun b rest =>
      if b = 0x2d then (readUnsigned false rest).bind (within expected max)
      else if isDigit b then (readUnsigned true (b :: rest)).bind (within expected max)
      else .error (mismatch expected b rest) := rfl

theorem within_eq_ok {expected : String} {reading : Reading Number}
    (ok : reading.bind (within expected max) = .ok (n, rest)) :
    reading = .ok (.natural n, rest) ∧ n ≤ max := by
  obtain ⟨⟨number, after⟩, rfl, passed⟩ := bind_eq_ok.mp ok
  cases number with
  | natural m =>
    rw [within] at passed
    split at passed
    case isTrue fits =>
      cases passed
      exact ⟨rfl, fits⟩
    case isFalse => cases passed
  | negative m => cases passed
  | float f => cases passed

/-- An integer that is read is a natural number within its bound. -/
theorem readInteger_natural {expected : String} (read : readInteger expected max bs = .ok (n, rest)) :
    n ≤ max ∧ skipBlanks bs = writeNat n ++ rest ∧ EndsNumber rest := by
  rw [readInteger_eq] at read
  obtain ⟨b, more, first, read⟩ := readStart_eq_ok read
  rw [first]
  split at read
  · obtain ⟨natural, -⟩ := within_eq_ok read
    cases (readUnsigned_natural natural).1
  · split at read
    · obtain ⟨natural, fits⟩ := within_eq_ok read
      exact ⟨fits, (readUnsigned_natural natural).2⟩
    · cases read

/-- The flags that are read are a natural number whose bits are known. -/
theorem readFlags_eq_ok : readFlags bs = .ok (flags, rest) ↔
    skipBlanks bs = writeNat flags.bits.toNat ++ rest ∧ EndsNumber rest := by
  constructor
  · intro read
    obtain ⟨⟨b, after⟩, byte, read⟩ := bind_eq_ok.mp read
    simp only at read
    split at read
    case h_1 flags' known =>
      cases read
      obtain ⟨⟨n, after⟩, integer, same⟩ := map_eq_ok.mp byte
      cases same
      obtain ⟨fits, whole, ends⟩ := readInteger_natural integer
      have value : n.toUInt8.toNat = n := Nat.mod_eq_of_lt (by omega)
      rw [Flags.ofBits_eq_ok.mp known, value]
      exact ⟨whole, ends⟩
    case h_2 => cases read
  · rintro ⟨whole, ends⟩
    have front : bs = bs.takeWhile isBlank ++ skipBlanks bs := List.takeWhile_append_dropWhile.symm
    have blank : Blank (bs.takeWhile isBlank) := fun b here => List.mem_takeWhile_imp here
    rw [front, skipsBlanks_flags _ _ blank, whole, readFlags_writeNat _ ends]

/-! ### Written integers -/

def writeInt : Int → Bytes
  | .ofNat n => writeNat n
  | .negSucc n => 0x2d :: writeNat (n + 1)

/-- The digits have the value of the number. -/
theorem foldl_writeNat (n : Nat) :
    (writeNat n).foldl (fun value b => value * 10 + digitValue b) 0 = n := by
  induction n using Nat.strongRecOn with
  | ind n ih =>
    by_cases small : n < 10
    · rw [writeNat_last small, List.foldl_cons, (isDigit_digitByte small).2]
      simp
    · rw [writeNat_more (by omega), List.foldl_append, ih (n / 10) (by omega), List.foldl_cons,
        (isDigit_digitByte (by omega)).2, List.foldl_nil]
      omega

theorem takeWhile_writeNat (n : Nat) (ends : EndsNumber rest) :
    (writeNat n ++ rest).takeWhile isDigit = writeNat n := by
  have stop : rest.takeWhile isDigit = [] := by
    cases rest with
    | nil => rfl
    | cons b more => simp [(ends b more rfl).1]
  rw [List.takeWhile_append_of_pos fun b here => isDigit_of_mem_writeNat here, stop, List.append_nil]

/-- Where numbers end, no two of them are written the same. -/
theorem writeNat_append_inj {m : Nat} (ends : EndsNumber rest) (ends' : EndsNumber after)
    (same : writeNat m ++ rest = writeNat n ++ after) : m = n := by
  have digits := congrArg (List.takeWhile isDigit) same
  rw [takeWhile_writeNat m ends, takeWhile_writeNat n ends'] at digits
  rw [← foldl_writeNat m, digits, foldl_writeNat]

/-- No integer but those from 0 to 127 is read as flags. -/
theorem readFlags_writeInt {u : Int} (unknown : u < 0 ∨ 127 < u) (ends : EndsNumber rest) :
    ∃ fault, readFlags (writeInt u ++ rest) = .error fault := by
  cases result : readFlags (writeInt u ++ rest) with
  | error fault => exact ⟨fault, rfl⟩
  | ok front =>
    obtain ⟨flags, after⟩ := front
    obtain ⟨whole, ends'⟩ := readFlags_eq_ok.mp result
    cases u with
    | ofNat n =>
      rw [writeInt, skipBlanks_writeNat] at whole
      have value := writeNat_append_inj ends ends' whole
      have known : flags.bits.toNat < 128 := UInt8.lt_iff_toNat_lt.mp flags.bits_lt
      rw [Int.ofNat_eq_natCast] at unknown
      omega
    | negSucc n =>
      -- no number begins with the sign
      obtain ⟨d, tail, small, -, first⟩ := writeNat_first flags.bits.toNat
      rw [writeInt, List.cons_append, skipBlanks_cons rfl, first, List.cons_append,
        List.cons_eq_cons] at whole
      have digit := (isDigit_digitByte small).1
      rw [← whole.1] at digit
      cases digit

end Logbook.Json
