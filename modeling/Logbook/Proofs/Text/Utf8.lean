import Logbook.Proofs.Success
import Logbook.Text.Utf8

/-! UTF-8 in both directions: reading accepts exactly what writing produces, so each text has one byte
string and no byte string is read as two texts. -/
namespace Logbook.Text.Utf8

theorem toNat_ofNat {n : Nat} (valid : n.isValidChar) : (Char.ofNat n).toNat = n := by
  rw [Char.ofNat, dif_pos valid]
  rfl

theorem toNat_ofNat_byte {n : Nat} (small : n < 256) : (UInt8.ofNat n).toNat = n := by
  rw [UInt8.toNat_ofNat']
  exact Nat.mod_eq_of_lt small

theorem ofNat_eq {n : Nat} {b : UInt8} (same : n = b.toNat) : UInt8.ofNat n = b :=
  same ▸ UInt8.ofNat_toNat

theorem isContinuation_iff {b : UInt8} :
    isContinuation b = true ↔ 0x80 ≤ b.toNat ∧ b.toNat < 0xc0 := by
  simp only [isContinuation, Bool.and_eq_true, decide_eq_true_eq, UInt8.le_iff_toNat_le,
    UInt8.lt_iff_toNat_lt]
  exact Iff.rfl

/-- Of the continuation bytes, four leads rule some out as the second one. -/
theorem inRange_secondRange {lead b : UInt8} :
    inRange b (secondRange lead) = true ↔ (0x80 ≤ b.toNat ∧ b.toNat < 0xc0) ∧
      (lead.toNat = 0xe0 → 0xa0 ≤ b.toNat) ∧ (lead.toNat = 0xed → b.toNat < 0xa0) ∧
      (lead.toNat = 0xf0 → 0x90 ≤ b.toNat) ∧ (lead.toNat = 0xf4 → b.toNat < 0x90) := by
  simp only [inRange, secondRange, Bool.and_eq_true, decide_eq_true_eq, UInt8.le_iff_toNat_le,
    ← UInt8.toNat_inj, UInt8.reduceToNat]
  repeat' split
  all_goals
    simp only [UInt8.reduceToNat]
    omega

/-- The byte strings of one to four bytes that stand for a code point. -/
inductive Form (n : Nat) : Bytes → Prop where
  | one {b : UInt8} : b.toNat < 0x80 → n = b.toNat → Form n [b]
  | two {b c : UInt8} : 0xc2 ≤ b.toNat → b.toNat ≤ 0xdf → isContinuation c = true →
      n = (b.toNat - 0xc0) * 64 + (c.toNat - 0x80) → Form n [b, c]
  | three {b c d : UInt8} : 0xe0 ≤ b.toNat → b.toNat ≤ 0xef → inRange c (secondRange b) = true →
      isContinuation d = true →
      n = (b.toNat - 0xe0) * 4096 + (c.toNat - 0x80) * 64 + (d.toNat - 0x80) → Form n [b, c, d]
  | four {b c d e : UInt8} : 0xf0 ≤ b.toNat → b.toNat ≤ 0xf4 → inRange c (secondRange b) = true →
      isContinuation d = true → isContinuation e = true →
      n = (b.toNat - 0xf0) * 262144 + (c.toNat - 0x80) * 4096 + (d.toNat - 0x80) * 64 +
        (e.toNat - 0x80) → Form n [b, c, d, e]

variable {n : Nat} {bs : Bytes}

theorem Form.valid (form : Form n bs) : n.isValidChar := by
  rw [Nat.isValidChar]
  cases form with
  | one low same => omega
  | two low high second same =>
    have := isContinuation_iff.mp second
    omega
  | three low high second third same =>
    have := inRange_secondRange.mp second
    have := isContinuation_iff.mp third
    omega
  | four low high second third fourth same =>
    have := inRange_secondRange.mp second
    have := isContinuation_iff.mp third
    have := isContinuation_iff.mp fourth
    omega

/-- No code point has two forms. -/
theorem Form.encodeChar (form : Form n bs) : String.utf8EncodeChar (Char.ofNat n) = bs := by
  have point : (Char.ofNat n).val.toNat = n := toNat_ofNat form.valid
  rw [String.utf8EncodeChar.eq_1, point]
  cases form with
  | one low same =>
    rw [if_pos (by omega)]
    simp only [List.cons.injEq, and_true]
    exact ofNat_eq same
  | two low high second same =>
    have := isContinuation_iff.mp second
    rw [if_neg (by omega), if_pos (by omega)]
    simp only [List.cons.injEq, and_true]
    exact ⟨ofNat_eq (by omega), ofNat_eq (by omega)⟩
  | three low high second third same =>
    have := inRange_secondRange.mp second
    have := isContinuation_iff.mp third
    rw [if_neg (by omega), if_neg (by omega), if_pos (by omega)]
    simp only [List.cons.injEq, and_true]
    exact ⟨ofNat_eq (by omega), ofNat_eq (by omega), ofNat_eq (by omega)⟩
  | four low high second third fourth same =>
    have := inRange_secondRange.mp second
    have := isContinuation_iff.mp third
    have := isContinuation_iff.mp fourth
    rw [if_neg (by omega), if_neg (by omega), if_neg (by omega)]
    simp only [List.cons.injEq, and_true]
    exact ⟨ofNat_eq (by omega), ofNat_eq (by omega), ofNat_eq (by omega), ofNat_eq (by omega)⟩

/-- A byte below 0x80 stands alone, for the code point that it is. -/
theorem Form.byte {b : UInt8} (form : Form n bs) (here : b ∈ bs) :
    bs = [b] ∧ n = b.toNat ∨ 0x80 ≤ b.toNat := by
  cases form with
  | one low same =>
    obtain rfl := List.mem_singleton.mp here
    exact .inl ⟨rfl, same⟩
  | two low high second same =>
    have := isContinuation_iff.mp second
    simp only [List.mem_cons, List.not_mem_nil, or_false] at here
    rcases here with rfl | rfl <;> omega
  | three low high second third same =>
    have := (inRange_secondRange.mp second).1
    have := isContinuation_iff.mp third
    simp only [List.mem_cons, List.not_mem_nil, or_false] at here
    rcases here with rfl | rfl | rfl <;> omega
  | four low high second third fourth same =>
    have := (inRange_secondRange.mp second).1
    have := isContinuation_iff.mp third
    have := isContinuation_iff.mp fourth
    simp only [List.mem_cons, List.not_mem_nil, or_false] at here
    rcases here with rfl | rfl | rfl | rfl <;> omega

/-- Every character is written in a form. -/
theorem form_encodeChar (c : Char) : Form c.toNat (String.utf8EncodeChar c) := by
  have valid : c.toNat.isValidChar := c.valid
  have point : c.val.toNat = c.toNat := rfl
  rw [Nat.isValidChar] at valid
  rw [String.utf8EncodeChar.eq_1, point]
  generalize c.toNat = n at valid
  by_cases one : n ≤ 127
  · have first := toNat_ofNat_byte (n := n) (by omega)
    rw [if_pos one]
    exact .one (by omega) first.symm
  rw [if_neg one]
  have last := toNat_ofNat_byte (n := n % 64 + 128) (by omega)
  by_cases two : n ≤ 2047
  · have first := toNat_ofNat_byte (n := n / 64 % 32 + 192) (by omega)
    rw [if_pos two]
    exact .two (by omega) (by omega) (isContinuation_iff.mpr (by omega)) (by omega)
  rw [if_neg two]
  have before := toNat_ofNat_byte (n := n / 64 % 64 + 128) (by omega)
  by_cases three : n ≤ 65535
  · have first := toNat_ofNat_byte (n := n / 4096 % 16 + 224) (by omega)
    rw [if_pos three]
    exact .three (by omega) (by omega) (inRange_secondRange.mpr (by omega))
      (isContinuation_iff.mpr (by omega)) (by omega)
  rw [if_neg three]
  have first := toNat_ofNat_byte (n := n / 262144 % 8 + 240) (by omega)
  have second := toNat_ofNat_byte (n := n / 4096 % 64 + 128) (by omega)
  exact .four (by omega) (by omega) (inRange_secondRange.mpr (by omega))
    (isContinuation_iff.mpr (by omega)) (isContinuation_iff.mpr (by omega)) (by omega)

theorem Form.ofNat (form : Form n bs) : Form (Char.ofNat n).toNat bs := by
  rw [toNat_ofNat form.valid]
  exact form

variable {b : UInt8} {c : Char} {rest tail : Bytes}

/-- The tests on a lead byte, in the order in which they are made. -/
theorem lead_tests (b : UInt8) :
    (b < 0x80 ↔ b.toNat < 0x80) ∧
    ((decide (0xc2 ≤ b) && decide (b ≤ 0xdf)) = true ↔ 0xc2 ≤ b.toNat ∧ b.toNat ≤ 0xdf) ∧
    ((decide (0xe0 ≤ b) && decide (b ≤ 0xef)) = true ↔ 0xe0 ≤ b.toNat ∧ b.toNat ≤ 0xef) ∧
    ((decide (0xf0 ≤ b) && decide (b ≤ 0xf4)) = true ↔ 0xf0 ≤ b.toNat ∧ b.toNat ≤ 0xf4) := by
  simp only [Bool.and_eq_true, decide_eq_true_eq, UInt8.le_iff_toNat_le, UInt8.lt_iff_toNat_lt]
  exact ⟨Iff.rfl, Iff.rfl, Iff.rfl, Iff.rfl⟩

theorem scalar_of_form (form : Form c.toNat (b :: tail)) :
    ∃ short, scalar b (tail ++ rest) = .ok (c, ⟨rest, short⟩) := by
  have same : Char.ofNat c.toNat = c := Char.ofNat_toNat c
  obtain ⟨one, two, three, four⟩ := lead_tests b
  cases form with
  | one low point =>
    refine ⟨Nat.le_refl _, ?_⟩
    simp only [scalar.eq_def, List.nil_append]
    rw [if_pos (one.mpr low), ← point, same]
  | two low high second point =>
    refine ⟨Nat.le_succ _, ?_⟩
    simp only [scalar.eq_def, List.cons_append, List.nil_append]
    rw [if_neg (mt one.mp (by omega)), if_pos (two.mpr ⟨low, high⟩), ← point, same]
    simp only [second, Bool.not_true, Bool.false_eq_true, if_false]
  | three low high second third point =>
    refine ⟨Nat.le_add_right _ 2, ?_⟩
    simp only [scalar.eq_def, List.cons_append, List.nil_append]
    rw [if_neg (mt one.mp (by omega)), if_neg (mt two.mp (by omega)),
      if_pos (three.mpr ⟨low, high⟩), ← point, same]
    simp only [second, third, Bool.not_true, Bool.false_eq_true, if_false]
  | four low high second third fourth point =>
    refine ⟨Nat.le_add_right _ 3, ?_⟩
    simp only [scalar.eq_def, List.cons_append, List.nil_append]
    rw [if_neg (mt one.mp (by omega)), if_neg (mt two.mp (by omega)),
      if_neg (mt three.mp (by omega)), if_pos (four.mpr ⟨low, high⟩), ← point, same]
    simp only [second, third, fourth, Bool.not_true, Bool.false_eq_true, if_false]

theorem form_of_scalar {r : { r : Bytes // r.length ≤ rest.length }}
    (read : scalar b rest = .ok (c, r)) :
    ∃ tail, Form c.toNat (b :: tail) ∧ rest = tail ++ r.val := by
  obtain ⟨one, two, three, four⟩ := lead_tests b
  by_cases low : b < 0x80
  · rw [scalar.eq_def, if_pos low] at read
    cases read
    exact ⟨[], (Form.one (one.mp low) rfl).ofNat, rfl⟩
  rw [scalar.eq_def, if_neg low] at read
  split at read
  case isTrue bounds =>
    obtain ⟨low, high⟩ := two.mp bounds
    rcases rest with _ | ⟨c, rest⟩
    · cases read
    obtain ⟨second, read⟩ := check_eq_ok.mp read
    simp only [Except.ok.injEq, Prod.mk.injEq] at read
    obtain ⟨rfl, rfl⟩ := read
    exact ⟨[c], (Form.two low high (by simpa using second) rfl).ofNat, rfl⟩
  split at read
  case isTrue bounds =>
    obtain ⟨low, high⟩ := three.mp bounds
    rcases rest with _ | ⟨c, rest⟩
    · cases read
    obtain ⟨second, read⟩ := check_eq_ok.mp read
    rcases rest with _ | ⟨d, rest⟩
    · cases read
    obtain ⟨third, read⟩ := check_eq_ok.mp read
    simp only [Except.ok.injEq, Prod.mk.injEq] at read
    obtain ⟨rfl, rfl⟩ := read
    exact ⟨[c, d], (Form.three low high (by simpa using second) (by simpa using third) rfl).ofNat, rfl⟩
  split at read
  case isTrue bounds =>
    obtain ⟨low, high⟩ := four.mp bounds
    rcases rest with _ | ⟨c, rest⟩
    · cases read
    obtain ⟨second, read⟩ := check_eq_ok.mp read
    rcases rest with _ | ⟨d, rest⟩
    · cases read
    obtain ⟨third, read⟩ := check_eq_ok.mp read
    rcases rest with _ | ⟨e, rest⟩
    · cases read
    obtain ⟨fourth, read⟩ := check_eq_ok.mp read
    simp only [Except.ok.injEq, Prod.mk.injEq] at read
    obtain ⟨rfl, rfl⟩ := read
    exact ⟨[c, d, e], (Form.four low high (by simpa using second) (by simpa using third)
      (by simpa using fourth) rfl).ofNat, rfl⟩
  case isFalse => cases read

theorem decodeFrom_flatMap (start : Nat) (cs : List Char) :
    decodeFrom start (cs.flatMap String.utf8EncodeChar) = .ok cs := by
  induction cs generalizing start with
  | nil => rw [List.flatMap_nil, decodeFrom]
  | cons c cs ih =>
    obtain ⟨b, tail, first⟩ := List.exists_cons_of_ne_nil (String.utf8EncodeChar_ne_nil (c := c))
    have form := form_encodeChar c
    rw [first] at form
    obtain ⟨short, read⟩ := scalar_of_form form
    rw [List.flatMap_cons, first, List.cons_append, decodeFrom, read]
    simp only [ih]
    rfl

theorem flatMap_of_decodeFrom {start : Nat} {cs : List Char} (read : decodeFrom start bs = .ok cs) :
    cs.flatMap String.utf8EncodeChar = bs := by
  -- a character that was read is written in the form it was read from, no form but that one
  fun_induction decodeFrom start bs generalizing cs with
  | case1 =>
    cases read
    rfl
  | case2 => cases read
  | case3 start b rest c r short first ih =>
    obtain ⟨more, later, rfl⟩ := map_eq_ok.mp read
    obtain ⟨tail, form, taken⟩ := form_of_scalar first
    have written := form.encodeChar
    rw [Char.ofNat_toNat] at written
    rw [List.flatMap_cons, written, ih later, taken]
    rfl

/-- Reading accepts exactly what writing produces. -/
theorem decode_eq_ok {s : String} : decode bs = .ok s ↔ bs = encode s := by
  constructor
  · intro read
    obtain ⟨cs, chars, rfl⟩ := map_eq_ok.mp read
    rw [encode, String.toList_ofList, flatMap_of_decodeFrom chars]
  · rintro rfl
    rw [decode, encode, decodeFrom_flatMap]
    exact congrArg Except.ok String.ofList_toList

theorem decode_encode (s : String) : decode (encode s) = .ok s := decode_eq_ok.mpr rfl

@[simp] theorem length_encode (s : String) : (encode s).length = s.utf8ByteSize := by
  rw [← String.size_toByteArray, ← String.utf8Encode_toList, List.utf8Encode,
    List.size_toByteArray, encode]

end Logbook.Text.Utf8
