import Logbook.Bytes

/-! Little-endian words: every byte string is the word of its number and no other, and accesses to
bytes that are guarded, so that a look past the end is told apart. -/
namespace Logbook.Bytes

theorem toNatLE_lt (bs : Bytes) : toNatLE bs < Nat.pow 256 bs.length := by
  induction bs with
  | nil => exact Nat.one_pos
  | cons b rest ih =>
    have step : Nat.pow 256 (rest.length + 1) = 256 * Nat.pow 256 rest.length := Nat.mul_comm _ _
    have := b.toNat_lt
    simp only [toNatLE, List.length_cons, step]
    omega

/-- A byte string is the word of its number. -/
theorem ofNatLE_toNatLE (bs : Bytes) : ofNatLE bs.length (toNatLE bs) = bs := by
  induction bs with
  | nil => rfl
  | cons b rest ih =>
    have := b.toNat_lt
    have low : (b.toNat + 256 * toNatLE rest).toUInt8 = b := by
      apply UInt8.toNat_inj.mp
      rw [Nat.toUInt8, UInt8.toNat_ofNat']
      omega
    have high : (b.toNat + 256 * toNatLE rest) / 256 = toNatLE rest := by omega
    rw [List.length_cons, ofNatLE, toNatLE, low, high, ih]

theorem toNatLE_word {width n : Nat} (fits : n < Nat.pow 256 width) :
    toNatLE (ofNatLE width n) = n := by
  rw [toNatLE_ofNatLE, Nat.mod_eq_of_lt fits]

/-- What begins with a word tells the word and what follows it. -/
theorem word_append_inj {width m n : Nat} {rest rest' : Bytes} (fits : m < Nat.pow 256 width)
    (fits' : n < Nat.pow 256 width) (same : ofNatLE width m ++ rest = ofNatLE width n ++ rest') :
    m = n ∧ rest = rest' := by
  obtain ⟨words, rests⟩ := List.append_inj same (by rw [length_ofNatLE, length_ofNatLE])
  refine ⟨?_, rests⟩
  rw [← toNatLE_word fits, words, toNatLE_word fits']

/-- Enough bytes begin with a word. -/
theorem exists_word {width : Nat} {bs : Bytes} (enough : width ≤ bs.length) :
    ∃ n rest, n < Nat.pow 256 width ∧ bs = ofNatLE width n ++ rest := by
  have front := ofNatLE_toNatLE (bs.take width)
  have fits := toNatLE_lt (bs.take width)
  rw [List.length_take_of_le enough] at front fits
  refine ⟨toNatLE (bs.take width), bs.drop width, fits, ?_⟩
  rw [front, List.take_append_drop]

theorem take_word (width n : Nat) (rest : Bytes) :
    (ofNatLE width n ++ rest).take width = ofNatLE width n :=
  List.take_left' (length_ofNatLE width n)

theorem drop_word (width n k : Nat) (rest : Bytes) :
    (ofNatLE width n ++ rest).drop (width + k) = rest.drop k := by
  rw [← List.drop_drop, List.drop_left' (length_ofNatLE width n)]

/-- The first bytes and the rest; none where there are too few, so that an access would be outside. -/
def split? (n : Nat) (bs : Bytes) : Option (Bytes × Bytes) :=
  if bs.length < n then none else some (bs.take n, bs.drop n)

def word? (width : Nat) (bs : Bytes) : Option (Nat × Bytes) :=
  (split? width bs).map fun (word, rest) => (toNatLE word, rest)

def sum? (a b : Nat) : Option Nat :=
  if a + b < 0x10000000000000000 then some (a + b) else none

theorem split?_eq {n : Nat} {bs : Bytes} (enough : n ≤ bs.length) :
    split? n bs = some (bs.take n, bs.drop n) := if_neg (by omega)

theorem word?_eq {width : Nat} {bs : Bytes} (enough : width ≤ bs.length) :
    word? width bs = some (toNatLE (bs.take width), bs.drop width) := by
  rw [word?, split?_eq enough]
  rfl

theorem word?_word {width n : Nat} (fits : n < Nat.pow 256 width) (rest : Bytes) :
    word? width (ofNatLE width n ++ rest) = some (n, rest) := by
  rw [word?_eq (by simp), take_word, toNatLE_word fits]
  exact congrArg (fun rest => some (n, rest)) (drop_word width n 0 rest)

theorem sum?_eq {a b : Nat} (fits : a + b < 0x10000000000000000) : sum? a b = some (a + b) :=
  if_pos fits

end Logbook.Bytes
