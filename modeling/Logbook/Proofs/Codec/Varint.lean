import Logbook.Codec.Varint
import Logbook.Proofs.Bytes
import Logbook.Proofs.Success

/-! Numbers of variable length: the byte strings that stand for a number, which are exactly what is
read as that number, and of which the written one is the shortest. -/
namespace Logbook

def Bytes.NoLonger (bs cs : Bytes) : Prop := bs.length < cs.length ∨ bs = cs

namespace Bytes

theorem NoLonger.refl (bs : Bytes) : NoLonger bs bs := .inr rfl

theorem NoLonger.append {bs cs bs' cs' : Bytes} (first : NoLonger bs cs) (second : NoLonger bs' cs') :
    NoLonger (bs ++ bs') (cs ++ cs') := by
  rcases first with shorter | rfl
  · rcases second with also | rfl
    all_goals
      left
      simp only [List.length_append]
      omega
  · rcases second with shorter | rfl
    · left
      simp only [List.length_append]
      omega
    · right
      rfl

end Bytes

namespace Codec

theorem take_eq_ok {n : Nat} {bs front rest : Bytes} :
    take n bs = .ok (front, rest) ↔ front.length = n ∧ bs = front ++ rest := by
  rw [take, check_eq_ok]
  constructor
  · rintro ⟨enough, split⟩
    cases split
    exact ⟨List.length_take_of_le (by omega), (List.take_append_drop n bs).symm⟩
  · rintro ⟨rfl, rfl⟩
    refine ⟨by simp, ?_⟩
    rw [List.take_left, List.drop_left]

namespace Varint

def marked : List (UInt8 × Nat) := [(251, 2), (252, 4), (253, 8)]

/-- The byte strings that stand for a number: the number itself where it is no marker, or a marker
and a word that is wide enough. -/
inductive Form (n : Nat) : Bytes → Prop where
  | byte : n < 251 → Form n [n.toUInt8]
  | word (marker : UInt8) (width : Nat) : (marker, width) ∈ marked → n < Nat.pow 256 width →
      Form n (marker :: Bytes.ofNatLE width n)

theorem readWord_eq_ok {width n : Nat} {bs rest : Bytes} :
    readWord width bs = .ok (n, rest) ↔
      n < Nat.pow 256 width ∧ bs = Bytes.ofNatLE width n ++ rest := by
  rw [readWord, bind_eq_ok]
  constructor
  · rintro ⟨⟨word, rest⟩, taken, read⟩
    cases read
    obtain ⟨rfl, rfl⟩ := take_eq_ok.mp taken
    exact ⟨Bytes.toNatLE_lt word, by rw [Bytes.ofNatLE_toNatLE]⟩
  · rintro ⟨fits, rfl⟩
    refine ⟨(Bytes.ofNatLE width n, rest), take_eq_ok.mpr ⟨Bytes.length_ofNatLE width n, rfl⟩, ?_⟩
    exact congrArg (fun word => Except.ok (word, rest)) (Bytes.toNatLE_word fits)

theorem read_marked {marker : UInt8} {width : Nat} (known : (marker, width) ∈ marked) (rest : Bytes) :
    read (marker :: rest) = readWord width rest := by
  simp only [marked, List.mem_cons, List.not_mem_nil, or_false, Prod.mk.injEq] at known
  rcases known with ⟨rfl, rfl⟩ | ⟨rfl, rfl⟩ | ⟨rfl, rfl⟩ <;> rfl

/-- What is read as a number are its forms. -/
theorem read_eq_ok {n : Nat} {bs rest : Bytes} :
    read bs = .ok (n, rest) ↔ ∃ form, Form n form ∧ bs = form ++ rest := by
  constructor
  · intro ok
    rcases bs with _ | ⟨b, bs⟩
    · cases ok
    have marked_form {width : Nat} (known : (b, width) ∈ marked)
        (ok : readWord width bs = .ok (n, rest)) : ∃ form, Form n form ∧ b :: bs = form ++ rest := by
      obtain ⟨fits, rfl⟩ := readWord_eq_ok.mp ok
      exact ⟨_, .word b width known fits, rfl⟩
    rw [read] at ok
    split at ok
    case isTrue low =>
      cases ok
      have form := Form.byte (UInt8.lt_iff_toNat_lt.mp low)
      rw [Nat.toUInt8, UInt8.ofNat_toNat] at form
      exact ⟨[b], form, rfl⟩
    split at ok
    case isTrue two => exact marked_form (by rw [two]; decide) ok
    split at ok
    case isTrue four => exact marked_form (by rw [four]; decide) ok
    split at ok
    case isTrue eight => exact marked_form (by rw [eight]; decide) ok
    split at ok
    all_goals cases ok
  · rintro ⟨form, is, rfl⟩
    cases is with
    | byte small =>
      have value : n.toUInt8.toNat = n := by
        rw [Nat.toUInt8, UInt8.toNat_ofNat']
        omega
      have low : n.toUInt8 < 251 := UInt8.lt_iff_toNat_lt.mpr (by rw [value]; exact small)
      rw [List.singleton_append, read, if_pos low, value]
    | word marker width known fits =>
      rw [List.cons_append, read_marked known]
      exact readWord_eq_ok.mpr ⟨fits, rfl⟩

/-- The numbers that have a form are the 64-bit words. -/
theorem Form.lt {n : Nat} {form : Bytes} (is : Form n form) : n < 0x10000000000000000 := by
  cases is with
  | byte small => omega
  | word marker width known fits =>
    simp only [marked, List.mem_cons, List.not_mem_nil, or_false, Prod.mk.injEq] at known
    rcases known with ⟨rfl, rfl⟩ | ⟨rfl, rfl⟩ | ⟨rfl, rfl⟩
    all_goals
      simp only [Nat.pow_eq, Nat.reducePow] at fits
      omega

theorem form_write {n : Nat} (fits : n < 0x10000000000000000) : Form n (write n) := by
  rw [write]
  split
  case isTrue small => exact .byte small
  split
  case isTrue small => exact .word 251 2 (by decide) small
  split
  case isTrue small => exact .word 252 4 (by decide) small
  case isFalse => exact .word 253 8 (by decide) fits

/-- No form is shorter than the written one, and no other is as short. -/
theorem Form.noLonger {n : Nat} {form : Bytes} (is : Form n form) :
    Bytes.NoLonger (write n) form := by
  cases is with
  | byte small =>
    rw [write, if_pos small]
    exact .refl _
  | word marker width known fits =>
    simp only [marked, List.mem_cons, List.not_mem_nil, or_false, Prod.mk.injEq] at known
    -- by the ranges of `write`: a narrower marked form has no room for the number
    rw [write]
    by_cases one : n < 251
    · rw [if_pos one]
      rcases known with ⟨-, rfl⟩ | ⟨-, rfl⟩ | ⟨-, rfl⟩ <;> exact .inl (by simp)
    rw [if_neg one]
    by_cases two : n < 0x10000
    · rw [if_pos two]
      rcases known with ⟨rfl, rfl⟩ | ⟨-, rfl⟩ | ⟨-, rfl⟩
      · exact .refl _
      all_goals exact .inl (by simp)
    rw [if_neg two]
    by_cases four : n < 0x100000000
    · rw [if_pos four]
      rcases known with ⟨-, rfl⟩ | ⟨rfl, rfl⟩ | ⟨-, rfl⟩
      · exact absurd fits two
      · exact .refl _
      · exact .inl (by simp)
    rw [if_neg four]
    rcases known with ⟨-, rfl⟩ | ⟨-, rfl⟩ | ⟨rfl, rfl⟩
    · exact absurd fits two
    · exact absurd fits four
    · exact .refl _

end Varint

end Codec

end Logbook
