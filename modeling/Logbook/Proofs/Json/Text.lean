import Logbook.Json.Text
import Logbook.Proofs.Text.Number

/-! JSON strings: whatever a text contains, it is read back from its written form, in which no control
character stands. -/
namespace Logbook.Json

def Plain (b : UInt8) : Prop := 0x20 ≤ b.toNat ∧ b ≠ 0x22 ∧ b ≠ 0x5c

variable {strict : Bool} {b e : UInt8} {bs content more rest after : Bytes} {c : Char}

theorem readContent_plain (plain : Plain b) (ok : readContent strict rest = .ok (more, after)) :
    readContent strict (b :: rest) = .ok (b :: more, after) := by
  have high : ¬(strict && decide (b < 0x20)) = true := by
    simp only [Bool.and_eq_true, decide_eq_true_eq, UInt8.lt_iff_toNat_lt]
    exact fun low => absurd low.2 (Nat.not_lt.mpr plain.1)
  rw [readContent, if_neg plain.2.1, if_neg plain.2.2, if_neg high, ok]

theorem readContent_plains (plain : ∀ b ∈ bs, Plain b)
    (ok : readContent strict rest = .ok (more, after)) :
    readContent strict (bs ++ rest) = .ok (bs ++ more, after) := by
  induction bs with
  | nil => exact ok
  | cons b bs ih =>
    rw [List.forall_mem_cons] at plain
    exact readContent_plain plain.1 (ih plain.2)

theorem readContent_escape {short : rest.length ≤ bs.length}
    (escape : readEscape strict bs = .ok (content, ⟨rest, short⟩))
    (ok : readContent strict rest = .ok (more, after)) :
    readContent strict (0x5c :: bs) = .ok (content ++ more, after) := by
  rw [readContent, if_neg (by decide), if_pos rfl, escape]
  simp only [ok]

theorem readEscape_simple (known : simpleEscape? e = some b) (rest : Bytes) :
    ∃ short, readEscape strict (e :: rest) = .ok ([b], ⟨rest, short⟩) := by
  have letter : e ≠ 0x75 := by
    rintro rfl
    cases known
  exact ⟨Nat.le_succ _, by rw [readEscape, if_neg letter, known]⟩

theorem hexValue?_digitByte {d : Nat} (small : d < 16) :
    hexValue? (Text.digitByte d) = some d := by
  have each : ∀ d, d < 16 → hexValue? (Text.digitByte d) = some d := by decide
  exact each d small

/-- An escape by two hexadecimal digits stands for a code point that is a byte. -/
theorem readEscape_unit {n : Nat} (low : n < 0x80) (rest : Bytes) :
    ∃ short, readEscape strict (0x75 :: 0x30 :: 0x30 :: Text.digitByte (n / 16) ::
      Text.digitByte (n % 16) :: rest) = .ok ([n.toUInt8], ⟨rest, short⟩) := by
  have unit : hexUnit? 0x30 0x30 (Text.digitByte (n / 16)) (Text.digitByte (n % 16)) = some n := by
    have zero : hexValue? 0x30 = some 0 := rfl
    simp only [hexUnit?, zero, hexValue?_digitByte (d := n / 16) (by omega),
      hexValue?_digitByte (d := n % 16) (by omega), bind, Option.bind_some, pure, Option.some.injEq]
    omega
  have trailing : isTrailing n = false := by simp [isTrailing]; omega
  have leading : isLeading n = false := by simp [isLeading]; omega
  refine ⟨Nat.le_add_right _ 5, ?_⟩
  rw [readEscape, if_pos rfl]
  simp only [readUnit, unit, trailing, Bool.and_false, Bool.false_eq_true, if_false]
  rw [readUnits.eq_def, leading]
  simp [codePointBytes, low]

inductive Spelling (c : Char) : Bytes → Prop where
  | letter {e b : UInt8} : simpleEscape? e = some b → String.utf8EncodeChar c = [b] →
      Spelling c [0x5c, e]
  | unit : c.toNat < 0x80 → Spelling c
      [0x5c, 0x75, 0x30, 0x30, Text.digitByte (c.toNat / 16), Text.digitByte (c.toNat % 16)]
  | plain : (∀ b ∈ String.utf8EncodeChar c, Plain b) → Spelling c (String.utf8EncodeChar c)

theorem encodeChar_small (small : c.toNat < 0x80) :
    String.utf8EncodeChar c = [c.toNat.toUInt8] := by
  have whole := Text.encodeChar_ofNat small
  rwa [Char.ofNat_toNat] at whole

/-- What is not escaped stands for itself. -/
theorem plain_encodeChar (high : 0x20 ≤ c.toNat) (quote : c ≠ '"') (slash : c ≠ '\\')
    (here : b ∈ String.utf8EncodeChar c) : Plain b := by
  rcases (Text.Utf8.form_encodeChar c).byte here with ⟨-, same⟩ | large
  · refine ⟨by omega, ?_, ?_⟩
    · rintro rfl
      exact quote (Char.toNat_inj.mp same)
    · rintro rfl
      exact slash (Char.toNat_inj.mp same)
  · refine ⟨by omega, ?_, ?_⟩
    all_goals
      rintro rfl
      exact absurd large (by decide)

theorem hexadecimal_two {n : Nat} (low : n < 0x20) :
    (Text.padLeft 2 (Text.digitsInto 16 n [])).flatMap String.utf8EncodeChar =
      [Text.digitByte (n / 16), Text.digitByte (n % 16)] := by
  have last := Text.encodeChar_digitChar (d := n % 16) (by omega)
  by_cases one : n < 16
  · have none : n / 16 = 0 := by omega
    have self : n % 16 = n := by omega
    rw [self] at last ⊢
    rw [Text.digitsInto_last one, none]
    simp [Text.padLeft, last]
    rfl
  · rw [Text.digitsInto_more (by omega) (by omega), Text.digitsInto_last (by omega)]
    simp [Text.padLeft, last, Text.encodeChar_digitChar (d := n / 16) (by omega)]

theorem spelling_escapeChar (c : Char) : Spelling c (escapeChar c) := by
  -- in the order of the tests; what is left over is neither a quote, a backslash nor a control
  rw [escapeChar]
  by_cases quote : c = '"'
  · subst quote
    exact .letter rfl rfl
  rw [if_neg quote]
  by_cases slash : c = '\\'
  · subst slash
    exact .letter rfl rfl
  rw [if_neg slash]
  split
  case isTrue back => exact .letter rfl (by rw [encodeChar_small (by omega), back]; rfl)
  split
  case isTrue feed => exact .letter rfl (by rw [encodeChar_small (by omega), feed]; rfl)
  split
  case isTrue line => exact .letter rfl (by rw [line]; rfl)
  split
  case isTrue carriage => exact .letter rfl (by rw [carriage]; rfl)
  split
  case isTrue tab => exact .letter rfl (by rw [tab]; rfl)
  split
  case isTrue low =>
    rw [hexadecimal_two low]
    exact .unit (by omega)
  case isFalse high => exact .plain fun b here => plain_encodeChar (by omega) quote slash here

theorem Spelling.read (spelling : Spelling c bs)
    (ok : readContent strict rest = .ok (more, after)) :
    readContent strict (bs ++ rest) = .ok (String.utf8EncodeChar c ++ more, after) := by
  cases spelling with
  | letter known single =>
    obtain ⟨short, escape⟩ := readEscape_simple known rest
    rw [single]
    exact readContent_escape escape ok
  | unit low =>
    obtain ⟨short, escape⟩ := readEscape_unit low rest
    rw [encodeChar_small low]
    exact readContent_escape escape ok
  | plain plain => exact readContent_plains plain ok

def Printable (bs : Bytes) : Prop := ∀ b ∈ bs, 0x20 ≤ b.toNat

theorem simpleEscape?_high (known : simpleEscape? e = some b) : 0x20 ≤ e.toNat := by
  simp only [simpleEscape?] at known
  repeat' split at known
  all_goals cases known
  all_goals
    subst e
    decide

theorem digitByte_high {d : Nat} (small : d < 16) : 0x20 ≤ (Text.digitByte d).toNat := by
  have each : ∀ d, d < 16 → 0x20 ≤ (Text.digitByte d).toNat := by decide
  exact each d small

theorem Spelling.printable (spelling : Spelling c bs) : Printable bs := by
  intro b here
  cases spelling with
  | letter known single =>
    simp only [List.mem_cons, List.not_mem_nil, or_false] at here
    rcases here with rfl | rfl
    · decide
    · exact simpleEscape?_high known
  | unit low =>
    simp only [List.mem_cons, List.not_mem_nil, or_false] at here
    rcases here with rfl | rfl | rfl | rfl | rfl | rfl
    any_goals decide
    · exact digitByte_high (by omega)
    · exact digitByte_high (by omega)
  | plain plain => exact (plain b here).1

/-- The characters of a string as they are written between its quotes. -/
theorem readContent_escaped (cs : List Char) (rest : Bytes) :
    readContent strict (cs.flatMap escapeChar ++ 0x22 :: rest) =
      .ok (cs.flatMap String.utf8EncodeChar, rest) := by
  induction cs with
  | nil =>
    rw [List.flatMap_nil, List.nil_append, readContent, if_pos rfl]
    rfl
  | cons c cs ih =>
    rw [List.flatMap_cons, List.append_assoc]
    exact (spelling_escapeChar c).read ih

/-- A text is read back, whatever follows its closing quote. -/
theorem readText_escaped (s : String) (rest : Bytes) :
    readText (s.toList.flatMap escapeChar ++ 0x22 :: rest) = .ok (s, rest) := by
  have content : s.toList.flatMap String.utf8EncodeChar = Text.Utf8.encode s := rfl
  rw [readText, readContent_escaped, content]
  simp only [Text.Utf8.decode_encode]

end Logbook.Json
