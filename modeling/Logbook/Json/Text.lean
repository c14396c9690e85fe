import Logbook.Json.Fault
import Logbook.Text.Utf8

/-!
JSON strings. Strict reading refuses control characters and unpaired surrogates; lenient reading
keeps all bytes and writes an unpaired surrogate as three bytes.
-/
namespace Logbook.Json

def hexValue? (b : UInt8) : Option Nat :=
  if 0x30 ≤ b && b ≤ 0x39 then some (b.toNat - 0x30)
  else if 0x61 ≤ b && b ≤ 0x66 then some (b.toNat - 0x57)
  else if 0x41 ≤ b && b ≤ 0x46 then some (b.toNat - 0x37)
  else none

/-- Four hexadecimal digits. -/
def hexUnit? (a b c d : UInt8) : Option Nat := do
  return ((← hexValue? a) * 4096 + (← hexValue? b) * 256) + ((← hexValue? c) * 16 + (← hexValue? d))

/-- The bytes of a code point; surrogates take three bytes as well. -/
def codePointBytes (n : Nat) : Bytes :=
  if n < 0x80 then [n.toUInt8]
  else if n < 0x800 then [(0xc0 + n / 64).toUInt8, (0x80 + n % 64).toUInt8]
  else if n < 0x10000 then
    [(0xe0 + n / 4096).toUInt8, (0x80 + n / 64 % 64).toUInt8, (0x80 + n % 64).toUInt8]
  else
    [(0xf0 + n / 262144).toUInt8, (0x80 + n / 4096 % 64).toUInt8, (0x80 + n / 64 % 64).toUInt8,
      (0x80 + n % 64).toUInt8]

/-- The byte that a one-letter escape stands for. -/
def simpleEscape? (b : UInt8) : Option UInt8 :=
  if b = 0x22 then some 0x22
  else if b = 0x5c then some 0x5c
  else if b = 0x2f then some 0x2f
  else if b = 0x62 then some 0x08
  else if b = 0x66 then some 0x0c
  else if b = 0x6e then some 0x0a
  else if b = 0x72 then some 0x0d
  else if b = 0x74 then some 0x09
  else none

/-- The bytes after a hexadecimal escape's `u`: its unit and the rest. -/
def readUnit (bs : Bytes) : Except Fault (Nat × { r : Bytes // r.length ≤ bs.length }) :=
  match bs with
  | a :: b :: c :: d :: rest =>
    match hexUnit? a b c d with
    | some n => .ok (n, ⟨rest, Nat.le_add_right _ 4⟩)
    | none => .error .escape
  | _ => .error .endInString

def isLeading (n : Nat) : Bool := 0xd800 ≤ n && n ≤ 0xdbff

def isTrailing (n : Nat) : Bool := 0xdc00 ≤ n && n ≤ 0xdfff

/-- What the unit `n` and the text after it stand for: a leading surrogate needs its partner. -/
def readUnits (strict : Bool) (n : Nat) (bs : Bytes) :
    Except Fault (Bytes × { r : Bytes // r.length ≤ bs.length }) :=
  if !isLeading n then .ok (codePointBytes n, ⟨bs, Nat.le_refl _⟩)
  else match bs with
    | [] => .error .endInString
    | b :: r₁ =>
      if b ≠ 0x5c then
        if strict then .error .hexEscapeEnd else .ok (codePointBytes n, ⟨b :: r₁, Nat.le_refl _⟩)
      else match r₁ with
        | [] => .error .endInString
        | c :: r₂ =>
          if c ≠ 0x75 then
            if strict then .error .hexEscapeEnd
            else match simpleEscape? c with
              | some e => .ok (codePointBytes n ++ [e], ⟨r₂, Nat.le_add_right _ 2⟩)
              | none => .error .escape
          else match readUnit r₂ with
            | .error f => .error f
            | .ok (n₂, ⟨r₃, h₃⟩) =>
              if isTrailing n₂ then
                .ok (codePointBytes (0x10000 + (n - 0xd800) * 1024 + (n₂ - 0xdc00)),
                  ⟨r₃, Nat.le_trans h₃ (Nat.le_add_right _ 2)⟩)
              else if strict then .error .loneSurrogate
              else match readUnits strict n₂ r₃ with
                | .error f => .error f
                | .ok (more, ⟨r₄, h₄⟩) =>
                  .ok (codePointBytes n ++ more, ⟨r₄, Nat.le_trans (Nat.le_trans h₄ h₃) (Nat.le_add_right _ 2)⟩)
termination_by bs.length
decreasing_by simp only [List.length_cons]; omega

/-- What an escape stands for, given the text after its backslash. -/
def readEscape (strict : Bool) (bs : Bytes) :
    Except Fault (Bytes × { r : Bytes // r.length ≤ bs.length }) :=
  match bs with
  | [] => .error .endInString
  | b :: rest =>
    if b = 0x75 then
      match readUnit rest with
      | .error f => .error f
      | .ok (n, ⟨r₁, h₁⟩) =>
        if strict && isTrailing n then .error .loneSurrogate
        else match readUnits strict n r₁ with
          | .error f => .error f
          | .ok (content, ⟨r₂, h₂⟩) => .ok (content, ⟨r₂, Nat.le_trans (Nat.le_trans h₂ h₁) (Nat.le_succ _)⟩)
    else match simpleEscape? b with
      | some e => .ok ([e], ⟨rest, (List.sublist_cons_self b rest).length_le⟩)
      | none => .error .escape

/-- The content of a string up to its closing quote, and the rest after the quote. -/
def readContent (strict : Bool) (bs : Bytes) : Reading Bytes :=
  match bs with
  | [] => .error .endInString
  | b :: rest =>
    if b = 0x22 then .ok ([], rest)
    else if b = 0x5c then
      match readEscape strict rest with
      | .error f => .error f
      | .ok (content, ⟨r, _⟩) =>
        match readContent strict r with
        | .error f => .error f
        | .ok (more, after) => .ok (content ++ more, after)
    else if strict && b < 0x20 then .error .control
    else match readContent strict rest with
      | .error f => .error f
      | .ok (more, after) => .ok (b :: more, after)
termination_by bs.length
decreasing_by all_goals (simp only [List.length_cons]; omega)

/-- A string, given the text after its opening quote. -/
def readText (bs : Bytes) : Reading String :=
  match readContent true bs with
  | .error f => .error f
  | .ok (content, rest) =>
    match Text.Utf8.decode content with
    | .ok s => .ok (s, rest)
    | .error _ => .error .unicode

/-- Passes over a string whose content is not needed: escapes are checked, but neither UTF-8 nor
the pairing of surrogates. -/
def skipText : Bytes → Except Fault Bytes
  | [] => .error .endInString
  | b :: rest =>
    if b = 0x22 then .ok rest
    else if b = 0x5c then
      match rest with
      | [] => .error .endInString
      | e :: r =>
        if e = 0x75 then
          match r with
          | a :: b :: c :: d :: r' =>
            if (hexUnit? a b c d).isSome then skipText r' else .error .escape
          | _ => .error .endInString
        else if (simpleEscape? e).isSome then skipText r
        else .error .escape
    else if b < 0x20 then .error .control
    else skipText rest

/-- A character inside a written string. -/
def escapeChar (c : Char) : Bytes :=
  if c = '"' then [0x5c, 0x22]
  else if c = '\\' then [0x5c, 0x5c]
  else if c.toNat = 0x08 then [0x5c, 0x62]
  else if c.toNat = 0x0c then [0x5c, 0x66]
  else if c = '\n' then [0x5c, 0x6e]
  else if c = '\r' then [0x5c, 0x72]
  else if c = '\t' then [0x5c, 0x74]
  else if c.toNat < 0x20 then
    [0x5c, 0x75, 0x30, 0x30] ++
      (Text.padLeft 2 (Text.digitsInto 16 c.toNat [])).flatMap String.utf8EncodeChar
  else String.utf8EncodeChar c

/-- A string with its quotes; only what must be escaped is. -/
def writeText (s : String) : Bytes :=
  0x22 :: s.toList.flatMap escapeChar ++ [0x22]

end Logbook.Json
