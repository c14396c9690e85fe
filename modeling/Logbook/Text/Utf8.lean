import Logbook.Bytes

/-!
UTF-8 with the place of the first fault: how many bytes before it are well formed, and how many
bytes the faulty sequence takes, or none when the text ends inside a character.
-/
namespace Logbook.Text.Utf8

def encode (s : String) : Bytes :=
  s.toList.flatMap String.utf8EncodeChar

structure Fault where
  validUpTo : Nat
  length : Option Nat
deriving DecidableEq, Repr

def isContinuation (b : UInt8) : Bool := 0x80 ≤ b && b < 0xc0

/-- The second bytes that may follow a lead byte of three or four bytes. -/
def secondRange (lead : UInt8) : UInt8 × UInt8 :=
  if lead = 0xe0 then (0xa0, 0xbf)
  else if lead = 0xed then (0x80, 0x9f)
  else if lead = 0xf0 then (0x90, 0xbf)
  else if lead = 0xf4 then (0x80, 0x8f)
  else (0x80, 0xbf)

def inRange (b : UInt8) (r : UInt8 × UInt8) : Bool := r.1 ≤ b && b ≤ r.2

/-- The character that starts with byte `b`, and the bytes after it; otherwise the length of the
faulty sequence, none when the bytes end too early. -/
def scalar (b : UInt8) (rest : Bytes) :
    Except (Option Nat) (Char × { r : Bytes // r.length ≤ rest.length }) :=
  if b < 0x80 then .ok (Char.ofNat b.toNat, ⟨rest, Nat.le_refl _⟩)
  else if 0xc2 ≤ b && b ≤ 0xdf then
    match rest with
    | [] => .error none
    | c :: r =>
      if !isContinuation c then .error (some 1)
      else .ok (Char.ofNat ((b.toNat - 0xc0) * 64 + (c.toNat - 0x80)), ⟨r, Nat.le_succ _⟩)
  else if 0xe0 ≤ b && b ≤ 0xef then
    match rest with
    | [] => .error none
    | c :: r₁ =>
      if !inRange c (secondRange b) then .error (some 1)
      else match r₁ with
        | [] => .error none
        | d :: r =>
          if !isContinuation d then .error (some 2)
          else .ok (Char.ofNat ((b.toNat - 0xe0) * 4096 + (c.toNat - 0x80) * 64 + (d.toNat - 0x80)),
            ⟨r, Nat.le_add_right _ 2⟩)
  else if 0xf0 ≤ b && b ≤ 0xf4 then
    match rest with
    | [] => .error none
    | c :: r₁ =>
      if !inRange c (secondRange b) then .error (some 1)
      else match r₁ with
        | [] => .error none
        | d :: r₂ =>
          if !isContinuation d then .error (some 2)
          else match r₂ with
            | [] => .error none
            | e :: r =>
              if !isContinuation e then .error (some 3)
              else .ok (Char.ofNat ((b.toNat - 0xf0) * 262144 + (c.toNat - 0x80) * 4096 +
                (d.toNat - 0x80) * 64 + (e.toNat - 0x80)),
                ⟨r, Nat.le_add_right _ 3⟩)
  else .error (some 1)

/-- Reads all characters; `start` counts the bytes read so far. -/
def decodeFrom (start : Nat) : Bytes → Except Fault (List Char)
  | [] => .ok []
  | b :: rest =>
    match scalar b rest with
    | .error length => .error ⟨start, length⟩
    | .ok (c, ⟨r, _⟩) => (decodeFrom (start + c.utf8Size) r).map (c :: ·)
termination_by bs => bs.length
decreasing_by simp only [List.length_cons]; omega

def decode (bs : Bytes) : Except Fault String :=
  (decodeFrom 0 bs).map String.ofList

def Fault.message (f : Fault) : String :=
  match f.length with
  | some n => s!"invalid utf-8 sequence of {n} bytes from index {f.validUpTo}"
  | none => s!"incomplete utf-8 byte sequence from index {f.validUpTo}"

end Logbook.Text.Utf8
