import Logbook.Argument

/-!
Control flags of a record. The set is closed: seven flags exist, and a byte with the eighth bit
is no set of flags.
-/
namespace Logbook

inductive Flag where
  | default | commit | poisonPill | eof | trace | user1 | user2
deriving DecidableEq, Repr

namespace Flag

/-- All flags, in the order of their bits. -/
def all : List Flag := [default, commit, poisonPill, eof, trace, user1, user2]

def bit : Flag → UInt8
  | default => 0x01
  | commit => 0x02
  | poisonPill => 0x04
  | eof => 0x08
  | trace => 0x10
  | user1 => 0x20
  | user2 => 0x40

def name : Flag → String
  | default => "Default"
  | commit => "Commit"
  | poisonPill => "PoisonPill"
  | eof => "Eof"
  | trace => "Trace"
  | user1 => "User1"
  | user2 => "User2"

def ofName? (s : String) : Option Flag :=
  all.find? (·.name == s)

end Flag

theorem or_and_distrib (a b c : UInt8) : (a ||| b) &&& c = (a &&& c) ||| (b &&& c) := by
  apply UInt8.eq_of_toBitVec_eq
  ext i
  simp [Bool.and_or_distrib_right]

/-- A set of flags as the byte of its bits. -/
structure Flags where
  bits : UInt8
  known : bits &&& 0x80 = 0
deriving DecidableEq

namespace Flags

def empty : Flags := ⟨0, rfl⟩

def ofBits (bits : UInt8) : Except ArgumentError Flags :=
  if h : bits &&& 0x80 = 0 then .ok ⟨bits, h⟩ else .error (.unknownFlags (bits &&& 0x80))

def insert (s : Flags) (f : Flag) : Flags where
  bits := s.bits ||| f.bit
  known := by
    have hf : f.bit &&& 0x80 = 0 := by cases f <;> rfl
    rw [or_and_distrib, s.known, hf]
    rfl

def remove (s : Flags) (f : Flag) : Flags where
  bits := s.bits &&& ~~~f.bit
  known := by
    rw [UInt8.and_assoc, UInt8.and_comm (~~~f.bit), ← UInt8.and_assoc, s.known, UInt8.zero_and]

def contains (s : Flags) (f : Flag) : Bool := s.bits &&& f.bit != 0

def isEmpty (s : Flags) : Bool := s.bits == 0

def ofList (fs : List Flag) : Flags := fs.foldl insert empty

/-- The flags of the set, in the order of their bits. -/
def toList (s : Flags) : List Flag := Flag.all.filter s.contains

/-- The set of a record that was just made. -/
def fresh : Flags := ofList [.default]

def describe (s : Flags) : String :=
  "\x7b" ++ ", ".intercalate (s.toList.map Flag.name) ++ "\x7d"

end Flags

end Logbook
