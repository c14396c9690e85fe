/-!
Counters that number tailers, group members and group generations.
-/
namespace Logbook

inductive CounterKind where
  | tailer | member | generation
deriving DecidableEq, Repr

def CounterKind.label : CounterKind → String
  | tailer => "tailer"
  | member => "member"
  | generation => "gen"

structure Counter (kind : CounterKind) where
  value : Nat
deriving DecidableEq, Repr

namespace Counter

variable {kind : CounterKind}

def display (c : Counter kind) : String := s!"{kind.label}-{c.value}"

def describe (c : Counter kind) : String := s!"{kind.label}({c.value})"

/-- A counter ends at the last 64-bit word. -/
def next? (c : Counter kind) : Option (Counter kind) :=
  if c.value < 0xffffffffffffffff then some ⟨c.value + 1⟩ else none

/-- The counter after `n` steps. -/
def advance? : Nat → Counter kind → Option (Counter kind)
  | 0, c => some c
  | n + 1, c => c.next?.bind (advance? n)

end Counter

/-- Why counting stops at the top. -/
def counterOverflow : String := "ID overflow"

end Logbook
