import Logbook.Flags
import Logbook.Text.Quoted

/-!
Records: a key, opaque data, a watermark and control flags.
-/
namespace Logbook

structure Record where
  key : String := ""
  data : Bytes := []
  watermark : UInt64 := 0
  flags : Flags := .fresh
deriving DecidableEq

namespace Record

/-- The record after which a tailer stops reading a partition. -/
def poisonPill : Record := { flags := .ofList [.poisonPill] }

/-- A record made at a time, counted in milliseconds. -/
def stamped (time : UInt64) (key : String) (data : Bytes) : Record :=
  { key, data, watermark := time }

def addFlag (r : Record) (f : Flag) : Record := { r with flags := r.flags.insert f }

def hasFlag (r : Record) (f : Flag) : Bool := r.flags.contains f

def isPoisonPill (r : Record) : Bool := r.hasFlag .poisonPill

/-- The bytes of the fixed layout: two lengths, key, data, watermark and flags. -/
def size (r : Record) : Nat := 4 + r.key.utf8ByteSize + 4 + r.data.length + 8 + 1

def describe (r : Record) : String :=
  "Record \x7b key: " ++ Text.quoted r.key ++ ", data: " ++ Text.quotedBytes r.data ++
    s!", watermark: {r.watermark}, flags: " ++ r.flags.describe ++ " \x7d"

end Record

end Logbook
