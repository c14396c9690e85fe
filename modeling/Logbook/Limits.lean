import Logbook.Argument
import Logbook.Text.Quoted

/-!
Limits on names, partition counts and assignments, and the checks that apply them.
-/
namespace Logbook

structure Limits where
  logPartitionsMax : Nat := 1024
  logNameLengthMax : Nat := 249
  groupNameLengthMax : Nat := 249
  tailerPartitionsMax : Nat := 4096
deriving DecidableEq, Repr

namespace Limits

def validate (l : Limits) : Except ArgumentError Unit := do
  if l.logPartitionsMax = 0 then throw (.invalid "log_partitions_max" "must be positive")
  if l.logNameLengthMax = 0 ∨ l.groupNameLengthMax = 0 then
    throw (.invalid "name_length_max" "must be positive")
  if l.tailerPartitionsMax = 0 then throw (.invalid "tailer_partitions_max" "must be positive")

/-- Names are made of ASCII letters and digits, hyphens, underscores and dots. -/
def isNameChar (c : Char) : Bool := c.isAlphanum || c == '-' || c == '_' || c == '.'

/-- Checks a name; its length is counted in bytes. -/
def checkName (kind name : String) (max : Nat) : Except ArgumentError Unit :=
  if name.isEmpty then .error (.invalid kind "must not be empty")
  else if max < name.utf8ByteSize then
    .error (.limitExceeded "name_length_max" max name.utf8ByteSize)
  else match name.toList.find? (!isNameChar ·) with
    | some c =>
      .error (.invalid kind
        ("invalid character " ++ Text.quotedChar c ++ " in " ++ Text.quoted name))
    | none => .ok ()

def checkLogName (l : Limits) (name : String) : Except ArgumentError Unit :=
  checkName "log_name" name l.logNameLengthMax

def checkGroupName (l : Limits) (group : String) : Except ArgumentError Unit :=
  checkName "group" group l.groupNameLengthMax

def checkPartitionCount (l : Limits) (count : Nat) : Except ArgumentError Unit :=
  if count = 0 then .error (.invalid "partitions" "must be positive")
  else if l.logPartitionsMax < count then
    .error (.limitExceeded "log_partitions_max" l.logPartitionsMax count)
  else .ok ()

def checkTailerAssignment (l : Limits) (count : Nat) : Except ArgumentError Unit :=
  if count = 0 then .error (.invalid "partitions" "a tailer needs at least one partition")
  else if l.tailerPartitionsMax < count then
    .error (.limitExceeded "tailer_partitions_max" l.tailerPartitionsMax count)
  else .ok ()

end Limits

end Logbook
