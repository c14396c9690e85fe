import Logbook.Bytes

/-!
Files and how a path finds them. A path is walked name by name from the root; what stops the walk
first decides about the failure.
-/
namespace Logbook

inductive FileTree where
  | file (content : Bytes)
  | directory (entries : List (String × FileTree))

/-- Why a file has no text to read. -/
inductive FileFault where
  | zeroByte
  | absent
  | notDirectory
  | isDirectory
  | nameTooLong
  | notText
deriving DecidableEq, Repr

/-- The wording, with the number that the system gives a failed call. -/
def FileFault.message : FileFault → String
  | zeroByte => "file name contained an unexpected NUL byte"
  | absent => "No such file or directory (os error 2)"
  | notDirectory => "Not a directory (os error 20)"
  | isDirectory => "Is a directory (os error 21)"
  | nameTooLong => "File name too long (os error 36)"
  | notText => "stream did not contain valid UTF-8"

namespace FileTree

/-- The longest name, in bytes. -/
def nameMax : Nat := 255

/-- The longest path, in bytes. -/
def pathMax : Nat := 4095

/-- Walks along names, given the directories above, the innermost first. An empty name and a point
stay, two points go up, and nothing is above the root. -/
def walk (above : List FileTree) (here : FileTree) : List String → Except FileFault FileTree
  | [] => .ok here
  | name :: rest =>
    match here with
    | file _ => .error .notDirectory
    | directory entries =>
      if name = "" ∨ name = "." then walk above here rest
      else if name = ".." then
        match above with
        | [] => walk [] here rest
        | up :: above => walk above up rest
      else if nameMax < name.utf8ByteSize then .error .nameTooLong
      else match entries.lookup name with
        | some next => walk (here :: above) next rest
        | none => .error .absent

/-- The names of a path. One that does not start at the root goes on from the directory `base`. -/
def names (base path : String) : List String :=
  if path.startsWith "/" then path.splitOn "/" else base.splitOn "/" ++ path.splitOn "/"

/-- The content of the file at a path. -/
def read (root : FileTree) (base path : String) : Except FileFault Bytes :=
  if path.contains '\x00' then .error .zeroByte
  else if path = "" then .error .absent
  else if pathMax < path.utf8ByteSize then .error .nameTooLong
  else match walk [] root (names base path) with
    | .error e => .error e
    | .ok (file content) => .ok content
    | .ok (directory _) => .error .isDirectory

end FileTree

end Logbook
