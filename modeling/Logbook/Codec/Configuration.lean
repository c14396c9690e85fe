import Logbook.Codec.Descriptor
import Logbook.FileTree
import Logbook.Toml.Document

/-!
Configurations: lists of descriptors, written as TOML documents. Reading looks only at the keys it
knows and reports the first value, in the order of the document, that has no fitting type.
-/
namespace Logbook

/-- Why a document is no configuration. -/
inductive DocumentFault where
  | unreadable (cause : Toml.Fault)
  | mismatch (found : Toml.Value) (expected : String)
  | missingField (name : String)
  | tooFewFields (count : Nat)

namespace DocumentFault

/-- What is missing or out of place, or which keys are in conflict. -/
def detail? : DocumentFault → Option String
  | mismatch found expected =>
    some ("invalid type: " ++ found.describe ++ ", expected " ++ expected)
  | missingField name => some ("missing field `" ++ name ++ "`")
  | unreadable cause => cause.conflict?
  | tooFewFields _ => none

end DocumentFault

/-- Why a file gives no configuration. -/
inductive LoadFault where
  | file (cause : FileFault)
  | document (cause : DocumentFault)

/-- How a file that cannot be read is reported. -/
def FileFault.report (f : FileFault) (path : String) : String :=
  "failed to read codec configuration from " ++ path ++ ": " ++ f.message

namespace Configuration

open Toml (Value Entries)

/-- The key under which a date shows its text where a table is expected. -/
def momentKey : String := "$__toml_private_datetime"

/-- The entries of a table; a date counts as a table with one text. -/
def entries? : Value → Option Entries
  | .table _ es => some es
  | .moment m => some [(momentKey, .text m.render)]
  | _ => none

def items? : Value → Option (List Value)
  | .array vs => some vs
  | .tables elements => some (elements.map (.table .header))
  | _ => none

def readText : Value → Except DocumentFault String
  | .text s => .ok s
  | v => .error (.mismatch v "a string")

def readOptions (v : Value) : Except DocumentFault Options :=
  match entries? v with
  | none => .error (.mismatch v "a map")
  | some es => do
    return Options.ofList (← es.mapM fun e => return (e.1, ← readText e.2))

/-- The fields of a descriptor that were read so far. -/
structure Fields where
  name : Option String := none
  implementation : Option String := none
  options : Option Options := none

def Fields.read (fs : Fields) (e : String × Value) : Except DocumentFault Fields := do
  if e.1 = "name" then return { fs with name := some (← readText e.2) }
  else if e.1 = "implementation" then return { fs with implementation := some (← readText e.2) }
  else if e.1 = "options" then return { fs with options := some (← readOptions e.2) }
  else return fs

/-- Only the options may be left out. -/
def Fields.descriptor (fs : Fields) : Except DocumentFault Descriptor := do
  let some name := fs.name | throw (.missingField "name")
  let some implementation := fs.implementation | throw (.missingField "implementation")
  return { name, implementation, options := fs.options.getD .empty }

/-- A descriptor as the list of its fields; what follows the third is of no consequence. -/
def readTuple : List Value → Except DocumentFault Descriptor
  | name :: implementation :: rest => do
    let name ← readText name
    let implementation ← readText implementation
    match rest with
    | [] => return { name, implementation }
    | options :: _ => return { name, implementation, options := ← readOptions options }
  | [name] => do
    let _ ← readText name
    throw (.tooFewFields 1)
  | [] => throw (.tooFewFields 0)

/-- A descriptor as a table, or as an array of its fields. -/
def readDescriptor (v : Value) : Except DocumentFault Descriptor :=
  match entries? v, items? v with
  | some es, _ => (es.foldlM Fields.read {}).bind Fields.descriptor
  | none, some vs => readTuple vs
  | none, none => .error (.mismatch v "struct CodecDescriptor")

/-- The descriptors of a document, which stand in an array under one key. -/
def read (document : String) : Except DocumentFault (List Descriptor) :=
  match Toml.readDocument document with
  | .error cause => .error (.unreadable cause)
  | .ok es =>
    match es.lookup "codec" with
    | none => .ok []
    | some v =>
      match items? v with
      | none => .error (.mismatch v "a sequence")
      | some vs => vs.mapM readDescriptor

/-- The descriptors in the content of a file. -/
def ofContent (content : Bytes) : Except LoadFault (List Descriptor) :=
  match Text.Utf8.decode content with
  | .error _ => .error (.file .notText)
  | .ok document => (read document).mapError .document

/-- The descriptors in the file at a path. -/
def ofFile (root : FileTree) (base path : String) : Except LoadFault (List Descriptor) :=
  match root.read base path with
  | .error e => .error (.file e)
  | .ok content => ofContent content

/-- A descriptor with its options in the order of writing. -/
structure Section where
  name : String
  implementation : String
  options : List (String × String)
deriving DecidableEq, Repr

def Section.of (d : Descriptor) : Section := ⟨d.name, d.implementation, d.options.entries⟩

def writePair (key value : String) : List Char :=
  Toml.writeKey key.toList ++ " = ".toList ++ Toml.writeString value.toList ++ ['\n']

/-- One table for the descriptor and one, perhaps empty, for its options. -/
def Section.write (s : Section) : List Char :=
  "[[codec]]\n".toList ++ writePair "name" s.name ++ writePair "implementation" s.implementation ++
    "\n[codec.options]\n".toList ++ s.options.flatMap fun e => writePair e.1 e.2

/-- Sections with an empty line between them; a document without any still has the key. -/
def render (sections : List Section) : String :=
  if sections.isEmpty then "codec = []\n"
  else String.ofList (['\n'].intercalate (sections.map Section.write))

/-- The texts of a section other than its keys, in whose forms quotes are not counted. -/
def Section.texts (s : Section) : List String := s.name :: s.implementation :: s.options.map (·.2)

/-- Why a configuration is not written: a text has more quotes in a row than the writer counts. -/
inductive WriteFault where
  | quoteOverflow
deriving DecidableEq, Repr

def WriteFault.message : WriteFault → String
  | quoteOverflow => "attempt to add with overflow"

/-- The document of a configuration. -/
def write (sections : List Section) : Except WriteFault String :=
  let texts := sections.flatMap Section.texts
  if texts.all fun text => (Toml.Shape.of text.toList).isCountable then .ok (render sections)
  else .error .quoteOverflow

end Configuration

end Logbook
