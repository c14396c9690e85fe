import Logbook.Codec.Choice

/-!
Descriptors: what a configuration says of one codec, a name, an implementation and options.
-/
namespace Logbook

structure Descriptor where
  name : String
  implementation : String
  options : Options := .empty
deriving DecidableEq

namespace Descriptor

/-- The choice that a descriptor stands for. A fault tells which codec it belongs to. -/
def choice (d : Descriptor) : Except ConfigFault Choice :=
  if d.name = "" then .error .emptyName
  else
    ((Implementation.parse d.implementation).bind (Choice.ofOptions · d.options)).mapError
      (.descriptor d.name)

def describe (d : Descriptor) : String :=
  let options := d.options.entries.map fun e => Text.quoted e.1 ++ ": " ++ Text.quoted e.2
  "CodecDescriptor \x7b name: " ++ Text.quoted d.name ++ ", implementation: " ++
    Text.quoted d.implementation ++ ", options: \x7b" ++ ", ".intercalate options ++ "\x7d \x7d"

/-- The codecs of an application that configures none. -/
def defaults : List Descriptor :=
  [{ name := "default", implementation := "binary" },
    { name := "binary", implementation := "binary" },
    { name := "message", implementation := "message" },
    { name := "json", implementation := "json" },
    { name := "record", implementation := "record" }]

end Descriptor

end Logbook
