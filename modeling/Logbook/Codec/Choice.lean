import Logbook.Codec.Basic
import Logbook.Codec.Options
import Logbook.Text.Lowercase

/-!
Choosing a codec: an implementation, known under several names, and options that it must
understand. The choice yields a codec for every message type that the implementation can carry.
-/
namespace Logbook

inductive Implementation where
  | binary | message | json | record
deriving DecidableEq, Repr

/-- Why a codec cannot be configured. -/
inductive ConfigFault where
  | unknownImplementation (name : String)
  | prettyNotBoolean (value : String)
  | unsupportedOption (option : String) (implementation : Implementation)
  | emptySchema
  | emptyName
  | descriptor (name : String) (cause : ConfigFault)
deriving DecidableEq, Repr

namespace Implementation

def name : Implementation → String
  | binary => "binary"
  | message => "message"
  | json => "json"
  | record => "record"

def describe : Implementation → String
  | binary => "Binary"
  | message => "Message"
  | json => "Json"
  | record => "Record"

/-- The implementation with a name in lower case. -/
def ofLowercase? (s : String) : Option Implementation :=
  if s = "binary" ∨ s = "bincode" ∨ s = "native" then some binary
  else if s = "message" ∨ s = "framed" then some message
  else if s = "json" ∨ s = "text" then some json
  else if s = "record" then some record
  else none

/-- Letter case does not matter; a name that is not known is reported in lower case. -/
def parse (s : String) : Except ConfigFault Implementation :=
  let s := Text.lowercase s
  match ofLowercase? s with
  | some i => .ok i
  | none => .error (.unknownImplementation s)

end Implementation

namespace ConfigFault

mutual

/-- The cause alone. -/
def message : ConfigFault → String
  | unknownImplementation name => "unknown codec implementation: " ++ name
  | prettyNotBoolean value => "option pretty must be a boolean, got " ++ Text.quoted value
  | unsupportedOption option i => s!"option {option} is not supported by the {i.name} codec"
  | emptySchema => "option schema must not be empty"
  | emptyName => "codec name must not be empty"
  | descriptor name cause => "codec " ++ name ++ ": " ++ cause.report

/-- The cause under the heading of all configuration faults. -/
def report (f : ConfigFault) : String := "invalid codec configuration: " ++ f.message

end

end ConfigFault

/-- An implementation with checked options. -/
structure Choice where
  implementation : Implementation
  pretty : Bool
  schema : Option String
deriving DecidableEq, Repr

namespace Choice

/-- The pretty option, which only JSON understands. -/
def readPretty (i : Implementation) : Option String → Except ConfigFault Bool
  | none => .ok false
  | some value =>
    if i ≠ .json then .error (.unsupportedOption "pretty" i)
    else if value = "true" then .ok true
    else if value = "false" then .ok false
    else .error (.prettyNotBoolean value)

/-- The schema option, which only framed messages understand and which is never empty. -/
def readSchema (i : Implementation) : Option String → Except ConfigFault (Option String)
  | none => .ok none
  | some value =>
    if value = "" then .error .emptySchema
    else if i = .message then .ok (some value)
    else .error (.unsupportedOption "schema" i)

/-- Options under other keys are of no consequence. -/
def ofOptions (i : Implementation) (options : Options) : Except ConfigFault Choice := do
  let pretty ← readPretty i (options.get? "pretty")
  let schema ← readSchema i (options.get? "schema")
  return { implementation := i, pretty, schema }

/-- The codec for a message type; the fixed layout carries only records. -/
def codec? (c : Choice) (t : MessageType) : Option Codec :=
  match c.implementation with
  | .binary => some .binary
  | .message => some (.frame (c.schema.getD t.schema))
  | .json => some (.json (if c.pretty then .pretty else .compact))
  | .record => if t.isRecord then some .fixed else none

def describe (c : Choice) : String :=
  let schema := match c.schema with
    | some s => "Some(" ++ Text.quoted s ++ ")"
    | none => "None"
  s!"CodecFactory \x7b kind: {c.implementation.describe}, pretty: {c.pretty}, schema: " ++
    schema ++ " \x7d"

end Choice

end Logbook
