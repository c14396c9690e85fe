import Logbook.Record

/-!
Messages and their types. A type fixes the schema name, the layout (a record or a text) and
whether the fixed record layout applies.
-/
namespace Logbook

inductive Message where
  | record (r : Record)
  | text (s : String)
deriving DecidableEq

/-- A poison pill ends the reading of its partition; only a record can be one. -/
def Message.isPoisonPill : Message → Bool
  | record r => r.isPoisonPill
  | text _ => false

/-- Records, texts, and texts under a type name of their own. -/
inductive MessageType where
  | record
  | string
  | named (path : String)
deriving DecidableEq, Repr

namespace MessageType

/-- The schema that framed messages of the type are bound to. -/
def schema : MessageType → String
  | record => "strand.Record"
  | string => "string"
  | named path => path

/-- How diagnostics name the type. -/
def typeName : MessageType → String
  | record => "strand_core::record::Record"
  | string => "alloc::string::String"
  | named path => path

def isRecord : MessageType → Bool
  | record => true
  | _ => false

/-- The messages of a type. -/
def Admits : MessageType → Message → Prop
  | record, .record _ => True
  | string, .text _ => True
  | named _, .text _ => True
  | _, _ => False

instance (t : MessageType) (m : Message) : Decidable (t.Admits m) := by
  cases t <;> cases m <;> simp only [Admits] <;> infer_instance

end MessageType

end Logbook
