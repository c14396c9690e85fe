import Logbook.Codec.Descriptor

/-!
A catalog of codecs by name. The last accepted descriptor of a name counts. A codec is made once
for each name and message type and shared until its name is registered again.
-/
namespace Logbook

/-- A codec that was handed out; two instances are the same when their numbers are. -/
structure CodecInstance where
  number : Nat
  codec : Codec
deriving DecidableEq, Repr

structure Registration where
  descriptor : Descriptor
  choice : Choice
  instances : List (MessageType × CodecInstance) := []
deriving DecidableEq

structure Catalog where
  registrations : List Registration := []
  nextInstance : Nat := 0
deriving DecidableEq

namespace Catalog

def find? (c : Catalog) (name : String) : Option Registration :=
  c.registrations.find? (·.descriptor.name = name)

/-- Puts a registration in the place of those with its name. -/
def put (c : Catalog) (r : Registration) : Catalog :=
  { c with registrations :=
      r :: c.registrations.filter (·.descriptor.name ≠ r.descriptor.name) }

/-- A descriptor that makes no valid choice leaves the catalog as it was. -/
def register (c : Catalog) (d : Descriptor) : Except ConfigFault Catalog := do
  let choice ← d.choice
  return c.put { descriptor := d, choice }

/-- A catalog with all descriptors, registered in their order, unless one is refused. -/
def ofDescriptors (ds : List Descriptor) : Except ConfigFault Catalog := ds.foldlM register {}

/-- The codec under a name for a message type, and the catalog that remembers it. -/
def get? (c : Catalog) (name : String) (t : MessageType) : Option (CodecInstance × Catalog) := do
  let r ← c.find? name
  match r.instances.lookup t with
  | some i => return (i, c)
  | none =>
    let i := ⟨c.nextInstance, ← r.choice.codec? t⟩
    let c := c.put { r with instances := (t, i) :: r.instances }
    return (i, { c with nextInstance := c.nextInstance + 1 })

def descriptor? (c : Catalog) (name : String) : Option Descriptor :=
  (c.find? name).map (·.descriptor)

/-- All names, in order. -/
def names (c : Catalog) : List String :=
  (c.registrations.map (·.descriptor.name)).mergeSort

end Catalog

end Logbook
