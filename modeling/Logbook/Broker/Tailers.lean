import Logbook.Broker.Basic

/-!
Opening tailers through the broker. The store is asked in the middle of each opening, and other
operations may take place before it is asked and before its answer is taken in. Each opening is
therefore cut in three: what comes before, the call to the store, and what comes after.
-/
namespace Logbook.Broker

/-- A creation in progress: its number and what it was asked for. -/
structure Ticket where
  number : Nat
  group : String
  partitions : List Partition
  type : MessageType
  codec : Option Codec
deriving DecidableEq, Repr

def Ticket.keys (k : Ticket) : List GroupPartition := k.partitions.map (⟨k.group, ·⟩)

/-- The codec of a log's appender must be that of its tailers. -/
def checkCodec (b : Broker) (name : String) (codec : Option Codec) : Outcome Unit :=
  match b.codecOf? name with
  | none => .ok ()
  | some existing =>
    if sameIdentity (some existing) codec then .ok ()
    else .error (.codecMismatch name (some existing.identity) (codec.map Codec.identity))

/-- Every log exists and agrees on the codec. -/
def checkLogs (b : Broker) (codec : Option Codec) : List String → Outcome Unit
  | [] => .ok ()
  | name :: rest => do
    if !b.store.contains name then throw (.unknownLog name)
    b.checkCodec name codec
    b.checkLogs codec rest

/-- The checks that come before a number is drawn. -/
def checkRequest (b : Broker) (group : String) (partitions : List Partition) : Outcome Unit := do
  b.checkOpen
  (b.limits.checkGroupName group).mapError .argument
  (b.limits.checkTailerAssignment partitions.length).mapError .argument

/-- Gives the keys of a creation back. -/
def abandon (b : Broker) (k : Ticket) : Broker :=
  { b with ownership := b.ownership.release k.number k.keys }

/-- Begins the creation of a tailer: draws a number and reserves the partitions, each of them once,
unless one of them belongs to another tailer of the group. -/
def beginTailer (b : Broker) (group : String) (partitions : List Partition) (type : MessageType)
    (codec : Option Codec) : Outcome Ticket × Broker :=
  match b.checkRequest group partitions with
  | .error e => (.error e, b)
  | .ok () =>
    let k : Ticket := ⟨b.nextNumber, group, partitions.eraseDups, type, codec⟩
    let isClosed := b.store.isClosedTailer
    let ownership := b.ownership.prune isClosed
    let b := { b with nextNumber := b.nextNumber + 1, ownership }
    match ownership.taken? isClosed k.keys with
    | some key => (.error (.alreadyAssigned key), b)
    | none =>
      let b := { b with ownership := ownership.reserve k.number k.keys }
      match b.checkLogs codec (k.partitions.map (·.log)).eraseDups with
      | .error e => (.error e, b.abandon k)
      | .ok () => (.ok k, b)

/-- Asks the store for the tailer of a creation in progress. -/
def askTailer (b : Broker) (k : Ticket) : Outcome TailerRef × Broker :=
  let (answer, store) := b.store.createTailer k.group k.partitions k.type k.codec
  (answer, { b with store })

/-- Closes a tailer that was opened while the broker was being closed. -/
def discard (b : Broker) (r : TailerRef) : Outcome TailerRef × Broker :=
  (.error (.closed .manager), { b with store := (b.store.closeTailer r).2 })

/-- Ends a creation with the store's answer: hands the tailer out, or gives the keys back. -/
def finishTailer (b : Broker) (k : Ticket) : Outcome TailerRef → Outcome TailerRef × Broker
  | .error e => (.error e, b.abandon k)
  | .ok r =>
    let b := { b with ownership := b.ownership.activate k.number r }
    if b.closed then b.discard r else (.ok r, b)

/-- A creation during which nothing else takes place. -/
def createTailer (b : Broker) (group : String) (partitions : List Partition) (type : MessageType)
    (codec : Option Codec) : Outcome TailerRef × Broker :=
  match b.beginTailer group partitions type codec with
  | (.error e, b) => (.error e, b)
  | (.ok k, b) =>
    let (answer, b) := b.askTailer k
    b.finishTailer k answer

/-- The checks before the store is asked to subscribe. -/
def checkSubscribe (b : Broker) (group : String) : Outcome Unit := do
  b.checkOpen
  if !b.store.config.canSubscribe then throw .subscribeUnsupported
  (b.limits.checkGroupName group).mapError .argument

/-- Asks the store for a subscribed tailer. -/
def askSubscribe (b : Broker) (group : String) (names : List String) (type : MessageType)
    (codec : Option Codec) : Outcome (TailerRef × Broker) := do
  let (r, store) ← b.store.subscribe group names type codec
  return (r, { b with store })

/-- Ends a subscription with the store's answer. -/
def finishSubscribe (b : Broker) : Outcome TailerRef → Outcome TailerRef × Broker
  | .error e => (.error e, b)
  | .ok r =>
    let ownership := (b.ownership.prune b.store.isClosedTailer).track b.nextNumber r
    let b := { b with ownership, nextNumber := b.nextNumber + 1 }
    if b.closed then b.discard r else (.ok r, b)

/-- A subscription during which nothing else takes place. -/
def subscribe (b : Broker) (group : String) (names : List String) (type : MessageType)
    (codec : Option Codec) : Outcome TailerRef × Broker :=
  match b.checkSubscribe group with
  | .error e => (.error e, b)
  | .ok () =>
    match b.askSubscribe group names type codec with
    | .error e => (.error e, b)
    | .ok (r, b) => b.finishSubscribe (.ok r)

end Logbook.Broker
