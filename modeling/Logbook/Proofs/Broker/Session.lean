import Logbook.Proofs.Broker.Calls

/-! Sessions: a broker with the calls that are in progress and the tailers that it has handed out.
Any operation can come in while a call is in progress, be it of the broker or of the store. -/
namespace Logbook.Broker

/-- How far a call for a tailer has come: the store is about to be asked, or has answered. -/
inductive Call where
  | creating (k : Ticket)
  | created (k : Ticket) (answer : Outcome TailerRef)
  | subscribing (group : String) (names : List String) (type : MessageType) (codec : Option Codec)
  | subscribed (answer : Outcome TailerRef)

def Call.ticket? : Call → Option Ticket
  | creating k | created k _ => some k
  | _ => none

structure Session where
  broker : Broker
  calls : List Call := []
  explicit : List TailerRef := []
  subscribed : List TailerRef := []

/-- What can happen in a session. A call for a tailer is begun, asks the store, and is finished; what
is done with tailers and appenders, and what others do to the store, are actions of the store. -/
inductive Operation where
  | create (name : String) (size : Nat)
  | delete (name : String)
  | appender (name : String) (type : MessageType) (codec : Option Codec)
  | createTailer (group : String) (partitions : List Partition) (type : MessageType)
      (codec : Option Codec)
  | subscribe (group : String) (names : List String) (type : MessageType) (codec : Option Codec)
  | ask (i : Nat)
  | finish (i : Nat)
  | close
  | store (a : Store.Action)

def handOut (handed : List TailerRef) : Outcome TailerRef → List TailerRef
  | .ok r => handed ++ [r]
  | .error _ => handed

namespace Session

def start (config : StoreConfig) (limits : Limits) : Session :=
  { broker := { store := { config }, limits } }

def tickets (x : Session) : List Ticket := x.calls.filterMap Call.ticket?

def ask (x : Session) (i : Nat) : Session :=
  match x.calls[i]? with
  | some (.creating k) =>
    let (answer, broker) := x.broker.askTailer k
    { x with broker, calls := x.calls.set i (.created k answer) }
  | some (.subscribing group names type codec) =>
    let answer := x.broker.askSubscribe group names type codec
    { x with broker := x.broker.settle answer,
             calls := x.calls.set i (.subscribed (answer.map (·.1))) }
  | _ => x

def finish (x : Session) (i : Nat) : Session :=
  match x.calls[i]? with
  | some (.created k answer) =>
    let (outcome, broker) := x.broker.finishTailer k answer
    { x with broker, calls := x.calls.eraseIdx i, explicit := handOut x.explicit outcome }
  | some (.subscribed answer) =>
    let (outcome, broker) := x.broker.finishSubscribe answer
    { x with broker, calls := x.calls.eraseIdx i, subscribed := handOut x.subscribed outcome }
  | _ => x

def act (x : Session) : Operation → Session
  | .create name size => { x with broker := x.broker.settle (x.broker.createIfMissing name size) }
  | .delete name => { x with broker := x.broker.settle (x.broker.delete name) }
  | .appender name type codec =>
    { x with broker := x.broker.settle (x.broker.appender name type codec) }
  | .createTailer group partitions type codec =>
    match x.broker.beginTailer group partitions type codec with
    | (.ok k, broker) => { x with broker, calls := x.calls ++ [.creating k] }
    | (.error _, broker) => { x with broker }
  | .subscribe group names type codec =>
    match x.broker.checkSubscribe group with
    | .ok () => { x with calls := x.calls ++ [.subscribing group names type codec] }
    | .error _ => x
  | .ask i => x.ask i
  | .finish i => x.finish i
  | .close => { x with broker := x.broker.close.2 }
  | .store a => { x with broker.store := x.broker.store.act a }

def run (x : Session) (ops : List Operation) : Session := ops.foldl act x

theorem run_concat (x : Session) (ops : List Operation) (op : Operation) :
    x.run (ops ++ [op]) = (x.run ops).act op := List.foldl_concat ..

/-- A broker gets a new appender only when it is asked for one. -/
theorem act_keeps (x : Session) {op : Operation}
    (other : ∀ name type codec, op ≠ .appender name type codec) :
    Keeps x.broker (x.act op).broker := by
  cases op with
  | appender name type codec => exact absurd rfl (other name type codec)
  | create name size => exact (stays_create _ _ _).toKeeps
  | delete name => exact (stays_delete _ _).toKeeps
  | store a => exact (stays_store _ [a]).toKeeps
  | createTailer group partitions type codec =>
    have keeps := keeps_beginTailer x.broker group partitions type codec
    simp only [act]
    generalize x.broker.beginTailer group partitions type codec = result at keeps ⊢
    obtain ⟨outcome, b⟩ := result
    cases outcome <;> exact keeps
  | subscribe group names type codec =>
    simp only [act]
    cases x.broker.checkSubscribe group <;> exact .same rfl rfl
  | ask i =>
    simp only [act, ask]
    split
    · exact (stays_askTailer _ _).toKeeps
    · exact (stays_askSubscribe _ _ _ _ _).toKeeps
    · exact .same rfl rfl
  | finish i =>
    simp only [act, finish]
    split
    · exact keeps_finishTailer _ _ _
    · exact keeps_finishSubscribe _ _
    · exact .same rfl rfl
  | close => exact keeps_close _

/-- A tailer for given partitions is handed out when its creation ends, on a broker that is open. -/
theorem act_explicit (x : Session) (op : Operation) : (x.act op).explicit = x.explicit ∨
    ∃ i k r, op = .finish i ∧ x.calls[i]? = some (.created k (.ok r)) ∧ x.broker.closed = false := by
  cases op with
  | createTailer group partitions type codec =>
    left
    simp only [act]
    split <;> rfl
  | subscribe group names type codec =>
    left
    simp only [act]
    split <;> rfl
  | ask i =>
    left
    simp only [act, ask]
    split <;> rfl
  | finish i =>
    simp only [act, finish]
    split
    · rename_i k answer there
      cases answer with
      | error e => exact .inl rfl
      | ok r =>
        by_cases closed : x.broker.closed = true
        · left
          simp only [finishTailer, if_pos closed]
          rfl
        · exact .inr ⟨i, k, r, rfl, there, Bool.eq_false_iff.mpr closed⟩
    · exact .inl rfl
    · exact .inl rfl
  | create | delete | appender | close | store => exact .inl rfl

/-- What holds at the beginning and is kept by every operation holds after every run. -/
theorem run_invariant {P : Session → Prop} (keeps : ∀ {x} op, P x → P (x.act op)) {x : Session}
    (start : P x) (ops : List Operation) : P (x.run ops) := by
  induction ops generalizing x with
  | nil => exact start
  | cons op ops ih => exact ih (keeps op start)

/-- A creation during which nothing else takes place is a run of its three parts. -/
theorem run_createTailer (x : Session) (group : String) (partitions : List Partition)
    (type : MessageType) (codec : Option Codec) :
    x.run [.createTailer group partitions type codec, .ask x.calls.length,
        .finish x.calls.length] =
      { x with
        broker := (x.broker.createTailer group partitions type codec).2
        explicit := handOut x.explicit (x.broker.createTailer group partitions type codec).1 } := by
  simp only [run, List.foldl_cons, List.foldl_nil, act, Broker.createTailer]
  rcases x.broker.beginTailer group partitions type codec with ⟨e | k, b⟩
  · simp [ask, finish, handOut]
  · simp [ask, finish, List.eraseIdx_append_of_length_le]

theorem run_subscribe (x : Session) (group : String) (names : List String) (type : MessageType)
    (codec : Option Codec) :
    x.run [.subscribe group names type codec, .ask x.calls.length, .finish x.calls.length] =
      { x with
        broker := (x.broker.subscribe group names type codec).2
        subscribed := handOut x.subscribed (x.broker.subscribe group names type codec).1 } := by
  simp only [run, List.foldl_cons, List.foldl_nil, act, Broker.subscribe]
  cases x.broker.checkSubscribe group with
  | error e => simp [ask, finish, handOut]
  | ok _ =>
    cases asked : x.broker.askSubscribe group names type codec with
    | error e =>
      simp [ask, finish, asked, settle, finishSubscribe, Except.map,
        List.eraseIdx_append_of_length_le]
    | ok made =>
      simp [ask, finish, asked, settle, Except.map, List.eraseIdx_append_of_length_le]

end Session

end Logbook.Broker
