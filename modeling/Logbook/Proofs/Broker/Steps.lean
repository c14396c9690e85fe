import Logbook.Proofs.Broker.Answers
import Logbook.Proofs.Broker.Exclusive
import Logbook.Proofs.Store.Reading
import Logbook.Proofs.Store.Views

/-! Sessions in which one thing is done after the other: what is done to a broker, to its store and
with what they have handed out, each from its call to its answer, and what it shows. -/
namespace Logbook.Broker

/-- What changes nothing: questions to the broker, to its store, and to what they handed out. -/
inductive Query where
  | closed
  | contains (name : String)
  | size (name : String)
  | names
  | lag (name group : String)
  | storeContains (name : String)
  | storeSize (name : String)
  | storeNames
  | endOffset (p : Partition)
  | committed (group : String) (p : Partition)
  | appender (a : Nat)
  | tailer (r : TailerRef)

/-- What is done, from its call to its answer, while nothing else takes place. A read does not
wait. -/
inductive Step where
  | create (name : String) (size : Nat)
  | delete (name : String)
  | appender (name : String) (type : MessageType) (codec : Option Codec)
  | createTailer (group : String) (partitions : List Partition) (type : MessageType)
      (codec : Option Codec)
  | subscribe (group : String) (names : List String) (type : MessageType) (codec : Option Codec)
  | close
  | read (r : TailerRef)
  | store (a : Store.Action)
  | ask (q : Query)

/-- What a step shows. A read shows what it has found, and what the listener of the tailer was told
meanwhile. -/
inductive Result where
  | answer (a : Answer)
  | read (found : Outcome (Option (Offset × Message))) (notices : List Notification)
  | size (outcome : Outcome Nat)
  | names (outcome : Outcome (List String))
  | lag (outcome : Outcome (List Lag))
  | committed (position : Option Nat)
  | appender (w : Option Appender)
  | tailer (t : Option Tailer)

def Result.notices : Result → List Notification
  | .read _ notices => notices
  | _ => []

def Query.result (b : Broker) : Query → Result
  | .closed => .answer (.flag (.ok b.closed))
  | .contains name => .answer (.flag (b.contains name))
  | .size name => .size (b.size name)
  | .names => .names b.names
  | .lag name group => .lag (b.lag name group)
  | .storeContains name => .answer (.flag (.ok (b.store.contains name)))
  | .storeSize name => .size (b.store.size name)
  | .storeNames => .names (.ok b.store.names)
  | .endOffset p => .size (b.store.endOffset p)
  | .committed group p => .committed (b.store.committed? group p)
  | .appender a => .appender b.store.appenders[a]?
  | .tailer r => .tailer (b.store.tailer? r)

def Query.group? : Query → Option String
  | .lag _ group | .committed group _ => some group
  | .tailer r => some r.group
  | _ => none

namespace Step

/-- The group for which a step opens a tailer, or with whose tailer it reads, commits, moves or
closes. -/
def group? : Step → Option String
  | .createTailer group _ _ _ | .subscribe group _ _ _ => some group
  | .read r => some r.group
  | .store a => a.group?
  | _ => none

/-- Whether a step is left when the doings of all groups but one are erased. -/
def remains (g : String) (step : Step) : Bool := step.group?.all (· = g)

/-- Whether what a step shows concerns a group: what is done with the tailers of other groups does
not, and neither do questions about them. -/
def concerns (g : String) : Step → Bool
  | .ask q => q.group?.all (· = g)
  | step => step.remains g

def faultless : Step → Bool
  | .store (.setFaults _ _) => false
  | _ => true

end Step

namespace Session

/-- Does one thing, from its call to its answer. -/
def perform (x : Session) : Step → Session
  | .create name size => x.act (.create name size)
  | .delete name => x.act (.delete name)
  | .appender name type codec => x.act (.appender name type codec)
  | .createTailer group partitions type codec =>
    let (outcome, broker) := x.broker.createTailer group partitions type codec
    { x with broker, explicit := handOut x.explicit outcome }
  | .subscribe group names type codec =>
    let (outcome, broker) := x.broker.subscribe group names type codec
    { x with broker, subscribed := handOut x.subscribed outcome }
  | .close => x.act .close
  | .read r => { x with broker.store := (x.broker.store.read r).2.2 }
  | .store a => x.act (.store a)
  | .ask _ => x

def result (x : Session) : Step → Result
  | .create name size => .answer (x.answer (.create name size))
  | .delete name => .answer (x.answer (.delete name))
  | .appender name type codec => .answer (x.answer (.appender name type codec))
  | .createTailer group partitions type codec =>
    .answer (.tailer (x.broker.createTailer group partitions type codec).1)
  | .subscribe group names type codec =>
    .answer (.tailer (x.broker.subscribe group names type codec).1)
  | .close => .answer (x.answer .close)
  | .read r => .read (x.broker.store.read r).1 (x.broker.store.read r).2.1
  | .store a => .answer (x.answer (.store a))
  | .ask q => q.result x.broker

def performs (x : Session) (steps : List Step) : Session := steps.foldl perform x

def results (x : Session) : List Step → List (Step × Result)
  | [] => []
  | step :: steps => (step, x.result step) :: (x.perform step).results steps

variable {x : Session}

/-! What holds between any two steps. -/

/-- No call is in progress, and nothing was told to fail. -/
structure Quiet (x : Session) : Prop where
  sound : Sound x
  calls : x.calls = []
  faultless : x.broker.store.Faultless

/-- A session in which nothing is told to fail goes on to be one. -/
theorem faultless_run (faultless : x.broker.store.Faultless) {ops : List Operation}
    (obeys : ∀ op ∈ ops, ∀ tailer close, op ≠ .store (.setFaults tailer close)) :
    (x.run ops).broker.store.Faultless := by
  induction ops generalizing x with
  | nil => exact faultless
  | cons op ops ih =>
    refine ih ?_ fun op member => obeys op (List.mem_cons_of_mem _ member)
    rw [store_act]
    apply Store.faultless_run faultless
    rintro a member tailer close rfl
    rcases mem_storeActions member with same | broker | ⟨_, _, _, _, same⟩
    · exact obeys op List.mem_cons_self tailer close same
    · cases broker
    · cases same

theorem run_store (x : Session) (as : List Store.Action) :
    x.run (as.map .store) = { x with broker.store := x.broker.store.run as } := by
  induction as generalizing x with
  | nil => rfl
  | cons a as ih => exact ih (x.act (.store a))

/-- A step is a run of operations, and tells nothing to fail if it is not told so itself. -/
theorem perform_run (x : Session) {step : Step} (faultless : step.faultless = true) :
    ∃ ops, x.perform step = x.run ops ∧
      ∀ op ∈ ops, ∀ tailer close, op ≠ .store (.setFaults tailer close) := by
  cases step with
  | create name size => exact ⟨[.create name size], rfl, by simp⟩
  | delete name => exact ⟨[.delete name], rfl, by simp⟩
  | appender name type codec => exact ⟨[.appender name type codec], rfl, by simp⟩
  | createTailer group partitions type codec =>
    exact ⟨_, (x.run_createTailer group partitions type codec).symm, by simp⟩
  | subscribe group names type codec =>
    exact ⟨_, (x.run_subscribe group names type codec).symm, by simp⟩
  | close => exact ⟨[.close], rfl, by simp⟩
  | read r =>
    obtain ⟨as, performs⟩ := Store.read_performs x.broker.store r
    refine ⟨as.map .store, ?_, ?_⟩
    · rw [run_store, performs.final]
      rfl
    · intro op member tailer close same
      obtain ⟨a, there, rfl⟩ := List.mem_map.mp member
      cases same
      rcases performs.parts _ there with takes | looks
      · cases takes
      · cases looks
  | store a =>
    refine ⟨[.store a], rfl, ?_⟩
    intro op member tailer close same
    cases (List.mem_singleton.mp member).symm.trans same
    cases faultless
  | ask q => exact ⟨[], rfl, by simp⟩

theorem performs_run (x : Session) {steps : List Step}
    (faultless : ∀ step ∈ steps, step.faultless = true) :
    ∃ ops, x.performs steps = x.run ops := by
  induction steps generalizing x with
  | nil => exact ⟨[], rfl⟩
  | cons step steps ih =>
    obtain ⟨first, performed, -⟩ := x.perform_run (faultless step List.mem_cons_self)
    obtain ⟨rest, later⟩ := ih (x.perform step) fun step member =>
      faultless step (List.mem_cons_of_mem _ member)
    refine ⟨first ++ rest, later.trans ?_⟩
    rw [performed]
    exact List.foldl_append.symm

theorem calls_perform (calls : x.calls = []) (step : Step) : (x.perform step).calls = [] := by
  cases step with
  | create | delete | appender | createTailer | subscribe | close | read | store | ask =>
    exact calls

theorem Quiet.perform (quiet : Quiet x) {step : Step} (faultless : step.faultless = true) :
    Quiet (x.perform step) := by
  obtain ⟨ops, same, obeys⟩ := perform_run x faultless
  constructor
  case sound =>
    rw [same]
    exact run_invariant (fun op sound => sound.act op) quiet.sound ops
  case calls => exact calls_perform quiet.calls step
  case faultless =>
    rw [same]
    exact faultless_run quiet.faultless obeys

theorem quiet_start (config : StoreConfig) (limits : Limits) : Quiet (start config limits) where
  sound := sound_start config limits
  calls := rfl
  faultless := ⟨rfl, rfl⟩

end Session

end Logbook.Broker
