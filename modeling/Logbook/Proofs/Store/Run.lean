import Logbook.Store.Appending
import Logbook.Store.Positioning

/-! Runs of a store: the actions that can be done to it in any order, the state after them, and
the history of what was appended and what was consumed. -/
namespace Logbook.Store

/-- What can be done to a store. A read is two actions, taking over and looking, since others can
come between them while a listener is told; a read that waits repeats the two. -/
inductive Action where
  | create (name : String) (size : Nat)
  | delete (name : String)
  | openAppender (name : String) (type : MessageType) (codec : Option Codec)
  | append (a : Nat) (key : String) (m : Message)
  | appendTo (a index : Nat) (m : Message)
  | closeAppender (a : Nat)
  | createTailer (group : String) (partitions : List Partition) (type : MessageType)
      (codec : Option Codec)
  | subscribe (group : String) (names : List String) (type : MessageType) (codec : Option Codec)
  | takeOver (r : TailerRef)
  | look (r : TailerRef)
  | commit (r : TailerRef)
  | commitPartition (r : TailerRef) (p : Partition)
  | toStart (r : TailerRef)
  | toEnd (r : TailerRef)
  | toLastCommitted (r : TailerRef)
  | seek (r : TailerRef) (o : Offset)
  | closeTailer (r : TailerRef)
  | setFaults (tailer close : Bool)

def settle (s : Store) : Outcome Store → Store
  | .ok next => next
  | .error _ => s

@[simp] theorem mapError_ok (f : ε → φ) (a : α) :
    (Except.ok a : Except ε α).mapError f = .ok a := rfl

@[simp] theorem mapError_error (f : ε → φ) (e : ε) :
    (Except.error e : Except ε α).mapError f = .error (f e) := rfl

def act (s : Store) : Action → Store
  | .create name size => s.settle (s.create name size)
  | .delete name => (s.delete name).2
  | .openAppender name type codec => s.settle ((s.createAppender name type codec).map (·.2))
  | .append a key m => s.settle ((s.append a key m).map (·.2))
  | .appendTo a index m => s.settle ((s.appendTo a index m).map (·.2))
  | .closeAppender a => (s.closeAppender a).2
  | .createTailer group partitions type codec => (s.createTailer group partitions type codec).2
  | .subscribe group names type codec => s.settle ((s.subscribe group names type codec).map (·.2))
  | .takeOver r => s.settle ((s.takeOver r).map (·.2))
  | .look r => (s.look r).2
  | .commit r => s.settle (s.commitAll r)
  | .commitPartition r p => s.settle ((s.commitPartition r p).map (·.2))
  | .toStart r => s.settle (s.toStart r)
  | .toEnd r => (s.toEnd r).2
  | .toLastCommitted r => s.settle (s.toLastCommitted r)
  | .seek r o => s.settle (s.seek r o)
  | .closeTailer r => (s.closeTailer r).2
  | .setFaults tailer close => { s with failNextTailer := tailer, failNextClose := close }

def run (s : Store) (as : List Action) : Store := as.foldl act s

@[simp] theorem run_nil (s : Store) : s.run [] = s := rfl

@[simp] theorem run_cons (s : Store) (a : Action) (as : List Action) :
    s.run (a :: as) = (s.act a).run as := rfl

@[simp] theorem run_append (s : Store) (as bs : List Action) :
    s.run (as ++ bs) = (s.run as).run bs := List.foldl_append

/-- What the history of a run keeps: each record with the number of the log that it went to, its
offset and its bytes, and each offset that a tailer consumed with the message or the error told. -/
inductive Event where
  | appended (log : Nat) (offset : Offset) (data : Bytes)
  | consumed (r : TailerRef) (offset : Offset) (told : Outcome Message)

def appendEvents (s : Store) (a index : Nat) (m : Message) : List Event :=
  match s.openAppender a with
  | .error _ => []
  | .ok w =>
    match (defaultCodec w.codec).encode m, s.appendTo a index m with
    | .ok data, .ok (offset, _) => [.appended w.log offset data]
    | _, _ => []

/-- The event of a look that finds a record, whether or not it can be decoded. -/
def lookEvents (s : Store) (r : TailerRef) : List Event :=
  match s.tailer? r with
  | none => []
  | some t =>
    match s.firstRecord t t.lookOrder with
    | .ok (some (i, p, data)) =>
      [.consumed r ⟨p, t.position p⟩ ((consume t i p data).1.map (·.2))]
    | _ => []

def events (s : Store) : Action → List Event
  | .append a key m =>
    match s.appenders[a]? with
    | some w => s.appendEvents a (partitionOfKey key w.size) m
    | none => []
  | .appendTo a index m => s.appendEvents a index m
  | .look r => s.lookEvents r
  | _ => []

def history (s : Store) : List Action → List Event
  | [] => []
  | a :: as => s.events a ++ (s.act a).history as

theorem history_append (s : Store) (as bs : List Action) :
    s.history (as ++ bs) = s.history as ++ (s.run as).history bs := by
  induction as generalizing s with
  | nil => rfl
  | cons a as ih => simp only [List.cons_append, history, ih, run_cons, List.append_assoc]

/-- Every action of a run is done in a state that allows it. -/
def Along (P : Store → Action → Prop) (s : Store) : List Action → Prop
  | [] => True
  | a :: as => P s a ∧ Along P (s.act a) as

instance decidableAlong {P : Store → Action → Prop} [∀ s a, Decidable (P s a)] (s : Store) :
    (as : List Action) → Decidable (Along P s as)
  | [] => inferInstanceAs (Decidable True)
  | a :: as =>
    have := decidableAlong (P := P) (s.act a) as
    inferInstanceAs (Decidable (P s a ∧ Along P (s.act a) as))

theorem along_append {P : Store → Action → Prop} {s : Store} {as bs : List Action} :
    Along P s (as ++ bs) ↔ Along P s as ∧ Along P (s.run as) bs := by
  induction as generalizing s with
  | nil => simp [Along]
  | cons a as ih => simp only [List.cons_append, Along, ih, run_cons, and_assoc]

theorem along_imp {P Q : Store → Action → Prop} (weaker : ∀ {s a}, P s a → Q s a) {s : Store}
    {as : List Action} (along : Along P s as) : Along Q s as := by
  induction as generalizing s with
  | nil => trivial
  | cons a as ih => exact ⟨weaker along.1, ih along.2⟩

theorem along_of_forall {P : Store → Action → Prop} {as : List Action}
    (all : ∀ a ∈ as, ∀ s, P s a) (s : Store) : Along P s as := by
  induction as generalizing s with
  | nil => trivial
  | cons a as ih =>
    exact ⟨all a List.mem_cons_self s, ih (fun b member => all b (List.mem_cons_of_mem a member)) _⟩

theorem along_all {s : Store} (as : List Action) : Along (fun _ _ => True) s as :=
  along_of_forall (fun _ _ _ => trivial) s

/-- What holds at the beginning and is kept by every action, given the history so far, holds after
every run. -/
theorem run_invariant {P : Store → List Event → Prop} {Q : Store → Action → Prop}
    (keeps : ∀ {s past a}, P s past → Q s a → P (s.act a) (past ++ s.events a))
    {s : Store} {past : List Event} {as : List Action} (start : P s past)
    (allowed : Along Q s as) : P (s.run as) (past ++ s.history as) := by
  induction as generalizing s past with
  | nil => simpa [history] using start
  | cons a as ih =>
    simpa only [run_cons, history, List.append_assoc] using
      ih (keeps start allowed.1) allowed.2

end Logbook.Store
