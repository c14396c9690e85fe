import Logbook.Proofs.Broker.Session

/-! What a session does to its store is a run of the store, so that whatever holds after every run
of a store holds in every session. -/
namespace Logbook.Broker

variable {b : Broker}

theorem store_createIfMissing (b : Broker) (name : String) (size : Nat) :
    (b.settle (b.createIfMissing name size)).store =
      match b.createIfMissing name size with
      | .ok (true, _) => b.store.act (.create name size)
      | _ => b.store := by
  rcases createIfMissing_cases b name size with ⟨same, other⟩ | created
  · rw [same]
    split
    · rename_i c answer
      exact absurd answer (other c)
    · rfl
  · rw [created]
    rfl

theorem store_delete (b : Broker) (name : String) :
    (b.settle (b.delete name)).store =
      match b.delete name with
      | .ok (true, _) => (b.store.act (.delete name)).run
          ((b.appenders.lookup name).toList.map .closeAppender)
      | _ => b.store := by
  rcases delete_cases b name with ⟨same, other⟩ | deleted
  · rw [same]
    split
    · rename_i c answer
      exact absurd answer (other c)
    · rfl
  · rw [deleted]
    rfl

theorem store_appender (b : Broker) (name : String) (type : MessageType) (codec : Option Codec) :
    (b.settle (b.appender name type codec)).store =
      match b.appenders.lookup name, b.appender name type codec with
      | none, .ok _ => b.store.act (.openAppender name type codec)
      | _, _ => b.store := by
  cases answer : b.appender name type codec with
  | error e => cases b.appenders.lookup name <;> rfl
  | ok made =>
    obtain ⟨a, c⟩ := made
    rcases (appender_ok answer).2 with ⟨known, rfl⟩ | ⟨unknown, s, created, rfl⟩
    · rw [known]
      rfl
    · rw [unknown]
      simp only [Store.act, created]
      rfl

theorem store_finishTailer (b : Broker) (k : Ticket) (answer : Outcome TailerRef) :
    (b.finishTailer k answer).2.store =
      match answer with
      | .ok r => if b.closed then b.store.act (.closeTailer r) else b.store
      | .error _ => b.store := by
  cases answer with
  | error e => rfl
  | ok r =>
    simp only [finishTailer]
    split <;> rfl

theorem store_finishSubscribe (b : Broker) (answer : Outcome TailerRef) :
    (b.finishSubscribe answer).2.store =
      match answer with
      | .ok r => if b.closed then b.store.act (.closeTailer r) else b.store
      | .error _ => b.store := by
  cases answer with
  | error e => rfl
  | ok r =>
    simp only [finishSubscribe]
    split <;> rfl

namespace Session

/-- What an operation does to the store. -/
def storeActions (x : Session) : Operation → List Store.Action
  | .create name size =>
    match x.broker.createIfMissing name size with
    | .ok (true, _) => [.create name size]
    | _ => []
  | .delete name =>
    match x.broker.delete name with
    | .ok (true, _) => .delete name :: (x.broker.appenders.lookup name).toList.map .closeAppender
    | _ => []
  | .appender name type codec =>
    match x.broker.appenders.lookup name, x.broker.appender name type codec with
    | none, .ok _ => [.openAppender name type codec]
    | _, _ => []
  | .createTailer _ _ _ _ | .subscribe _ _ _ _ => []
  | .ask i =>
    match x.calls[i]? with
    | some (.creating k) => [.createTailer k.group k.partitions k.type k.codec]
    | some (.subscribing group names type codec) => [.subscribe group names type codec]
    | _ => []
  | .finish i =>
    match x.calls[i]? with
    | some (.created _ (.ok r)) | some (.subscribed (.ok r)) =>
      if x.broker.closed then [.closeTailer r] else []
    | _ => []
  | .close => if x.broker.closed then [] else x.broker.closing
  | .store a => [a]

def trace (x : Session) : List Operation → List Store.Action
  | [] => []
  | op :: ops => x.storeActions op ++ (x.act op).trace ops

variable {x : Session}

/-- Where what is done to the store comes from: it is done as such, or by the broker. -/
inductive Causes (x : Session) : Operation → Store.Action → Prop where
  | same (a : Store.Action) : Causes x (.store a) a
  | creates (name : String) (size : Nat) : Causes x (.create name size) (.create name size)
  | deletes {name : String} {c : Broker} : x.broker.delete name = .ok (true, c) →
      Causes x (.delete name) (.delete name)
  | closesWith {name : String} {c : Broker} {a : Nat} : x.broker.delete name = .ok (true, c) →
      x.broker.appenders.lookup name = some a → Causes x (.delete name) (.closeAppender a)
  | opens (name : String) (type : MessageType) (codec : Option Codec) :
      Causes x (.appender name type codec) (.openAppender name type codec)
  | asks {i : Nat} {k : Ticket} : x.calls[i]? = some (.creating k) →
      Causes x (.ask i) (.createTailer k.group k.partitions k.type k.codec)
  | subscribes (i : Nat) (group : String) (names : List String) (type : MessageType)
      (codec : Option Codec) : Causes x (.ask i) (.subscribe group names type codec)
  | discards (i : Nat) (r : TailerRef) : Causes x (.finish i) (.closeTailer r)
  | closesAppender (a : Nat) : x.broker.closed = false → Causes x .close (.closeAppender a)
  | closesTailer (r : TailerRef) : x.broker.closed = false → Causes x .close (.closeTailer r)

theorem causes {op : Operation} {a : Store.Action} (member : a ∈ x.storeActions op) :
    Causes x op a := by
  cases op with
  | store b =>
    cases List.mem_singleton.mp member
    exact .same a
  | createTailer | subscribe => cases member
  | create name size =>
    simp only [storeActions] at member
    split at member
    · cases List.mem_singleton.mp member
      exact .creates name size
    · cases member
  | delete name =>
    simp only [storeActions] at member
    split at member
    · rename_i c answer
      rcases List.mem_cons.mp member with rfl | closes
      · exact .deletes answer
      · obtain ⟨i, known, rfl⟩ := List.mem_map.mp closes
        exact .closesWith answer (Option.mem_toList.mp known)
    · cases member
  | appender name type codec =>
    simp only [storeActions] at member
    split at member
    · cases List.mem_singleton.mp member
      exact .opens name type codec
    · cases member
  | ask i =>
    simp only [storeActions] at member
    split at member
    · rename_i k there
      cases List.mem_singleton.mp member
      exact .asks there
    · rename_i group names type codec there
      cases List.mem_singleton.mp member
      exact .subscribes i group names type codec
    · cases member
  | finish i =>
    have discards {r : TailerRef}
        (member : a ∈ if x.broker.closed then [Store.Action.closeTailer r] else []) :
        Causes x (.finish i) a := by
      split at member
      · cases List.mem_singleton.mp member
        exact .discards i r
      · cases member
    simp only [storeActions] at member
    split at member
    · exact discards member
    · exact discards member
    · cases member
  | close =>
    simp only [storeActions] at member
    split at member
    · cases member
    · rename_i opened
      rcases List.mem_append.mp member with closes | closes
      · obtain ⟨e, -, rfl⟩ := List.mem_map.mp closes
        exact .closesAppender e.2 (Bool.eq_false_iff.mpr opened)
      · obtain ⟨e, -, rfl⟩ := List.mem_map.mp closes
        exact .closesTailer e.2 (Bool.eq_false_iff.mpr opened)

theorem store_ask (x : Session) (i : Nat) :
    (x.ask i).broker.store = x.broker.store.run (x.storeActions (.ask i)) := by
  simp only [ask, storeActions]
  cases x.calls[i]? with
  | none => rfl
  | some call =>
    cases call with
    | creating k => rfl
    | subscribing group names type codec =>
      simp only [askSubscribe, Store.run_cons, Store.act]
      cases x.broker.store.subscribe group names type codec <;> rfl
    | created | subscribed => rfl

theorem store_finish (x : Session) (i : Nat) :
    (x.finish i).broker.store = x.broker.store.run (x.storeActions (.finish i)) := by
  simp only [finish, storeActions]
  cases x.calls[i]? with
  | none => rfl
  | some call =>
    cases call with
    | creating | subscribing => rfl
    | created k answer =>
      simp only [store_finishTailer]
      cases answer with
      | error e => rfl
      | ok r => cases x.broker.closed <;> rfl
    | subscribed answer =>
      simp only [store_finishSubscribe]
      cases answer with
      | error e => rfl
      | ok r => cases x.broker.closed <;> rfl

/-- One operation does to the store what its actions do. -/
theorem store_act (x : Session) (op : Operation) :
    (x.act op).broker.store = x.broker.store.run (x.storeActions op) := by
  cases op with
  | create name size =>
    simp only [act, storeActions, store_createIfMissing]
    split <;> rfl
  | delete name =>
    simp only [act, storeActions, store_delete]
    split <;> rfl
  | appender name type codec =>
    simp only [act, storeActions, store_appender]
    split <;> rfl
  | createTailer group partitions type codec =>
    have step := begins x.broker group partitions type codec
    simp only [act, storeActions, Store.run_nil]
    generalize x.broker.beginTailer group partitions type codec = result at step
    obtain ⟨outcome, b⟩ := result
    cases step with
    | _ => rfl
  | subscribe group names type codec =>
    simp only [act]
    split <;> rfl
  | ask i => exact x.store_ask i
  | finish i => exact x.store_finish i
  | close =>
    cases closed : x.broker.closed with
    | true => simp only [act, close, closed, storeActions, if_true]; rfl
    | false =>
      simp only [act, storeActions, closed, Bool.false_eq_true, if_false]
      rw [close_eq closed]
  | store a => rfl

theorem store_run (x : Session) (ops : List Operation) :
    (x.run ops).broker.store = x.broker.store.run (x.trace ops) := by
  induction ops generalizing x with
  | nil => rfl
  | cons op ops ih =>
    rw [trace, Store.run_append, ← store_act]
    exact ih (x.act op)

/-- A session goes on from a new store. -/
theorem store_start (config : StoreConfig) (limits : Limits) (ops : List Operation) :
    ((start config limits).run ops).broker.store =
      ({ config } : Store).run ((start config limits).trace ops) :=
  store_run _ ops

end Session

end Logbook.Broker
