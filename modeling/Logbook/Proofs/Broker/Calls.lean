import Mathlib.Data.List.Nodup
import Logbook.Proofs.Store.Handout
import Logbook.Broker.Tailers

/-! What the parts of a call for a tailer, and the closing of a broker, do to the broker and to its
store. -/
namespace Logbook.Broker

def settle (b : Broker) : Outcome (α × Broker) → Broker
  | .ok (_, next) => next
  | .error _ => b

variable {b : Broker}

/-! Beginning a creation. -/

def nextTicket (b : Broker) (group : String) (partitions : List Partition) (type : MessageType)
    (codec : Option Codec) : Ticket :=
  ⟨b.nextNumber, group, partitions.eraseDups, type, codec⟩

theorem nodup_keys_nextTicket (b : Broker) (group : String) (partitions : List Partition)
    (type : MessageType) (codec : Option Codec) :
    (b.nextTicket group partitions type codec).keys.Nodup :=
  (nodup_eraseDups partitions).map fun _ _ same => (GroupPartition.mk.inj same).2

theorem checkLogs_congr {c : Broker} (codec : Option Codec) (names : List String)
    (store : b.store = c.store) (appenders : b.appenders = c.appenders) :
    b.checkLogs codec names = c.checkLogs codec names := by
  induction names with
  | nil => rfl
  | cons name rest ih => simp only [checkLogs, checkCodec, codecOf?, store, appenders, ih]

theorem checkLogs_error {codec : Option Codec} {names : List String} {e : LogFault}
    (failed : b.checkLogs codec names = .error e) : (∃ name, e = .unknownLog name) ∨
      ∃ name existing requested, e = .codecMismatch name existing requested := by
  induction names with
  | nil => cases failed
  | cons name rest ih =>
    simp only [checkLogs, checkCodec] at failed
    cases there : b.store.contains name with
    | false =>
      simp only [there, throw, throwThe, MonadExceptOf.throw, bind, Except.bind, Bool.not_false,
        if_true, Except.error.injEq] at failed
      exact .inl ⟨name, failed.symm⟩
    | true =>
      cases bound : b.codecOf? name with
      | none =>
        simp only [there, bound, bind, Except.bind] at failed
        exact ih failed
      | some existing =>
        cases agree : sameIdentity (some existing) codec with
        | false =>
          simp only [there, bound, agree, bind, Except.bind, Bool.not_true, Bool.false_eq_true,
            if_false, Except.error.injEq] at failed
          exact .inr ⟨name, _, _, failed.symm⟩
        | true =>
          simp only [there, bound, agree, if_true, bind, Except.bind] at failed
          exact ih failed

theorem checkLogs_ok {codec : Option Codec} {names : List String}
    (checked : b.checkLogs codec names = .ok ()) {name : String} (member : name ∈ names)
    (known : b.codecOf? name = some c) : codec.map Codec.identity = some c.identity := by
  induction names with
  | nil => cases member
  | cons first rest ih =>
    simp only [checkLogs, checkCodec] at checked
    cases there : b.store.contains first with
    | false => simp [there, throw, throwThe, MonadExceptOf.throw, bind, Except.bind] at checked
    | true =>
      rcases List.mem_cons.mp member with rfl | later
      · simp only [there, known] at checked
        cases agree : sameIdentity (some c) codec with
        | true =>
          simp only [sameIdentity, Option.map_some, beq_iff_eq] at agree
          exact agree.symm
        | false => simp [agree, bind, Except.bind] at checked
      · cases bound : b.codecOf? first with
        | none =>
          simp only [there, bound, bind, Except.bind] at checked
          exact ih checked later
        | some existing =>
          cases agree : sameIdentity (some existing) codec with
          | false => simp [there, bound, agree, bind, Except.bind] at checked
          | true =>
            simp only [there, bound, agree, if_true, bind, Except.bind] at checked
            exact ih checked later

/-- How a creation can begin. -/
inductive Begins (b : Broker) (k : Ticket) (partitions : List Partition) :
    Outcome Ticket → Broker → Prop where
  | refused {e : LogFault} : b.checkRequest k.group partitions = .error e →
      Begins b k partitions (.error e) b
  | taken {key : GroupPartition} : b.checkRequest k.group partitions = .ok () →
      (b.ownership.prune b.store.isClosedTailer).taken? b.store.isClosedTailer k.keys = some key →
      Begins b k partitions (.error (.alreadyAssigned key)) { b with
        nextNumber := b.nextNumber + 1, ownership := b.ownership.prune b.store.isClosedTailer }
  | unfit {e : LogFault} : b.checkRequest k.group partitions = .ok () →
      (b.ownership.prune b.store.isClosedTailer).taken? b.store.isClosedTailer k.keys = none →
      b.checkLogs k.codec (k.partitions.map (·.log)).eraseDups = .error e →
      Begins b k partitions (.error e) { b with
        nextNumber := b.nextNumber + 1
        ownership := ((b.ownership.prune b.store.isClosedTailer).reserve k.number k.keys).release
          k.number k.keys }
  | reserves : b.checkRequest k.group partitions = .ok () →
      (b.ownership.prune b.store.isClosedTailer).taken? b.store.isClosedTailer k.keys = none →
      b.checkLogs k.codec (k.partitions.map (·.log)).eraseDups = .ok () →
      Begins b k partitions (.ok k) { b with
        nextNumber := b.nextNumber + 1
        ownership := (b.ownership.prune b.store.isClosedTailer).reserve k.number k.keys }

theorem begins (b : Broker) (group : String) (partitions : List Partition) (type : MessageType)
    (codec : Option Codec) : Begins b (b.nextTicket group partitions type codec) partitions
      (b.beginTailer group partitions type codec).1
      (b.beginTailer group partitions type codec).2 := by
  unfold beginTailer
  cases checked : b.checkRequest group partitions with
  | error e => exact .refused checked
  | ok _ =>
    simp only
    split
    · rename_i key taken
      exact .taken checked taken
    · rename_i free
      split
      · rename_i e unfit
        refine .unfit checked free ?_
        rw [← unfit]
        exact checkLogs_congr _ _ rfl rfl
      · rename_i fit
        refine .reserves checked free ?_
        rw [← fit]
        exact checkLogs_congr _ _ rfl rfl

theorem checkRequest_open {group : String} {partitions : List Partition}
    (checked : b.checkRequest group partitions = .ok ()) : b.closed = false := by
  unfold checkRequest checkOpen at checked
  cases closed : b.closed with
  | false => rfl
  | true => simp [closed, bind, Except.bind] at checked

theorem checkRequest_error {group : String} {partitions : List Partition} {e : LogFault}
    (failed : b.checkRequest group partitions = .error e) :
    e = .closed .manager ∨ ∃ a, e = .argument a := by
  unfold checkRequest checkOpen at failed
  cases closed : b.closed with
  | true =>
    simp only [closed, if_true, bind, Except.bind, Except.error.injEq] at failed
    exact .inl failed.symm
  | false =>
    simp only [closed, Bool.false_eq_true, if_false, bind, Except.bind] at failed
    cases named : b.limits.checkGroupName group with
    | error a =>
      simp only [named, Except.mapError, Except.error.injEq] at failed
      exact .inr ⟨a, failed.symm⟩
    | ok _ =>
      simp only [named, Except.mapError] at failed
      cases counted : b.limits.checkTailerAssignment partitions.length with
      | error a =>
        simp only [counted, Except.error.injEq] at failed
        exact .inr ⟨a, failed.symm⟩
      | ok _ => simp [counted] at failed

/-- That a partition is asked for twice makes no difference. -/
theorem taken?_nextTicket (o : Ownership) (isClosed : TailerRef → Bool) (group : String)
    (partitions : List Partition) (type : MessageType) (codec : Option Codec) :
    o.taken? isClosed (b.nextTicket group partitions type codec).keys =
      o.taken? isClosed (partitions.map (⟨group, ·⟩)) := by
  simp only [Ownership.taken?, Ticket.keys, nextTicket, List.find?_map, find?_eraseDups]

/-- A creation that passes the first checks is refused for the first key that is taken. -/
theorem beginTailer_alreadyAssigned {group : String} {partitions : List Partition}
    {type : MessageType} {codec : Option Codec} {key : GroupPartition}
    (checked : b.checkRequest group partitions = .ok ()) :
    (b.beginTailer group partitions type codec).1 = .error (.alreadyAssigned key) ↔
      (b.ownership.prune b.store.isClosedTailer).taken? b.store.isClosedTailer
        (partitions.map (⟨group, ·⟩)) = some key := by
  have step := begins b group partitions type codec
  rw [← taken?_nextTicket (b := b) _ _ group partitions type codec]
  generalize b.beginTailer group partitions type codec = result at step
  obtain ⟨outcome, c⟩ := result
  cases step with
  | refused failed => cases failed.symm.trans checked
  | taken _ first =>
    rw [first]
    simp
  | unfit _ free unfit =>
    rw [free]
    simp only [Except.error.injEq, reduceCtorEq, iff_false]
    rintro rfl
    rcases checkLogs_error unfit with ⟨_, impossible⟩ | ⟨_, _, _, impossible⟩
    · cases impossible
    · cases impossible
  | reserves _ free =>
    rw [free]
    simp

/-! Operations that leave alone who owns what. -/

/-- A broker goes on with another state of its store and owns what it did. -/
structure Moves (b c : Broker) : Prop where
  store : ∃ as, c.store = b.store.run as
  ownership : c.ownership = b.ownership
  nextNumber : c.nextNumber = b.nextNumber
  closed : c.closed = b.closed

structure Keeps (b c : Broker) : Prop where
  store : ∃ as, c.store = b.store.run as
  appenders : ∀ name a, c.appenders.lookup name = some a → b.appenders.lookup name = some a

structure Stays (b c : Broker) : Prop extends Moves b c, Keeps b c

theorem Keeps.same {c : Broker} (store : c.store = b.store) (appenders : c.appenders = b.appenders) :
    Keeps b c := ⟨⟨[], store⟩, fun _ _ known => appenders ▸ known⟩

theorem Stays.refl (b : Broker) : Stays b b := ⟨⟨⟨[], rfl⟩, rfl, rfl, rfl⟩, fun _ _ => id⟩

theorem stays_store (b : Broker) (as : List Store.Action) :
    Stays b { b with store := b.store.run as } := ⟨⟨⟨as, rfl⟩, rfl, rfl, rfl⟩, fun _ _ => id⟩

theorem createIfMissing_cases (b : Broker) (name : String) (size : Nat) :
    (b.settle (b.createIfMissing name size) = b ∧
        ∀ c, b.createIfMissing name size ≠ .ok (true, c)) ∨
      b.createIfMissing name size =
        .ok (true, { b with store := b.store.act (.create name size) }) := by
  unfold createIfMissing
  cases b.checkOpen with
  | error e => exact .inl ⟨rfl, nofun⟩
  | ok _ =>
    cases b.limits.checkLogName name with
    | error e => exact .inl ⟨rfl, nofun⟩
    | ok _ =>
      cases b.limits.checkPartitionCount size with
      | error e => exact .inl ⟨rfl, nofun⟩
      | ok _ =>
        simp only [Store.mapError_ok, bind, Except.bind]
        split
        · exact .inl ⟨rfl, nofun⟩
        · cases created : b.store.create name size with
          | error e => exact .inl ⟨rfl, nofun⟩
          | ok s =>
            right
            simp only [Store.act, created]
            rfl

theorem stays_create (b : Broker) (name : String) (size : Nat) :
    Stays b (b.settle (b.createIfMissing name size)) := by
  rcases createIfMissing_cases b name size with ⟨same, -⟩ | created
  · rw [same]
    exact .refl b
  · rw [created]
    exact stays_store b [.create name size]

theorem delete_cases (b : Broker) (name : String) :
    (b.settle (b.delete name) = b ∧ ∀ c, b.delete name ≠ .ok (true, c)) ∨
      b.delete name = .ok (true, { b with
        store := (b.store.act (.delete name)).run
          ((b.appenders.lookup name).toList.map .closeAppender)
        appenders := b.appenders.filter (·.1 ≠ name) }) := by
  unfold delete
  cases b.checkOpen with
  | error e => exact .inl ⟨rfl, nofun⟩
  | ok _ =>
    simp only [bind, Except.bind]
    cases (b.store.delete name).1 with
    | false => exact .inl ⟨rfl, nofun⟩
    | true =>
      right
      cases b.appenders.lookup name <;> rfl

theorem stays_delete (b : Broker) (name : String) :
    Stays b (b.settle (b.delete name)) := by
  rcases delete_cases b name with ⟨same, -⟩ | deleted
  · rw [same]
    exact .refl b
  · rw [deleted]
    refine ⟨⟨⟨.delete name :: _, rfl⟩, rfl, rfl, rfl⟩, fun key a known => ?_⟩
    have known : (b.appenders.filter (·.1 ≠ name)).lookup key = some a := known
    rw [lookup_filter_ne] at known
    split at known
    · cases known
    · exact known

/-- The appender of a log is the one that is there, or a new one. -/
theorem appender_ok {c : Broker} {name : String} {type : MessageType} {codec : Option Codec}
    {a : Nat} (answer : b.appender name type codec = .ok (a, c)) : b.closed = false ∧
      (b.appenders.lookup name = some a ∧ c = b ∨
        b.appenders.lookup name = none ∧ ∃ s, b.store.createAppender name type codec = .ok (a, s) ∧
          c = { b with store := s, appenders := (name, a) :: b.appenders }) := by
  unfold appender checkOpen at answer
  cases closed : b.closed with
  | true => simp [closed, bind, Except.bind] at answer
  | false =>
    refine ⟨rfl, ?_⟩
    simp only [closed, Bool.false_eq_true, if_false, bind, Except.bind] at answer
    cases known : b.appenders.lookup name with
    | some there =>
      rw [known] at answer
      cases found : b.store.appenders[there]? with
      | none => simp [found, throw, throwThe, MonadExceptOf.throw] at answer
      | some w =>
        simp only [found, throw, throwThe, MonadExceptOf.throw, pure, Except.pure] at answer
        split at answer
        · cases answer
        · split at answer
          · cases answer
          · cases answer
            exact .inl ⟨rfl, rfl⟩
    | none =>
      rw [known] at answer
      cases created : b.store.createAppender name type codec with
      | error e => simp [created] at answer
      | ok made =>
        simp only [created, pure, Except.pure, Except.ok.injEq, Prod.mk.injEq] at answer
        obtain ⟨rfl, rfl⟩ := answer
        exact .inr ⟨rfl, made.2, rfl, rfl⟩

theorem moves_appender (b : Broker) (name : String) (type : MessageType) (codec : Option Codec) :
    Moves b (b.settle (b.appender name type codec)) := by
  cases answer : b.appender name type codec with
  | error e => exact (Stays.refl b).toMoves
  | ok made =>
    rcases (appender_ok answer).2 with ⟨-, same⟩ | ⟨-, s, created, same⟩
    · rw [settle, same]
      exact (Stays.refl b).toMoves
    · rw [settle, same]
      refine ⟨⟨[.openAppender name type codec], ?_⟩, rfl, rfl, rfl⟩
      simp only [Store.run_cons, Store.act, created]
      rfl

theorem keeps_beginTailer (b : Broker) (group : String) (partitions : List Partition)
    (type : MessageType) (codec : Option Codec) :
    Keeps b (b.beginTailer group partitions type codec).2 := by
  have step := begins b group partitions type codec
  generalize b.beginTailer group partitions type codec = result at step ⊢
  obtain ⟨outcome, c⟩ := result
  cases step with
  | _ => exact .same rfl rfl

theorem keeps_finishTailer (b : Broker) (k : Ticket) (answer : Outcome TailerRef) :
    Keeps b (b.finishTailer k answer).2 := by
  cases answer with
  | error e => exact .same rfl rfl
  | ok r =>
    simp only [finishTailer]
    split
    · exact ⟨⟨[.closeTailer r], rfl⟩, fun _ _ => id⟩
    · exact .same rfl rfl

theorem finishTailer_keeps (b : Broker) (k : Ticket) (answer : Outcome TailerRef) :
    (b.finishTailer k answer).2.appenders = b.appenders ∧
      (b.finishTailer k answer).2.closed = b.closed := by
  cases answer with
  | error e => exact ⟨rfl, rfl⟩
  | ok r =>
    simp only [finishTailer]
    split <;> exact ⟨rfl, rfl⟩

theorem finishSubscribe_keeps (b : Broker) (answer : Outcome TailerRef) :
    (b.finishSubscribe answer).2.appenders = b.appenders ∧
      (b.finishSubscribe answer).2.closed = b.closed := by
  cases answer with
  | error e => exact ⟨rfl, rfl⟩
  | ok r =>
    simp only [finishSubscribe]
    split <;> exact ⟨rfl, rfl⟩

theorem keeps_finishSubscribe (b : Broker) (answer : Outcome TailerRef) :
    Keeps b (b.finishSubscribe answer).2 := by
  cases answer with
  | error e => exact .same rfl rfl
  | ok r =>
    simp only [finishSubscribe]
    split
    · exact ⟨⟨[.closeTailer r], rfl⟩, fun _ _ => id⟩
    · exact .same rfl rfl

theorem stays_askTailer (b : Broker) (k : Ticket) : Stays b (b.askTailer k).2 :=
  stays_store b [.createTailer k.group k.partitions k.type k.codec]

theorem stays_askSubscribe (b : Broker) (group : String) (names : List String)
    (type : MessageType) (codec : Option Codec) :
    Stays b (b.settle (b.askSubscribe group names type codec)) := by
  unfold askSubscribe
  cases asked : b.store.subscribe group names type codec with
  | error e => exact .refl b
  | ok answer =>
    refine ⟨⟨⟨[.subscribe group names type codec], ?_⟩, rfl, rfl, rfl⟩, fun _ _ => id⟩
    simp only [Store.run_cons, Store.act, asked]
    rfl

/-! Closing. -/

theorem closeAppenders_run (s : Store) (l : List (String × Nat)) :
    (closeAppenders s l).2 = s.run (l.map fun e => .closeAppender e.2) := by
  induction l generalizing s with
  | nil => rfl
  | cons e rest ih => exact ih _

theorem closeTailers_run (s : Store) (l : List (Nat × TailerRef)) :
    (closeTailers s l).2 = s.run (l.map fun e => .closeTailer e.2) := by
  induction l generalizing s with
  | nil => rfl
  | cons e rest ih => exact ih _

def closing (b : Broker) : List Store.Action :=
  ((b.appenders.mergeSort fun x y => x.1 ≤ y.1).map fun e => .closeAppender e.2) ++
    b.ownership.inOrder.map fun e => .closeTailer e.2

theorem close_eq (opened : b.closed = false) : b.close.2 =
    { b with store := b.store.run b.closing, closed := true, appenders := [], ownership := {} } := by
  simp only [close, opened, Bool.false_eq_true, if_false, closeAppenders_run, closeTailers_run,
    closing, Store.run_append]

theorem keeps_close (b : Broker) : Keeps b b.close.2 := by
  cases closed : b.closed with
  | true =>
    simp only [close, closed, if_true]
    exact .same rfl rfl
  | false =>
    rw [close_eq closed]
    exact ⟨⟨_, rfl⟩, fun _ _ known => by cases known⟩

theorem closing_closes {e : Nat × TailerRef} {t : Tailer} (live : e ∈ b.ownership.live)
    (found : b.store.tailer? e.2 = some t) : (b.store.run b.closing).isClosedTailer e.2 = true := by
  have member : Store.Action.closeTailer e.2 ∈ b.closing :=
    List.mem_append_right _ (List.mem_map_of_mem (List.mem_mergeSort.mpr live))
  obtain ⟨before, after, split⟩ := List.append_of_mem member
  obtain ⟨u, there, _⟩ := Store.run_tailer found before
  obtain ⟨v, shut, closed⟩ := Store.closeTailer_closes there
  obtain ⟨w, final, later⟩ := Store.run_tailer shut after
  rw [split, Store.run_append, Store.run_cons, Store.isClosedTailer, final]
  exact later.closed closed

theorem closing_closesAppender {e : String × Nat} {w : Appender} (known : e ∈ b.appenders)
    (found : b.store.appenders[e.2]? = some w) :
    (b.store.run b.closing).isClosedAppender e.2 = true := by
  have member : Store.Action.closeAppender e.2 ∈ b.closing :=
    List.mem_append_left _ (List.mem_map_of_mem (List.mem_mergeSort.mpr known))
  obtain ⟨before, after, split⟩ := List.append_of_mem member
  obtain ⟨v, there, _⟩ := Store.run_appender found before
  obtain ⟨w', shut, _⟩ := Store.run_appender there [.closeAppender e.2]
  rw [split, Store.run_append, Store.run_cons]
  exact Store.isClosedAppender_run shut (Store.closeAppender_closes there)

end Logbook.Broker
