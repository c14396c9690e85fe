import Logbook.Proofs.Broker.Shutdown
import Logbook.Proofs.Broker.SingleOwner

/-! Renumbering. The numbers of tailers, and what is on record of tailers that are closed, decide
nothing: a session with other numbers in the same order and with the same open tailers on record
goes on alike. -/
namespace Logbook

/-- Leaves a gap in the numbers before the first one that is moved. -/
def shift (first gap n : Nat) : Nat := if n < first then n else n + gap

theorem shift_below (before : n < first) (gap : Nat) : shift first gap n = n := if_pos before

theorem shift_from (later : first ≤ n) (gap : Nat) : shift first gap n = n + gap :=
  if_neg (Nat.not_lt.mpr later)

theorem shift_le {first gap n m : Nat} : shift first gap n ≤ shift first gap m ↔ n ≤ m := by
  unfold shift
  split <;> split <;> omega

theorem shift_zero (first n : Nat) : shift first 0 n = n := by
  unfold shift
  split <;> rfl

def CloseFailure.renumber (f : Nat → Nat) : CloseFailure → CloseFailure
  | appender log => appender log
  | tailer number => tailer (f number)

def LogFault.renumber (f : Nat → Nat) : LogFault → LogFault
  | closeFailed failures => closeFailed (failures.map (CloseFailure.renumber f))
  | e => e

/-- Numbers are shown only where a shutdown tells what has failed to close. -/
def Answer.renumber (f : Nat → Nat) : Answer → Answer
  | shutdown outcome => shutdown (outcome.mapError (LogFault.renumber f))
  | a => a

theorem Store.answer_renumber (s : Store) (f : Nat → Nat) (a : Action) :
    (s.answer a).renumber f = s.answer a := by
  cases a with
  | _ => rfl

namespace Broker

def Ticket.renumber (f : Nat → Nat) (k : Ticket) : Ticket := { k with number := f k.number }

def Call.renumber (f : Nat → Nat) : Call → Call
  | creating k => creating (k.renumber f)
  | created k answer => created (k.renumber f) answer
  | c => c

/-! A broker with another record. -/

/-- A session with other numbers, and with another record of tailers. -/
def withRecord (b : Broker) (o : Ownership) (next : Nat) : Broker :=
  { b with ownership := o, nextNumber := next }

variable {b : Broker} {o : Ownership} {n : Nat}

theorem settle_withRecord (outcome : Outcome (α × Broker)) :
    (b.withRecord o n).settle (outcome.map fun made => (made.1, made.2.withRecord o n)) =
      (b.settle outcome).withRecord o n := by
  cases outcome <;> rfl

theorem fst_withRecord (outcome : Outcome (α × Broker)) :
    (outcome.map fun made => (made.1, made.2.withRecord o n)).map (·.1) = outcome.map (·.1) := by
  cases outcome <;> rfl

theorem createIfMissing_withRecord (name : String) (size : Nat) :
    (b.withRecord o n).createIfMissing name size =
      (b.createIfMissing name size).map fun made => (made.1, made.2.withRecord o n) := by
  obtain ⟨store, limits, closed, appenders, ownership, next⟩ := b
  change createIfMissing ⟨store, limits, closed, appenders, o, n⟩ name size = _
  simp only [createIfMissing, checkOpen]
  cases closed with
  | true => rfl
  | false =>
    cases limits.checkLogName name with
    | error e => rfl
    | ok _ =>
      cases limits.checkPartitionCount size with
      | error e => rfl
      | ok _ =>
        simp only [Store.mapError_ok, bind, Except.bind, Bool.false_eq_true, if_false]
        cases store.contains name with
        | true => rfl
        | false => cases store.create name size <;> rfl

theorem delete_withRecord (name : String) : (b.withRecord o n).delete name =
    (b.delete name).map fun made => (made.1, made.2.withRecord o n) := by
  obtain ⟨store, limits, closed, appenders, ownership, next⟩ := b
  change delete ⟨store, limits, closed, appenders, o, n⟩ name = _
  simp only [delete, checkOpen]
  cases closed with
  | true => rfl
  | false =>
    simp only [bind, Except.bind, Bool.false_eq_true, if_false]
    cases (store.delete name).1 <;> rfl

theorem appender_withRecord (name : String) (type : MessageType) (codec : Option Codec) :
    (b.withRecord o n).appender name type codec =
      (b.appender name type codec).map fun made => (made.1, made.2.withRecord o n) := by
  obtain ⟨store, limits, closed, appenders, ownership, next⟩ := b
  change appender ⟨store, limits, closed, appenders, o, n⟩ name type codec = _
  simp only [appender, checkOpen]
  cases closed with
  | true => rfl
  | false =>
    simp only [bind, Except.bind, Bool.false_eq_true, if_false]
    cases appenders.lookup name with
    | none => cases store.createAppender name type codec <;> rfl
    | some a =>
      simp only [throw, throwThe, MonadExceptOf.throw]
      cases store.appenders[a]? with
      | none => rfl
      | some w =>
        by_cases other : w.type = type
        · cases mismatch : codec.isSome && !sameIdentity w.codec codec <;>
            simp [other, mismatch, Except.map, pure, Except.pure, withRecord]
        · simp [other, Except.map]

theorem askSubscribe_withRecord (group : String) (names : List String) (type : MessageType)
    (codec : Option Codec) : (b.withRecord o n).askSubscribe group names type codec =
      (b.askSubscribe group names type codec).map fun made => (made.1, made.2.withRecord o n) := by
  obtain ⟨store, limits, closed, appenders, ownership, next⟩ := b
  change askSubscribe ⟨store, limits, closed, appenders, o, n⟩ group names type codec = _
  simp only [askSubscribe]
  cases store.subscribe group names type codec <;> rfl

/-- How a creation begins, told by what is looked at. -/
theorem beginTailer_eq (b : Broker) (group : String) (partitions : List Partition)
    (type : MessageType) (codec : Option Codec) :
    let k := b.nextTicket group partitions type codec
    let o := b.ownership.prune b.store.isClosedTailer
    b.beginTailer group partitions type codec =
      match b.checkRequest group partitions with
      | .error e => (.error e, b)
      | .ok () =>
        match o.taken? b.store.isClosedTailer k.keys with
        | some key => (.error (.alreadyAssigned key), b.withRecord o (b.nextNumber + 1))
        | none =>
          match b.checkLogs codec (k.partitions.map (·.log)).eraseDups with
          | .error e => (.error e, b.withRecord ((o.reserve k.number k.keys).release k.number k.keys)
              (b.nextNumber + 1))
          | .ok () => (.ok k, b.withRecord (o.reserve k.number k.keys) (b.nextNumber + 1)) := by
  intro k o
  have step : Begins b k partitions _ _ := begins b group partitions type codec
  generalize b.beginTailer group partitions type codec = result at step
  obtain ⟨outcome, c⟩ := result
  cases step with
  | refused failed =>
    have checked : c.checkRequest group partitions = _ := failed
    rw [checked]
  | taken passed taken =>
    have checked : b.checkRequest group partitions = _ := passed
    rw [checked]
    simp only [o, taken]
    rfl
  | unfit passed free unfit =>
    have checked : b.checkRequest group partitions = _ := passed
    have logs : b.checkLogs codec _ = _ := unfit
    rw [checked]
    simp only [o, free, logs]
    rfl
  | reserves passed free fit =>
    have checked : b.checkRequest group partitions = _ := passed
    have logs : b.checkLogs codec _ = _ := fit
    rw [checked]
    simp only [o, free, logs]
    rfl

def recordCreated (o : Ownership) (number : Nat) (keys : List GroupPartition) :
    Outcome TailerRef → Ownership
  | .error _ => o.release number keys
  | .ok r => o.activate number r

def recordSubscribed (o : Ownership) (isClosed : TailerRef → Bool) (number : Nat) :
    Outcome TailerRef → Ownership × Nat
  | .error _ => (o, number)
  | .ok r => ((o.prune isClosed).track number r, number + 1)

theorem finishTailer_withRecord (f : Nat → Nat) (k : Ticket) (answer : Outcome TailerRef) :
    (b.withRecord o n).finishTailer (k.renumber f) answer =
      ((b.finishTailer k answer).1,
        (b.finishTailer k answer).2.withRecord (recordCreated o (f k.number) k.keys answer) n) := by
  obtain ⟨store, limits, closed, appenders, ownership, next⟩ := b
  cases answer with
  | error e => rfl
  | ok r => cases closed <;> rfl

theorem record_finishTailer (b : Broker) (k : Ticket) (answer : Outcome TailerRef) :
    (b.finishTailer k answer).2.ownership = recordCreated b.ownership k.number k.keys answer ∧
      (b.finishTailer k answer).2.nextNumber = b.nextNumber := by
  obtain ⟨store, limits, closed, appenders, ownership, next⟩ := b
  cases answer with
  | error e => exact ⟨rfl, rfl⟩
  | ok r => cases closed <;> exact ⟨rfl, rfl⟩

theorem finishSubscribe_withRecord (answer : Outcome TailerRef) :
    (b.withRecord o n).finishSubscribe answer =
      ((b.finishSubscribe answer).1, (b.finishSubscribe answer).2.withRecord
        (recordSubscribed o b.store.isClosedTailer n answer).1
        (recordSubscribed o b.store.isClosedTailer n answer).2) := by
  obtain ⟨store, limits, closed, appenders, ownership, next⟩ := b
  cases answer with
  | error e => rfl
  | ok r => cases closed <;> rfl

theorem record_finishSubscribe (b : Broker) (answer : Outcome TailerRef) :
    (b.finishSubscribe answer).2.ownership =
        (recordSubscribed b.ownership b.store.isClosedTailer b.nextNumber answer).1 ∧
      (b.finishSubscribe answer).2.nextNumber =
        (recordSubscribed b.ownership b.store.isClosedTailer b.nextNumber answer).2 := by
  obtain ⟨store, limits, closed, appenders, ownership, next⟩ := b
  cases answer with
  | error e => exact ⟨rfl, rfl⟩
  | ok r => cases closed <;> exact ⟨rfl, rfl⟩

/-! Closing what is open, in the order of the numbers. -/

/-- What closing does, and what fails, depends on the open tailers alone. -/
theorem closeTailers_filter {s : Store} {l : List (Nat × TailerRef)} {keep : Nat × TailerRef → Bool}
    (known : ∀ e ∈ l, ∃ t, s.tailer? e.2 = some t)
    (opened : ∀ e ∈ l, s.isClosedTailer e.2 = false → keep e = true) :
    closeTailers s l = closeTailers s (l.filter keep) := by
  induction l generalizing s with
  | nil => rfl
  | cons e rest ih =>
    have others : ∀ e ∈ rest, ∃ t, s.tailer? e.2 = some t :=
      fun e member => known e (List.mem_cons_of_mem _ member)
    cases kept : keep e with
    | false =>
      have closed : s.isClosedTailer e.2 = true := by
        refine Bool.of_not_eq_false fun still => ?_
        cases kept.symm.trans (opened e List.mem_cons_self still)
      rcases s.closeTailer_cases e.2 with ⟨-, same⟩ | ⟨still, -⟩
      · rw [List.filter_cons_of_neg (by simp [kept]),
          ← ih others fun e member => opened e (List.mem_cons_of_mem _ member)]
        simp only [closeTailers, same]
        rfl
      · cases closed.symm.trans still
    | true =>
      have later : ∀ e' ∈ rest, ∃ t, (s.closeTailer e.2).2.tailer? e'.2 = some t := by
        intro e' member
        obtain ⟨t, found⟩ := others e' member
        obtain ⟨t', found', -⟩ := Store.run_tailer found [.closeTailer e.2]
        exact ⟨t', found'⟩
      have still : ∀ e' ∈ rest, (s.closeTailer e.2).2.isClosedTailer e'.2 = false →
          keep e' = true := by
        intro e' member after
        apply opened e' (List.mem_cons_of_mem _ member)
        refine Bool.eq_false_iff.mpr fun before => ?_
        obtain ⟨t, found⟩ := others e' member
        have closed : (s.run [.closeTailer e.2]).isClosedTailer e'.2 = true :=
          Store.isClosedTailer_run found before
        cases after.symm.trans closed
      rw [List.filter_cons_of_pos kept]
      simp only [closeTailers]
      rw [ih later still]

theorem closeTailers_renumber (f : Nat → Nat) (s : Store) (l : List (Nat × TailerRef)) :
    closeTailers s (l.map (Prod.map f id)) =
      ((closeTailers s l).1.map (CloseFailure.renumber f), (closeTailers s l).2) := by
  induction l generalizing s with
  | nil => rfl
  | cons e rest ih =>
    obtain ⟨id, r⟩ := e
    simp only [List.map_cons, Prod.map_apply, closeTailers, id_eq, ih]
    split <;> rfl

theorem closeAppenders_renumber (f : Nat → Nat) (s : Store) (l : List (String × Nat)) :
    (closeAppenders s l).1.map (CloseFailure.renumber f) = (closeAppenders s l).1 := by
  rw [(closeAppenders_fails s l).1]
  cases s.failNextClose with
  | false => rfl
  | true => cases l.find? (!s.isClosedAppender ·.2) <;> rfl

/-- No tailer is closed before all appenders are. -/
theorem closing_tailers (b : Broker) : (b.store.run ((b.appenders.mergeSort fun x y =>
      x.1 ≤ y.1).map fun e => .closeAppender e.2)).isClosedTailer = b.store.isClosedTailer := by
  rw [← closeAppenders_run]
  exact (closeAppenders_fails b.store _).2.2

theorem pairwise_inOrder (o : Ownership) : o.inOrder.Pairwise fun a b => a.1 ≤ b.1 := by
  have sorted : o.inOrder.Pairwise fun a b => decide (a.1 ≤ b.1) = true := by
    refine List.pairwise_mergeSort (fun a b c first second => ?_) (fun a b => ?_) o.live
    · simp only [decide_eq_true_eq] at first second ⊢
      omega
    · simp only [Bool.or_eq_true, decide_eq_true_eq]
      omega
  exact sorted.imp (by simp)

/-- Distinct numbers have one order. -/
theorem inOrder_eq {o : Ownership} {l : List (Nat × TailerRef)}
    (numbered : (o.live.map (·.1)).Nodup) (same : l.Perm o.live)
    (sorted : l.Pairwise fun a b => a.1 ≤ b.1) : o.inOrder = l := by
  have perm : o.inOrder.Perm l := (List.mergeSort_perm _ _).trans same.symm
  refine perm.eq_of_pairwise ?_ (pairwise_inOrder o) sorted
  intro a b left right upper lower
  exact List.inj_on_of_nodup_map numbered (List.mem_mergeSort.mp left) (same.mem_iff.mp right)
    (Nat.le_antisymm upper lower)

/-- The open tailers in order are those that are open, put in order. -/
theorem filter_inOrder {o : Ownership} (numbered : (o.live.map (·.1)).Nodup)
    (keep : Nat × TailerRef → Bool) :
    o.inOrder.filter keep = (o.live.filter keep).mergeSort fun a b => a.1 ≤ b.1 := by
  have fewer : ((o.live.filter keep).map (·.1)).Nodup :=
    numbered.sublist (List.filter_sublist.map _)
  have same : (o.inOrder.filter keep).Perm (o.live.filter keep) :=
    (List.mergeSort_perm _ _).filter keep
  have sorted := (pairwise_inOrder o).filter keep
  exact (inOrder_eq (o := { o with live := o.live.filter keep }) fewer same sorted).symm

namespace Session

def withRecord (x : Session) (first gap : Nat) (o : Ownership) : Session where
  broker := x.broker.withRecord o (x.broker.nextNumber + gap)
  calls := x.calls.map (Call.renumber (shift first gap))
  explicit := x.explicit
  subscribed := x.subscribed

/-- The open tailers of two records are the same, with their numbers moved. -/
structure Alike (first gap : Nat) (x : Session) (o : Ownership) : Prop where
  drawn : first ≤ x.broker.nextNumber
  live : o.live.filter (!x.broker.store.isClosedTailer ·.2) =
    (x.broker.ownership.live.filter (!x.broker.store.isClosedTailer ·.2)).map
      (Prod.map (shift first gap) id)

structure Follows (first gap : Nat) (x : Session) (o : Ownership) (op : Operation) : Prop where
  answer : (x.withRecord first gap o).answer op = (x.answer op).renumber (shift first gap)
  act : ∃ o', (x.withRecord first gap o).act op = (x.act op).withRecord first gap o' ∧
    Alike first gap (x.act op) o'

variable {x : Session} {first gap : Nat} {o : Ownership}

theorem Alike.later (alike : Alike first gap x o) (sound : Sound x)
    (sound' : Sound (x.withRecord first gap o)) (as : List Store.Action) :
    o.live.filter (!(x.broker.store.run as).isClosedTailer ·.2) =
      (x.broker.ownership.live.filter (!(x.broker.store.run as).isClosedTailer ·.2)).map
        (Prod.map (shift first gap) id) := by
  have known : ∀ e ∈ o.live, ∃ t, x.broker.store.tailer? e.2 = some t := sound'.live
  rw [Store.filter_open_run known, Store.filter_open_run sound.live, alike.live, List.filter_map]
  rfl

theorem Alike.moves (alike : Alike first gap x o) (sound : Sound x)
    (sound' : Sound (x.withRecord first gap o)) {b : Broker} (moves : Moves x.broker b)
    {calls : List Call} : Alike first gap { x with broker := b, calls } o := by
  obtain ⟨⟨as, store⟩, ownership, nextNumber, -⟩ := moves
  constructor
  case drawn => exact nextNumber ▸ alike.drawn
  case live =>
    simp only [store, ownership]
    exact alike.later sound sound' as

theorem Alike.create (alike : Alike first gap x o) (sound : Sound x)
    (sound' : Sound (x.withRecord first gap o)) (name : String) (size : Nat) :
    Follows first gap x o (.create name size) := by
  have moves := (stays_create x.broker name size).toMoves
  constructor
  case answer =>
    simp only [answer, withRecord, createIfMissing_withRecord, fst_withRecord]
    rfl
  case act =>
    refine ⟨o, ?_, alike.moves sound sound' moves⟩
    simp only [act, withRecord, createIfMissing_withRecord, settle_withRecord, moves.nextNumber]

theorem Alike.delete (alike : Alike first gap x o) (sound : Sound x)
    (sound' : Sound (x.withRecord first gap o)) (name : String) :
    Follows first gap x o (.delete name) := by
  have moves := (stays_delete x.broker name).toMoves
  constructor
  case answer =>
    simp only [answer, withRecord, delete_withRecord, fst_withRecord]
    rfl
  case act =>
    refine ⟨o, ?_, alike.moves sound sound' moves⟩
    simp only [act, withRecord, delete_withRecord, settle_withRecord, moves.nextNumber]

theorem Alike.appender (alike : Alike first gap x o) (sound : Sound x)
    (sound' : Sound (x.withRecord first gap o)) (name : String) (type : MessageType)
    (codec : Option Codec) : Follows first gap x o (.appender name type codec) := by
  have moves := moves_appender x.broker name type codec
  constructor
  case answer =>
    simp only [answer, withRecord, appender_withRecord, fst_withRecord]
    rfl
  case act =>
    refine ⟨o, ?_, alike.moves sound sound' moves⟩
    simp only [act, withRecord, appender_withRecord, settle_withRecord, moves.nextNumber]

theorem Alike.store (alike : Alike first gap x o) (sound : Sound x)
    (sound' : Sound (x.withRecord first gap o)) (a : Store.Action) :
    Follows first gap x o (.store a) where
  answer := (x.broker.store.answer_renumber _ a).symm
  act := ⟨o, rfl, alike.moves sound sound' (stays_store x.broker [a]).toMoves⟩

theorem Alike.subscribe (alike : Alike first gap x o) (group : String) (names : List String)
    (type : MessageType) (codec : Option Codec) :
    Follows first gap x o (.subscribe group names type codec) := by
  have same : (x.withRecord first gap o).broker.checkSubscribe group =
      x.broker.checkSubscribe group := rfl
  constructor
  case answer => rfl
  case act =>
    refine ⟨o, ?_, ?_⟩
    · simp only [act, same]
      cases x.broker.checkSubscribe group with
      | error e => rfl
      | ok _ => simp [withRecord, Call.renumber]
    · simp only [act]
      cases x.broker.checkSubscribe group <;> exact ⟨alike.drawn, alike.live⟩

theorem Alike.ask (alike : Alike first gap x o) (sound : Sound x)
    (sound' : Sound (x.withRecord first gap o)) (i : Nat) : Follows first gap x o (.ask i) := by
  have call : (x.withRecord first gap o).calls[i]? =
      x.calls[i]?.map (Call.renumber (shift first gap)) := List.getElem?_map
  constructor
  case answer => rfl
  case act =>
    simp only [act, Session.ask, call]
    cases there : x.calls[i]? with
    | none => exact ⟨o, rfl, alike⟩
    | some c =>
      cases c with
      | created | subscribed => exact ⟨o, rfl, alike⟩
      | creating k =>
        have moves := (stays_askTailer x.broker k).toMoves
        refine ⟨o, ?_, alike.moves sound sound' moves⟩
        simp only [Option.map_some, Call.renumber, withRecord, List.map_set]
        rfl
      | subscribing group names type codec =>
        have moves := (stays_askSubscribe x.broker group names type codec).toMoves
        refine ⟨o, ?_, alike.moves sound sound' moves⟩
        simp only [Option.map_some, Call.renumber, withRecord, List.map_set,
          askSubscribe_withRecord, settle_withRecord, fst_withRecord, moves.nextNumber]

theorem has_withRecord (x : Session) (first gap : Nat) (o : Ownership) (key : GroupPartition) :
    (x.withRecord first gap o).holders.Has key ↔ x.holders.Has key := by
  have keys : (x.withRecord first gap o).tickets.map Ticket.keys = x.tickets.map Ticket.keys := by
    simp only [tickets, withRecord, List.filterMap_map, List.map_filterMap]
    congr 1
    funext c
    cases c <;> rfl
  have creating : (∃ k ∈ (x.withRecord first gap o).tickets, key ∈ k.keys) ↔
      ∃ k ∈ x.tickets, key ∈ k.keys := by
    have mem (l : List Ticket) : (∃ k ∈ l, key ∈ k.keys) ↔ ∃ keys ∈ l.map Ticket.keys, key ∈ keys := by
      simp
    rw [mem, mem, keys]
  exact or_congr creating Iff.rfl

/-- A key is refused in both sessions or in none. -/
theorem taken?_withRecord (sound : Sound x) (sound' : Sound (x.withRecord first gap o))
    (opened : x.broker.closed = false) (group : String) (partitions : List Partition) :
    (o.prune x.broker.store.isClosedTailer).taken? x.broker.store.isClosedTailer
        (partitions.map (⟨group, ·⟩)) =
      (x.broker.ownership.prune x.broker.store.isClosedTailer).taken?
        x.broker.store.isClosedTailer (partitions.map (⟨group, ·⟩)) := by
  refine Option.ext fun key => ?_
  have here := sound.taken? opened group partitions key
  have there := sound'.taken? opened group partitions key
  simp only [has_withRecord] at there
  exact there.trans here.symm

theorem Alike.pruned (alike : Alike first gap x o) {p q : Ownership} {calls : List Call}
    (here : p.live = (x.broker.ownership.prune x.broker.store.isClosedTailer).live)
    (there : q.live = (o.prune x.broker.store.isClosedTailer).live) :
    Alike first gap
      { x with broker := x.broker.withRecord p (x.broker.nextNumber + 1), calls } q := by
  constructor
  case drawn => exact Nat.le_succ_of_le alike.drawn
  case live =>
    have twice (l : List (Nat × TailerRef)) :
        (l.filter (!x.broker.store.isClosedTailer ·.2)).filter
          (!x.broker.store.isClosedTailer ·.2) = l.filter (!x.broker.store.isClosedTailer ·.2) := by
      simp only [List.filter_filter, Bool.and_self]
    show q.live.filter (!x.broker.store.isClosedTailer ·.2) =
      (p.live.filter (!x.broker.store.isClosedTailer ·.2)).map (Prod.map (shift first gap) id)
    rw [here, there]
    exact (twice _).trans (alike.live.trans (congrArg _ (twice _).symm))

/-- A number is drawn in both sessions. -/
theorem drawn_withRecord (x : Session) (first gap : Nat) (o p q : Ownership) (calls : List Call) :
    { x.withRecord first gap o with
      broker := (x.withRecord first gap o).broker.withRecord q
        ((x.withRecord first gap o).broker.nextNumber + 1)
      calls := calls.map (Call.renumber (shift first gap)) } =
    Session.withRecord { x with
      broker := x.broker.withRecord p (x.broker.nextNumber + 1), calls } first gap q := by
  simp only [withRecord, Broker.withRecord, Nat.add_right_comm]

/-- Both sessions refuse a creation after they have drawn a number. -/
theorem Alike.refuses (alike : Alike first gap x o) {group : String} {partitions : List Partition}
    {type : MessageType} {codec : Option Codec} {e : LogFault} {p q : Ownership}
    (here : x.broker.beginTailer group partitions type codec =
      (.error e, x.broker.withRecord p (x.broker.nextNumber + 1)))
    (there : (x.withRecord first gap o).broker.beginTailer group partitions type codec =
      (.error e, (x.withRecord first gap o).broker.withRecord q
        ((x.withRecord first gap o).broker.nextNumber + 1)))
    (live : p.live = (x.broker.ownership.prune x.broker.store.isClosedTailer).live)
    (live' : q.live = (o.prune x.broker.store.isClosedTailer).live) :
    Follows first gap x o (.createTailer group partitions type codec) := by
  constructor
  case answer =>
    simp only [answer, here, there]
    rfl
  case act =>
    simp only [act, here, there]
    exact ⟨_, drawn_withRecord x first gap o _ _ _, alike.pruned live live'⟩

theorem Alike.createTailer (alike : Alike first gap x o) (sound : Sound x)
    (sound' : Sound (x.withRecord first gap o)) (group : String) (partitions : List Partition)
    (type : MessageType) (codec : Option Codec) :
    Follows first gap x o (.createTailer group partitions type codec) := by
  have here := beginTailer_eq x.broker group partitions type codec
  have there := beginTailer_eq (x.withRecord first gap o).broker group partitions type codec
  have request : (x.withRecord first gap o).broker.checkRequest group partitions =
      x.broker.checkRequest group partitions := rfl
  have logs (names : List String) : (x.withRecord first gap o).broker.checkLogs codec names =
      x.broker.checkLogs codec names := checkLogs_congr codec names rfl rfl
  simp only [request, logs] at here there
  cases checked : x.broker.checkRequest group partitions with
  | error e =>
    simp only [checked] at here there
    constructor
    case answer =>
      simp only [answer, here, there]
      rfl
    case act =>
      simp only [act, here, there]
      exact ⟨o, rfl, alike⟩
  | ok _ =>
    have opened := checkRequest_open checked
    have same : ((x.withRecord first gap o).broker.ownership.prune
          (x.withRecord first gap o).broker.store.isClosedTailer).taken?
          (x.withRecord first gap o).broker.store.isClosedTailer
          ((x.withRecord first gap o).broker.nextTicket group partitions type codec).keys =
        (x.broker.ownership.prune x.broker.store.isClosedTailer).taken?
          x.broker.store.isClosedTailer (x.broker.nextTicket group partitions type codec).keys :=
      taken?_withRecord sound sound' opened group partitions.eraseDups
    have parts : ((x.withRecord first gap o).broker.nextTicket group partitions type
        codec).partitions = (x.broker.nextTicket group partitions type codec).partitions := rfl
    simp only [checked, same, parts] at here there
    cases taken : (x.broker.ownership.prune x.broker.store.isClosedTailer).taken?
        x.broker.store.isClosedTailer (x.broker.nextTicket group partitions type codec).keys with
    | some key =>
      simp only [taken] at here there
      exact alike.refuses here there rfl rfl
    | none =>
      simp only [taken] at here there
      cases fit : x.broker.checkLogs codec
          ((x.broker.nextTicket group partitions type codec).partitions.map (·.log)).eraseDups with
      | error e =>
        simp only [fit] at here there
        exact alike.refuses here there rfl rfl
      | ok _ =>
        simp only [fit] at here there
        have ticket : (x.withRecord first gap o).broker.nextTicket group partitions type codec =
            (x.broker.nextTicket group partitions type codec).renumber (shift first gap) := by
          simp only [nextTicket, Ticket.renumber, shift_from alike.drawn]
          rfl
        have calls : (x.withRecord first gap o).calls ++ [Call.creating
              ((x.withRecord first gap o).broker.nextTicket group partitions type codec)] =
            (x.calls ++ [Call.creating (x.broker.nextTicket group partitions type codec)]).map
              (Call.renumber (shift first gap)) := by
          rw [ticket, List.map_append]
          rfl
        constructor
        case answer =>
          simp only [answer, here, there]
          rfl
        case act =>
          simp only [act, here, there, calls]
          exact ⟨_, drawn_withRecord x first gap o _ _ _, alike.pruned rfl rfl⟩

/-! The end of a call. A tailer that is opened is put on record, be it handed out or closed. -/

theorem filter_cons_shift {s : Store} {here there : List (Nat × TailerRef)}
    (rest : there.filter (!s.isClosedTailer ·.2) =
      (here.filter (!s.isClosedTailer ·.2)).map (Prod.map (shift first gap) id))
    (number : Nat) (r : TailerRef) :
    ((shift first gap number, r) :: there).filter (!s.isClosedTailer ·.2) =
      (((number, r) :: here).filter (!s.isClosedTailer ·.2)).map
        (Prod.map (shift first gap) id) := by
  simp only [List.filter_cons]
  cases s.isClosedTailer r with
  | true => simpa using rest
  | false => simpa using rest

theorem calls_withRecord (x : Session) (first gap : Nat) (o : Ownership) (i : Nat) :
    (x.withRecord first gap o).calls[i]? = x.calls[i]?.map (Call.renumber (shift first gap)) ∧
      (x.withRecord first gap o).calls.eraseIdx i =
        (x.calls.eraseIdx i).map (Call.renumber (shift first gap)) :=
  ⟨List.getElem?_map, List.eraseIdx_map ..⟩

theorem Alike.finishTailer (alike : Alike first gap x o) (sound : Sound x)
    (sound' : Sound (x.withRecord first gap o)) {k : Ticket} {outcome : Outcome TailerRef}
    (there : x.calls[i]? = some (.created k outcome)) : Follows first gap x o (.finish i) := by
  obtain ⟨call, erased⟩ := calls_withRecord x first gap o i
  obtain ⟨ownership, next⟩ := record_finishTailer x.broker k outcome
  have finished : (x.withRecord first gap o).broker.finishTailer
        (k.renumber (shift first gap)) outcome = _ := finishTailer_withRecord _ k outcome
  simp only [there, Option.map_some, Call.renumber] at call
  constructor
  case answer =>
    simp only [answer, there, call, finished]
    rfl
  case act =>
    refine ⟨recordCreated o (shift first gap k.number) k.keys outcome, ?_, ?_, ?_⟩
    · simp only [act, finish, there, call, erased, finished]
      simp only [withRecord, next]
    · simp only [act, finish, there, next]
      exact alike.drawn
    · rw [store_act]
      simp only [act, finish, there, ownership]
      cases outcome with
      | error e => exact alike.later sound sound' _
      | ok r => exact filter_cons_shift (alike.later sound sound' _) k.number r

theorem Alike.finishSubscribe (alike : Alike first gap x o) (sound : Sound x)
    (sound' : Sound (x.withRecord first gap o)) {outcome : Outcome TailerRef}
    (there : x.calls[i]? = some (.subscribed outcome)) : Follows first gap x o (.finish i) := by
  obtain ⟨call, erased⟩ := calls_withRecord x first gap o i
  obtain ⟨ownership, next⟩ := record_finishSubscribe x.broker outcome
  have finished : (x.withRecord first gap o).broker.finishSubscribe outcome = _ :=
    finishSubscribe_withRecord outcome
  simp only [there, Option.map_some, Call.renumber] at call
  constructor
  case answer =>
    simp only [answer, there, call, finished]
    rfl
  case act =>
    refine ⟨(recordSubscribed o x.broker.store.isClosedTailer (x.broker.nextNumber + gap)
      outcome).1, ?_, ?_, ?_⟩
    · simp only [act, finish, there, call, erased, finished]
      simp only [withRecord, next]
      cases outcome with
      | error e => rfl
      | ok r => simp only [recordSubscribed, Nat.add_right_comm]
    · simp only [act, finish, there, next]
      cases outcome with
      | error e => exact alike.drawn
      | ok r => exact Nat.le_succ_of_le alike.drawn
    · rw [store_act]
      simp only [act, finish, there, ownership]
      cases outcome with
      | error e => exact alike.later sound sound' _
      | ok r =>
        have known : ∀ e ∈ o.live, ∃ t, x.broker.store.tailer? e.2 = some t := sound'.live
        have later := alike.later sound sound' (x.storeActions (.finish i))
        rw [Store.filter_open_run known, Store.filter_open_run sound.live] at later
        have tracked := filter_cons_shift later x.broker.nextNumber r
        rw [shift_from alike.drawn] at tracked
        exact tracked

theorem Alike.finish (alike : Alike first gap x o) (sound : Sound x)
    (sound' : Sound (x.withRecord first gap o)) (i : Nat) : Follows first gap x o (.finish i) := by
  obtain ⟨call, -⟩ := calls_withRecord x first gap o i
  cases there : x.calls[i]? with
  | none =>
    rw [there] at call
    exact ⟨by simp [answer, there, call, Answer.renumber], o, by simp [act, Session.finish, there, call],
      by simpa [act, Session.finish, there] using alike⟩
  | some c =>
    rw [there] at call
    cases c with
    | created k outcome => exact alike.finishTailer sound sound' there
    | subscribed outcome => exact alike.finishSubscribe sound sound' there
    | creating | subscribing =>
      exact ⟨by simp [answer, there, call, Call.renumber, Answer.renumber], o,
        by simp [act, Session.finish, there, call, Call.renumber],
        by simpa [act, Session.finish, there] using alike⟩

/-- The tailers of two records are closed alike, in the order of their numbers. -/
theorem Alike.closes (alike : Alike first gap x o) (sound : Sound x)
    (sound' : Sound (x.withRecord first gap o)) (opened : x.broker.closed = false)
    (as : List Store.Action)
    (same : (x.broker.store.run as).isClosedTailer = x.broker.store.isClosedTailer) :
    closeTailers (x.broker.store.run as) o.inOrder =
      ((closeTailers (x.broker.store.run as) x.broker.ownership.inOrder).1.map
          (CloseFailure.renumber (shift first gap)),
        (closeTailers (x.broker.store.run as) x.broker.ownership.inOrder).2) := by
  have numbered := (sound.agrees opened).numbered
  have numbered' : (o.live.map (·.1)).Nodup := (sound'.agrees opened).numbered
  have live' : ∀ e ∈ o.live, ∃ t, x.broker.store.tailer? e.2 = some t := sound'.live
  have known {p : Ownership} (live : ∀ e ∈ p.live, ∃ t, x.broker.store.tailer? e.2 = some t)
      (e : Nat × TailerRef) (member : e ∈ p.inOrder) :
      ∃ t, (x.broker.store.run as).tailer? e.2 = some t := by
    obtain ⟨t, found⟩ := live e (List.mem_mergeSort.mp member)
    obtain ⟨t', found', -⟩ := Store.run_tailer found as
    exact ⟨t', found'⟩
  have keeps (e : Nat × TailerRef) (still : (x.broker.store.run as).isClosedTailer e.2 = false) :
      (!x.broker.store.isClosedTailer e.2) = true := by
    rw [← same, still]
    rfl
  have order (e : Nat × TailerRef) (e' : Nat × TailerRef) : decide (e.1 ≤ e'.1) =
      decide ((Prod.map (shift first gap) id e).1 ≤ (Prod.map (shift first gap) id e').1) :=
    decide_eq_decide.mpr shift_le.symm
  rw [closeTailers_filter (known live') fun e _ => keeps e, filter_inOrder numbered',
    alike.live, ← List.map_mergeSort fun a _ b _ => order a b, closeTailers_renumber,
    ← filter_inOrder numbered, ← closeTailers_filter (known sound.live) fun e _ => keeps e]

theorem Alike.close (alike : Alike first gap x o) (sound : Sound x)
    (sound' : Sound (x.withRecord first gap o)) : Follows first gap x o .close := by
  cases closed : x.broker.closed with
  | true =>
    have closed' : (x.withRecord first gap o).broker.closed = true := closed
    constructor
    case answer =>
      simp only [answer, Broker.close, closed, closed', if_true]
      rfl
    case act =>
      refine ⟨o, ?_, ?_⟩
      · simp only [act, Broker.close, closed, closed', if_true]
      · simp only [act, Broker.close, closed, if_true]
        exact alike
  | false =>
    have opened : (x.withRecord first gap o).broker.closed = false := closed
    have closes := alike.closes sound sound' closed _ (closing_tailers x.broker)
    rw [← closeAppenders_run] at closes
    have store : x.broker.store.run (x.withRecord first gap o).broker.closing =
        x.broker.store.run x.broker.closing := by
      simp only [closing, Store.run_append, ← closeAppenders_run, ← closeTailers_run]
      exact congrArg (·.2) closes
    have failures : (x.withRecord first gap o).broker.closeFailures =
        x.broker.closeFailures.map (CloseFailure.renumber (shift first gap)) := by
      simp only [closeFailures, List.map_append, closeAppenders_renumber]
      exact congrArg (_ ++ ·.1) closes
    constructor
    case answer =>
      simp only [answer, close_fst closed, close_fst opened, failures, List.isEmpty_map]
      split <;> rfl
    case act =>
      refine ⟨{}, ?_, ?_, ?_⟩
      · simp only [act, close_eq closed, close_eq opened, ← store]
        rfl
      · simp only [act, close_eq closed]
        exact alike.drawn
      · simp only [act, close_eq closed]
        rfl

theorem Alike.act (alike : Alike first gap x o) (sound : Sound x)
    (sound' : Sound (x.withRecord first gap o)) (op : Operation) : Follows first gap x o op := by
  cases op with
  | create name size => exact alike.create sound sound' name size
  | delete name => exact alike.delete sound sound' name
  | appender name type codec => exact alike.appender sound sound' name type codec
  | createTailer group partitions type codec =>
    exact alike.createTailer sound sound' group partitions type codec
  | subscribe group names type codec => exact alike.subscribe group names type codec
  | ask i => exact alike.ask sound sound' i
  | finish i => exact alike.finish sound sound' i
  | close => exact alike.close sound sound'
  | store a => exact alike.store sound sound' a

/-- A session with other numbers and another record goes on alike. -/
theorem Alike.run (alike : Alike first gap x o) (sound : Sound x)
    (sound' : Sound (x.withRecord first gap o)) (ops : List Operation) :
    (x.withRecord first gap o).answers ops =
        (x.answers ops).map (Answer.renumber (shift first gap)) ∧
      ∃ o', (x.withRecord first gap o).run ops = (x.run ops).withRecord first gap o' ∧
        Alike first gap (x.run ops) o' := by
  induction ops generalizing x o with
  | nil => exact ⟨rfl, o, rfl, alike⟩
  | cons op ops ih =>
    obtain ⟨answer, o', same, alike'⟩ := alike.act sound sound' op
    obtain ⟨answers, later⟩ := ih alike' (sound.act op) (same ▸ sound'.act op)
    constructor
    · simp only [Session.answers, answer, same, answers, List.map_cons]
    · simp only [Session.run, List.foldl_cons, same]
      exact later

end Session

end Broker

end Logbook
