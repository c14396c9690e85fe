import Mathlib.Data.List.Perm.Subperm
import Logbook.Proofs.Broker.Trace
import Logbook.Proofs.Broker.Soundness
import Logbook.Proofs.Store.Members

/-! What a broker keeps track of: among the tailers and appenders that are open, those on record are
the ones that were handed out. -/
namespace Logbook

namespace Store

variable {s : Store} {r : TailerRef}

theorem createTailer_absent (numbered : Numbered s) {group : String} {partitions : List Partition}
    {type : MessageType} {codec : Option Codec}
    (answer : (s.createTailer group partitions type codec).1 = .ok r) : s.tailer? r = none := by
  unfold createTailer at answer
  cases checked : s.checkPartitions partitions with
  | error e => simp [checked] at answer
  | ok _ =>
    cases fails : s.failNextTailer with
    | true => simp [checked, fails] at answer
    | false =>
      simp only [checked, fails, Bool.false_eq_true, if_false, addTailer] at answer
      cases answer
      exact numbered.nextRef group

theorem subscribe_absent (numbered : Numbered s) {group : String} {names : List String}
    {type : MessageType} {codec : Option Codec} {s' : Store}
    (answer : s.subscribe group names type codec = .ok (r, s')) : s.tailer? r = none := by
  rcases subscribe_cases s group names type codec with ⟨e, refused⟩ | joined
  · cases refused.symm.trans answer
  · cases joined.symm.trans answer
    exact numbered.nextRef group

/-- Of tailers that the store knows, fewer and fewer are open. -/
theorem filter_open_run {l : List β} {ref : β → TailerRef}
    (known : ∀ e ∈ l, ∃ t, s.tailer? (ref e) = some t) (as : List Action) :
    l.filter (fun e => !(s.run as).isClosedTailer (ref e)) =
      (l.filter (fun e => !s.isClosedTailer (ref e))).filter
        fun e => !(s.run as).isClosedTailer (ref e) := by
  rw [List.filter_filter]
  refine List.filter_congr fun e member => ?_
  obtain ⟨t, found⟩ := known e member
  cases before : s.isClosedTailer (ref e) with
  | true => simp [isClosedTailer_run found before]
  | false => simp

end Store

namespace Broker

theorem map_prune (o : Ownership) (isClosed : TailerRef → Bool) :
    (o.prune isClosed).live.map (·.2) = (o.live.map (·.2)).filter (!isClosed ·) := by
  rw [List.filter_map]
  rfl

def Call.tailer? : Call → Option TailerRef
  | created _ answer | subscribed answer => answer.toOption
  | _ => none

namespace Session

/-- Tailers that calls have yet to return. -/
def answered (x : Session) : List TailerRef := x.calls.filterMap Call.tailer?

/-- The tailers that calls have returned. -/
def returned (x : Session) : List TailerRef := x.explicit ++ x.subscribed

/-- Every tailer is returned once, and the open tailers on record are those that were returned. -/
structure Tracked (x : Session) : Prop where
  once : (x.answered ++ x.returned).Nodup
  known : ∀ r ∈ x.answered ++ x.returned, ∃ t, x.broker.store.tailer? r = some t
  live : ((x.broker.ownership.live.map (·.2)).filter (!x.broker.store.isClosedTailer ·)).Perm
    (x.returned.filter (!x.broker.store.isClosedTailer ·))

variable {x : Session} {r : TailerRef}

theorem tracked_start (config : StoreConfig) (limits : Limits) : Tracked (start config limits) where
  once := List.nodup_nil
  known r member := by cases member
  live := .refl _

theorem Sound.recorded (sound : Sound x) : ∀ r ∈ x.broker.ownership.live.map (·.2),
    ∃ t, x.broker.store.tailer? r = some t := by
  intro r member
  obtain ⟨e, live, rfl⟩ := List.mem_map.mp member
  exact sound.live e live

/-- An open tailer is on record exactly if it was returned. -/
theorem Tracked.mem_live (tracked : Tracked x) (opened : x.broker.store.isClosedTailer r = false) :
    (∃ id, (id, r) ∈ x.broker.ownership.live) ↔ r ∈ x.returned := by
  have same := tracked.live.mem_iff (a := r)
  simpa [List.mem_filter, opened] using same

theorem Tracked.moves (tracked : Tracked x) (sound : Sound x) {b : Broker}
    (moves : Moves x.broker b) : Tracked { x with broker := b } := by
  obtain ⟨⟨as, store⟩, ownership, -, -⟩ := moves
  constructor
  case once => exact tracked.once
  case known =>
    intro r member
    obtain ⟨t, found⟩ := tracked.known r member
    obtain ⟨t', found', -⟩ := Store.run_tailer found as
    exact ⟨t', store ▸ found'⟩
  case live =>
    have returned : ∀ r ∈ x.returned, ∃ t, x.broker.store.tailer? r = some t :=
      fun r member => tracked.known r (List.mem_append_right _ member)
    show List.Perm _ (x.returned.filter _)
    rw [ownership, store, Store.filter_open_run sound.recorded, Store.filter_open_run returned]
    exact tracked.live.filter _

/-- The record changes together with the calls in progress and the tailers returned. -/
theorem Tracked.records (tracked : Tracked x) {o : Ownership} {next : Nat} {calls : List Call}
    {explicit subscribed : List TailerRef}
    (fewer : (calls.filterMap Call.tailer? ++ (explicit ++ subscribed)).Subperm
      (x.answered ++ x.returned))
    (live : ((o.live.map (·.2)).filter (!x.broker.store.isClosedTailer ·)).Perm
      ((explicit ++ subscribed).filter (!x.broker.store.isClosedTailer ·))) :
    Tracked { broker := { x.broker with ownership := o, nextNumber := next }
              calls, explicit, subscribed } := by
  constructor
  case once =>
    obtain ⟨l, same, sublist⟩ := fewer
    exact same.nodup_iff.mp (tracked.once.sublist sublist)
  case known => exact fun r member => tracked.known r (fewer.subset member)
  case live => exact live

/-- The store answers a call, with a new tailer if any. -/
theorem Tracked.answer (tracked : Tracked x) {c d : Call} (there : x.calls[i]? = some c)
    (asked : c.tailer? = none) (new : ∀ r, d.tailer? = some r →
      r ∉ x.answered ++ x.returned ∧ ∃ t, x.broker.store.tailer? r = some t) :
    Tracked { x with calls := x.calls.set i d } := by
  obtain ⟨before, after, split, -, set⟩ := filterMap_split there Call.tailer?
  rw [asked, Option.toList_none, List.append_nil] at split
  cases answer : d.tailer? with
  | none =>
    have same : (x.calls.set i d).filterMap Call.tailer? = x.answered := by
      rw [set, answer, answered, split, Option.toList_none, List.append_nil]
    exact tracked.records (by rw [same]; exact List.Subperm.refl _) tracked.live
  | some r =>
    obtain ⟨fresh, found⟩ := new r answer
    have more : ((x.calls.set i d).filterMap Call.tailer? ++ x.returned).Perm
        (r :: (x.answered ++ x.returned)) := by
      rw [set, answer, answered, split, Option.toList_some, List.append_assoc before]
      exact List.perm_middle.append_right x.returned
    constructor
    case once => exact more.nodup_iff.mpr (List.nodup_cons.mpr ⟨fresh, tracked.once⟩)
    case known =>
      intro q member
      rcases List.mem_cons.mp (more.subset member) with rfl | old
      · exact found
      · exact tracked.known q old
    case live => exact tracked.live

theorem Tracked.ask (tracked : Tracked x) (sound : Sound x) (i : Nat) : Tracked (x.ask i) := by
  have fresh {r : TailerRef} (absent : x.broker.store.tailer? r = none) :
      r ∉ x.answered ++ x.returned := by
    intro member
    obtain ⟨t, found⟩ := tracked.known r member
    cases absent.symm.trans found
  unfold Session.ask
  split
  · rename_i k there
    have moved := tracked.moves sound (stays_askTailer x.broker k).toMoves
    refine moved.answer there rfl fun r answer => ?_
    have made : (x.broker.askTailer k).1 = .ok r := by
      have answer : (x.broker.askTailer k).1.toOption = some r := answer
      cases outcome : (x.broker.askTailer k).1 with
      | error e =>
        rw [outcome] at answer
        cases answer
      | ok q =>
        rw [outcome] at answer
        exact congrArg _ (Option.some.inj answer)
    obtain ⟨-, t, found, -⟩ := Store.createTailer_ok sound.numbered made
    exact ⟨fresh (Store.createTailer_absent sound.numbered made), t, found⟩
  · rename_i group names type codec there
    have moved := tracked.moves sound (stays_askSubscribe x.broker group names type codec).toMoves
    refine moved.answer there rfl fun r answer => ?_
    cases asked : x.broker.store.subscribe group names type codec with
    | error e =>
      simp [askSubscribe, asked, bind, Except.bind, Except.map, Call.tailer?, Except.toOption]
        at answer
    | ok made =>
      obtain ⟨q, s⟩ := made
      simp only [askSubscribe, asked, bind, Except.bind, Except.map, pure, Except.pure,
        Call.tailer?, Except.toOption, Option.some.injEq] at answer
      subst answer
      obtain ⟨-, t, found⟩ := Store.subscribe_ok asked
      refine ⟨fresh (Store.subscribe_absent sound.numbered asked), t, ?_⟩
      simpa [askSubscribe, asked, bind, Except.bind, settle, pure, Except.pure] using found
  · exact tracked

/-- What becomes of a tailer that is answered: it is returned and put on record, or it is closed. -/
theorem handOut_perm {before after l : List TailerRef} {p : TailerRef → Bool}
    (same : (l.filter p).Perm ((before ++ after).filter p)) (r : TailerRef) :
    ((r :: l).filter p).Perm ((before ++ r :: after).filter p) := by
  have moved : (before ++ r :: after).Perm (r :: (before ++ after)) := List.perm_middle
  refine .trans ?_ (moved.filter p).symm
  simp only [List.filter_cons]
  split
  · exact same.cons r
  · exact same

/-- A call ends without a tailer being returned. -/
theorem Tracked.drop (tracked : Tracked x) {o : Ownership} {next i : Nat}
    (live : ((o.live.map (·.2)).filter (!x.broker.store.isClosedTailer ·)).Perm
      (x.returned.filter (!x.broker.store.isClosedTailer ·))) :
    Tracked { x with
      broker := { x.broker with ownership := o, nextNumber := next }
      calls := x.calls.eraseIdx i } := by
  have fewer : ((x.calls.eraseIdx i).filterMap Call.tailer?).Sublist x.answered :=
    (List.eraseIdx_sublist _ _).filterMap _
  exact tracked.records (fewer.append_right _).subperm live

/-- The recorded tailers that are open are those left after the record was pruned. -/
theorem Tracked.prune (tracked : Tracked x) :
    (((x.broker.ownership.prune x.broker.store.isClosedTailer).live.map (·.2)).filter
      (!x.broker.store.isClosedTailer ·)).Perm
        (x.returned.filter (!x.broker.store.isClosedTailer ·)) := by
  rw [map_prune, List.filter_filter]
  simpa only [Bool.and_self] using tracked.live

theorem Tracked.createTailer (tracked : Tracked x) (group : String) (partitions : List Partition)
    (type : MessageType) (codec : Option Codec) :
    Tracked (x.act (.createTailer group partitions type codec)) := by
  have step := begins x.broker group partitions type codec
  have answered (k : Ticket) :
      (x.calls ++ [Call.creating k]).filterMap Call.tailer? = x.answered :=
    List.filterMap_append.trans (List.append_nil _)
  simp only [act]
  generalize x.broker.beginTailer group partitions type codec = result at step
  obtain ⟨outcome, b⟩ := result
  cases step with
  | refused => exact tracked
  | taken => exact tracked.records (.refl _) tracked.prune
  | unfit => exact tracked.records (.refl _) tracked.prune
  | reserves =>
    refine tracked.records ?_ tracked.prune
    rw [answered]
    exact .refl _

theorem Tracked.subscribe (tracked : Tracked x) (group : String) (names : List String)
    (type : MessageType) (codec : Option Codec) :
    Tracked (x.act (.subscribe group names type codec)) := by
  simp only [act]
  cases x.broker.checkSubscribe group with
  | error e => exact tracked
  | ok _ =>
    refine tracked.records ?_ tracked.live
    have answered : (x.calls ++ [Call.subscribing group names type codec]).filterMap Call.tailer? =
        x.answered := List.filterMap_append.trans (List.append_nil _)
    rw [answered]
    exact .refl _

/-- A tailer that was opened while the broker was being closed is put on record, but closed. -/
theorem Tracked.discard (tracked : Tracked x) (sound : Sound x) {o : Ownership} {next i : Nat}
    {refs : List TailerRef} {t : Tailer} (found : x.broker.store.tailer? r = some t)
    (live : o.live.map (·.2) = r :: refs)
    (kept : refs.filter (!(x.broker.store.act (.closeTailer r)).isClosedTailer ·) =
      (x.broker.ownership.live.map (·.2)).filter
        (!(x.broker.store.act (.closeTailer r)).isClosedTailer ·)) :
    Tracked { x with
      broker := { x.broker with
        store := x.broker.store.act (.closeTailer r), ownership := o, nextNumber := next }
      calls := x.calls.eraseIdx i } := by
  have moved := tracked.moves sound (stays_store x.broker [.closeTailer r]).toMoves
  obtain ⟨t', found', shut⟩ := Store.closeTailer_closes found
  have closed : (x.broker.store.act (.closeTailer r)).isClosedTailer r = true :=
    (Store.isClosedTailer_eq found').trans shut
  refine moved.drop (.trans (.of_eq ?_) moved.live)
  rw [live, List.filter_cons_of_neg (by simp [closed])]
  exact kept

theorem Tracked.finishTailer (tracked : Tracked x) (sound : Sound x) {k : Ticket}
    {answer : Outcome TailerRef} (there : x.calls[i]? = some (.created k answer)) :
    Tracked (x.finish i) := by
  simp only [Session.finish, there]
  cases answer with
  | error e => exact tracked.drop tracked.live
  | ok r =>
    obtain ⟨t, found, -⟩ := (sound.created k r (List.mem_of_getElem? there)).tailer
    simp only [Broker.finishTailer]
    by_cases closed : x.broker.closed = true
    · simp only [if_pos closed]
      exact tracked.discard sound found rfl rfl
    · obtain ⟨before, after, split, erased, -⟩ := filterMap_split there Call.tailer?
      have same : ((x.calls.eraseIdx i).filterMap Call.tailer? ++
          ((x.explicit ++ [r]) ++ x.subscribed)).Perm (x.answered ++ x.returned) := by
        rw [erased, answered, split, returned]
        simp only [Call.tailer?, Except.toOption, Option.toList_some, List.perm_iff_count,
          List.count_append]
        intro q
        omega
      have live := handOut_perm tracked.live r
      rw [List.append_cons] at live
      simp only [if_neg closed]
      exact tracked.records same.subperm live

theorem Tracked.finishSubscribe (tracked : Tracked x) (sound : Sound x)
    {answer : Outcome TailerRef} (there : x.calls[i]? = some (.subscribed answer)) :
    Tracked (x.finish i) := by
  simp only [Session.finish, there]
  cases answer with
  | error e => exact tracked.drop tracked.live
  | ok r =>
    obtain ⟨t, found⟩ := sound.subscribed r (List.mem_of_getElem? there)
    simp only [Broker.finishSubscribe]
    by_cases closed : x.broker.closed = true
    · have kept := Store.filter_open_run sound.recorded [.closeTailer r]
      rw [← map_prune x.broker.ownership x.broker.store.isClosedTailer] at kept
      simp only [if_pos closed]
      exact tracked.discard sound found rfl kept.symm
    · obtain ⟨before, after, split, erased, -⟩ := filterMap_split there Call.tailer?
      have same : ((x.calls.eraseIdx i).filterMap Call.tailer? ++
          (x.explicit ++ (x.subscribed ++ [r]))).Perm (x.answered ++ x.returned) := by
        rw [erased, answered, split, returned]
        simp only [Call.tailer?, Except.toOption, Option.toList_some, List.perm_iff_count,
          List.count_append]
        intro q
        omega
      have ends : x.returned = x.returned ++ [] := (List.append_nil _).symm
      have live := handOut_perm (ends ▸ tracked.prune) r
      rw [returned, List.append_assoc] at live
      simp only [if_neg closed]
      exact tracked.records same.subperm live

theorem Tracked.finish (tracked : Tracked x) (sound : Sound x) (i : Nat) : Tracked (x.finish i) := by
  cases there : x.calls[i]? with
  | none =>
    simp only [Session.finish, there]
    exact tracked
  | some c =>
    cases c with
    | created k answer => exact tracked.finishTailer sound there
    | subscribed answer => exact tracked.finishSubscribe sound there
    | creating k =>
      simp only [Session.finish, there]
      exact tracked
    | subscribing group names type codec =>
      simp only [Session.finish, there]
      exact tracked

/-- A broker that closes, closes every tailer that it has returned. -/
theorem Tracked.closes (tracked : Tracked x) (member : r ∈ x.returned) :
    (x.broker.store.run x.broker.closing).isClosedTailer r = true := by
  obtain ⟨t, found⟩ := tracked.known r (List.mem_append_right _ member)
  cases already : x.broker.store.isClosedTailer r with
  | true => exact Store.isClosedTailer_run found already
  | false =>
    obtain ⟨id, live⟩ := (tracked.mem_live already).mpr member
    exact closing_closes live found

theorem Tracked.close (tracked : Tracked x) (sound : Sound x) : Tracked (x.act .close) := by
  cases closed : x.broker.closed with
  | true =>
    simp only [act, Broker.close, closed, if_true]
    exact tracked
  | false =>
    have moved := tracked.moves sound (stays_store x.broker x.broker.closing).toMoves
    have shut : x.returned.filter
        (!(x.broker.store.run x.broker.closing).isClosedTailer ·) = [] := by
      refine List.filter_eq_nil_iff.mpr fun r member => ?_
      simp [tracked.closes member]
    simp only [act, close_eq closed]
    constructor
    case once => exact moved.once
    case known => exact moved.known
    case live => exact .of_eq shut.symm

theorem Tracked.act (tracked : Tracked x) (sound : Sound x) (op : Operation) :
    Tracked (x.act op) := by
  cases op with
  | create name size => exact tracked.moves sound (stays_create x.broker name size).toMoves
  | delete name => exact tracked.moves sound (stays_delete x.broker name).toMoves
  | appender name type codec => exact tracked.moves sound (moves_appender x.broker name type codec)
  | createTailer group partitions type codec =>
    exact tracked.createTailer group partitions type codec
  | subscribe group names type codec => exact tracked.subscribe group names type codec
  | ask i => exact tracked.ask sound i
  | finish i => exact tracked.finish sound i
  | close => exact tracked.close sound
  | store a => exact tracked.moves sound (stays_store x.broker [a]).toMoves

/-- The live tailers of a broker are counted right. -/
theorem Tracked.liveTailers (tracked : Tracked x) : x.broker.liveTailers =
    x.returned.countP (!x.broker.store.isClosedTailer ·) := by
  have same := tracked.live.length_eq
  rw [List.filter_map, List.length_map, ← List.countP_eq_length_filter (l := x.returned)] at same
  exact same

/-! Appenders. -/

def appender? (x : Session) : Operation → Option Nat
  | .appender name type codec => (x.broker.appender name type codec).toOption.map (·.1)
  | _ => none

def appenders (x : Session) : List Operation → List Nat
  | [] => []
  | op :: ops => (x.appender? op).toList ++ (x.act op).appenders ops

end Session

/-- A log has one appender on record, and all appenders that were handed out and are open are on
record. -/
structure Memoizes (b : Broker) (given : List Nat) : Prop where
  once : (b.appenders.map (·.1)).Nodup
  known : ∀ e ∈ b.appenders, e.2 ∈ given
  kept : ∀ a ∈ given, ∃ w, b.store.appenders[a]? = some w ∧
    (w.closed = true ∨ ∃ name, (name, a) ∈ b.appenders)

variable {b c : Broker} {given : List Nat}

theorem Memoizes.store (memoizes : Memoizes b given) {as : List Store.Action}
    (store : c.store = b.store.run as) (appenders : c.appenders = b.appenders) :
    Memoizes c given := by
  constructor
  case once => exact appenders ▸ memoizes.once
  case known => exact appenders ▸ memoizes.known
  case kept =>
    intro a member
    obtain ⟨w, found, kept⟩ := memoizes.kept a member
    obtain ⟨w', found', later⟩ := Store.run_appender found as
    exact ⟨w', store ▸ found', kept.imp later.closed fun known => appenders ▸ known⟩

/-- A log takes its appender along when it is deleted. -/
theorem Memoizes.delete (memoizes : Memoizes b given) (name : String) :
    Memoizes (b.settle (b.delete name)) given := by
  rcases delete_cases b name with ⟨same, -⟩ | deleted
  · exact same.symm ▸ memoizes
  · rw [deleted]
    constructor
    case once => exact memoizes.once.sublist (List.filter_sublist.map _)
    case known => exact fun e member => memoizes.known e (List.mem_of_mem_filter member)
    case kept =>
      intro a member
      obtain ⟨w, found, kept⟩ := memoizes.kept a member
      obtain ⟨v, there, first⟩ := Store.run_appender found [.delete name]
      obtain ⟨w', final, later⟩ := Store.run_appender there
        ((b.appenders.lookup name).toList.map .closeAppender)
      refine ⟨w', final, ?_⟩
      rcases kept with closed | ⟨other, known⟩
      · exact .inl (later.closed (first.closed closed))
      · by_cases same : other = name
        · left
          have mine := lookup_of_mem memoizes.once known
          have closes := Store.closeAppender_closes there
          rw [same] at mine
          simp only [mine, Option.toList_some, List.map_cons, List.map_nil] at final
          exact (Store.isClosedAppender_eq final).symm.trans closes
        · exact .inr ⟨other, List.mem_filter.mpr ⟨known, decide_eq_true same⟩⟩

theorem Memoizes.appender (memoizes : Memoizes b given) (name : String) (type : MessageType)
    (codec : Option Codec) : Memoizes (b.settle (b.appender name type codec))
      (given ++ ((b.appender name type codec).toOption.map (·.1)).toList) := by
  cases answer : b.appender name type codec with
  | error e =>
    simp only [settle, Except.toOption, Option.map_none, Option.toList_none, List.append_nil]
    exact memoizes
  | ok made =>
    obtain ⟨a, c⟩ := made
    simp only [settle, Except.toOption, Option.map_some, Option.toList_some]
    rcases (appender_ok answer).2 with ⟨known, rfl⟩ | ⟨unknown, s, created, rfl⟩
    · have old : a ∈ given := memoizes.known _ (mem_of_lookup known)
      constructor
      case once => exact memoizes.once
      case known => exact fun e member => List.mem_append_left _ (memoizes.known e member)
      case kept =>
        intro i member
        rcases List.mem_append.mp member with before | same
        · exact memoizes.kept i before
        · cases List.mem_singleton.mp same
          exact memoizes.kept a old
    · obtain ⟨rfl, w, -, rfl⟩ := Store.createAppender_ok created
      constructor
      case once =>
        refine List.nodup_cons.mpr ⟨fun member => ?_, memoizes.once⟩
        obtain ⟨e, known, rfl⟩ := List.mem_map.mp member
        cases unknown.symm.trans (lookup_of_mem memoizes.once known)
      case known =>
        intro e member
        rcases List.mem_cons.mp member with rfl | old
        · exact List.mem_append_right _ (List.mem_singleton_self _)
        · exact List.mem_append_left _ (memoizes.known e old)
      case kept =>
        intro i member
        rcases List.mem_append.mp member with before | new
        · obtain ⟨v, found, kept⟩ := memoizes.kept i before
          obtain ⟨within, -⟩ := List.getElem?_eq_some_iff.mp found
          refine ⟨v, (List.getElem?_append_left within).trans found, kept.imp_right ?_⟩
          rintro ⟨other, known⟩
          exact ⟨other, List.mem_cons_of_mem _ known⟩
        · cases List.mem_singleton.mp new
          exact ⟨w, List.getElem?_concat_length, .inr ⟨name, List.mem_cons_self⟩⟩

/-- A broker that closes, closes every appender that it has handed out. -/
theorem Memoizes.closes (memoizes : Memoizes b given) {a : Nat} (member : a ∈ given) :
    (b.store.run b.closing).isClosedAppender a = true := by
  obtain ⟨w, found, closed | ⟨name, known⟩⟩ := memoizes.kept a member
  · exact Store.isClosedAppender_run found ((Store.isClosedAppender_eq found).trans closed)
  · exact closing_closesAppender known found

theorem Memoizes.close (memoizes : Memoizes b given) : Memoizes b.close.2 given := by
  cases closed : b.closed with
  | true =>
    simp only [Broker.close, closed, if_true]
    exact memoizes
  | false =>
    rw [close_eq closed]
    constructor
    case once => exact List.nodup_nil
    case known => exact fun e member => by cases member
    case kept =>
      intro a member
      obtain ⟨w, found, -⟩ := memoizes.kept a member
      obtain ⟨w', found', -⟩ := Store.run_appender found b.closing
      have shut := memoizes.closes member
      exact ⟨w', found', .inl ((Store.isClosedAppender_eq found').symm.trans shut)⟩

/-- An open appender is on record exactly if it was handed out. -/
theorem Memoizes.mem_appenders {b : Broker} (memoizes : Memoizes b given) {a : Nat}
    (opened : b.store.isClosedAppender a = false) :
    (∃ name, (name, a) ∈ b.appenders) ↔ a ∈ given := by
  constructor
  · rintro ⟨name, known⟩
    exact memoizes.known _ known
  · intro member
    obtain ⟨w, found, closed | known⟩ := memoizes.kept a member
    · cases opened.symm.trans ((Store.isClosedAppender_eq found).trans closed)
    · exact known

namespace Session

variable {x : Session}

/-- What has nothing to do with appenders leaves those on record alone. -/
theorem appenders_act (x : Session) {op : Operation} (deletes : ∀ name, op ≠ .delete name)
    (opens : ∀ name type codec, op ≠ .appender name type codec) (closes : op ≠ .close) :
    (x.act op).broker.appenders = x.broker.appenders := by
  cases op with
  | delete name => exact absurd rfl (deletes name)
  | appender name type codec => exact absurd rfl (opens name type codec)
  | close => exact absurd rfl closes
  | store a => rfl
  | create name size =>
    simp only [act]
    rcases createIfMissing_cases x.broker name size with ⟨same, -⟩ | created
    · rw [same]
    · rw [created]
      rfl
  | createTailer group partitions type codec =>
    have step := begins x.broker group partitions type codec
    simp only [act]
    generalize x.broker.beginTailer group partitions type codec = result at step
    obtain ⟨outcome, c⟩ := result
    cases step with
    | _ => rfl
  | subscribe group names type codec =>
    simp only [act]
    split <;> rfl
  | ask i =>
    simp only [act, ask]
    split
    · rfl
    · rename_i group names type codec there
      simp only [askSubscribe]
      cases x.broker.store.subscribe group names type codec <;> rfl
    · rfl
  | finish i =>
    simp only [act, finish]
    split
    · exact (finishTailer_keeps _ _ _).1
    · exact (finishSubscribe_keeps _ _).1
    · rfl

theorem memoizes_act (memoizes : Memoizes x.broker given) (op : Operation) :
    Memoizes (x.act op).broker (given ++ (x.appender? op).toList) := by
  have quiet (none : x.appender? op = none) : given ++ (x.appender? op).toList = given := by
    rw [none, Option.toList_none, List.append_nil]
  cases op with
  | delete name => exact (quiet rfl).symm ▸ memoizes.delete name
  | appender name type codec => exact memoizes.appender name type codec
  | close => exact (quiet rfl).symm ▸ memoizes.close
  | create | createTailer | subscribe | ask | finish | store =>
    rw [quiet rfl]
    refine memoizes.store (x.store_act _) (x.appenders_act ?_ ?_ ?_) <;> simp

theorem memoizes_start (config : StoreConfig) (limits : Limits) :
    Memoizes (start config limits).broker [] where
  once := List.nodup_nil
  known e member := by cases member
  kept a member := by cases member

end Session

end Broker

end Logbook
