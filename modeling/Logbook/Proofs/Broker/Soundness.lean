import Logbook.Proofs.Broker.Ownership
import Logbook.Proofs.Broker.Session

/-! What holds in every session of a broker: the store has made the tailers that were asked for, and
the ownership on record is that of the open tailers and of the creations in progress. -/
namespace Logbook

def Store.keysOf (s : Store) (r : TailerRef) : List GroupPartition :=
  match s.tailer? r with
  | some t => t.assignments.map (⟨r.group, ·⟩)
  | none => []

namespace Store

variable {s : Store} {r : TailerRef} {t : Tailer} {as : List Action}

theorem isClosedTailer_run (found : s.tailer? r = some t) (closed : s.isClosedTailer r = true) :
    (s.run as).isClosedTailer r = true := by
  obtain ⟨t', found', later⟩ := run_tailer found as
  simp only [isClosedTailer, found, found', Option.map_some, Option.getD_some] at closed ⊢
  exact later.closed closed

theorem keysOf_run (found : s.tailer? r = some t) (explicit : t.subscribed = false) :
    (s.run as).keysOf r = s.keysOf r := by
  obtain ⟨t', found', later⟩ := run_tailer found as
  simp only [keysOf, found, found', later.assignments explicit]

end Store

namespace Broker

def Call.Pending : Call → Prop
  | creating _ | subscribing _ _ _ _ => True
  | _ => False

structure Ticket.Made (k : Ticket) (s : Store) (r : TailerRef) : Prop where
  group : r.group = k.group
  tailer : ∃ t, s.tailer? r = some t ∧ t.subscribed = false ∧ t.assignments = k.partitions ∧
    t.codec = k.codec

theorem Ticket.Made.keys {k : Ticket} {s : Store} {r : TailerRef} (made : k.Made s r) :
    s.keysOf r = k.keys := by
  obtain ⟨t, found, -, assignments, -⟩ := made.tailer
  simp only [Store.keysOf, found, assignments, Ticket.keys, made.group]

theorem Ticket.Made.run {k : Ticket} {s : Store} {r : TailerRef} (made : k.Made s r)
    (as : List Store.Action) : k.Made (s.run as) r := by
  obtain ⟨t, found, explicit, assignments, codec⟩ := made.tailer
  obtain ⟨t', found', later⟩ := Store.run_tailer found as
  exact ⟨made.group, t', found', later.subscribed.trans explicit,
    (later.assignments explicit).trans assignments, later.codec.trans codec⟩

namespace Session

def holders (x : Session) : Ownership.Holders where
  tickets := x.tickets
  explicit := x.explicit
  isClosed := x.broker.store.isClosedTailer
  keysOf := x.broker.store.keysOf

/-- What holds in every session. The broker's ownership is right as long as the broker is open, and
afterwards no tailer is open. -/
structure Sound (x : Session) : Prop where
  numbered : x.broker.store.Numbered
  created : ∀ k r, .created k (.ok r) ∈ x.calls → k.Made x.broker.store r
  refused : ∀ k key, .created k (.error (.alreadyAssigned key)) ∉ x.calls
  subscribed : ∀ r, .subscribed (.ok r) ∈ x.calls → ∃ t, x.broker.store.tailer? r = some t
  explicit : ∀ r ∈ x.explicit, ∃ t, x.broker.store.tailer? r = some t ∧ t.subscribed = false
  live : ∀ e ∈ x.broker.ownership.live, ∃ t, x.broker.store.tailer? e.2 = some t
  agrees : x.broker.closed = false →
    x.broker.ownership.Agrees x.broker.nextNumber x.holders
  closed : x.broker.closed = true → ∀ r ∈ x.explicit, x.broker.store.isClosedTailer r = true

variable {x : Session}

theorem sound_start (config : StoreConfig) (limits : Limits) : Sound (start config limits) where
  numbered r member := by cases member
  created k r member := by cases member
  refused k key member := by cases member
  subscribed r member := by cases member
  explicit r member := by cases member
  live e member := by cases member
  agrees _ := {
    once := List.nodup_nil
    numbered := List.nodup_nil
    numbers := List.nodup_nil
    reserved := fun id => by simp [start, holders, tickets]
    apart := fun e member => by cases member
    drawn := fun id used => by simp [Ownership.Used, start] at used
    creating := fun k member => by cases member
    handedOut := fun r member => by cases member
    owned := fun e member => by cases member }
  closed closed := by cases closed

theorem Sound.moves (sound : Sound x) {b : Broker} (moves : Moves x.broker b) :
    Sound { x with broker := b } := by
  obtain ⟨⟨as, store⟩, ownership, nextNumber, closed⟩ := moves
  exact {
    numbered := store ▸ sound.numbered.run as
    created := fun k r member => store ▸ (sound.created k r member).run as
    refused := sound.refused
    subscribed := fun r member => by
      obtain ⟨t, found⟩ := sound.subscribed r member
      obtain ⟨t', found', -⟩ := Store.run_tailer found as
      exact ⟨t', store ▸ found'⟩
    explicit := fun r member => by
      obtain ⟨t, found, explicit⟩ := sound.explicit r member
      obtain ⟨t', found', later⟩ := Store.run_tailer found as
      exact ⟨t', store ▸ found', later.subscribed.trans explicit⟩
    live := fun e member => by
      obtain ⟨t, found⟩ := sound.live e (ownership ▸ member)
      obtain ⟨t', found', -⟩ := Store.run_tailer found as
      exact ⟨t', store ▸ found'⟩
    agrees := fun opened => by
      have agrees := sound.agrees (closed ▸ opened)
      simp only [ownership, nextNumber, holders, store]
      refine agrees.later (fun r known opened => ?_) fun r handed => ?_
      · have found : ∃ t, x.broker.store.tailer? r = some t := by
          rcases known with handed | ⟨id, live⟩
          · obtain ⟨t, found, -⟩ := sound.explicit r handed
            exact ⟨t, found⟩
          · exact sound.live _ live
        obtain ⟨t, found⟩ := found
        refine Bool.eq_false_iff.mpr fun closed => ?_
        rw [Store.isClosedTailer_run found closed] at opened
        cases opened
      · obtain ⟨t, found, explicit⟩ := sound.explicit r handed
        exact Store.keysOf_run found explicit
    closed := fun shut r member => by
      obtain ⟨t, found, -⟩ := sound.explicit r member
      rw [store]
      exact Store.isClosedTailer_run found (sound.closed (closed ▸ shut) r member) }

/-! Calls in progress. -/

theorem calls_split {calls : List Call} {c : Call} (there : calls[i]? = some c) :
    ∃ before after, calls = before ++ c :: after ∧ calls.eraseIdx i = before ++ after ∧
      ∀ d, calls.set i d = before ++ d :: after := by
  obtain ⟨within, rfl⟩ := List.getElem?_eq_some_iff.mp there
  refine ⟨calls.take i, calls.drop (i + 1), ?_, List.eraseIdx_eq_take_drop_succ _ _, fun d => ?_⟩
  · rw [List.getElem_cons_drop, List.take_append_drop]
  · rw [List.set_eq_take_append_cons_drop, if_pos within]

/-- What is kept of each call, when one of them ends or gets another state. -/
theorem filterMap_split {calls : List Call} {c : Call} (there : calls[i]? = some c)
    (f : Call → Option β) : ∃ before after,
      calls.filterMap f = before ++ (f c).toList ++ after ∧
      (calls.eraseIdx i).filterMap f = before ++ after ∧
      ∀ d, (calls.set i d).filterMap f = before ++ (f d).toList ++ after := by
  obtain ⟨before, after, split, erased, set⟩ := calls_split there
  have here (d : Call) : (before ++ d :: after).filterMap f =
      before.filterMap f ++ (f d).toList ++ after.filterMap f := by
    rw [List.filterMap_append, List.append_assoc]
    congr 1
    cases kept : f d with
    | none => rw [List.filterMap_cons_none kept]; rfl
    | some k => rw [List.filterMap_cons_some kept]; rfl
  refine ⟨before.filterMap f, after.filterMap f, ?_, ?_, fun d => ?_⟩
  · rw [split, here]
  · rw [erased, List.filterMap_append]
  · rw [set, here]

theorem tickets_set {c d : Call} (there : x.calls[i]? = some c) (same : d.ticket? = c.ticket?) :
    (x.calls.set i d).filterMap Call.ticket? = x.tickets := by
  obtain ⟨before, after, split, -, set⟩ := filterMap_split there Call.ticket?
  rw [tickets, set, split, same]

/-- The ownership changes together with the calls in progress and the tailers handed out. -/
theorem Sound.owns (sound : Sound x) {o : Ownership} {next : Nat} {calls : List Call}
    {explicit subscribed : List TailerRef}
    (live : ∀ e ∈ o.live, ∃ t, x.broker.store.tailer? e.2 = some t)
    (known : ∀ c ∈ calls, c ∈ x.calls ∨ c.Pending)
    (handed : ∀ r ∈ explicit, r ∈ x.explicit ∨ x.broker.closed = false ∧
      ∃ t, x.broker.store.tailer? r = some t ∧ t.subscribed = false)
    (agrees : x.broker.closed = false → o.Agrees next
      { x.holders with tickets := calls.filterMap Call.ticket?, explicit }) :
    Sound { broker := { x.broker with ownership := o, nextNumber := next }
            calls, explicit, subscribed } where
  numbered := sound.numbered
  created k r member := (known _ member).elim (sound.created k r) False.elim
  refused k key member := (known _ member).elim (sound.refused k key) False.elim
  subscribed r member := (known _ member).elim (sound.subscribed r) False.elim
  explicit r member := (handed r member).elim (sound.explicit r) And.right
  live := live
  agrees := agrees
  closed closed r member := by
    rcases handed r member with old | ⟨opened, -⟩
    · exact sound.closed closed r old
    · cases closed.symm.trans opened

theorem Sound.free (sound : Sound x) (opened : x.broker.closed = false) {keys : List GroupPartition}
    (free : (x.broker.ownership.prune x.broker.store.isClosedTailer).taken?
      x.broker.store.isClosedTailer keys = none) : ∀ key ∈ keys, ¬x.holders.Has key := by
  intro key member held
  have active := ((sound.agrees opened).prune.active key).mpr held
  exact List.find?_eq_none.mp free key member active

theorem Sound.createTailer (sound : Sound x) (group : String) (partitions : List Partition)
    (type : MessageType) (codec : Option Codec) :
    Sound (x.act (.createTailer group partitions type codec)) := by
  have step := begins x.broker group partitions type codec
  have each := nodup_keys_nextTicket x.broker group partitions type codec
  have number : (x.broker.nextTicket group partitions type codec).number = x.broker.nextNumber := rfl
  simp only [act]
  generalize x.broker.nextTicket group partitions type codec = k at step each number
  generalize x.broker.beginTailer group partitions type codec = result at step
  obtain ⟨outcome, b⟩ := result
  have pruned (e : Nat × TailerRef)
      (live : e ∈ (x.broker.ownership.prune x.broker.store.isClosedTailer).live) :
      ∃ t, x.broker.store.tailer? e.2 = some t := sound.live e (Ownership.mem_prune.mp live).1
  have reserved (checked : x.broker.checkRequest k.group partitions = .ok ())
      (free : (x.broker.ownership.prune x.broker.store.isClosedTailer).taken?
        x.broker.store.isClosedTailer k.keys = none) :
      ((x.broker.ownership.prune x.broker.store.isClosedTailer).reserve k.number k.keys).Agrees
        (x.broker.nextNumber + 1) { x.holders with tickets := x.tickets ++ [k] } :=
    (sound.agrees (checkRequest_open checked)).prune.reserve number each
      (sound.free (checkRequest_open checked) free)
  cases step with
  | refused => exact sound
  | taken checked =>
    exact sound.owns pruned (fun _ => .inl) (fun _ => .inl) fun opened =>
      (sound.agrees opened).prune.skip (Nat.le_succ _)
  | unfit checked free =>
    refine sound.owns pruned (fun _ => .inl) (fun _ => .inl) fun _ => ?_
    have agrees := (reserved checked free).release
    rw [List.append_nil] at agrees
    exact agrees
  | reserves checked free =>
    refine sound.owns pruned (fun c member => ?_) (fun _ => .inl) fun _ => ?_
    · rcases List.mem_append.mp member with old | new
      · exact .inl old
      · cases List.mem_singleton.mp new
        exact .inr trivial
    · rw [List.filterMap_append]
      exact reserved checked free

theorem Sound.subscribe (sound : Sound x) (group : String) (names : List String)
    (type : MessageType) (codec : Option Codec) :
    Sound (x.act (.subscribe group names type codec)) := by
  simp only [act]
  cases x.broker.checkSubscribe group with
  | error e => exact sound
  | ok _ =>
    refine sound.owns sound.live (fun c member => ?_) (fun _ => .inl) fun opened => ?_
    · rcases List.mem_append.mp member with old | new
      · exact .inl old
      · cases List.mem_singleton.mp new
        exact .inr trivial
    · have tickets : (x.calls ++ [Call.subscribing group names type codec]).filterMap Call.ticket? =
          x.tickets := List.filterMap_append.trans (List.append_nil _)
      rw [tickets]
      exact sound.agrees opened

theorem Sound.answer (sound : Sound x) {c d : Call} (there : x.calls[i]? = some c)
    (same : d.ticket? = c.ticket?)
    (created : ∀ k r, d = .created k (.ok r) → k.Made x.broker.store r)
    (refused : ∀ k key, d ≠ .created k (.error (.alreadyAssigned key)))
    (subscribed : ∀ r, d = .subscribed (.ok r) → ∃ t, x.broker.store.tailer? r = some t) :
    Sound { x with calls := x.calls.set i d } := by
  have known (e : Call) (member : e ∈ x.calls.set i d) : e ∈ x.calls ∨ e = d :=
    List.mem_or_eq_of_mem_set member
  exact {
    numbered := sound.numbered
    created := fun k r member =>
      (known _ member).elim (sound.created k r) fun new => created k r new.symm
    refused := fun k key member =>
      (known _ member).elim (sound.refused k key) fun new => refused k key new.symm
    subscribed := fun r member =>
      (known _ member).elim (sound.subscribed r) fun new => subscribed r new.symm
    explicit := sound.explicit
    live := sound.live
    agrees := fun opened => by
      simp only [holders, tickets, tickets_set there same]
      exact sound.agrees opened
    closed := sound.closed }

theorem Sound.ask (sound : Sound x) (i : Nat) : Sound (x.ask i) := by
  unfold Session.ask
  split
  · rename_i k there
    have moved := sound.moves (stays_askTailer x.broker k).toMoves
    refine moved.answer there rfl ?_ ?_ (fun _ impossible => by cases impossible)
    · rintro _ r answer
      obtain ⟨rfl, same⟩ := Call.created.inj answer
      obtain ⟨group, tailer⟩ := Store.createTailer_ok sound.numbered same
      exact ⟨group, tailer⟩
    · rintro _ key answer
      obtain ⟨rfl, same⟩ := Call.created.inj answer
      rcases Store.createTailer_error same with ⟨⟨_, impossible⟩ | ⟨_, _, impossible⟩, -⟩ |
        ⟨impossible, -⟩
      · cases impossible
      · cases impossible
      · cases impossible
  · rename_i group names type codec there
    have moved := sound.moves (stays_askSubscribe x.broker group names type codec).toMoves
    refine moved.answer there rfl (fun _ _ impossible => by cases impossible)
      (fun _ _ impossible => by cases impossible) fun r answer => ?_
    have asked := Call.subscribed.inj answer
    cases subscribed : x.broker.store.subscribe group names type codec with
    | error e =>
      simp [askSubscribe, subscribed, bind, Except.bind, Except.map] at asked
    | ok made =>
      obtain ⟨q, s⟩ := made
      simp only [askSubscribe, subscribed, bind, Except.bind, Except.map, pure, Except.pure,
        Except.ok.injEq] at asked
      subst asked
      simpa [askSubscribe, subscribed, bind, Except.bind, settle, pure, Except.pure]
        using (Store.subscribe_ok subscribed).2
  · exact sound

theorem tickets_split {c : Call} (there : x.calls[i]? = some c) : ∃ before after,
    x.tickets = before ++ c.ticket?.toList ++ after ∧
      (x.calls.eraseIdx i).filterMap Call.ticket? = before ++ after := by
  obtain ⟨before, after, split, erased, -⟩ := filterMap_split there Call.ticket?
  exact ⟨before, after, split, erased⟩

theorem Sound.discard (sound : Sound x) (r : TailerRef) :
    Sound { x with broker := { x.broker with store := (x.broker.store.closeTailer r).2 } } :=
  sound.moves (stays_store x.broker [.closeTailer r]).toMoves

theorem Sound.finishTailer (sound : Sound x) {k : Ticket} {answer : Outcome TailerRef}
    (there : x.calls[i]? = some (.created k answer)) : Sound (x.finish i) := by
  obtain ⟨before, after, tickets, erased⟩ := tickets_split there
  have known (c : Call) (member : c ∈ x.calls.eraseIdx i) : c ∈ x.calls ∨ c.Pending :=
    .inl (List.mem_of_mem_eraseIdx member)
  have holders : x.holders = { x.holders with tickets := before ++ k :: after } := by
    simp only [Session.holders, tickets, Call.ticket?, Option.toList_some, List.append_assoc,
      List.singleton_append]
  simp only [Session.finish, there]
  cases answer with
  | error e =>
    refine sound.owns sound.live known (fun _ => .inl) fun opened => ?_
    rw [erased]
    exact (holders ▸ sound.agrees opened).release
  | ok r =>
    have made := sound.created k r (List.mem_of_getElem? there)
    obtain ⟨t, found, explicit, -⟩ := made.tailer
    have live (e : Nat × TailerRef) (member : e ∈ (x.broker.ownership.activate k.number r).live) :
        ∃ t, x.broker.store.tailer? e.2 = some t := by
      rcases List.mem_cons.mp member with rfl | old
      · exact ⟨t, found⟩
      · exact sound.live e old
    simp only [Broker.finishTailer]
    by_cases closed : x.broker.closed = true
    · -- the broker was closed while the store was asked: the tailer is not handed out
      have ended : Sound { x with
          broker := { x.broker with ownership := x.broker.ownership.activate k.number r }
          calls := x.calls.eraseIdx i } :=
        sound.owns live known (fun _ => .inl) fun opened => by cases closed.symm.trans opened
      simp only [if_pos closed]
      exact ended.discard r
    · simp only [if_neg closed]
      refine sound.owns live known (fun q member => ?_) fun opened => ?_
      · rcases List.mem_append.mp member with old | new
        · exact .inl old
        · cases List.mem_singleton.mp new
          exact .inr ⟨Bool.eq_false_iff.mpr closed, t, found, explicit⟩
      · rw [erased]
        exact (holders ▸ sound.agrees opened).activate made.keys

theorem Sound.finishSubscribe (sound : Sound x) {answer : Outcome TailerRef}
    (there : x.calls[i]? = some (.subscribed answer)) : Sound (x.finish i) := by
  obtain ⟨before, after, tickets, erased⟩ := tickets_split there
  have known (c : Call) (member : c ∈ x.calls.eraseIdx i) : c ∈ x.calls ∨ c.Pending :=
    .inl (List.mem_of_mem_eraseIdx member)
  have same : (x.calls.eraseIdx i).filterMap Call.ticket? = x.tickets := by
    rw [erased, tickets]
    simp [Call.ticket?]
  simp only [Session.finish, there]
  cases answer with
  | error e =>
    refine sound.owns sound.live known (fun _ => .inl) fun opened => ?_
    rw [same]
    exact sound.agrees opened
  | ok r =>
    have live (e : Nat × TailerRef) (member : e ∈ ((x.broker.ownership.prune
        x.broker.store.isClosedTailer).track x.broker.nextNumber r).live) :
        ∃ t, x.broker.store.tailer? e.2 = some t := by
      rcases List.mem_cons.mp member with rfl | old
      · exact sound.subscribed r (List.mem_of_getElem? there)
      · exact sound.live e (Ownership.mem_prune.mp old).1
    simp only [Broker.finishSubscribe]
    by_cases closed : x.broker.closed = true
    · have ended : Sound { x with
          broker := { x.broker with
            ownership := (x.broker.ownership.prune x.broker.store.isClosedTailer).track
              x.broker.nextNumber r
            nextNumber := x.broker.nextNumber + 1 }
          calls := x.calls.eraseIdx i } :=
        sound.owns live known (fun _ => .inl) fun opened => by cases closed.symm.trans opened
      simp only [if_pos closed]
      exact ended.discard r
    · simp only [if_neg closed]
      refine sound.owns live known (fun _ => .inl) fun opened => ?_
      rw [same]
      exact (sound.agrees opened).prune.track r

theorem Sound.finish (sound : Sound x) (i : Nat) : Sound (x.finish i) := by
  cases there : x.calls[i]? with
  | none =>
    simp only [Session.finish, there]
    exact sound
  | some c =>
    cases c with
    | created k answer => exact sound.finishTailer there
    | subscribed answer => exact sound.finishSubscribe there
    | creating k =>
      simp only [Session.finish, there]
      exact sound
    | subscribing group names type codec =>
      simp only [Session.finish, there]
      exact sound

/-- A broker that is closed has closed every tailer that it has handed out. -/
theorem Sound.close (sound : Sound x) : Sound (x.act .close) := by
  cases closed : x.broker.closed with
  | true =>
    simp only [act, Broker.close, closed, if_true]
    exact sound
  | false =>
    have moved := sound.moves (stays_store x.broker x.broker.closing).toMoves
    simp only [act, close_eq closed]
    exact {
      numbered := moved.numbered
      created := moved.created
      refused := moved.refused
      subscribed := moved.subscribed
      explicit := moved.explicit
      live := fun e member => by cases member
      agrees := fun opened => by cases opened
      closed := fun _ r handed => by
        obtain ⟨t, found, -⟩ := sound.explicit r handed
        cases already : x.broker.store.isClosedTailer r with
        | true => exact Store.isClosedTailer_run found already
        | false =>
          -- an open tailer is still on record, so it is among those that are closed
          obtain ⟨id, live, -⟩ := (sound.agrees closed).handedOut r handed already
          exact closing_closes live found }

theorem Sound.act (sound : Sound x) (op : Operation) : Sound (x.act op) := by
  cases op with
  | create name size => exact sound.moves (stays_create x.broker name size).toMoves
  | delete name => exact sound.moves (stays_delete x.broker name).toMoves
  | appender name type codec => exact sound.moves (moves_appender x.broker name type codec)
  | createTailer group partitions type codec => exact sound.createTailer group partitions type codec
  | subscribe group names type codec => exact sound.subscribe group names type codec
  | ask i => exact sound.ask i
  | finish i => exact sound.finish i
  | close => exact sound.close
  | store a => exact sound.moves (stays_store x.broker [a]).toMoves

theorem sound_run (config : StoreConfig) (limits : Limits) (ops : List Operation) :
    Sound ((start config limits).run ops) :=
  run_invariant (fun op sound => sound.act op) (sound_start config limits) ops

end Session

end Broker

end Logbook
