import Mathlib.Data.List.Pairwise
import Logbook.Proofs.Broker.Soundness
import Logbook.Proofs.Broker.Trace

/-! Where nobody but the broker opens tailers, all open tailers for given partitions are its own, and
no two of them share a partition of a group, be they handed out or not. -/
namespace Logbook

namespace Ownership

variable {o : Ownership} {next : Nat} {h : Holders}

/-- No key has two holders among the creations in progress. -/
theorem Agrees.tickets_apart (agrees : Agrees o next h) :
    h.tickets.Pairwise fun k l => ∀ key ∈ k.keys, key ∉ l.keys := by
  refine (List.pairwise_map.mp agrees.numbers).imp_of_mem ?_
  intro k l member member' other key mine yours
  have first := (agrees.creating k member key).mpr mine
  have second := (agrees.creating l member' key).mpr yours
  exact other (Option.some.inj (first.symm.trans second))

/-- No key has two holders, one a creation in progress and one a tailer. -/
theorem Agrees.ticket_apart (agrees : Agrees o next h) (member : k ∈ h.tickets)
    (handed : r ∈ h.explicit) (opened : h.isClosed r = false) :
    ∀ key ∈ k.keys, key ∉ h.keysOf r := by
  intro key asked holds
  obtain ⟨id, live, owner⟩ := agrees.handedOut r handed opened
  have same := (owner key holds).symm.trans ((agrees.creating k member key).mpr asked)
  apply agrees.apart _ live
  exact (agrees.reserved _).mpr ⟨k, member, (Option.some.inj same).symm⟩

end Ownership

namespace Store

variable {s : Store} {r : TailerRef} {t' : Tailer} {as : List Action}

/-- Where no tailer is created for given partitions, a new one has subscribed. -/
theorem run_subscribed
    (without : ∀ group ps type codec, Action.createTailer group ps type codec ∉ as)
    (absent : s.tailer? r = none) (found' : (s.run as).tailer? r = some t') :
    t'.subscribed = true := by
  induction as generalizing s with
  | nil => cases absent.symm.trans found'
  | cons a as ih =>
    have later (group : String) (ps : List Partition) (type : MessageType) (codec : Option Codec) :
        Action.createTailer group ps type codec ∉ as := fun member =>
      without group ps type codec (List.mem_cons_of_mem a member)
    rcases (effect s a).newTailer absent with absent | ⟨ps, type, codec, rfl, _⟩ | ⟨_, _, _, _, new⟩
    · exact ih later absent found'
    · exact absurd List.mem_cons_self (without r.group ps type codec)
    · obtain ⟨u, final, continues⟩ := run_tailer new as
      cases Option.some.inj (final.symm.trans found')
      exact continues.subscribed

/-- The only tailer that a creation adds is the one that it answers. -/
theorem createTailer_new {group : String} {ps : List Partition} {type : MessageType}
    {codec : Option Codec} (absent : s.tailer? r = none)
    (found : (s.createTailer group ps type codec).2.tailer? r = some t') :
    (s.createTailer group ps type codec).1 = .ok r := by
  unfold createTailer at found ⊢
  cases checked : s.checkPartitions ps with
  | error e =>
    simp only [checked] at found
    cases absent.symm.trans found
  | ok _ =>
    cases fails : s.failNextTailer with
    | true =>
      simp only [checked, fails, if_true] at found
      cases absent.symm.trans found
    | false =>
      simp only [checked, fails, Bool.false_eq_true, if_false] at found ⊢
      rw [tailer?_addTailer, absent, Option.none_or] at found
      split at found
      · rename_i new
        rw [new]
        rfl
      · cases found

end Store

namespace Broker.Session

/-- Nobody but the broker opens tailers. -/
def Managed : Operation → Prop
  | .store a => a.opens? = none
  | _ => True

/-- Every open tailer for given partitions was handed out, or its creation has yet to end. -/
def Listed (x : Session) : Prop :=
  ∀ r t, x.broker.store.tailer? r = some t → t.subscribed = false → t.closed = false →
    r ∈ x.explicit ∨ ∃ k, .created k (.ok r) ∈ x.calls

def TicketsApart (x : Session) : Prop :=
  x.tickets.Pairwise fun k l => ∀ key ∈ k.keys, key ∉ l.keys

variable {x : Session} {r q : TailerRef} {k : Ticket}

theorem explicit_act (op : Operation) (handed : r ∈ x.explicit) : r ∈ (x.act op).explicit := by
  rcases x.act_explicit op with same | ⟨i, k, q, rfl, there, opened⟩
  · exact same ▸ handed
  · have more : (x.finish i).explicit = x.explicit ++ [q] := by
      simp only [finish, there, finishTailer, opened, Bool.false_eq_true, if_false, handOut]
    exact more.symm ▸ List.mem_append_left _ handed

/-- A call stays as it is when another one goes on or ends. -/
theorem other_call {calls : List Call} {c d : Call} (there : calls[i]? = some c)
    (member : d ∈ calls) (other : d ≠ c) :
    d ∈ calls.eraseIdx i ∧ ∀ e, d ∈ calls.set i e := by
  obtain ⟨j, place⟩ := List.getElem?_of_mem member
  have apart : j ≠ i := by
    rintro rfl
    exact other (Option.some.inj (place.symm.trans there))
  constructor
  · exact List.mem_eraseIdx_iff_getElem?.mpr ⟨j, apart, place⟩
  · exact fun e => List.mem_of_getElem? ((List.getElem?_set_ne apart.symm).trans place)

/-- A creation that the store has answered ends in nothing but its tailer being handed out or
closed. -/
theorem created_act (sound : Sound x) (op : Operation) (member : .created k (.ok r) ∈ x.calls) :
    .created k (.ok r) ∈ (x.act op).calls ∨ r ∈ (x.act op).explicit ∨
      (x.act op).broker.store.isClosedTailer r = true := by
  cases op with
  | create | delete | appender | close | store => exact .inl member
  | createTailer group partitions type codec =>
    left
    simp only [act]
    split
    · exact List.mem_append_left _ member
    · exact member
  | subscribe group names type codec =>
    left
    simp only [act]
    split
    · exact List.mem_append_left _ member
    · exact member
  | ask i =>
    left
    simp only [act, ask]
    split
    · rename_i there
      exact (other_call there member fun same => by cases same).2 _
    · rename_i there
      exact (other_call there member fun same => by cases same).2 _
    · exact member
  | finish i =>
    simp only [act, finish]
    split
    · rename_i l answer there
      by_cases here : Call.created k (.ok r) = .created l answer
      · obtain ⟨rfl, rfl⟩ := Call.created.inj here
        obtain ⟨t, found, -⟩ := (sound.created k r member).tailer
        right
        cases closed : x.broker.closed with
        | true =>
          right
          obtain ⟨t', found', shut⟩ := Store.closeTailer_closes found
          simp only [finishTailer, closed, if_true]
          exact (Store.isClosedTailer_eq found').trans shut
        | false =>
          left
          simp only [finishTailer, closed, Bool.false_eq_true, if_false]
          exact List.mem_append_right _ List.mem_cons_self
      · exact .inl (other_call there member here).1
    · rename_i there
      exact .inl (other_call there member fun same => by cases same).1
    · exact .inl member

def ofBroker : Store.Action → Bool
  | .create _ _ | .delete _ | .openAppender _ _ _ | .closeAppender _ | .subscribe _ _ _ _
  | .closeTailer _ => true
  | _ => false

/-- An action of the store is done as such, unless it is one of the broker's. -/
theorem mem_storeActions {op : Operation} {a : Store.Action} (member : a ∈ x.storeActions op) :
    op = .store a ∨ ofBroker a = true ∨ ∃ i k, op = .ask i ∧ x.calls[i]? = some (.creating k) ∧
      a = .createTailer k.group k.partitions k.type k.codec := by
  cases causes member with
  | same => exact .inl rfl
  | asks there => exact .inr (.inr ⟨_, _, rfl, there, rfl⟩)
  | creates | deletes | closesWith | opens | subscribes | discards | closesAppender
  | closesTailer => exact .inr (.inl rfl)

theorem Listed.act (listed : Listed x) (sound : Sound x) {op : Operation} (managed : Managed op) :
    Listed (x.act op) := by
  intro r t' found' explicit opened
  cases found : x.broker.store.tailer? r with
  | some t =>
    rw [store_act] at found'
    obtain ⟨u, same, later⟩ := Store.run_tailer found (x.storeActions op)
    cases Option.some.inj (same.symm.trans found')
    have before := listed r t found (later.subscribed.symm.trans explicit) (later.opened opened)
    rcases before with handed | ⟨k, member⟩
    · exact .inl (explicit_act op handed)
    · rcases created_act sound op member with stays | handed | closed
      · exact .inr ⟨k, stays⟩
      · exact .inl handed
      · rw [← store_act] at found'
        cases closed.symm.trans ((Store.isClosedTailer_eq found').trans opened)
  | none =>
    by_cases creates : ∃ i k, op = .ask i ∧ x.calls[i]? = some (.creating k)
    · obtain ⟨i, k, rfl, there⟩ := creates
      right
      simp only [Session.act, ask, there] at found' ⊢
      have answer := Store.createTailer_new found found'
      obtain ⟨within, -⟩ := List.getElem?_eq_some_iff.mp there
      refine ⟨k, ?_⟩
      rw [askTailer, answer]
      exact List.mem_set within _
    · have without (group : String) (ps : List Partition) (type : MessageType)
          (codec : Option Codec) :
          Store.Action.createTailer group ps type codec ∉ x.storeActions op := by
        intro member
        rcases mem_storeActions member with rfl | impossible | ⟨i, k, asks, there, -⟩
        · cases managed
        · cases impossible
        · exact creates ⟨i, k, asks, there⟩
      rw [store_act] at found'
      cases explicit.symm.trans (Store.run_subscribed without found found')

/-- Creations are begun only while the broker is open, and only then their number grows. -/
theorem tickets_act (x : Session) (op : Operation) :
    (x.act op).tickets.Sublist x.tickets ∨ (x.act op).broker.closed = false := by
  cases op with
  | create | delete | appender | close | store => exact .inl (List.Sublist.refl _)
  | createTailer group partitions type codec =>
    have step := begins x.broker group partitions type codec
    simp only [act]
    generalize x.broker.beginTailer group partitions type codec = result at step
    obtain ⟨outcome, b⟩ := result
    cases step with
    | refused | taken | unfit => exact .inl (List.Sublist.refl _)
    | reserves checked => exact .inr (checkRequest_open checked)
  | subscribe group names type codec =>
    left
    simp only [act]
    split
    · simp [tickets, Call.ticket?]
    · exact List.Sublist.refl _
  | ask i =>
    left
    simp only [act, ask]
    split
    · rename_i k there
      have same : (x.calls.set i (.created k (x.broker.askTailer k).1)).filterMap Call.ticket? =
          x.tickets := tickets_set there rfl
      exact same ▸ List.Sublist.refl _
    · rename_i there
      have same (answer : Outcome TailerRef) :
          (x.calls.set i (.subscribed answer)).filterMap Call.ticket? = x.tickets :=
        tickets_set there rfl
      exact same _ ▸ List.Sublist.refl _
    · exact List.Sublist.refl _
  | finish i =>
    left
    simp only [act, finish]
    split
    · exact (List.eraseIdx_sublist _ _).filterMap _
    · exact (List.eraseIdx_sublist _ _).filterMap _
    · exact List.Sublist.refl _

theorem TicketsApart.act (apart : TicketsApart x) (sound : Sound x) (op : Operation) :
    TicketsApart (x.act op) := by
  rcases tickets_act x op with fewer | opened
  · exact apart.sublist fewer
  · exact ((sound.act op).agrees opened).tickets_apart

/-- What the broker hands out and creates is all there is for given partitions, and nothing of it is
shared. -/
structure Exclusive (x : Session) : Prop where
  sound : Sound x
  listed : Listed x
  apart : TicketsApart x

theorem exclusive_run (config : StoreConfig) (limits : Limits) {ops : List Operation}
    (managed : ∀ op ∈ ops, Managed op) : Exclusive ((start config limits).run ops) := by
  have later {x : Session} (exclusive : Exclusive x) : Exclusive (x.run ops) := by
    induction ops generalizing x with
    | nil => exact exclusive
    | cons op ops ih =>
      refine ih (fun next member => managed next (List.mem_cons_of_mem op member)) ?_
      exact ⟨exclusive.sound.act op,
        exclusive.listed.act exclusive.sound (managed op List.mem_cons_self),
        exclusive.apart.act exclusive.sound op⟩
  refine later ⟨sound_start config limits, ?_, List.Pairwise.nil⟩
  intro r t found
  cases found

/-- A tailer that was handed out and one that was not share nothing. -/
theorem Exclusive.pending (exclusive : Exclusive x) (handed : r ∈ x.explicit)
    (opened : x.broker.store.isClosedTailer r = false) (member : .created k (.ok q) ∈ x.calls) :
    ∀ key ∈ x.broker.store.keysOf q, key ∉ x.broker.store.keysOf r := by
  cases closed : x.broker.closed with
  | true => cases opened.symm.trans (exclusive.sound.closed closed r handed)
  | false =>
    rw [(exclusive.sound.created k q member).keys]
    have ticket : k ∈ x.tickets := List.mem_filterMap.mpr ⟨_, member, rfl⟩
    exact (exclusive.sound.agrees closed).ticket_apart ticket handed opened

/-- Two open tailers for given partitions share nothing. -/
theorem Exclusive.disjoint (exclusive : Exclusive x) (other : r ≠ q) {t u : Tailer}
    (found : x.broker.store.tailer? r = some t) (explicit : t.subscribed = false)
    (opened : t.closed = false) (found' : x.broker.store.tailer? q = some u)
    (explicit' : u.subscribed = false) (opened' : u.closed = false) :
    ∀ key ∈ x.broker.store.keysOf r, key ∉ x.broker.store.keysOf q := by
  have open₁ : x.broker.store.isClosedTailer r = false :=
    (Store.isClosedTailer_eq found).trans opened
  have open₂ : x.broker.store.isClosedTailer q = false :=
    (Store.isClosedTailer_eq found').trans opened'
  rcases exclusive.listed r t found explicit opened with handed | ⟨k, member⟩ <;>
    rcases exclusive.listed q u found' explicit' opened' with handed' | ⟨l, member'⟩
  · cases closed : x.broker.closed with
    | true => cases open₁.symm.trans (exclusive.sound.closed closed r handed)
    | false => exact (exclusive.sound.agrees closed).disjoint handed handed' other open₁ open₂
  · exact fun key mine yours => exclusive.pending handed open₁ member' key yours mine
  · exact exclusive.pending handed' open₂ member
  · rw [(exclusive.sound.created k r member).keys, (exclusive.sound.created l q member').keys]
    have either : Std.Symm fun c d : Call => ∀ k, c.ticket? = some k → ∀ l, d.ticket? = some l →
        ∀ key ∈ k.keys, key ∉ l.keys :=
      ⟨fun c d apart l here k there key mine yours => apart k there l here key yours mine⟩
    have calls : Call.created k (.ok r) ≠ .created l (.ok q) := by
      rintro ⟨⟩
      exact other rfl
    have apart := List.pairwise_filterMap.mp exclusive.apart
    exact apart.forall member member' calls k rfl l rfl

end Broker.Session

end Logbook
