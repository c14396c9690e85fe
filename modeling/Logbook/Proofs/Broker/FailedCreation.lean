import Logbook.Proofs.Broker.Renumbering

/-! Creations that fail. All that one leaves behind is a number that was drawn, a record without
closed tailers, and a store that has failed if it was told to. None of it decides anything. -/
namespace Logbook

/-- The store after an error. A creation that it was told to fail fails once. -/
def Store.spend (s : Store) : LogFault → Store
  | .injected .createTailer => { s with failNextTailer := false }
  | _ => s

theorem Store.isClosedTailer_spend (s : Store) (e : LogFault) :
    (s.spend e).isClosedTailer = s.isClosedTailer := by
  unfold Store.spend
  split <;> rfl

namespace Ownership

variable {o : Ownership} {h : Holders}

/-- Keys that nobody owned are given back without a trace. -/
theorem release_reserve {id : Nat} {keys : List GroupPartition} (unused : ¬o.Used id)
    (free : ∀ e ∈ o.owners, e.1 ∉ keys) : (o.reserve id keys).release id keys = o := by
  have owners : (keys.map (·, id) ++ o.owners.filter (!keys.contains ·.1)).filter
      (fun e => !(e.2 = id && keys.contains e.1)) = o.owners := by
    have kept : o.owners.filter (!keys.contains ·.1) = o.owners := by
      refine List.filter_eq_self.mpr fun e member => ?_
      simpa using free e member
    have mine : (keys.map (·, id)).filter (fun e => !(e.2 = id && keys.contains e.1)) = [] := by
      refine List.filter_eq_nil_iff.mpr fun e member => ?_
      obtain ⟨key, asked, rfl⟩ := List.mem_map.mp member
      simpa using asked
    rw [List.filter_append, mine, kept, List.nil_append]
    refine List.filter_eq_self.mpr fun e member => ?_
    have other : e.2 ≠ id := fun same => unused (.inr (.inr ⟨e, member, same⟩))
    simp [other]
  have reserved : (id :: o.reserved).filter (· ≠ id) = o.reserved := by
    rw [List.filter_cons_of_neg (by simp)]
    refine List.filter_eq_self.mpr fun other member => ?_
    have apart : other ≠ id := fun same => unused (.inl (same ▸ member))
    simp [apart]
  simp only [reserve, release, owners, reserved]

/-- After closed tailers are forgotten, only keys that are taken have an owner. -/
theorem Agrees.free_prune (agrees : Agrees o next h) {keys : List GroupPartition}
    (free : (o.prune h.isClosed).taken? h.isClosed keys = none) :
    ∀ e ∈ (o.prune h.isClosed).owners, e.1 ∉ keys := by
  intro e member asked
  have owner := lookup_of_mem agrees.prune.once member
  have held := ((lookup_prune agrees.once h.isClosed).mp owner).2
  have active : (o.prune h.isClosed).isActive h.isClosed e.2 = true := by
    refine isActive_iff.mpr ?_
    rcases held with creating | ⟨r, live, opened⟩
    · exact .inl creating
    · exact .inr ⟨r, mem_prune.mpr ⟨live, opened⟩, opened⟩
  have taken := List.find?_eq_none.mp free e.1 asked
  simp [owner, active] at taken

end Ownership

namespace Broker

/-- What a creation that fails makes of a broker. It fails before a number is drawn, or it gives back
all that it has reserved. -/
inductive Fails (b : Broker) : LogFault → Broker → Prop where
  | refused {e : LogFault} : b.store.spend e = b.store → Fails b e b
  | drawn {e : LogFault} : b.closed = false → Fails b e { b with
      store := b.store.spend e
      ownership := b.ownership.prune b.store.isClosedTailer
      nextNumber := b.nextNumber + 1 }

theorem createTailer_fails {b : Broker} {h : Ownership.Holders}
    (closed : h.isClosed = b.store.isClosedTailer)
    (agrees : b.closed = false → b.ownership.Agrees b.nextNumber h)
    {group : String} {partitions : List Partition} {type : MessageType} {codec : Option Codec}
    {e : LogFault} (failed : (b.createTailer group partitions type codec).1 = .error e) :
    Fails b e (b.createTailer group partitions type codec).2 := by
  have start := begins b group partitions type codec
  have number : (b.nextTicket group partitions type codec).number = b.nextNumber := rfl
  unfold createTailer at failed ⊢
  generalize b.nextTicket group partitions type codec = k at start number
  generalize b.beginTailer group partitions type codec = begun at start failed ⊢
  obtain ⟨outcome, c⟩ := begun
  have restored (opened : b.closed = false)
      (free : (b.ownership.prune b.store.isClosedTailer).taken? b.store.isClosedTailer
        k.keys = none) :
      ((b.ownership.prune b.store.isClosedTailer).reserve k.number k.keys).release k.number k.keys =
        b.ownership.prune b.store.isClosedTailer := by
    rw [← closed] at free ⊢
    refine Ownership.release_reserve ?_ ((agrees opened).free_prune free)
    exact number ▸ (agrees opened).prune.unused
  cases start with
  | refused checked =>
    cases failed
    rcases checkRequest_error checked with rfl | ⟨a, rfl⟩
    · exact .refused rfl
    · exact .refused rfl
  | taken checked =>
    cases failed
    exact .drawn (checkRequest_open checked)
  | unfit checked free unfit =>
    cases failed
    have opened := checkRequest_open checked
    simp only [restored opened free]
    rcases checkLogs_error unfit with ⟨name, rfl⟩ | ⟨name, existing, requested, rfl⟩
    · exact .drawn opened
    · exact .drawn opened
  | reserves checked free =>
    have opened := checkRequest_open checked
    simp only [askTailer] at failed ⊢
    cases asked : (b.store.createTailer k.group k.partitions k.type k.codec).1 with
    | ok r => simp [asked, finishTailer, opened] at failed
    | error e' =>
      simp only [asked, finishTailer, Except.error.injEq] at failed
      subst failed
      simp only [finishTailer, abandon, restored opened free]
      rcases Store.createTailer_error asked with ⟨⟨name, rfl⟩ | ⟨p, size, rfl⟩, same⟩ | ⟨rfl, spent⟩
      · rw [same]
        exact .drawn opened
      · rw [same]
        exact .drawn opened
      · rw [spent]
        exact .drawn opened

namespace Session

variable {x : Session}

def spend (x : Session) (e : LogFault) : Session :=
  { x with broker.store := x.broker.store.spend e }

theorem Sound.spend (sound : Sound x) (e : LogFault) : Sound (x.spend e) := by
  unfold Session.spend Store.spend
  split
  · exact sound.act (.store (.setFaults false x.broker.store.failNextClose))
  · exact sound

/-! The numbers in use are those below the gap. -/

theorem renumber_calls {f : Nat → Nat} (fixed : ∀ k ∈ x.tickets, f k.number = k.number) :
    x.calls.map (Call.renumber f) = x.calls := by
  refine (List.map_congr_left fun c member => ?_).trans (List.map_id _)
  have same (k : Ticket) (ticket : c.ticket? = some k) : k.renumber f = k := by
    have found : k ∈ x.tickets := List.mem_filterMap.mpr ⟨c, member, ticket⟩
    simp only [Ticket.renumber, fixed k found]
  cases c with
  | creating k => exact congrArg Call.creating (same k rfl)
  | created k answer => exact congrArg (Call.created · answer) (same k rfl)
  | subscribing => rfl
  | subscribed => rfl

theorem renumber_live {f : Nat → Nat} {l : List (Nat × TailerRef)} (fixed : ∀ e ∈ l, f e.1 = e.1) :
    l.map (Prod.map f id) = l := by
  refine (List.map_congr_left fun e member => ?_).trans (List.map_id _)
  exact Prod.ext (fixed e member) rfl

/-- A session whose numbers are all below the gap is alike to itself with the gap. -/
theorem alike_drawn (x : Session) (gap : Nat) (o : Ownership)
    (fixed : ∀ k ∈ x.tickets, shift x.broker.nextNumber gap k.number = k.number)
    (below : ∀ e ∈ x.broker.ownership.live, shift x.broker.nextNumber gap e.1 = e.1)
    (live : o.live.filter (!x.broker.store.isClosedTailer ·.2) =
      x.broker.ownership.live.filter (!x.broker.store.isClosedTailer ·.2)) :
    x.withRecord x.broker.nextNumber gap o =
        { x with broker := x.broker.withRecord o (x.broker.nextNumber + gap) } ∧
      Alike x.broker.nextNumber gap x o := by
  constructor
  · simp only [withRecord, renumber_calls fixed]
  · constructor
    case drawn => exact Nat.le_refl _
    case live =>
      rw [live, renumber_live fun e member => below e (List.mem_of_mem_filter member)]

/-- A call that fails makes of a session one that is alike. -/
theorem Sound.failed (sound : Sound x) {e : LogFault} {b : Broker} (fails : Fails x.broker e b) :
    ∃ gap o, { x with broker := b } = (x.spend e).withRecord x.broker.nextNumber gap o ∧
      Alike x.broker.nextNumber gap (x.spend e) o ∧ gap ≤ 1 ∧ (o = x.broker.ownership ∨
        o = x.broker.ownership.prune (x.spend e).broker.store.isClosedTailer) := by
  cases fails with
  | refused unspent =>
    have spent : x.spend e = x := by simp only [Session.spend, unspent]
    obtain ⟨same, alike⟩ := alike_drawn x 0 x.broker.ownership (fun _ _ => shift_zero _ _)
      (fun _ _ => shift_zero _ _) rfl
    rw [spent]
    exact ⟨0, x.broker.ownership, same.symm, alike, Nat.zero_le 1, .inl rfl⟩
  | drawn opened =>
    have agrees := sound.agrees opened
    have tickets (k : Ticket) (member : k ∈ (x.spend e).tickets) :
        shift (x.spend e).broker.nextNumber 1 k.number = k.number := by
      have used : x.broker.ownership.Used k.number :=
        .inl ((agrees.reserved _).mpr ⟨k, member, rfl⟩)
      exact shift_below (agrees.drawn _ used) 1
    have live (e' : Nat × TailerRef) (member : e' ∈ (x.spend e).broker.ownership.live) :
        shift (x.spend e).broker.nextNumber 1 e'.1 = e'.1 :=
      shift_below (agrees.drawn _ (.live member)) 1
    have closed : (x.spend e).broker.store.isClosedTailer = x.broker.store.isClosedTailer :=
      x.broker.store.isClosedTailer_spend e
    have pruned : (x.broker.ownership.prune x.broker.store.isClosedTailer).live.filter
          (!(x.spend e).broker.store.isClosedTailer ·.2) =
        x.broker.ownership.live.filter (!(x.spend e).broker.store.isClosedTailer ·.2) := by
      simp only [closed, Ownership.prune, List.filter_filter, Bool.and_self]
    obtain ⟨same, alike⟩ := alike_drawn (x.spend e) 1 _ tickets live pruned
    exact ⟨1, _, same.symm, alike, Nat.le_refl 1, .inr (by rw [closed])⟩

/-! What is seen of a session. -/

structure Same (x y : Session) : Prop where
  store : y.broker.store = x.broker.store
  contains : ∀ name, y.broker.contains name = x.broker.contains name
  size : ∀ name, y.broker.size name = x.broker.size name
  names : y.broker.names = x.broker.names
  lag : ∀ name group, y.broker.lag name group = x.broker.lag name group
  liveTailers : y.broker.liveTailers = x.broker.liveTailers
  has : ∀ key, y.holders.Has key ↔ x.holders.Has key
  explicit : y.explicit = x.explicit
  subscribed : y.subscribed = x.subscribed

theorem Alike.same (alike : Alike first gap x o) : Same x (x.withRecord first gap o) where
  store := rfl
  contains _ := rfl
  size _ := rfl
  names := rfl
  lag _ _ := rfl
  liveTailers := by
    have count := congrArg List.length alike.live
    rw [List.length_map] at count
    exact count
  has := has_withRecord x first gap o
  explicit := rfl
  subscribed := rfl

/-- A session `y` bears no trace of what made it of `x`. At once, nobody has gained or lost a key and
no number is reserved that was not; and whatever is done later, the answers are the same but for the
numbers of tailers that are yet to come, and so is all that is seen between them. -/
structure LeavesNoTrace (x y : Session) : Prop where
  ownership : y.broker.ownership = x.broker.ownership ∨
    y.broker.ownership = x.broker.ownership.prune x.broker.store.isClosedTailer
  reserved : y.broker.ownership.reserved = x.broker.ownership.reserved
  holders : y.holders = x.holders
  drawn : y.broker.nextNumber = x.broker.nextNumber ∨
    y.broker.nextNumber = x.broker.nextNumber + 1
  answers : ∀ more, y.answers more = (x.answers more).map (Answer.renumber
    (shift x.broker.nextNumber (y.broker.nextNumber - x.broker.nextNumber)))
  same : ∀ more, Same (x.run more) (y.run more)

theorem Alike.leavesNoTrace {gap : Nat} (alike : Alike x.broker.nextNumber gap x o)
    (sound : Sound x) (sound' : Sound (x.withRecord x.broker.nextNumber gap o)) (few : gap ≤ 1)
    (record : o = x.broker.ownership ∨
      o = x.broker.ownership.prune x.broker.store.isClosedTailer)
    (calls : (x.withRecord x.broker.nextNumber gap o).calls = x.calls) :
    LeavesNoTrace x (x.withRecord x.broker.nextNumber gap o) := by
  have number : (x.withRecord x.broker.nextNumber gap o).broker.nextNumber =
      x.broker.nextNumber + gap := rfl
  constructor
  case ownership => exact record
  case reserved =>
    show o.reserved = x.broker.ownership.reserved
    rcases record with rfl | rfl
    · rfl
    · rfl
  case holders =>
    simp only [holders, tickets, calls]
    rfl
  case drawn => omega
  case answers =>
    intro more
    rw [number, Nat.add_sub_cancel_left]
    exact (alike.run sound sound' more).1
  case same =>
    intro more
    obtain ⟨-, o', run, alike'⟩ := alike.run sound sound' more
    rw [run]
    exact alike'.same

/-- A creation that fails leaves no trace, wherever it fails, except that a store which was told to
fail has done so. -/
theorem failed_creation (config : StoreConfig) (limits : Limits) (ops : List Operation)
    {group : String} {partitions : List Partition} {type : MessageType} {codec : Option Codec}
    {e : LogFault} (failed : (((start config limits).run ops).broker.createTailer group partitions
      type codec).1 = .error e) :
    LeavesNoTrace (((start config limits).run ops).spend e)
      { (start config limits).run ops with
        broker := (((start config limits).run ops).broker.createTailer group partitions
          type codec).2 } := by
  have sound := sound_run config limits ops
  generalize (start config limits).run ops = x at sound failed ⊢
  have fails : Fails x.broker e _ := createTailer_fails (h := x.holders) rfl sound.agrees failed
  have after : Sound { x with
      broker := (x.broker.createTailer group partitions type codec).2 } := by
    have called := run_invariant (P := Sound) (fun op sound => sound.act op) sound
      [.createTailer group partitions type codec, .ask x.calls.length, .finish x.calls.length]
    rw [run_createTailer, failed] at called
    exact called
  obtain ⟨gap, o, same, alike, few, record⟩ := sound.failed fails
  have calls : x.calls = ((x.spend e).withRecord x.broker.nextNumber gap o).calls :=
    congrArg (·.calls) same
  rw [same] at after ⊢
  exact alike.leavesNoTrace (sound.spend e) after few record calls.symm

/-- Partition 0 was given to a tailer that is closed by now, partition 1 to one that is open. The store
is told to fail. -/
def toldToFail : List Operation :=
  [.create "e" 2, .createTailer "g" [⟨"e", 0⟩] .string none, .ask 0, .finish 0,
    .store (.closeTailer ⟨"g", 0⟩), .createTailer "g" [⟨"e", 1⟩] .string none, .ask 0, .finish 0,
    .store (.setFaults true false)]

theorem failed_creation_injected :
    (((start {} {}).run toldToFail).broker.createTailer "g" [⟨"e", 0⟩] .string none).1 =
        .error (.injected .createTailer) ∧
      LeavesNoTrace (((start {} {}).run toldToFail).spend (.injected .createTailer))
        { (start {} {}).run toldToFail with
          broker := (((start {} {}).run toldToFail).broker.createTailer "g" [⟨"e", 0⟩]
            .string none).2 } := by
  have failed : (((start {} {}).run toldToFail).broker.createTailer "g" [⟨"e", 0⟩] .string
      none).1 = .error (.injected .createTailer) := by rfl
  exact ⟨failed, failed_creation {} {} toldToFail failed⟩

end Session

end Broker

end Logbook
