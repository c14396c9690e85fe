import Logbook.Proofs.Broker.Counting
import Logbook.Proofs.Broker.Steps
import Logbook.Proofs.Broker.Views

/-! Consumer groups do not interfere. When one thing is done after the other and nothing is told to
fail, a group that is left alone with the logs sees what it sees among other groups: what others do
with their tailers decides nothing of what its own are answered. -/
namespace Logbook.Broker.Session

variable {x y : Session} {g h : String}

/-! What a group can tell apart. -/

/-- Two sessions that a group cannot tell apart: it sees the same of the brokers, its tailers own
the same keys, and the same ones would be closed with the broker, in the same order. -/
structure AlikeFor (g : String) (x y : Session) : Prop where
  view : x.broker.view g = y.broker.view g
  explicit : x.explicit.filter (·.group = g) = y.explicit.filter (·.group = g)
  live : x.broker.openOf g = y.broker.openOf g

theorem AlikeFor.symm (alike : AlikeFor g x y) : AlikeFor g y x :=
  ⟨alike.view.symm, alike.explicit.symm, alike.live.symm⟩

theorem AlikeFor.trans {z : Session} (alike : AlikeFor g x y) (later : AlikeFor g y z) :
    AlikeFor g x z :=
  ⟨alike.view.trans later.view, alike.explicit.trans later.explicit, alike.live.trans later.live⟩

theorem AlikeFor.refl (g : String) (x : Session) : AlikeFor g x x := ⟨rfl, rfl, rfl⟩

variable {b c : Broker}

theorem seenBy_congr (same : b.view g = c.view g) : b.store.seenBy g = c.store.seenBy g :=
  congrArg Broker.store same

theorem parts_congr (same : b.view g = c.view g) :
    b.limits = c.limits ∧ b.closed = c.closed ∧ b.appenders = c.appenders := by
  simp only [Broker.view, Broker.mk.injEq] at same
  exact ⟨same.2.1, same.2.2.1, same.2.2.2.1⟩

theorem tailer?_congr (same : b.view g = c.view g) {r : TailerRef} (own : r.group = g) :
    b.store.tailer? r = c.store.tailer? r := by
  rw [← Store.tailer?_seenBy own, seenBy_congr same, Store.tailer?_seenBy own]

theorem isClosedTailer_congr (same : b.view g = c.view g) {r : TailerRef} (own : r.group = g) :
    b.store.isClosedTailer r = c.store.isClosedTailer r := by
  rw [← Store.isClosedTailer_seenBy own, seenBy_congr same, Store.isClosedTailer_seenBy own]

/-- Of the open tailers of the group, the same ones stay open. -/
theorem AlikeFor.stillOpen (alike : AlikeFor g x y) (same : b.view g = c.view g) :
    (x.broker.openOf g).filter (!b.store.isClosedTailer ·) =
      (y.broker.openOf g).filter (!c.store.isClosedTailer ·) := by
  rw [alike.live]
  refine List.filter_congr fun r member => ?_
  obtain ⟨e, there, rfl⟩ := List.mem_map.mp member
  have own : e.2.group = g := by
    have both := (List.mem_filter.mp there).2
    simp only [Bool.and_eq_true, decide_eq_true_eq] at both
    exact both.1
  rw [isClosedTailer_congr same own]

/-- Both go on alike if nothing is put on record and the group sees the same afterwards. -/
theorem AlikeFor.moves (alike : AlikeFor g x y) (sound : Sound x) (sound' : Sound y)
    (moves : Moves x.broker b) (moves' : Moves y.broker c) (same : b.view g = c.view g) :
    AlikeFor g { x with broker := b } { y with broker := c } where
  view := same
  explicit := alike.explicit
  live := by
    rw [openOf_moves sound.live moves, openOf_moves sound'.live moves']
    exact alike.stillOpen same

/-- A key of the group belongs to a tailer in both sessions or in none. -/
theorem AlikeFor.has (alike : AlikeFor g x y) (quiet : Quiet x)
    {key : GroupPartition} (own : key.group = g) : x.holders.Has key → y.holders.Has key := by
  rintro (⟨k, creating, -⟩ | ⟨r, handed, opened, holds⟩)
  · simp [holders, tickets, quiet.calls] at creating
  · simp only [holders] at handed opened holds
    have group : r.group = g := by
      simp only [Store.keysOf] at holds
      split at holds
      · obtain ⟨p, -, rfl⟩ := List.mem_map.mp holds
        exact own
      · cases holds
    have there : r ∈ x.explicit.filter (·.group = g) := List.mem_filter.mpr ⟨handed, by simpa⟩
    rw [alike.explicit] at there
    refine .inr ⟨r, (List.mem_filter.mp there).1, ?_, ?_⟩
    · exact (isClosedTailer_congr alike.view group).symm.trans opened
    · have keys : y.broker.store.keysOf r = x.broker.store.keysOf r := by
        simp only [Store.keysOf, tailer?_congr alike.view group]
      show key ∈ y.broker.store.keysOf r
      rw [keys]
      exact holds

/-- Both refuse the group the same key. -/
theorem AlikeFor.taken? (alike : AlikeFor g x y) (quiet : Quiet x) (quiet' : Quiet y)
    (opened : x.broker.closed = false) (partitions : List Partition) :
    (x.broker.ownership.prune x.broker.store.isClosedTailer).taken? x.broker.store.isClosedTailer
        (partitions.map (⟨g, ·⟩)) =
      (y.broker.ownership.prune y.broker.store.isClosedTailer).taken?
        y.broker.store.isClosedTailer (partitions.map (⟨g, ·⟩)) := by
  have opened' : y.broker.closed = false := (parts_congr alike.view).2.1.symm.trans opened
  have has (p : Partition) : x.holders.Has ⟨g, p⟩ ↔ y.holders.Has ⟨g, p⟩ :=
    ⟨alike.has quiet rfl, alike.symm.has quiet' rfl⟩
  refine Option.ext fun key => ?_
  have here := quiet.sound.taken? opened g partitions key
  have there := quiet'.sound.taken? opened' g partitions key
  constructor
  · intro first
    obtain ⟨before, p, after, split, rfl, held, free⟩ := here.mp first
    exact there.mpr ⟨before, p, after, split, rfl, (has p).mp held,
      fun q member => mt (has q).mpr (free q member)⟩
  · intro first
    obtain ⟨before, p, after, split, rfl, held, free⟩ := there.mp first
    exact here.mpr ⟨before, p, after, split, rfl, (has p).mpr held,
      fun q member => mt (has q).mp (free q member)⟩

/-! Opening tailers. -/

/-- A broker has one more tailer on record, and its store goes on. -/
structure Opens (b c : Broker) (r : TailerRef) : Prop where
  store : ∃ as, c.store = b.store.run as
  live : ∃ keep, c.ownership.live = (b.nextNumber, r) :: b.ownership.live.filter keep ∧
    ∀ e ∈ b.ownership.live, c.store.isClosedTailer e.2 = false → keep e = true
  opened : b.closed = false
  rest : c.limits = b.limits ∧ c.closed = b.closed ∧ c.appenders = b.appenders

theorem Opens.view {r : TailerRef} (opens : Opens b c r) :
    c.view g = { b.view g with store := c.store.seenBy g } := by
  obtain ⟨limits, closed, appenders⟩ := opens.rest
  simp only [Broker.view, limits, closed, appenders]

theorem Opens.openOf {r : TailerRef} (opens : Opens x.broker c r) (sound : Sound x) :
    c.openOf g = (x.broker.openOf g).filter (!c.store.isClosedTailer ·) ++
      [r].filter fun r => r.group = g && !c.store.isClosedTailer r := by
  obtain ⟨as, store⟩ := opens.store
  obtain ⟨keep, live, kept⟩ := opens.live
  have agrees := sound.agrees opens.opened
  have moves : Moves x.broker { x.broker with store := c.store } := ⟨⟨as, store⟩, rfl, rfl, rfl⟩
  let pruned : Ownership := { x.broker.ownership with live := x.broker.ownership.live.filter keep }
  have numbered : (pruned.live.map (·.1)).Nodup :=
    agrees.numbered.sublist (List.filter_sublist.map _)
  have below (e : Nat × TailerRef) (member : e ∈ pruned.live) : e.1 < x.broker.nextNumber :=
    agrees.drawn _ (.live (List.mem_of_mem_filter member))
  have cons : c.openOf g = _ := openOf_cons (b := { x.broker with store := c.store })
    (m := 0) (g := g) live numbered below
  have forgets := openOf_prune (b := { x.broker with store := c.store }) (o := pruned) (m := 0)
    (g := g) agrees.numbered rfl kept
  rw [cons, forgets, openOf_moves sound.live moves]

/-- Both go on alike if they put the same tailer on record and the group sees the same of it. -/
theorem AlikeFor.opens (alike : AlikeFor g x y) (sound : Sound x) (sound' : Sound y)
    {r : TailerRef} (opens : Opens x.broker b r) (opens' : Opens y.broker c r)
    (same : b.store.seenBy g = c.store.seenBy g) :
    b.view g = c.view g ∧ b.openOf g = c.openOf g := by
  have view : b.view g = c.view g := by rw [opens.view, opens'.view, alike.view, same]
  refine ⟨view, ?_⟩
  rw [opens.openOf sound, opens'.openOf sound', alike.stillOpen view]
  congr 1
  refine List.filter_congr fun q _ => ?_
  by_cases own : q.group = g
  · rw [isClosedTailer_congr view own]
  · simp [own]

/-- A tailer of another group on record is not seen. -/
theorem Opens.unseen (sound : Sound x) {r : TailerRef} (opens : Opens x.broker c r)
    (other : r.group ≠ g) (same : c.store.seenBy g = x.broker.store.seenBy g) :
    c.view g = x.broker.view g ∧ c.openOf g = x.broker.openOf g := by
  have view : c.view g = x.broker.view g := by
    rw [opens.view, same]
    rfl
  have kept := (AlikeFor.refl g x).stillOpen view
  have still := openOf_moves (g := g) sound.live (Stays.refl x.broker).toMoves
  refine ⟨view, ?_⟩
  rw [opens.openOf sound, kept, ← still]
  simp [other]

variable {group : String} {partitions : List Partition} {names : List String}
  {type : MessageType} {codec : Option Codec} {r : TailerRef}

theorem Sound.opens_createTailer (sound : Sound x)
    (made : (x.broker.createTailer group partitions type codec).1 = .ok r) :
    Opens x.broker (x.broker.createTailer group partitions type codec).2 r ∧
      (x.broker.createTailer group partitions type codec).2.store =
        x.broker.store.act (.createTailer group partitions.eraseDups type codec) ∧
      r.group = group := by
  obtain ⟨opened, asked, o, live, same⟩ := createTailer_made made
  rw [same]
  refine ⟨⟨⟨[.createTailer group partitions.eraseDups type codec], rfl⟩, ⟨_, live, ?_⟩, opened, rfl,
    rfl, rfl⟩, rfl, (Store.createTailer_ok sound.numbered asked).1⟩
  intro e member still
  obtain ⟨t, found⟩ := sound.live e member
  cases closed : x.broker.store.isClosedTailer e.2 with
  | false => rfl
  | true =>
    have later :
        (x.broker.store.run [.createTailer group partitions.eraseDups type codec]).isClosedTailer e.2 =
          true := Store.isClosedTailer_run found closed
    cases still.symm.trans later

/-- A creation that fails is not seen, as long as nothing was told to fail. -/
theorem Quiet.fails (quiet : Quiet x) {e : LogFault}
    (failed : (x.broker.createTailer group partitions type codec).1 = .error e) :
    AlikeFor g { x with broker := (x.broker.createTailer group partitions type codec).2 } x := by
  have fails : Fails x.broker e _ :=
    createTailer_fails (h := x.holders) rfl quiet.sound.agrees failed
  generalize (x.broker.createTailer group partitions type codec).2 = b at fails
  cases fails with
  | refused => exact .refl g x
  | drawn opened =>
    have unspent : x.broker.store.spend e = x.broker.store := by
      unfold Store.spend
      split
      · rw [← quiet.faultless.tailer]
      · rfl
    constructor
    case view => simp only [Broker.view, unspent]
    case explicit => rfl
    case live =>
      rw [unspent]
      exact openOf_prune (quiet.sound.agrees opened).numbered rfl
        fun e' _ still => by simp [still]

theorem opens_subscribe (x : Session) (group : String) (names : List String)
    (type : MessageType) (codec : Option Codec) :
    (∃ e, x.broker.subscribe group names type codec = (.error e, x.broker)) ∨
      ∃ r, (x.broker.subscribe group names type codec).1 = .ok r ∧
        Opens x.broker (x.broker.subscribe group names type codec).2 r ∧
        (x.broker.subscribe group names type codec).2.store =
          x.broker.store.act (.subscribe group names type codec) ∧ r.group = group := by
  rcases subscribe_cases x.broker group names type codec with
    refused | ⟨opened, r, s, o, asked, live, same⟩
  · exact .inl refused
  · right
    have done := (Store.subscribe_ok asked).1
    refine ⟨r, by rw [same], ?_, by rw [same]; exact done, ?_⟩
    · rw [same]
      exact ⟨⟨[.subscribe group names type codec], done⟩,
        ⟨_, live, fun e _ still => by simp only [still]; rfl⟩, opened, rfl, rfl, rfl⟩
    · rcases Store.subscribe_cases x.broker.store group names type codec with ⟨e, refused⟩ | joined
      · cases refused.symm.trans asked
      · cases joined.symm.trans asked
        rfl

/-! What a group sees of a step. -/

/-- What another group does is not seen. -/
theorem Quiet.unseen (quiet : Quiet x) {step : Step} (theirs : step.group? = some h)
    (other : h ≠ g) : AlikeFor g (x.perform step) x := by
  have alone (as : List Store.Action) (same : (x.broker.store.run as).seenBy g =
      x.broker.store.seenBy g) :
      AlikeFor g { x with broker.store := x.broker.store.run as } x := by
    refine (AlikeFor.refl g x).moves quiet.sound quiet.sound (stays_store x.broker as).toMoves
      (Stays.refl x.broker).toMoves ?_
    simp only [Broker.view, same]
  have act (a : Store.Action) (group : a.group? = some h) :
      (x.broker.store.act a).seenBy g = x.broker.store.seenBy g :=
    (Store.effect _ a).unseen quiet.faultless group other
  cases step with
  | create | delete | appender | close | ask => cases theirs
  | createTailer group partitions type codec =>
    cases theirs
    cases made : (x.broker.createTailer h partitions type codec).1 with
    | error e =>
      simp only [Session.perform, made, handOut]
      exact quiet.fails made
    | ok r =>
      obtain ⟨opens, store, group⟩ := quiet.sound.opens_createTailer made
      have away : r.group ≠ g := group ▸ other
      obtain ⟨view, live⟩ := opens.unseen quiet.sound away (by rw [store, act _ rfl])
      refine ⟨view, ?_, live⟩
      simp only [Session.perform, made, handOut, List.filter_append, List.filter_cons, away,
        decide_false, Bool.false_eq_true, if_false, List.filter_nil, List.append_nil]
  | subscribe group names type codec =>
    cases theirs
    rcases x.opens_subscribe h names type codec with ⟨e, refused⟩ | ⟨r, -, opens, store, group⟩
    · simp only [Session.perform, refused]
      exact ⟨rfl, rfl, rfl⟩
    · have away : r.group ≠ g := group ▸ other
      obtain ⟨view, live⟩ := opens.unseen quiet.sound away (by rw [store, act _ rfl])
      exact ⟨view, rfl, live⟩
  | read r =>
    cases theirs
    obtain ⟨as, performs⟩ := Store.read_performs x.broker.store r
    have unseen := Store.read_unseen quiet.faultless other
    rw [← performs.final] at unseen
    have read := alone as unseen
    rw [performs.final] at read
    exact read
  | store a => exact alone [a] (act a theirs)

/-- What is done to the logs, and what the group does with its tailers, is answered alike and leaves
what is seen of the stores alike. -/
theorem AlikeFor.store (alike : AlikeFor g x y) {a : Store.Action}
    (own : ∀ h, a.group? = some h → h = g) :
    x.broker.store.answer a = y.broker.store.answer a ∧
      (x.broker.store.act a).seenBy g = (y.broker.store.act a).seenBy g := by
  have same := seenBy_congr alike.view
  constructor
  · rw [← Store.answer_seenBy _ own, same, Store.answer_seenBy _ own]
  · rw [← Store.act_seenBy _ own, same, Store.act_seenBy _ own]

/-- Both creations are decided alike. -/
theorem AlikeFor.createTailer_fst (alike : AlikeFor g x y) (quiet : Quiet x) (quiet' : Quiet y)
    (partitions : List Partition) (type : MessageType) (codec : Option Codec) :
    (x.broker.createTailer g partitions type codec).1 =
      (y.broker.createTailer g partitions type codec).1 := by
  have request : x.broker.checkRequest g partitions = y.broker.checkRequest g partitions :=
    congrArg (·.checkRequest g partitions) alike.view
  have logs (names : List String) :
      x.broker.checkLogs codec names = y.broker.checkLogs codec names := by
    rw [← checkLogs_view x.broker g, alike.view, checkLogs_view]
  have asked := Answer.tailer.inj (alike.store
    (Store.Action.own_createTailer g partitions.eraseDups type codec)).1
  rw [Broker.createTailer_fst, Broker.createTailer_fst, ← request]
  cases checked : x.broker.checkRequest g partitions with
  | error e => rfl
  | ok _ =>
    simp only [alike.taken? quiet quiet' (checkRequest_open checked), logs, asked]

/-- Both subscriptions are decided alike. -/
theorem AlikeFor.subscribe_fst (alike : AlikeFor g x y) (names : List String) (type : MessageType)
    (codec : Option Codec) : (x.broker.subscribe g names type codec).1 =
      (y.broker.subscribe g names type codec).1 := by
  have request : x.broker.checkSubscribe g = y.broker.checkSubscribe g :=
    congrArg (·.checkSubscribe g) alike.view
  have asked := Answer.tailer.inj
    (alike.store (Store.Action.own_subscribe g names type codec)).1
  simp only [Broker.subscribe_fst, request, asked]

/-- What is done to the broker itself goes the same way by the view, and puts nothing on record. -/
theorem AlikeFor.follows {f : Broker → Outcome (α × Broker)} (alike : AlikeFor g x y)
    (sound : Sound x) (sound' : Sound y)
    (moves : ∀ b, Moves b (b.settle (f b)))
    (view : ∀ b, f (b.view g) = (f b).map (Prod.map id (Broker.view g))) :
    (f x.broker).map (·.1) = (f y.broker).map (·.1) ∧
      AlikeFor g { x with broker := x.broker.settle (f x.broker) }
        { y with broker := y.broker.settle (f y.broker) } := by
  constructor
  · rw [← fst_view (g := g) (f x.broker), ← view, alike.view, view, fst_view]
  · apply alike.moves sound sound' (moves x.broker) (moves y.broker)
    rw [← settle_view, ← view, alike.view, view, settle_view]

theorem AlikeFor.close (alike : AlikeFor g x y) (quiet : Quiet x) (quiet' : Quiet y) :
    x.answer .close = y.answer .close ∧ AlikeFor g (x.act .close) (y.act .close) := by
  obtain ⟨limits, same, appenders⟩ := parts_congr alike.view
  constructor
  · simp only [answer_close, same, quiet.faultless.close, quiet'.faultless.close,
      Bool.false_eq_true, if_false]
  · cases closed : x.broker.closed with
    | true =>
      simp only [act, Broker.close, closed, same.symm.trans closed, if_true]
      exact alike
    | false =>
      have shuts : x.broker.shutting = y.broker.shutting := by simp only [shutting, appenders]
      simp only [act, close_eq closed, close_eq (same.symm.trans closed)]
      constructor
      case view =>
        simp only [Broker.view, closing_seenBy quiet.faultless quiet.sound.live,
          closing_seenBy quiet'.faultless quiet'.sound.live, seenBy_congr alike.view, shuts,
          alike.live, limits]
      case explicit => exact alike.explicit
      case live => simp [openOf, Ownership.inOrder]

/-- The same is seen of the brokers, so questions about the group are answered alike. -/
theorem result_congr (same : b.view g = c.view g) {q : Query}
    (concerned : q.group?.all (· = g) = true) : q.result b = q.result c := by
  have asked (f : Broker → Result) (view : ∀ d, f (d.view g) = f d) : f b = f c := by
    rw [← view b, same, view c]
  cases q with
  | lag name group =>
    obtain rfl : group = g := by simpa [Query.group?] using concerned
    exact asked (Query.result · (.lag name group)) fun d => congrArg Result.lag (d.lag_view _ _)
  | committed group p =>
    obtain rfl : group = g := by simpa [Query.group?] using concerned
    exact asked (Query.result · (.committed group p)) fun d =>
      congrArg Result.committed (d.store.committed?_seenBy _ _)
  | tailer r =>
    have own : r.group = g := by simpa [Query.group?] using concerned
    exact congrArg Result.tailer (tailer?_congr same own)
  | closed => exact asked (Query.result · .closed) fun _ => rfl
  | contains name => exact asked (Query.result · (.contains name)) fun _ => rfl
  | size name => exact asked (Query.result · (.size name)) fun _ => rfl
  | names => exact asked (Query.result · .names) fun _ => rfl
  | storeContains name => exact asked (Query.result · (.storeContains name)) fun _ => rfl
  | storeSize name => exact asked (Query.result · (.storeSize name)) fun _ => rfl
  | storeNames => exact asked (Query.result · .storeNames) fun _ => rfl
  | endOffset p => exact asked (Query.result · (.endOffset p)) fun _ => rfl
  | appender a => exact asked (Query.result · (.appender a)) fun _ => rfl

theorem AlikeFor.createTailer (alike : AlikeFor g x y) (quiet : Quiet x) (quiet' : Quiet y)
    (partitions : List Partition) (type : MessageType) (codec : Option Codec) :
    AlikeFor g (x.perform (.createTailer g partitions type codec))
      (y.perform (.createTailer g partitions type codec)) := by
  have decided := alike.createTailer_fst quiet quiet' partitions type codec
  simp only [Session.perform]
  cases made : (x.broker.createTailer g partitions type codec).1 with
  | error e =>
    have failed := decided.symm.trans made
    rw [failed]
    exact (quiet.fails made).trans (alike.trans (quiet'.fails failed).symm)
  | ok r =>
    have also := decided.symm.trans made
    obtain ⟨opens, store, -⟩ := quiet.sound.opens_createTailer made
    obtain ⟨opens', store', -⟩ := quiet'.sound.opens_createTailer also
    have seen := (alike.store
      (Store.Action.own_createTailer g partitions.eraseDups type codec)).2
    obtain ⟨view, live⟩ :=
      alike.opens quiet.sound quiet'.sound opens opens' (by rw [store, store', seen])
    refine ⟨view, ?_, live⟩
    simp only [also, handOut, List.filter_append, alike.explicit]

theorem AlikeFor.subscribe (alike : AlikeFor g x y) (quiet : Quiet x) (quiet' : Quiet y)
    (names : List String) (type : MessageType) (codec : Option Codec) :
    AlikeFor g (x.perform (.subscribe g names type codec))
      (y.perform (.subscribe g names type codec)) := by
  have decided := alike.subscribe_fst names type codec
  simp only [Session.perform]
  rcases x.opens_subscribe g names type codec with ⟨e, refused⟩ | ⟨r, made, opens, store, -⟩
  · rcases y.opens_subscribe g names type codec with ⟨e', refused'⟩ | ⟨r, made, -⟩
    · rw [refused, refused']
      exact ⟨alike.view, alike.explicit, alike.live⟩
    · rw [refused, made] at decided
      cases decided
  · rcases y.opens_subscribe g names type codec with ⟨e, refused⟩ | ⟨q, made', opens', store', -⟩
    · rw [refused, made] at decided
      cases decided
    · cases made.symm.trans (decided.trans made')
      have seen := (alike.store (Store.Action.own_subscribe g names type codec)).2
      obtain ⟨view, live⟩ :=
        alike.opens quiet.sound quiet'.sound opens opens' (by rw [store, store', seen])
      exact ⟨view, alike.explicit, live⟩

/-- What is done to the logs, and what the group does, leaves the sessions alike. -/
theorem AlikeFor.perform (alike : AlikeFor g x y) (quiet : Quiet x) (quiet' : Quiet y) {step : Step}
    (own : ∀ h, step.group? = some h → h = g) :
    AlikeFor g (x.perform step) (y.perform step) := by
  have goes {b c : Broker} (moves : Moves x.broker b) (moves' : Moves y.broker c)
      (same : b.view g = c.view g) :
      AlikeFor g { x with broker := b } { y with broker := c } :=
    alike.moves quiet.sound quiet'.sound moves moves' same
  have stores {s s' : Store} (same : s.seenBy g = s'.seenBy g) :
      Broker.view g { x.broker with store := s } = Broker.view g { y.broker with store := s' } := by
    obtain ⟨limits, closed, appenders⟩ := parts_congr alike.view
    simp only [Broker.view, same, limits, closed, appenders]
  cases step with
  | create name size =>
    exact (alike.follows quiet.sound quiet'.sound (fun b => (stays_create b name size).toMoves)
      fun b => b.createIfMissing_view g name size).2
  | delete name =>
    exact (alike.follows quiet.sound quiet'.sound (fun b => (stays_delete b name).toMoves)
      fun b => b.delete_view g name).2
  | appender name type codec =>
    exact (alike.follows quiet.sound quiet'.sound (fun b => moves_appender b name type codec)
      fun b => b.appender_view g name type codec).2
  | createTailer group partitions type codec =>
    obtain rfl : group = g := own group rfl
    exact alike.createTailer quiet quiet' partitions type codec
  | subscribe group names type codec =>
    obtain rfl : group = g := own group rfl
    exact alike.subscribe quiet quiet' names type codec
  | close => exact (alike.close quiet quiet').2
  | read r =>
    obtain ⟨as, performs⟩ := Store.read_performs x.broker.store r
    obtain ⟨bs, performs'⟩ := Store.read_performs y.broker.store r
    have same : (x.broker.store.read r).2.2.seenBy g = (y.broker.store.read r).2.2.seenBy g := by
      have both := congrArg (fun s => (Store.read s r).2.2) (seenBy_congr alike.view)
      simpa only [Store.read_seenBy (own _ rfl)] using both
    exact goes ⟨⟨as, performs.final.symm⟩, rfl, rfl, rfl⟩
      ⟨⟨bs, performs'.final.symm⟩, rfl, rfl, rfl⟩ (stores same)
  | store a =>
    exact goes (stays_store x.broker [a]).toMoves (stays_store y.broker [a]).toMoves
      (stores (alike.store own).2)
  | ask q => exact alike

/-- What concerns the group is answered alike. -/
theorem AlikeFor.result (alike : AlikeFor g x y) (quiet : Quiet x) (quiet' : Quiet y) {step : Step}
    (concerned : step.concerns g = true) : x.result step = y.result step := by
  cases step with
  | create name size =>
    exact congrArg (Result.answer ∘ Answer.flag) (alike.follows quiet.sound quiet'.sound
      (fun b => (stays_create b name size).toMoves) fun b => b.createIfMissing_view g name size).1
  | delete name =>
    exact congrArg (Result.answer ∘ Answer.flag) (alike.follows quiet.sound quiet'.sound
      (fun b => (stays_delete b name).toMoves) fun b => b.delete_view g name).1
  | appender name type codec =>
    exact congrArg (Result.answer ∘ Answer.appender) (alike.follows quiet.sound quiet'.sound
      (fun b => moves_appender b name type codec) fun b => b.appender_view g name type codec).1
  | createTailer group partitions type codec =>
    obtain rfl : group = g := by simpa [Step.concerns, Step.remains, Step.group?] using concerned
    exact congrArg (Result.answer ∘ Answer.tailer)
      (alike.createTailer_fst quiet quiet' partitions type codec)
  | subscribe group names type codec =>
    obtain rfl : group = g := by simpa [Step.concerns, Step.remains, Step.group?] using concerned
    exact congrArg (Result.answer ∘ Answer.tailer) (alike.subscribe_fst names type codec)
  | close => exact congrArg Result.answer (alike.close quiet quiet').1
  | read r =>
    have own : r.group = g := by
      simpa [Step.concerns, Step.remains, Step.group?] using concerned
    have both := congrArg (fun s => ((Store.read s r).1, (Store.read s r).2.1))
      (seenBy_congr alike.view)
    simp only [Store.read_seenBy own, Prod.mk.injEq] at both
    simp only [Session.result, both.1, both.2]
  | store a =>
    exact congrArg Result.answer (alike.store (Store.Action.concerns_iff.mp concerned)).1
  | ask q => exact result_congr alike.view concerned

/-! Runs. -/

theorem concerns_remains {step : Step} (concerned : step.concerns g = true) :
    step.remains g = true := by
  cases step with
  | ask q => rfl
  | create | delete | appender | createTailer | subscribe | close | read | store => exact concerned

/-- Of two sessions that the group cannot tell apart, one goes through a run, and the other one
through what is left of it. -/
theorem AlikeFor.results (alike : AlikeFor g x y) (quiet : Quiet x) (quiet' : Quiet y)
    {steps : List Step} (faultless : ∀ step ∈ steps, step.faultless = true) :
    (x.results steps).filter (·.1.concerns g) =
      (y.results (steps.filter (·.remains g))).filter (·.1.concerns g) := by
  induction steps generalizing x y with
  | nil => rfl
  | cons step steps ih =>
    have first := faultless step List.mem_cons_self
    have rest : ∀ step ∈ steps, step.faultless = true :=
      fun later member => faultless later (List.mem_cons_of_mem _ member)
    cases left : step.remains g with
    | false =>
      -- the step is erased: the group does not see it, and its result is of no concern
      obtain ⟨h, theirs, other⟩ : ∃ h, step.group? = some h ∧ h ≠ g := by
        simpa [Step.remains, Option.all_eq_false] using left
      have foreign : step.concerns g = false := Bool.eq_false_iff.mpr fun concerned =>
        Bool.false_ne_true (left.symm.trans (concerns_remains concerned))
      simp only [Session.results, List.filter_cons, left, foreign, Bool.false_eq_true, if_false]
      exact ih ((quiet.unseen theirs other).trans alike) (quiet.perform first) quiet' rest
    | true =>
      have own : ∀ h, step.group? = some h → h = g := by
        simpa [Step.remains, Option.all_eq_true] using left
      have later := ih (alike.perform quiet quiet' own) (quiet.perform first)
        (quiet'.perform first) rest
      simp only [Session.results, List.filter_cons, left, if_true]
      cases concerned : step.concerns g with
      | true => rw [if_pos rfl, if_pos rfl, later, alike.result quiet quiet' concerned]
      | false => exact later

/-! Numbers of members. Here each group numbers its own. When a store numbers those of all groups
together, what others do shows in the numbers, and in nothing else. -/

/-- With the members of all groups numbered together, the store answers the same to all that a run
does to it, and every question that is asked in between shows the same. -/
structure CountsAlike (config : StoreConfig) (limits : Limits) (ops : List Operation) : Prop where
  answers : ∀ before a after, (start config limits).trace ops = before ++ a :: after →
    (({ store := { config } } : Counting).run before).answer a =
      (({ config } : Store).run before).answer a
  shows : ∀ before after (q : Query), ops = before ++ after →
    q.result { ((start config limits).run before).broker with
        store := (({ store := { config } } : Counting).run
          ((start config limits).trace before)).store } =
      q.result ((start config limits).run before).broker

theorem counts_alike (config : StoreConfig) (limits : Limits) (ops : List Operation) :
    CountsAlike config limits ops := by
  constructor
  case answers => exact fun before a _ _ => Store.counting_answer config before a
  case shows =>
    intro before _ q _
    rw [Store.counting_run, ← store_start config limits before]
    cases q <;> rfl

/-- Consumer groups do not interfere: in every run in which nothing is nested, nothing waits and
nothing is told to fail, whatever concerns a group shows what it shows when all that is done with
the tailers of other groups is erased. Both runs show what they show when the members of all groups
are numbered together. -/
theorem groups_apart (config : StoreConfig) (limits : Limits) (g : String) (steps : List Step)
    (faultless : ∀ step ∈ steps, step.faultless = true) :
    ((start config limits).results steps).filter (·.1.concerns g) =
        ((start config limits).results (steps.filter (·.remains g))).filter (·.1.concerns g) ∧
      ∀ run ∈ [steps, steps.filter (·.remains g)], ∀ before rest, run = before ++ rest →
        ∃ ops, (start config limits).performs before = (start config limits).run ops ∧
          CountsAlike config limits ops := by
  refine ⟨(AlikeFor.refl g _).results (quiet_start config limits) (quiet_start config limits)
    faultless, fun run either before rest split => ?_⟩
  have obeys : ∀ step ∈ before, step.faultless = true := by
    intro step member
    have done : step ∈ run := split ▸ List.mem_append_left rest member
    rcases List.mem_pair.mp either with rfl | rfl
    · exact faultless step done
    · exact faultless step (List.mem_of_mem_filter done)
  obtain ⟨ops, same⟩ := performs_run (start config limits) obeys
  exact ⟨ops, same, counts_alike config limits ops⟩

/-- Two groups read the same partition. One of them commits and closes, the other one is refused a
second tailer for it, and has committed nothing in the end. Then two tailers subscribe for either of
them, the groups hand the partitions out anew when the second one joins and when one closes, and
the listeners are told at the next read. -/
def twoGroups : List Step :=
  [.create "e" 2, .appender "e" .string none, .createTailer "h" [⟨"e", 0⟩] .string none,
    .createTailer "g" [⟨"e", 0⟩] .string none, .store (.append 0 "k" (.text "a")),
    .read ⟨"h", 0⟩, .store (.commit ⟨"h", 0⟩), .createTailer "g" [⟨"e", 0⟩] .string none,
    .store (.closeTailer ⟨"h", 0⟩), .read ⟨"g", 0⟩, .ask (.lag "e" "g"),
    .subscribe "h" ["e"] .string none, .subscribe "g" ["e"] .string none, .read ⟨"h", 1⟩,
    .read ⟨"g", 1⟩, .subscribe "g" ["e"] .string none, .subscribe "h" ["e"] .string none,
    .read ⟨"g", 2⟩, .read ⟨"h", 1⟩, .read ⟨"g", 1⟩, .store (.closeTailer ⟨"h", 1⟩),
    .store (.closeTailer ⟨"g", 1⟩), .read ⟨"h", 2⟩, .read ⟨"g", 2⟩, .close]

theorem twoGroups_apart : (∀ step ∈ twoGroups, step.faultless = true) ∧
    ((start {} {}).results twoGroups).filter (·.1.concerns "g") =
      ((start {} {}).results (twoGroups.filter (·.remains "g"))).filter (·.1.concerns "g") ∧
    (((start {} {}).results twoGroups).filter (·.1.concerns "g")).flatMap (·.2.notices) =
      [.assigned [⟨"e", 0⟩, ⟨"e", 1⟩], .assigned [⟨"e", 1⟩], .revoked [⟨"e", 1⟩],
        .assigned [⟨"e", 0⟩]] :=
  ⟨by decide, (groups_apart {} {} "g" twoGroups (by decide)).1, by decide +kernel⟩

end Logbook.Broker.Session
