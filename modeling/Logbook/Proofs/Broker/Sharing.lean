import Logbook.Proofs.Broker.Tracking
import Logbook.Proofs.Store.Generations

/-! Sharing. Tailers that are given partitions are kept apart by the broker, tailers that subscribe by
their group, but neither looks at the other: a group that uses a log in both ways reads it twice. -/
namespace Logbook

namespace Store

variable {s s' : Store} {a : Action} {r q : TailerRef} {t : Tailer} {key : GroupPartition}
  {joined more : List (TailerRef × List String)}

theorem mem_keysOf (found : s.tailer? r = some t) :
    key ∈ s.keysOf r ↔ key.group = r.group ∧ key.partition ∈ t.assignments := by
  obtain ⟨group, p⟩ := key
  simp only [keysOf, found, List.mem_map, GroupPartition.mk.injEq]
  constructor
  · rintro ⟨_, member, rfl, rfl⟩
    exact ⟨rfl, member⟩
  · rintro ⟨rfl, member⟩
    exact ⟨p, member, rfl, rfl⟩

def Subscribes (s : Store) (r : TailerRef) : Prop :=
  ∃ t, s.tailer? r = some t ∧ t.subscribed = true

theorem Subscribes.run (subscribes : s.Subscribes r) (as : List Action) :
    (s.run as).Subscribes r := by
  obtain ⟨t, found, subscribed⟩ := subscribes
  obtain ⟨t', found', later⟩ := run_tailer found as
  exact ⟨t', found', later.subscribed.trans subscribed⟩

theorem subscribe_subscribes (numbered : Numbered s) {group : String} {names : List String}
    {type : MessageType} {codec : Option Codec}
    (answer : s.subscribe group names type codec = .ok (r, s')) : s'.Subscribes r := by
  obtain ⟨rfl, t, found⟩ := subscribe_ok answer
  have absent := subscribe_absent numbered answer
  rcases (effect s (.subscribe group names type codec)).newTailer absent with
    still | ⟨_, _, _, impossible, -⟩ | ⟨_, _, _, -, new⟩
  · cases still.symm.trans found
  · cases impossible
  · exact ⟨_, new, rfl⟩

/-- An open tailer that has subscribed and has what its group has handed out to it. -/
structure UpToDate (s : Store) (r : TailerRef) : Prop where
  tailer : ∃ t, s.tailer? r = some t ∧ t.subscribed = true ∧ t.closed = false ∧
    t.generation = (s.assignmentOf r).1

theorem UpToDate.keys (current : s.UpToDate r) (followed : Followed s) :
    key ∈ s.keysOf r ↔ key.group = r.group ∧ key.partition ∈ (s.assignmentOf r).2 := by
  obtain ⟨t, found, subscribed, opened, generation⟩ := current.tailer
  rw [mem_keysOf found, (followed.assignmentOf found subscribed opened).2 generation]

theorem Coordinated.keys_apart (coordinated : Coordinated s joined) (followed : Followed s)
    (other : r ≠ q) (current : s.UpToDate r) (also : s.UpToDate q) :
    ∀ key ∈ s.keysOf r, key ∉ s.keysOf q := by
  intro key mine yours
  obtain ⟨group, given⟩ := (current.keys followed).mp mine
  obtain ⟨group', given'⟩ := (also.keys followed).mp yours
  exact coordinated.apart other (group.symm.trans group') given given'

theorem assignmentOf_takeOver (s : Store) (r q : TailerRef) :
    (s.act (.takeOver r)).assignmentOf q = s.assignmentOf q := by
  simp only [act, takeOver]
  cases s.openTailer r <;> rfl

theorem isClosedTailer_takeOver (s : Store) (r q : TailerRef) :
    (s.act (.takeOver r)).isClosedTailer q = s.isClosedTailer q := by
  simp only [act, takeOver]
  cases found : s.openTailer r with
  | error e => rfl
  | ok t =>
    obtain ⟨there, opened⟩ := openTailer_ok.mp found
    have kept : (s.follow r t).1.closed = t.closed := (Turn.follows opened).kept.2.1
    show (s.setTailer r (s.follow r t).1).isClosedTailer q = s.isClosedTailer q
    rw [isClosedTailer_setTailer there]
    split
    · rename_i same
      rw [same, kept, isClosedTailer_eq there]
    · rfl

theorem Followed.catchesUp (followed : Followed s) (found : s.tailer? r = some t)
    (subscribed : t.subscribed = true) (opened : t.closed = false) :
    (s.act (.takeOver r)).UpToDate r := by
  obtain ⟨t', found', subscribed', opened', generation, -⟩ :=
    followed.takesOver found subscribed opened
  exact ⟨t', found', subscribed', opened', by rw [assignmentOf_takeOver, generation]⟩

/-! Also a tailer that is not up to date only has partitions of logs that it has asked for. -/

def AsksFor (s : Store) (joined : List (TailerRef × List String)) : Prop :=
  ∀ r t, s.tailer? r = some t → t.subscribed = true → ∀ p ∈ t.assignments,
    ∃ names, (r, names) ∈ joined ∧ p.log ∈ names

theorem AsksFor.step (asks : s.AsksFor joined) (coordinated : Coordinated s joined)
    (step : Effect s a s') : s'.AsksFor joined := by
  intro r t' found' subscribed' p holds
  cases found : s.tailer? r with
  | none =>
    rcases step.newTailer found with absent | ⟨_, type, codec, -, -, new⟩ | ⟨_, _, _, -, new⟩
    · cases absent.symm.trans found'
    · cases Option.some.inj (new.symm.trans found')
      rw [newTailer, Tailer.place_eq] at subscribed'
      cases subscribed'
    · cases Option.some.inj (new.symm.trans found')
      cases holds
  | some t =>
    have change := step.change found found'
    have subscribed : t.subscribed = true := change.kept.1.2.2 ▸ subscribed'
    cases change with
    | same => exact asks r _ found subscribed p holds
    | closes => exact asks r _ found subscribed p holds
    | turns turn =>
      rcases turn.kept.2.2 with ⟨-, assignments⟩ | ⟨-, -, rfl⟩
      · exact asks r t found subscribed p (assignments ▸ holds)
      · rcases follow_cases s r t with same | ⟨-, -, moved⟩
        · exact asks r t found subscribed p (same ▸ holds)
        · rw [moved] at holds
          exact (coordinated.owners holds).2.1

theorem asksFor_run (as : List Action) (asks : s.AsksFor joined)
    (coordinated : Coordinated s joined) :
    (s.run as).AsksFor (joined ++ s.subscriptions as) := by
  induction as generalizing s joined with
  | nil =>
    rw [subscriptions, List.append_nil]
    exact asks
  | cons a as ih =>
    have later : (s.act a).AsksFor (joined ++ s.joins a) := by
      intro r t found subscribed p holds
      obtain ⟨names, asked, wants⟩ := asks.step coordinated (effect s a) r t found subscribed p holds
      exact ⟨names, List.mem_append_left _ asked, wants⟩
    rw [subscriptions, ← List.append_assoc]
    exact ih later (coordinated.step a)

end Store

namespace Broker.Session

variable {x : Session} {r q : TailerRef}

/-! The tailers that a broker returns to those who subscribe have subscribed. -/

theorem act_subscribed (op : Operation) (member : r ∈ (x.act op).subscribed) :
    r ∈ x.subscribed ∨ .subscribed (.ok r) ∈ x.calls := by
  cases op with
  | finish i =>
    cases there : x.calls[i]? with
    | none =>
      simp only [act, finish, there] at member
      exact .inl member
    | some c =>
      cases c with
      | creating | created | subscribing =>
        simp only [act, finish, there] at member
        exact .inl member
      | subscribed answer =>
        simp only [act, finish, there] at member
        cases answer with
        | error e => exact .inl member
        | ok q =>
          cases closed : x.broker.closed with
          | true =>
            simp only [finishSubscribe, closed, if_true] at member
            exact .inl member
          | false =>
            simp only [finishSubscribe, closed, Bool.false_eq_true, if_false, handOut] at member
            rcases List.mem_append.mp member with old | new
            · exact .inl old
            · rw [List.mem_singleton.mp new]
              exact .inr (List.mem_of_getElem? there)
  | createTailer group partitions type codec =>
    left
    simp only [act] at member
    split at member <;> exact member
  | subscribe group names type codec =>
    left
    simp only [act] at member
    split at member <;> exact member
  | ask i =>
    left
    simp only [act, ask] at member
    split at member <;> exact member
  | create | delete | appender | close | store => exact .inl member

theorem act_answered (op : Operation) (member : .subscribed (.ok r) ∈ (x.act op).calls) :
    .subscribed (.ok r) ∈ x.calls ∨ ∃ group names type codec,
      x.broker.store.subscribe group names type codec = .ok (r, (x.act op).broker.store) := by
  cases op with
  | ask i =>
    cases there : x.calls[i]? with
    | none =>
      simp only [act, ask, there] at member
      exact .inl member
    | some c =>
      cases c with
      | created | subscribed =>
        simp only [act, ask, there] at member
        exact .inl member
      | creating k =>
        simp only [act, ask, there] at member
        rcases List.mem_or_eq_of_mem_set member with old | new
        · exact .inl old
        · cases new
      | subscribing group names type codec =>
        simp only [act, ask, there] at member ⊢
        rcases List.mem_or_eq_of_mem_set member with old | new
        · exact .inl old
        · have answer := Call.subscribed.inj new
          cases asked : x.broker.store.subscribe group names type codec with
          | error e => simp [askSubscribe, asked, bind, Except.bind, Except.map] at answer
          | ok made =>
            obtain ⟨q, s⟩ := made
            simp only [askSubscribe, asked, bind, Except.bind, Except.map, pure, Except.pure,
              Except.ok.injEq] at answer
            subst answer
            refine .inr ⟨group, names, type, codec, ?_⟩
            simp only [askSubscribe, asked, bind, Except.bind, settle, pure, Except.pure]
  | createTailer group partitions type codec =>
    left
    simp only [act] at member
    split at member
    · rcases List.mem_append.mp member with old | new
      · exact old
      · cases List.mem_singleton.mp new
    · exact member
  | subscribe group names type codec =>
    left
    simp only [act] at member
    split at member
    · rcases List.mem_append.mp member with old | new
      · exact old
      · cases List.mem_singleton.mp new
    · exact member
  | finish i =>
    left
    simp only [act, finish] at member
    split at member
    · exact List.mem_of_mem_eraseIdx member
    · exact List.mem_of_mem_eraseIdx member
    · exact member
  | create | delete | appender | close | store => exact .inl member

structure Enrolled (x : Session) : Prop where
  answered : ∀ r, .subscribed (.ok r) ∈ x.calls → x.broker.store.Subscribes r
  returned : ∀ r ∈ x.subscribed, x.broker.store.Subscribes r

theorem Enrolled.act (enrolled : Enrolled x) (sound : Sound x) (op : Operation) :
    Enrolled (x.act op) := by
  have later {r : TailerRef} (subscribes : x.broker.store.Subscribes r) :
      (x.act op).broker.store.Subscribes r := by
    rw [store_act]
    exact subscribes.run _
  constructor
  case answered =>
    intro r member
    rcases act_answered op member with old | ⟨_, _, _, _, answer⟩
    · exact later (enrolled.answered r old)
    · exact Store.subscribe_subscribes sound.numbered answer
  case returned =>
    intro r member
    rcases act_subscribed op member with old | answered
    · exact later (enrolled.returned r old)
    · exact later (enrolled.answered r answered)

theorem enrolled_start (config : StoreConfig) (limits : Limits) :
    Enrolled (start config limits) where
  answered r member := by cases member
  returned r member := by cases member

theorem enrolled_run (config : StoreConfig) (limits : Limits) (ops : List Operation) :
    Enrolled ((start config limits).run ops) :=
  (run_invariant (P := fun x => Sound x ∧ Enrolled x)
    (fun op held => ⟨held.1.act op, held.2.act held.1 op⟩)
    ⟨sound_start config limits, enrolled_start config limits⟩ ops).2

/-! What is shared. -/

/-- No open tailer of one list shares a partition of a group with another one of the other list. -/
def Apart (x : Session) (some others : List TailerRef) : Prop :=
  ∀ r ∈ some, ∀ q ∈ others, r ≠ q →
    x.broker.store.isClosedTailer r = false → x.broker.store.isClosedTailer q = false →
    ∀ key ∈ x.broker.store.keysOf r, key ∉ x.broker.store.keysOf q

/-- A member of a group, once it is up to date, reads a partition that another tailer was given. -/
structure Meets (s : Store) (r q : TailerRef) (key : GroupPartition) : Prop where
  other : r ≠ q
  opened : (s.act (.takeOver q)).isClosedTailer r = false
  current : (s.act (.takeOver q)).UpToDate q
  mine : key ∈ (s.act (.takeOver q)).keysOf r
  yours : key ∈ (s.act (.takeOver q)).keysOf q

/-- Tailers that were given partitions share none with each other, and neither do tailers that have
subscribed and are up to date. Tailers of different kinds share partitions of those logs only that
the subscribed one has asked for. And some member of a group comes to share a partition that a tailer
was given exactly when the partition exists and an open member has asked for its log. -/
structure Sharing (x : Session) (joined : List (TailerRef × List String)) : Prop where
  explicit : x.Apart x.explicit x.explicit
  subscribed : ∀ r q, r ≠ q → x.broker.store.UpToDate r → x.broker.store.UpToDate q →
    ∀ key ∈ x.broker.store.keysOf r, key ∉ x.broker.store.keysOf q
  asked : ∀ q ∈ x.subscribed, ∀ key ∈ x.broker.store.keysOf q,
    ∃ names, (q, names) ∈ joined ∧ key.partition.log ∈ names
  meets : ∀ r ∈ x.explicit, x.broker.store.isClosedTailer r = false →
    ∀ key ∈ x.broker.store.keysOf r, ((∃ q, Meets x.broker.store r q key) ↔
      (∃ l, x.broker.store.log? key.partition.log = some l ∧ key.partition.index < l.size) ∧
      ∃ q names, (q, names) ∈ joined ∧ q.group = r.group ∧
        x.broker.store.isClosedTailer q = false ∧ key.partition.log ∈ names)

theorem meets_iff {s : Store} {joined : List (TailerRef × List String)} {t : Tailer}
    {key : GroupPartition} (coordinated : s.Coordinated joined) (followed : s.Followed)
    (found : s.tailer? r = some t) (explicit : t.subscribed = false)
    (opened : s.isClosedTailer r = false) (holds : key ∈ s.keysOf r) :
    (∃ q, Meets s r q key) ↔
      (∃ l, s.log? key.partition.log = some l ∧ key.partition.index < l.size) ∧
      ∃ q names, (q, names) ∈ joined ∧ q.group = r.group ∧ s.isClosedTailer q = false ∧
        key.partition.log ∈ names := by
  obtain ⟨group, -⟩ := (Store.mem_keysOf found).mp holds
  have followed' (q : TailerRef) : (s.act (.takeOver q)).Followed :=
    followed.step coordinated (Store.effect s (.takeOver q))
  constructor
  · rintro ⟨q, meets⟩
    obtain ⟨group', given⟩ := (meets.current.keys (followed' q)).mp meets.yours
    rw [Store.assignmentOf_takeOver] at given
    obtain ⟨opened', ⟨names, asked, wants⟩, l, log, within⟩ := coordinated.owners given
    exact ⟨⟨l, log, within⟩, q, names, asked, group'.symm.trans group, opened', wants⟩
  · rintro ⟨⟨l, log, within⟩, w, names, asked, same, opened', wants⟩
    obtain ⟨q, group', given, -⟩ := coordinated.owned asked opened' wants log within
    obtain ⟨unclosed, ⟨names', joins, -⟩, -⟩ := coordinated.owners given
    obtain ⟨u, there, subscribed⟩ := (coordinated.subscribed q).mp (List.mem_map_of_mem joins)
    have current := followed.catchesUp there subscribed ((Store.isClosedTailer_eq there).symm.trans
      unclosed)
    refine ⟨q, ?_, ?_, current, ?_, ?_⟩
    · rintro rfl
      cases Option.some.inj (found.symm.trans there)
      cases explicit.symm.trans subscribed
    · rw [Store.isClosedTailer_takeOver, opened]
    · have keys : (s.run [.takeOver q]).keysOf r = s.keysOf r := Store.keysOf_run found explicit
      exact keys ▸ holds
    · refine (current.keys (followed' q)).mpr ⟨?_, ?_⟩
      · rw [group, group', same]
      · rw [Store.assignmentOf_takeOver]
        exact given

theorem sharing (config : StoreConfig) (limits : Limits) (ops : List Operation) :
    Sharing ((start config limits).run ops)
      (({ config } : Store).subscriptions ((start config limits).trace ops)) := by
  have sound := sound_run config limits ops
  have enrolled := enrolled_run config limits ops
  have coordinated := Store.coordinated_run config ((start config limits).trace ops)
  have followed : Store.Followed (({ config } : Store).run ((start config limits).trace ops)) :=
    Store.followed_start config _
  have asks : Store.AsksFor (({ config } : Store).run ((start config limits).trace ops)) _ :=
    Store.asksFor_run _ (fun _ _ found => by cases found) (Store.coordinated_run config [])
  rw [← store_start config limits] at coordinated followed asks
  generalize ({ config } : Store).subscriptions ((start config limits).trace ops) = joined at *
  generalize (start config limits).run ops = x at *
  constructor
  case explicit =>
    intro r handed q other apart opened also
    cases closed : x.broker.closed with
    | false => exact (sound.agrees closed).disjoint handed other apart opened also
    | true => cases opened.symm.trans (sound.closed closed r handed)
  case subscribed => exact fun r q => coordinated.keys_apart followed
  case asked =>
    intro q member key holds
    obtain ⟨t, found, subscribed⟩ := enrolled.returned q member
    exact asks q t found subscribed _ ((Store.mem_keysOf found).mp holds).2
  case meets =>
    intro r handed opened key holds
    obtain ⟨t, found, explicit⟩ := sound.explicit r handed
    exact meets_iff coordinated followed found explicit opened holds

/-- One log is used in both ways: a tailer subscribes to it and takes over its partition, which is
then given to another tailer of the same group. -/
def usedTwice : List Operation :=
  [.create "e" 1, .subscribe "g" ["e"] .string none, .ask 0, .finish 0,
    .store (.takeOver ⟨"g", 0⟩), .createTailer "g" [⟨"e", 0⟩] .string none, .ask 0, .finish 0]

theorem usedTwice_shares : ¬((start {} {}).run usedTwice).Apart
    ((start {} {}).run usedTwice).explicit ((start {} {}).run usedTwice).subscribed := by
  unfold Apart
  decide +kernel

end Broker.Session

end Logbook
