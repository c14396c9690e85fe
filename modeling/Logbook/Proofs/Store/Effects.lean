import Logbook.Proofs.Store.Positions
import Logbook.Proofs.Store.Run

/-! All that one action can do to a store. Proofs about runs go by the cases of `Effect` and open no
operation again. -/
namespace Logbook.Store

theorem openTailer_ok {s : Store} {r : TailerRef} {t : Tailer} :
    s.openTailer r = .ok t ↔ s.tailer? r = some t ∧ t.closed = false := by
  unfold openTailer
  cases found : s.tailer? r with
  | none => simp
  | some u =>
    cases closed : u.closed with
    | true =>
      simp only [closed, if_true, reduceCtorEq, Option.some.injEq, false_iff, not_and]
      rintro rfl
      simp [closed]
    | false =>
      simp only [closed, Bool.false_eq_true, if_false, Except.ok.injEq, Option.some.injEq]
      exact ⟨fun same => ⟨same, same ▸ closed⟩, fun both => both.1⟩

/-- An open tailer takes over what its group assigns to it. -/
theorem takeOver_ok {s : Store} {r : TailerRef} {t : Tailer} (opened : s.openTailer r = .ok t) :
    s.takeOver r = .ok ((s.follow r t).2, s.setTailer r (s.follow r t).1) := by
  simp only [takeOver, opened, bind, Except.bind]
  rfl

theorem assignedTailer_ok {s : Store} {r : TailerRef} {p : Partition} {t : Tailer}
    (assigned : s.assignedTailer r p = .ok t) :
    s.tailer? r = some t ∧ t.closed = false ∧ p ∈ t.assignments := by
  unfold assignedTailer at assigned
  cases opened : s.openTailer r with
  | error e => simp [opened, bind, Except.bind] at assigned
  | ok u =>
    obtain ⟨found, closed⟩ := openTailer_ok.mp opened
    by_cases holds : p ∈ u.assignments
    · simp only [opened, bind, Except.bind, List.contains_iff_mem, holds, if_true] at assigned
      cases assigned
      exact ⟨found, closed, holds⟩
    · simp only [opened, bind, Except.bind, List.contains_iff_mem, holds, if_false] at assigned
      cases assigned

def putRecord (s : Store) (l : Log) (index : Nat) (data : Bytes) : Store :=
  { s with logs := s.logs.map fun k => if k.number = l.number then k.push index data else k }

def newTailer (s : Store) (group : String) (partitions : List Partition) (type : MessageType)
    (codec : Option Codec) : Tailer :=
  ({ type, codec, subscribed := false, assignments := partitions } : Tailer).place partitions
    fun p => (s.committed? group p).getD 0

/-- What reading and moving make of an open tailer. -/
inductive Turn (s : Store) (r : TailerRef) (t : Tailer) : Action → Tailer → Prop where
  | follows : t.closed = false → Turn s r t (.takeOver r) (s.follow r t).1
  | looks : Turn s r t (.look r) (s.poll t).2
  | starts : t.closed = false → Turn s r t (.toStart r) (t.moveAll fun _ => 0)
  | returns : t.closed = false →
      Turn s r t (.toLastCommitted r) (t.moveAll fun p => (s.committed? r.group p).getD 0)
  | ends : t.closed = false → Turn s r t (.toEnd r) (s.moveToEnds t t.assignments).2
  | seeks (o : Offset) : t.closed = false → o.partition ∈ t.assignments → Turn s r t (.seek r o)
      { t.setPosition o.partition o.position with
        stopped := t.stopped.filter (· ≠ o.partition) }

/-- The partitions whose positions an action commits. -/
inductive Commits (r : TailerRef) (t : Tailer) : Action → List Partition → Prop where
  | all : Commits r t (.commit r) t.assignments
  | one (p : Partition) : p ∈ t.assignments → Commits r t (.commitPartition r p) [p]

/-- What an action leaves behind. An action that fails leaves the store as it was, but for the order
to fail that it takes back. -/
inductive Effect (s : Store) : Action → Store → Prop where
  | keeps (a : Action) : s.events a = [] → Effect s a s
  | creates {name : String} {size : Nat} : s.config.limits.checkPartitionCount size = .ok () →
      s.log? name = none → Effect s (.create name size)
        ({ s with logs := s.logs ++ [Log.mk s.created name (List.replicate size [])],
                  created := s.created + 1 }.rebalanceWatchers name)
  | deletes {name : String} : s.config.canDelete = true → s.contains name = true →
      Effect s (.delete name)
        ({ s with logs := s.logs.filter (·.name ≠ name),
                  committed := s.committed.filter (·.1.partition.log ≠ name)
         }.rebalanceWatchers name)
  | opensAppender {name : String} {l : Log} (type : MessageType) (codec : Option Codec) :
      s.log? name = some l → Effect s (.openAppender name type codec)
        { s with appenders := s.appenders ++
          [{ log := l.number, name := l.name, size := l.size, type, codec }] }
  | appends {a : Action} {x index : Nat} {w : Appender} {l : Log} {records : List Bytes}
      {data : Bytes} : s.openAppender x = .ok w → s.logs.find? (·.number = w.log) = some l →
      l.partitions[index]? = some records →
      s.events a = [.appended w.log ⟨⟨l.name, index⟩, records.length⟩ data] →
      Effect s a (s.putRecord l index data)
  | closesAppender {x : Nat} {w : Appender} : s.openAppender x = .ok w →
      Effect s (.closeAppender x) { s with
        appenders := s.appenders.set x { w with closed := true }, failNextClose := false }
  | refusesTailer (group : String) (partitions : List Partition) (type : MessageType)
      (codec : Option Codec) : Effect s (.createTailer group partitions type codec)
        { s with failNextTailer := false }
  | createsTailer {group : String} {partitions : List Partition} (type : MessageType)
      (codec : Option Codec) : s.checkPartitions partitions = .ok () → s.failNextTailer = false →
      Effect s (.createTailer group partitions type codec)
        (s.addTailer group (s.newTailer group partitions type codec)).2
  | subscribes (group : String) (names : List String) (type : MessageType)
      (codec : Option Codec) : s.config.canSubscribe = true →
      Effect s (.subscribe group names type codec)
        ((s.addTailer group { type, codec, subscribed := true }).2.putGroup group
          (((s.group? group).getD {}).join (s.tailers.countP (·.1.group = group)) names
            s.sizeOf?))
  | turns {r : TailerRef} {t t' : Tailer} {a : Action} : s.tailer? r = some t →
      Turn s r t a t' → Effect s a (s.setTailer r t')
  | commits {r : TailerRef} {t : Tailer} {a : Action} {ps : List Partition} :
      s.tailer? r = some t → t.closed = false → Commits r t a ps →
      Effect s a (ps.foldl (fun s p => s.commit r.group p (t.position p)) s)
  | closesTailer {r : TailerRef} {t : Tailer} : s.tailer? r = some t → t.closed = false →
      t.subscribed = false → Effect s (.closeTailer r)
        { s.setTailer r { t with closed := true } with failNextClose := false }
  | leaves {r : TailerRef} {t : Tailer} : s.tailer? r = some t → t.closed = false →
      t.subscribed = true → Effect s (.closeTailer r)
        { (s.setTailer r { t with closed := true }).leaveGroup r with failNextClose := false }
  | setsFaults (tailer close : Bool) : Effect s (.setFaults tailer close)
        { s with failNextTailer := tailer, failNextClose := close }

theorem effect_create (s : Store) (name : String) (size : Nat) :
    Effect s (.create name size) (s.act (.create name size)) := by
  simp only [act, create]
  cases named : s.config.limits.checkLogName name with
  | error e => exact .keeps _ rfl
  | ok _ =>
    cases counted : s.config.limits.checkPartitionCount size with
    | error e => exact .keeps _ rfl
    | ok _ =>
      cases found : s.log? name with
      | some l =>
        simp only [contains, found]
        exact .keeps _ rfl
      | none =>
        simp only [contains, found]
        exact .creates counted found

theorem effect_delete (s : Store) (name : String) :
    Effect s (.delete name) (s.act (.delete name)) := by
  simp only [act, delete]
  cases allowed : s.config.canDelete with
  | false => exact .keeps _ rfl
  | true =>
    cases there : s.contains name with
    | false => exact .keeps _ rfl
    | true => exact .deletes allowed there

/-- Any action that appends to a partition, by its index or by a key. -/
theorem effect_append {s : Store} {a : Action} (x index : Nat) (m : Message)
    (appends : s.act a = s.act (.appendTo x index m))
    (told : s.events a = s.events (.appendTo x index m)) : Effect s a (s.act a) := by
  have whole : s.act a = s ∧ s.events a = [] ∨
      ∃ w l records data, s.openAppender x = .ok w ∧ s.logs.find? (·.number = w.log) = some l ∧
        l.partitions[index]? = some records ∧ s.act a = s.putRecord l index data ∧
        s.events a = [.appended w.log ⟨⟨l.name, index⟩, records.length⟩ data] := by
    rw [appends, told]
    simp only [act, events, appendEvents, appendTo]
    cases opened : s.openAppender x with
    | error e => exact .inl ⟨rfl, rfl⟩
    | ok w =>
      simp only [bind, Except.bind]
      cases coded : (defaultCodec w.codec).encode m with
      | error f => exact .inl ⟨rfl, rfl⟩
      | ok data =>
        simp only [logOf]
        cases found : s.logs.find? (·.number = w.log) with
        | none => exact .inl ⟨rfl, rfl⟩
        | some l =>
          simp only [pushRecord, Log.endOffset, Log.records, bind, Except.bind]
          cases there : l.partitions[index]? with
          | none => exact .inl ⟨rfl, rfl⟩
          | some records => exact .inr ⟨w, l, records, data, rfl, found, there, rfl, rfl⟩
  rcases whole with ⟨same, silent⟩ | ⟨w, l, records, data, opened, found, there, same, event⟩
  · exact same.symm ▸ .keeps _ silent
  · exact same.symm ▸ .appends opened found there event

theorem effect_turn {s : Store} {a : Action} {r : TailerRef} {f : Tailer → Tailer}
    (silent : s.events a = [])
    (turn : ∀ t, t.closed = false → Turn s r t a (f t))
    (acts : s.act a = match s.openTailer r with
      | .ok t => s.setTailer r (f t)
      | .error _ => s) : Effect s a (s.act a) := by
  rw [acts]
  cases opened : s.openTailer r with
  | error e => exact .keeps _ silent
  | ok t =>
    obtain ⟨found, closed⟩ := openTailer_ok.mp opened
    exact .turns found (turn t closed)

theorem effect_look (s : Store) (r : TailerRef) : Effect s (.look r) (s.act (.look r)) := by
  cases found : s.tailer? r with
  | none =>
    simp only [act, look, found]
    exact .keeps _ (by simp only [events, lookEvents, found])
  | some t =>
    simp only [act, look, found]
    exact .turns found .looks

theorem effect_commit (s : Store) (r : TailerRef) :
    Effect s (.commit r) (s.act (.commit r)) := by
  simp only [act, commitAll]
  cases opened : s.openTailer r with
  | error e => exact .keeps _ rfl
  | ok t =>
    obtain ⟨found, closed⟩ := openTailer_ok.mp opened
    exact .commits found closed .all

theorem effect_commitPartition (s : Store) (r : TailerRef) (p : Partition) :
    Effect s (.commitPartition r p) (s.act (.commitPartition r p)) := by
  simp only [act, commitPartition]
  cases assigned : s.assignedTailer r p with
  | error e => exact .keeps _ rfl
  | ok t =>
    obtain ⟨found, closed, holds⟩ := assignedTailer_ok assigned
    have one : Effect s (.commitPartition r p)
        ([p].foldl (fun s q => s.commit r.group q (t.position q)) s) :=
      .commits found closed (.one p holds)
    exact one

theorem effect_seek (s : Store) (r : TailerRef) (o : Offset) :
    Effect s (.seek r o) (s.act (.seek r o)) := by
  simp only [act, seek]
  cases assigned : s.assignedTailer r o.partition with
  | error e => exact .keeps _ rfl
  | ok t =>
    obtain ⟨found, closed, holds⟩ := assignedTailer_ok assigned
    exact .turns found (.seeks o closed holds)

theorem effect_createTailer (s : Store) (group : String) (partitions : List Partition)
    (type : MessageType) (codec : Option Codec) :
    Effect s (.createTailer group partitions type codec)
      (s.act (.createTailer group partitions type codec)) := by
  simp only [act, createTailer]
  cases checked : s.checkPartitions partitions with
  | error e => exact .keeps _ rfl
  | ok _ =>
    cases fails : s.failNextTailer with
    | true => exact .refusesTailer group partitions type codec
    | false => exact .createsTailer type codec checked fails

theorem effect_subscribe (s : Store) (group : String) (names : List String) (type : MessageType)
    (codec : Option Codec) :
    Effect s (.subscribe group names type codec)
      (s.act (.subscribe group names type codec)) := by
  simp only [act, subscribe]
  cases allowed : s.config.canSubscribe with
  | false => exact .keeps _ rfl
  | true =>
    cases named : s.config.limits.checkGroupName group with
    | error e => exact .keeps _ rfl
    | ok _ => exact .subscribes group names type codec allowed

theorem effect_closeTailer (s : Store) (r : TailerRef) :
    Effect s (.closeTailer r) (s.act (.closeTailer r)) := by
  simp only [act, closeTailer]
  cases opened : s.openTailer r with
  | error e => exact .keeps _ rfl
  | ok t =>
    obtain ⟨found, closed⟩ := openTailer_ok.mp opened
    by_cases subscribed : t.subscribed = true
    · simp only [if_pos subscribed]
      exact .leaves found closed subscribed
    · simp only [if_neg subscribed]
      exact .closesTailer found closed (Bool.eq_false_iff.mpr subscribed)

/-- One action does one of these things. -/
theorem effect (s : Store) (a : Action) : Effect s a (s.act a) := by
  cases a with
  | create name size => exact effect_create s name size
  | delete name => exact effect_delete s name
  | openAppender name type codec =>
    simp only [act, createAppender, log]
    cases found : s.log? name with
    | none => exact .keeps _ rfl
    | some l => exact .opensAppender type codec found
  | append x key m =>
    cases found : s.appenders[x]? with
    | none =>
      simp only [act, append, found]
      exact .keeps _ (by simp only [events, found])
    | some w =>
      exact effect_append x (partitionOfKey key w.size) m (by simp only [act, append, found])
        (by simp only [events, found])
  | appendTo x index m => exact effect_append x index m rfl rfl
  | closeAppender x =>
    simp only [act, closeAppender]
    cases opened : s.openAppender x with
    | error e => exact .keeps _ rfl
    | ok w => exact .closesAppender opened
  | createTailer group partitions type codec =>
    exact effect_createTailer s group partitions type codec
  | subscribe group names type codec => exact effect_subscribe s group names type codec
  | takeOver r =>
    exact effect_turn rfl (fun _ => .follows) (by
      cases opened : s.openTailer r <;> simp only [act, takeOver, opened] <;> rfl)
  | look r => exact effect_look s r
  | commit r => exact effect_commit s r
  | commitPartition r p => exact effect_commitPartition s r p
  | toStart r =>
    exact effect_turn rfl (fun _ => .starts) (by
      cases opened : s.openTailer r <;> simp only [act, toStart, moveAll, opened] <;> rfl)
  | toEnd r =>
    exact effect_turn rfl (fun _ => .ends) (by
      cases opened : s.openTailer r <;> simp only [act, toEnd, opened])
  | toLastCommitted r =>
    exact effect_turn rfl (fun _ => .returns) (by
      cases opened : s.openTailer r <;> simp only [act, toLastCommitted, moveAll, opened] <;> rfl)
  | seek r o => exact effect_seek s r o
  | closeTailer r => exact effect_closeTailer s r
  | setFaults tailer close => exact .setsFaults tailer close

end Logbook.Store
