import Mathlib.Data.Set.Function
import Logbook.Proofs.Broker.Answers
import Logbook.Proofs.Broker.Trace
import Logbook.Proofs.Store.Members
import Logbook.Proofs.Store.Views

/-! Numbers of members. The members of a group are told apart by their numbers, and it does not matter
which these are. So a store may number the members of all groups together: what one group does shows
in the numbers of the others then, but in nothing that is answered. -/
namespace Logbook

namespace Group

def renumber (f : Nat → Nat) (g : Group) : Group where
  members := g.members.map (Prod.map f id)
  assignment := g.assignment.map (Prod.map f id)
  generation := g.generation

structure Within (known : Set Nat) (g : Group) : Prop where
  members : ∀ member ∈ g.members, member.1 ∈ known
  assignment : ∀ entry ∈ g.assignment, entry.1 ∈ known

variable {f h : Nat → Nat} {known more : Set Nat} {sizeOf : String → Option Nat} {g : Group}
  {member : Nat} {names : List String}

theorem Within.mono (within : g.Within known) (grown : known ⊆ more) : g.Within more :=
  ⟨fun e there => grown (within.members e there), fun e there => grown (within.assignment e there)⟩

theorem Within.rebalance (within : g.Within known) : (g.rebalance sizeOf).Within known := by
  refine ⟨within.members, fun e there => ?_⟩
  obtain ⟨m, joined, rfl⟩ := List.mem_map.mp there
  exact within.members m joined

theorem Within.joined (within : g.Within known) (there : member ∈ known) (names : List String) :
    Within known { g with members := g.members ++ [(member, names)] } := by
  refine ⟨fun m joined => ?_, within.assignment⟩
  rcases List.mem_append.mp joined with old | new
  · exact within.members m old
  · rw [List.mem_singleton.mp new]
    exact there

theorem Within.join (within : g.Within known) (there : member ∈ known) :
    (g.join member names sizeOf).Within known := (within.joined there names).rebalance

theorem Within.left (within : g.Within known) (member : Nat) :
    Within known { g with members := g.members.filter (·.1 ≠ member) } :=
  ⟨fun m stays => within.members m (List.mem_of_mem_filter stays), within.assignment⟩

theorem Within.leave (within : g.Within known) : (g.leave member sizeOf).Within known := by
  unfold Group.leave
  split
  · exact (within.left member).rebalance
  · exact within

theorem renumber_congr (within : g.Within known) (same : Set.EqOn f h known) :
    g.renumber f = g.renumber h := by
  have entries {β : Type} {l : List (Nat × β)} (known : ∀ e ∈ l, e.1 ∈ known) :
      l.map (Prod.map f id) = l.map (Prod.map h id) :=
    List.map_congr_left fun e there => Prod.ext (same (known e there)) rfl
  simp only [renumber, entries within.members, entries within.assignment]

theorem subscribers_renumber (f : Nat → Nat) (members : List (Nat × List String)) (log : String) :
    subscribers (members.map (Prod.map f id)) log = (subscribers members log).map f := by
  simp only [subscribers, List.filter_map, List.map_map]
  rfl

theorem idxOf_renumber (distinct : Set.InjOn f known) (there : member ∈ known) {numbers : List Nat}
    (within : ∀ n ∈ numbers, n ∈ known) : (numbers.map f).idxOf (f member) = numbers.idxOf member := by
  induction numbers with
  | nil => rfl
  | cons n rest ih =>
    obtain ⟨here, later⟩ := List.forall_mem_cons.mp within
    have same : (f n == f member) = (n == member) := by
      rw [Bool.eq_iff_iff, beq_iff_eq, beq_iff_eq]
      exact distinct.eq_iff here there
    simp only [List.map_cons, List.idxOf_cons, same, ih later]

theorem partitionsOf_renumber (distinct : Set.InjOn f known) {members : List (Nat × List String)}
    (within : ∀ m ∈ members, m.1 ∈ known) {m : Nat × List String} (there : m.1 ∈ known) :
    partitionsOf (members.map (Prod.map f id)) sizeOf (Prod.map f id m) =
      partitionsOf members sizeOf m := by
  have subscribed (log : String) : ∀ n ∈ subscribers members log, n ∈ known := by
    intro n member
    obtain ⟨m, joined, rfl⟩ := List.mem_map.mp member
    exact within m (List.mem_of_mem_filter joined)
  have place (log : String) := idxOf_renumber distinct there (subscribed log)
  simp only [partitionsOf, subscribers_renumber, List.length_map, Prod.map, id_eq, place]

theorem rebalance_renumber (distinct : Set.InjOn f known) (within : g.Within known)
    (sizeOf : String → Option Nat) :
    (g.renumber f).rebalance sizeOf = (g.rebalance sizeOf).renumber f := by
  have assignment : assignRanges (g.members.map (Prod.map f id)) sizeOf =
      (assignRanges g.members sizeOf).map (Prod.map f id) := by
    simp only [assignRanges, List.map_map]
    apply List.map_congr_left
    intro m joined
    exact Prod.ext rfl
      (partitionsOf_renumber distinct within.members (within.members m joined))
  simp only [rebalance, renumber, assignment]

theorem join_renumber (distinct : Set.InjOn f known) (within : g.Within known)
    (there : member ∈ known) (names : List String) (sizeOf : String → Option Nat) :
    (g.renumber f).join (f member) names sizeOf = (g.join member names sizeOf).renumber f := by
  rw [join, join, ← rebalance_renumber distinct (within.joined there names) sizeOf]
  simp only [renumber, List.map_append, List.map_cons, List.map_nil, Prod.map, id_eq]

theorem leave_renumber (distinct : Set.InjOn f known) (within : g.Within known)
    (there : member ∈ known) (sizeOf : String → Option Nat) :
    (g.renumber f).leave (f member) sizeOf = (g.leave member sizeOf).renumber f := by
  have same (m : Nat × List String) (joined : m ∈ g.members) : f m.1 = f member ↔ m.1 = member :=
    distinct.eq_iff (within.members m joined) there
  have found : (g.renumber f).members.any (·.1 = f member) = g.members.any (·.1 = member) := by
    rw [Bool.eq_iff_iff, renumber, List.any_map, List.any_eq_true, List.any_eq_true]
    refine exists_congr fun m => and_congr_right fun joined => ?_
    simpa using same m joined
  have others : (g.renumber f).members.filter (·.1 ≠ f member) =
      (g.members.filter (·.1 ≠ member)).map (Prod.map f id) := by
    rw [renumber, List.filter_map]
    congr 1
    refine List.filter_congr fun m joined => ?_
    simpa using same m joined
  simp only [leave, found, others]
  split
  · exact rebalance_renumber distinct (within.left member) sizeOf
  · rfl

theorem assigned_renumber (distinct : Set.InjOn f known) (within : g.Within known)
    (there : member ∈ known) : (g.renumber f).assigned (f member) = g.assigned member := by
  have found {l : List (Nat × List Partition)} (within : ∀ e ∈ l, e.1 ∈ known) :
      (l.map (Prod.map f id)).lookup (f member) = l.lookup member := by
    induction l with
    | nil => rfl
    | cons e rest ih =>
      obtain ⟨n, ps⟩ := e
      obtain ⟨here, later⟩ := List.forall_mem_cons.mp within
      have same : (f member == f n) = (member == n) := by
        rw [Bool.eq_iff_iff, beq_iff_eq, beq_iff_eq]
        exact distinct.eq_iff there here
      simp only [List.map_cons, List.lookup_cons, Prod.map, id_eq, same, ih later]
  simp only [assigned, renumber, found within.assignment]

theorem watches_renumber (f : Nat → Nat) (g : Group) (log : String) :
    (g.renumber f).watches log = g.watches log := by
  simp only [watches, renumber, List.any_map]
  rfl

end Group

namespace Store

/-- A store in which members have other numbers. -/
def renumber (f : TailerRef → Nat) (s : Store) : Store :=
  { s with groups := s.groups.map fun e => (e.1, e.2.renumber fun n => f ⟨e.1, n⟩) }

def Within (known : Set TailerRef) (s : Store) : Prop :=
  ∀ e ∈ s.groups, e.2.Within {n | ⟨e.1, n⟩ ∈ known}

/-- Whether an action asks for the number of a member. -/
def Action.ofMember : Action → Bool
  | .subscribe _ _ _ _ | .takeOver _ | .closeTailer _ => true
  | _ => false

variable {s : Store} {f : TailerRef → Nat} {known : Set TailerRef} {a : Action} {r : TailerRef}
  {g : Group}

theorem distinct_within (distinct : Set.InjOn f known) (name : String) :
    Set.InjOn (fun n => f ⟨name, n⟩) {n | ⟨name, n⟩ ∈ known} := by
  intro m here n there same
  cases distinct here there same
  rfl

theorem Within.group (within : s.Within known) {name : String} (found : s.group? name = some g) :
    g.Within {n | ⟨name, n⟩ ∈ known} := within _ (mem_of_lookup found)

theorem group?_renumber (f : TailerRef → Nat) (s : Store) (name : String) :
    (s.renumber f).group? name = (s.group? name).map (·.renumber fun n => f ⟨name, n⟩) :=
  lookup_map_value s.groups (fun name g => g.renumber fun n => f ⟨name, n⟩) name

theorem putGroup_renumber (f : TailerRef → Nat) (s : Store) (name : String) (g : Group) :
    (s.renumber f).putGroup name (g.renumber fun n => f ⟨name, n⟩) =
      (s.putGroup name g).renumber f := by
  have empty : (g.renumber fun n => f ⟨name, n⟩).members.isEmpty = g.members.isEmpty :=
    List.isEmpty_map
  simp only [putGroup, renumber, empty, List.filter_map, Function.comp_def]
  split <;> rfl

theorem rebalanceWatchers_renumber (distinct : Set.InjOn f known) (within : s.Within known)
    (name : String) :
    (s.renumber f).rebalanceWatchers name = (s.rebalanceWatchers name).renumber f := by
  simp only [rebalanceWatchers, renumber, List.map_map]
  congr 1
  apply List.map_congr_left
  intro e there
  have rebalanced := Group.rebalance_renumber (distinct_within distinct e.1) (within e there)
    s.sizeOf?
  simp only [Function.comp_def, Group.watches_renumber]
  split
  · exact Prod.ext rfl rebalanced
  · rfl

theorem keepsLogs_renumber (f : TailerRef → Nat) : KeepsLogs (renumber f) :=
  ⟨fun _ => rfl, fun _ => rfl, fun _ => rfl, fun _ => rfl, fun _ _ _ => rfl⟩

theorem create_renumber (distinct : Set.InjOn f known) (within : s.Within known) (name : String)
    (size : Nat) : (s.renumber f).create name size = (s.create name size).map (renumber f) := by
  refine (keepsLogs_renumber f).create s name size fun s' groups => ?_
  refine rebalanceWatchers_renumber distinct ?_ name
  rw [Within, groups]
  exact within

theorem delete_renumber (distinct : Set.InjOn f known) (within : s.Within known) (name : String) :
    (s.renumber f).delete name = ((s.delete name).1, (s.delete name).2.renumber f) := by
  have allowed : ((s.renumber f).config.canDelete && (s.renumber f).contains name) =
      (s.config.canDelete && s.contains name) := rfl
  simp only [delete, allowed]
  split
  · let logs := s.logs.filter (·.name ≠ name)
    let committed := s.committed.filter (·.1.partition.log ≠ name)
    exact congrArg (Prod.mk true) (rebalanceWatchers_renumber
      (s := { s with logs, committed }) distinct within name)
  · rfl

theorem commitAll_renumber (f : TailerRef → Nat) (s : Store) (r : TailerRef) :
    (s.renumber f).commitAll r = (s.commitAll r).map (renumber f) := by
  have commits (s : Store) (ps : List Partition) (k : Partition → Nat) :
      ps.foldl (fun s p => s.commit r.group p (k p)) (s.renumber f) =
        (ps.foldl (fun s p => s.commit r.group p (k p)) s).renumber f := by
    induction ps generalizing s with
    | nil => rfl
    | cons p rest ih => exact ih (s.commit r.group p (k p))
  have opened : (s.renumber f).openTailer r = s.openTailer r := rfl
  simp only [commitAll, opened]
  cases s.openTailer r with
  | error e => rfl
  | ok t => exact congrArg Except.ok (commits s t.assignments t.position)

theorem moveAll_renumber (f : TailerRef → Nat) (s : Store) (r : TailerRef) (k : Partition → Nat) :
    (s.renumber f).moveAll r k = (s.moveAll r k).map (renumber f) := by
  have opened : (s.renumber f).openTailer r = s.openTailer r := rfl
  simp only [moveAll, opened]
  cases s.openTailer r <;> rfl

/-- What asks for no member's number is done, and answered, as with other numbers. -/
theorem act_renumber (distinct : Set.InjOn f known) (within : s.Within known)
    (other : a.ofMember = false) :
    (s.renumber f).act a = (s.act a).renumber f ∧ (s.renumber f).answer a = s.answer a := by
  have keeps := keepsLogs_renumber f
  have opened (r : TailerRef) : (s.renumber f).openTailer r = s.openTailer r := rfl
  have assigned (r : TailerRef) (p : Partition) :
      (s.renumber f).assignedTailer r p = s.assignedTailer r p := rfl
  cases a with
  | subscribe | takeOver | closeTailer => cases other
  | setFaults => exact ⟨rfl, rfl⟩
  | create name size =>
    simp only [act, answer, create_renumber distinct within]
    cases s.create name size <;> exact ⟨rfl, rfl⟩
  | delete name =>
    simp only [act, answer, delete_renumber distinct within, and_self]
  | openAppender name type codec =>
    have log : (s.renumber f).log name = s.log name := rfl
    simp only [act, answer, createAppender, log]
    cases s.log name <;> exact ⟨rfl, rfl⟩
  | append x key m =>
    simp only [act, answer, keeps.append]
    cases s.append x key m <;> exact ⟨rfl, rfl⟩
  | appendTo x index m =>
    simp only [act, answer, keeps.appendTo]
    cases s.appendTo x index m <;> exact ⟨rfl, rfl⟩
  | closeAppender x =>
    have opened : (s.renumber f).openAppender x = s.openAppender x := rfl
    simp only [act, answer, closeAppender, opened]
    cases s.openAppender x <;> exact ⟨rfl, rfl⟩
  | createTailer group ps type codec =>
    have fails : (s.renumber f).failNextTailer = s.failNextTailer := rfl
    simp only [act, answer, createTailer, keeps.checkPartitions, fails]
    cases s.checkPartitions ps with
    | error e => exact ⟨rfl, rfl⟩
    | ok _ => cases s.failNextTailer <;> exact ⟨rfl, rfl⟩
  | look r =>
    have found : (s.renumber f).tailer? r = s.tailer? r := rfl
    simp only [act, answer, look, found, keeps.poll]
    cases s.tailer? r <;> exact ⟨rfl, rfl⟩
  | commit r =>
    simp only [act, answer, commitAll_renumber]
    cases s.commitAll r <;> exact ⟨rfl, rfl⟩
  | commitPartition r p =>
    simp only [act, answer, commitPartition, assigned]
    cases s.assignedTailer r p <;> exact ⟨rfl, rfl⟩
  | toStart r =>
    simp only [act, answer, toStart, moveAll_renumber]
    cases s.moveAll r fun _ => 0 <;> exact ⟨rfl, rfl⟩
  | toEnd r =>
    simp only [act, answer, toEnd, opened, keeps.moveToEnds]
    cases s.openTailer r <;> exact ⟨rfl, rfl⟩
  | toLastCommitted r =>
    have committed : (s.renumber f).committed? r.group = s.committed? r.group := rfl
    simp only [act, answer, toLastCommitted, committed, moveAll_renumber]
    cases s.moveAll r fun p => (s.committed? r.group p).getD 0 <;> exact ⟨rfl, rfl⟩
  | seek r o =>
    simp only [act, answer, seek, assigned]
    cases s.assignedTailer r o.partition <;> exact ⟨rfl, rfl⟩

theorem leaveGroup_renumber (distinct : Set.InjOn f known) (within : s.Within known)
    (there : r ∈ known) :
    (s.renumber f).leaveGroup ⟨r.group, f r⟩ = (s.leaveGroup r).renumber f := by
  simp only [leaveGroup, group?_renumber]
  cases found : s.group? r.group with
  | none => rfl
  | some g =>
    have member : r.number ∈ {n | (⟨r.group, n⟩ : TailerRef) ∈ known} := there
    have left := Group.leave_renumber (distinct_within distinct r.group) (within.group found) member
      s.sizeOf?
    simp only [Option.map_some]
    exact (congrArg _ left).trans (putGroup_renumber f s r.group _)

theorem assignmentOf_renumber (distinct : Set.InjOn f known) (within : s.Within known)
    (there : r ∈ known) :
    (s.renumber f).assignmentOf ⟨r.group, f r⟩ = s.assignmentOf r := by
  simp only [assignmentOf, group?_renumber]
  cases found : s.group? r.group with
  | none => rfl
  | some g =>
    have member : r.number ∈ {n | (⟨r.group, n⟩ : TailerRef) ∈ known} := there
    exact congrArg (Prod.mk g.generation)
      (Group.assigned_renumber (distinct_within distinct r.group) (within.group found) member)

theorem subscribe_renumber (distinct : Set.InjOn f known) (within : s.Within known)
    {group : String} (there : s.nextRef group ∈ known) (t : Tailer) (names : List String) :
    ((s.renumber f).addTailer group t).2.putGroup group
        ((((s.renumber f).group? group).getD {}).join (f (s.nextRef group)) names s.sizeOf?) =
      ((s.addTailer group t).2.putGroup group (((s.group? group).getD {}).join
        (s.nextRef group).number names s.sizeOf?)).renumber f := by
  have within : ((s.group? group).getD {}).Within {n | ⟨group, n⟩ ∈ known} := by
    cases found : s.group? group with
    | none => exact ⟨fun _ joined => absurd joined List.not_mem_nil,
        fun _ joined => absurd joined List.not_mem_nil⟩
    | some g => exact within.group found
  have found : ((s.renumber f).group? group).getD {} =
      ((s.group? group).getD {}).renumber fun n => f ⟨group, n⟩ := by
    rw [group?_renumber]
    cases s.group? group <;> rfl
  have joins := Group.join_renumber (distinct_within distinct group) within there names s.sizeOf?
  rw [found]
  exact (congrArg _ joins).trans (putGroup_renumber f (s.addTailer group t).2 group _)

theorem renumber_congr {h : TailerRef → Nat} (within : s.Within known)
    (same : Set.EqOn f h known) : s.renumber f = s.renumber h := by
  simp only [renumber]
  congr 1
  apply List.map_congr_left
  intro e there
  exact Prod.ext rfl (Group.renumber_congr (within e there) fun n known => same known)

/-! Which numbers there are. -/

theorem Within.mono {more : Set TailerRef} (within : s.Within known) (grown : known ⊆ more) :
    s.Within more := fun e there => (within e there).mono fun _ known => grown known

theorem Within.putGroup (within : s.Within known) {name : String}
    (added : g.Within {n | ⟨name, n⟩ ∈ known}) : (s.putGroup name g).Within known := by
  intro e there
  simp only [Store.putGroup] at there
  have others (there : e ∈ s.groups.filter (·.1 ≠ name)) := within e (List.mem_of_mem_filter there)
  split at there
  · exact others there
  · rcases List.mem_cons.mp there with rfl | there
    · exact added
    · exact others there

theorem Within.rebalanceWatchers (within : s.Within known) (name : String) :
    (s.rebalanceWatchers name).Within known := by
  intro e there
  obtain ⟨e', old, rfl⟩ := List.mem_map.mp there
  split
  · exact (within e' old).rebalance
  · exact within e' old

theorem Within.leaveGroup (within : s.Within known) (r : TailerRef) :
    (s.leaveGroup r).Within known := by
  unfold Store.leaveGroup
  split
  · exact within
  · rename_i g found
    exact within.putGroup (within.group found).leave

theorem Within.step {s' : Store} (within : s.Within known) (step : Effect s a s')
    (joins : ∀ group names type codec, a = .subscribe group names type codec →
      s.nextRef group ∈ known) : s'.Within known := by
  cases step with
  | @creates name size =>
    have added : Within known { s with
        logs := s.logs ++ [Log.mk s.created name (List.replicate size [])],
        created := s.created + 1 } := within
    exact added.rebalanceWatchers name
  | @deletes name =>
    have removed : Within known { s with
        logs := s.logs.filter (·.name ≠ name),
        committed := s.committed.filter (·.1.partition.log ≠ name) } := within
    exact removed.rebalanceWatchers name
  | subscribes group names type codec =>
    have added : Within known (s.addTailer group { type, codec, subscribed := true }).2 := within
    apply added.putGroup
    apply Group.Within.join
    · cases found : s.group? group with
      | none => exact ⟨fun _ joined => absurd joined List.not_mem_nil,
          fun _ joined => absurd joined List.not_mem_nil⟩
      | some g => exact within.group found
    · exact joins group names type codec rfl
  | commits =>
    rw [foldl_commit_eq]
    exact within
  | @leaves r t =>
    have closed : Within known (s.setTailer r { t with closed := true }) := within
    exact closed.leaveGroup r
  | keeps | opensAppender | appends | closesAppender | refusesTailer | createsTailer | turns
  | closesTailer | setsFaults => exact within

/-- The number that a member was given: how many had joined by then. -/
def memberOf (joined : List TailerRef) (r : TailerRef) : Nat := joined.idxOf r + 1

theorem distinct_memberOf (joined : List TailerRef) :
    Set.InjOn (memberOf joined) {r | r ∈ joined} := by
  intro r there q _ same
  exact (List.idxOf_inj there).mp (Nat.succ.inj same)

theorem memberOf_append {joined : List TailerRef} (new : r ∉ joined) :
    Set.EqOn (memberOf joined) (memberOf (joined ++ [r])) {q | q ∈ joined} ∧
      memberOf (joined ++ [r]) r = joined.length + 1 := by
  constructor
  · intro q there
    simp only [memberOf, List.idxOf_append_of_mem there]
  · simp [memberOf, List.idxOf_append_of_notMem new]

end Store

open Store

/-- A store that numbers the members of all its groups together, and the tailers that have joined,
in order. -/
structure Counting where
  store : Store := {}
  joined : List TailerRef := []

namespace Counting

def asMember (c : Counting) (r : TailerRef) : TailerRef := ⟨r.group, memberOf c.joined r⟩

def subscribe (c : Counting) (group : String) (names : List String) (type : MessageType)
    (codec : Option Codec) : Outcome (TailerRef × Counting) := do
  if !c.store.config.canSubscribe then throw .subscribeUnsupported
  (c.store.config.limits.checkGroupName group).mapError .argument
  let (r, s) := c.store.addTailer group { type, codec, subscribed := true }
  let g := ((s.group? group).getD {}).join (c.joined.length + 1) names s.sizeOf?
  return (r, ⟨s.putGroup group g, c.joined ++ [r]⟩)

def follow (c : Counting) (r : TailerRef) (t : Tailer) : Tailer × List Notification :=
  if t.subscribed then
    let (generation, assigned) := c.store.assignmentOf (c.asMember r)
    t.follow generation assigned (c.store.committed? r.group)
  else (t, [])

def takeOver (c : Counting) (r : TailerRef) : Outcome (List Notification × Counting) := do
  let t ← c.store.openTailer r
  let (t, notices) := c.follow r t
  return (notices, { c with store := c.store.setTailer r t })

def closeTailer (c : Counting) (r : TailerRef) : Outcome Unit × Counting :=
  match c.store.openTailer r with
  | .error _ => (.ok (), c)
  | .ok t =>
    let s := c.store.setTailer r { t with closed := true }
    let s := if t.subscribed then s.leaveGroup (c.asMember r) else s
    let (fails, s) := s.takeCloseFault
    (if fails then .error (.injected .closeTailer) else .ok (), { c with store := s })

def settle (c : Counting) : Outcome Counting → Counting
  | .ok next => next
  | .error _ => c

/-- Other actions have no use for the numbers. -/
def act (c : Counting) : Action → Counting
  | .subscribe group names type codec => c.settle ((c.subscribe group names type codec).map (·.2))
  | .takeOver r => c.settle ((c.takeOver r).map (·.2))
  | .closeTailer r => (c.closeTailer r).2
  | a => { c with store := c.store.act a }

def answer (c : Counting) : Action → Answer
  | .subscribe group names type codec => .tailer ((c.subscribe group names type codec).map (·.1))
  | .takeOver r => .notices ((c.takeOver r).map (·.1))
  | .closeTailer r => .done (c.closeTailer r).1
  | a => c.store.answer a

def run (c : Counting) (as : List Action) : Counting := as.foldl act c

end Counting

namespace Store

/-- A store as it is when the members of its groups, who have joined in this order, are numbered
together. -/
def counted (s : Store) (joined : List (TailerRef × List String)) : Counting :=
  ⟨s.renumber (memberOf (joined.map (·.1))), joined.map (·.1)⟩

/-- Nobody but those who have joined has a number. -/
structure Counts (s : Store) (joined : List (TailerRef × List String)) : Prop where
  coordinated : Coordinated s joined
  within : s.Within {r | r ∈ joined.map (·.1)}

variable {joined : List (TailerRef × List String)} {t : Tailer}

theorem Counts.step (counts : Counts s joined) (a : Action) :
    Counts (s.act a) (joined ++ s.joins a) := by
  refine ⟨counts.coordinated.step a, ?_⟩
  have grown : {r | r ∈ joined.map (·.1)} ⊆ {r | r ∈ (joined ++ s.joins a).map (·.1)} := by
    intro r old
    rw [List.map_append]
    exact List.mem_append_left _ old
  rcases joins_cases s a with ⟨-, same | other⟩ | ⟨group, names, type, codec, rfl, one, -⟩
  · rw [same]
    exact counts.within.mono grown
  · exact (counts.within.mono grown).step (effect s a) fun _ _ _ _ is => absurd is (other _ _ _ _)
  · refine (counts.within.mono grown).step (effect s _) ?_
    rintro _ _ _ _ ⟨⟩
    simp [one]

theorem Counts.run (counts : Counts s joined) (as : List Action) :
    Counts (s.run as) (joined ++ s.subscriptions as) := by
  induction as generalizing s joined with
  | nil => simpa [subscriptions] using counts
  | cons a as ih =>
    simpa only [run_cons, subscriptions, List.append_assoc] using ih (counts.step a)

theorem Counts.member (counts : Counts s joined) (found : s.tailer? r = some t)
    (subscribed : t.subscribed = true) : r ∈ joined.map (·.1) :=
  (counts.coordinated.subscribed r).mpr ⟨t, found, subscribed⟩

theorem follow_counted (counts : Counts s joined) (found : s.tailer? r = some t) :
    (s.counted joined).follow r t = s.follow r t := by
  unfold Counting.follow Store.follow
  split
  · rename_i subscribed
    have assignment := assignmentOf_renumber (distinct_memberOf (joined.map (·.1))) counts.within
      (counts.member found subscribed)
    simp only [counted, Counting.asMember, assignment]
    rfl
  · rfl

theorem takeOver_counted (counts : Counts s joined) (r : TailerRef) :
    (s.counted joined).takeOver r =
      (s.takeOver r).map (Prod.map id (counted · joined)) := by
  have opened : (s.counted joined).store.openTailer r = s.openTailer r := rfl
  simp only [Counting.takeOver, takeOver, opened]
  cases there : s.openTailer r with
  | error e => rfl
  | ok t =>
    simp only [bind, Except.bind, follow_counted counts (openTailer_ok.mp there).1]
    rfl

theorem closeTailer_counted (counts : Counts s joined) (r : TailerRef) :
    (s.counted joined).closeTailer r =
      Prod.map id (counted · joined) (s.closeTailer r) := by
  have opened : (s.counted joined).store.openTailer r = s.openTailer r := rfl
  simp only [Counting.closeTailer, closeTailer, opened]
  cases there : s.openTailer r with
  | error e => rfl
  | ok t =>
    by_cases subscribed : t.subscribed = true
    · have within : Within {q | q ∈ joined.map (·.1)} (s.setTailer r { t with closed := true }) :=
        counts.within
      have left := leaveGroup_renumber (distinct_memberOf (joined.map (·.1))) within
        (counts.member (openTailer_ok.mp there).1 subscribed)
      simp only [if_pos subscribed, takeCloseFault]
      let ends (s' : Store) : Outcome Unit × Counting :=
        (if s'.failNextClose then .error (.injected .closeTailer) else .ok (),
          ⟨{ s' with failNextClose := false }, joined.map (·.1)⟩)
      exact congrArg ends left
    · simp only [if_neg subscribed]
      rfl

/-- A refused subscription has no effect on the numbers, and otherwise the next number is given to the
new tailer. -/
theorem subscribe_counted (counts : Counts s joined) (group : String) (names : List String)
    (type : MessageType) (codec : Option Codec) :
    (s.counted joined).subscribe group names type codec =
      (s.subscribe group names type codec).map fun (r, s') =>
        (r, s'.counted (joined ++ [(r, names)])) := by
  have new : s.nextRef group ∉ joined.map (·.1) := by
    intro member
    obtain ⟨t, found, -⟩ := (counts.coordinated.subscribed _).mp member
    cases (counts.coordinated.numbered.nextRef group).symm.trans found
  obtain ⟨same, number⟩ := memberOf_append new
  have within : Within {q | q ∈ joined.map (·.1) ++ [s.nextRef group]} s :=
    counts.within.mono fun q old => List.mem_append_left _ old
  have joins := subscribe_renumber (distinct_memberOf (joined.map (·.1) ++ [s.nextRef group]))
    within (List.mem_append_right _ List.mem_cons_self) { type, codec, subscribed := true } names
  have config : (s.renumber (memberOf (joined.map (·.1)))).config = s.config := rfl
  simp only [Counting.subscribe, subscribe, counted, config, List.map_append, List.map_cons,
    List.map_nil]
  cases s.config.canSubscribe with
  | false => rfl
  | true =>
    cases s.config.limits.checkGroupName group with
    | error e => rfl
    | ok _ =>
      rw [← renumber_congr counts.within same, number] at joins
      exact congrArg (fun s' : Store => Except.ok (s.nextRef group,
        (⟨s', joined.map (·.1) ++ [s.nextRef group]⟩ : Counting))) joins

/-- Numbered together, the members of all groups do and are answered the same. -/
theorem act_counted (counts : Counts s joined) (a : Action) :
    (s.counted joined).act a = (s.act a).counted (joined ++ s.joins a) ∧
      (s.counted joined).answer a = s.answer a := by
  cases other : a.ofMember with
  | false =>
    obtain ⟨acts, answers⟩ := act_renumber (distinct_memberOf _) counts.within other
    cases a with
    | subscribe | takeOver | closeTailer => cases other
    | _ =>
      have acts := congrArg (Counting.mk · (joined.map (·.1))) acts
      exact ⟨acts.trans (by simp [joins, counted]), answers⟩
  | true =>
    cases a with
    | subscribe group names type codec =>
      simp only [Counting.act, Counting.answer, act, answer, joins, subscribe_counted counts]
      cases s.subscribe group names type codec with
      | error e =>
        rw [List.append_nil]
        exact ⟨rfl, rfl⟩
      | ok made => exact ⟨rfl, rfl⟩
    | takeOver r =>
      simp only [Counting.act, Counting.answer, act, answer, joins, takeOver_counted counts,
        List.append_nil]
      cases s.takeOver r <;> exact ⟨rfl, rfl⟩
    | closeTailer r =>
      simp only [Counting.act, Counting.answer, act, answer, joins, closeTailer_counted counts,
        List.append_nil]
      exact ⟨rfl, rfl⟩
    | _ => cases other

theorem run_counted (counts : Counts s joined) (as : List Action) :
    (s.counted joined).run as = (s.run as).counted (joined ++ s.subscriptions as) := by
  induction as generalizing s joined with
  | nil => simp [subscriptions, Counting.run]
  | cons a as ih =>
    have first := (act_counted counts a).1
    have rest := ih (counts.step a)
    simp only [Counting.run, List.foldl_cons, first, run_cons, subscriptions,
      List.append_assoc] at rest ⊢
    exact rest

theorem counts_start (config : StoreConfig) : Counts { config } [] :=
  ⟨coordinated_run config [], fun _ none => absurd none List.not_mem_nil⟩

/-- From the start, a store that numbers all members together is the store of which each group
numbers its own, with the numbers of those who have subscribed so far. -/
theorem counting_run (config : StoreConfig) (as : List Action) :
    ({ store := { config } } : Counting).run as = (({ config } : Store).run as).counted
      (({ config } : Store).subscriptions as) := run_counted (counts_start config) as

theorem counting_answer (config : StoreConfig) (as : List Action) (a : Action) :
    (({ store := { config } } : Counting).run as).answer a =
      (({ config } : Store).run as).answer a := by
  rw [counting_run]
  exact (act_counted ((counts_start config).run as) a).2

end Store

end Logbook
