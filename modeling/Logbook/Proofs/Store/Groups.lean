import Logbook.Proofs.Store.Records

/-! What groups have handed out is the range assignment of their members over the logs that exist,
so that only partitions that exist are handed out. -/
namespace Logbook

namespace Group

/-- The share of a place ends where the next one begins. -/
theorem shareStart_succ (size count place : Nat) :
    shareStart size count place + shareSize size count place = shareStart size count (place + 1) := by
  simp only [shareStart, shareSize, Nat.succ_mul]
  split <;> omega

/-- All shares together are the whole log. -/
theorem shareStart_count (size : Nat) (some : 0 < count) : shareStart size count count = size := by
  rw [shareStart, Nat.min_eq_right (Nat.le_of_lt (Nat.mod_lt size some))]
  exact Nat.div_add_mod size count

theorem shareStart_mono (size count : Nat) (before : i ≤ j) :
    shareStart size count i ≤ shareStart size count j := by
  have more : i * (size / count) ≤ j * (size / count) := Nat.mul_le_mul_right _ before
  simp only [shareStart]
  omega

theorem mem_share {log : String} {p : Partition} : p ∈ share log size count place ↔
    p.log = log ∧ shareStart size count place ≤ p.index ∧
      p.index < shareStart size count (place + 1) := by
  simp only [share, List.mem_map, List.mem_range'_1, shareStart_succ]
  constructor
  · rintro ⟨index, range, rfl⟩
    exact ⟨rfl, range⟩
  · rintro ⟨rfl, range⟩
    exact ⟨p.index, range, rfl⟩

theorem mem_distinctNames {names : List String} {name : String} :
    name ∈ distinctNames names ↔ name ∈ names := by
  simp [distinctNames, List.mem_eraseDups]

theorem mem_subscribers {members : List (Nat × List String)} {member : Nat × List String}
    (there : member ∈ members) (wants : log ∈ member.2) :
    member.1 ∈ subscribers members log := by
  simp only [subscribers, List.mem_map, List.mem_filter]
  exact ⟨member, ⟨there, by simpa using wants⟩, rfl⟩

theorem mem_partitionsOf {members : List (Nat × List String)} {sizeOf : String → Option Nat}
    {member : Nat × List String} {p : Partition} : p ∈ partitionsOf members sizeOf member ↔
      p.log ∈ member.2 ∧ ∃ size, sizeOf p.log = some size ∧
        p ∈ share p.log size (subscribers members p.log).length
          ((subscribers members p.log).idxOf member.1) := by
  simp only [partitionsOf, List.mem_flatMap, mem_distinctNames]
  constructor
  · rintro ⟨log, wants, shared⟩
    cases known : sizeOf log with
    | none => simp [known] at shared
    | some size =>
      simp only [known] at shared
      obtain rfl : p.log = log := (mem_share.mp shared).1
      exact ⟨wants, size, known, shared⟩
  · rintro ⟨wants, size, known, shared⟩
    exact ⟨p.log, wants, by simpa only [known] using shared⟩

theorem partitionsOf_exist {members : List (Nat × List String)} {sizeOf : String → Option Nat}
    {member : Nat × List String} {p : Partition} (there : member ∈ members)
    (given : p ∈ partitionsOf members sizeOf member) :
    ∃ size, sizeOf p.log = some size ∧ p.index < size := by
  obtain ⟨wants, size, known, shared⟩ := mem_partitionsOf.mp given
  have place := List.idxOf_lt_length_of_mem (mem_subscribers there wants)
  have within := shareStart_mono size (subscribers members p.log).length place
  rw [shareStart_count size (Nat.zero_lt_of_lt place)] at within
  exact ⟨size, known, Nat.lt_of_lt_of_le (mem_share.mp shared).2.2 within⟩

/-- Only the sizes of the logs that members subscribe to matter. -/
theorem assignRanges_congr {members : List (Nat × List String)} {f h : String → Option Nat}
    (same : ∀ member ∈ members, ∀ name ∈ member.2, f name = h name) :
    assignRanges members f = assignRanges members h := by
  apply List.map_congr_left
  intro member there
  congr 1
  simp only [partitionsOf, List.flatMap]
  congr 1
  apply List.map_congr_left
  intro name wanted
  rw [same member there name (mem_distinctNames.mp wanted)]

end Group

namespace Store

variable {s s' : Store} {a : Action} {g : Group}

def Assigned (s : Store) : Prop :=
  ∀ name g, s.group? name = some g → g.assignment = Group.assignRanges g.members s.sizeOf?

theorem group?_putGroup (s : Store) (name : String) (g : Group) (key : String) :
    (s.putGroup name g).group? key =
      if key = name then (if g.members.isEmpty then none else some g) else s.group? key := by
  simp only [putGroup, group?]
  by_cases empty : g.members.isEmpty
  · simp only [empty, if_true, lookup_filter_ne]
  · simp only [if_neg empty]
    by_cases same : key = name
    · simp [same]
    · rw [List.lookup_cons, beq_false_of_ne same, if_neg same]
      exact (lookup_filter_ne s.groups name key).trans (if_neg same)

theorem group?_rebalanceWatchers (s : Store) (name key : String) :
    (s.rebalanceWatchers name).group? key =
      (s.group? key).map fun g => if g.watches name then g.rebalance s.sizeOf? else g := by
  have shape : (s.rebalanceWatchers name).groups = s.groups.map fun e =>
      (e.1, if e.2.watches name then e.2.rebalance s.sizeOf? else e.2) := by
    apply List.map_congr_left
    intro e _
    split <;> rfl
  rw [group?, shape]
  exact lookup_map_value s.groups
    (fun _ g => if g.watches name then g.rebalance s.sizeOf? else g) key

theorem Assigned.same (assigned : Assigned s) (groups : s'.groups = s.groups)
    (sizes : s'.sizeOf? = s.sizeOf?) : Assigned s' := by
  intro name g found
  rw [sizes]
  exact assigned name g ((congrArg (List.lookup name) groups).symm.trans found)

theorem Assigned.putGroup (assigned : Assigned s) (name : String)
    (ranges : g.assignment = Group.assignRanges g.members s.sizeOf?) :
    Assigned (s.putGroup name g) := by
  intro key h found
  rw [group?_putGroup] at found
  split at found
  · split at found
    · cases found
    · cases found
      exact ranges
  · exact assigned key h found

theorem Assigned.leaveGroup (assigned : Assigned s) (r : TailerRef) :
    Assigned (s.leaveGroup r) := by
  unfold Store.leaveGroup
  split
  · exact assigned
  · rename_i g found
    apply assigned.putGroup
    unfold Group.leave
    split
    · rfl
    · exact assigned r.group g found

/-- When one log comes or goes, only the groups that watch it are affected. -/
theorem Assigned.rebalanceWatchers (assigned : Assigned s) {name : String}
    (groups : s'.groups = s.groups) (sizes : ∀ n, n ≠ name → s'.sizeOf? n = s.sizeOf? n) :
    Assigned (s'.rebalanceWatchers name) := by
  intro key g found
  rw [group?_rebalanceWatchers, group?, groups] at found
  obtain ⟨old, there, rfl⟩ := Option.map_eq_some_iff.mp found
  by_cases watched : old.watches name
  · simp only [watched, if_true]
    rfl
  · -- the group keeps its ranges: none of its members wants the log whose size has changed
    simp only [watched, Bool.false_eq_true, if_false]
    rw [assigned key old there]
    apply Group.assignRanges_congr
    intro member joined log wanted
    refine (sizes log ?_).symm
    rintro rfl
    exact watched (List.any_eq_true.mpr ⟨member, joined, by simpa using wanted⟩)

theorem Assigned.step (assigned : Assigned s) (step : Effect s a s') : Assigned s' := by
  have sizes := step.sizeOf?
  cases step with
  | @creates name size =>
    refine assigned.rebalanceWatchers rfl fun n other => ?_
    rcases sizes n with same | ⟨_, same⟩ | same
    · exact same
    · cases same
      exact absurd rfl other
    · cases same
  | @deletes name =>
    refine assigned.rebalanceWatchers rfl fun n other => ?_
    rcases sizes n with same | ⟨_, same⟩ | same
    · exact same
    · cases same
    · cases same
      exact absurd rfl other
  | @appends _ _ index _ l _ data => exact assigned.same rfl (sizeOf?_putRecord s l index data)
  | subscribes group names type codec =>
    have added : Assigned (s.addTailer group { type, codec, subscribed := true }).2 :=
      assigned.same rfl rfl
    refine added.putGroup group ?_
    rfl
  | commits =>
    rw [foldl_commit_eq]
    exact assigned.same rfl rfl
  | @leaves r t =>
    have closed : Assigned (s.setTailer r { t with closed := true }) := assigned.same rfl rfl
    exact (closed.leaveGroup r).same rfl rfl
  | keeps | opensAppender | closesAppender | refusesTailer | createsTailer | turns
  | closesTailer | setsFaults => exact assigned.same rfl rfl

theorem assigned_run {config : StoreConfig} (as : List Action) :
    Assigned (({ config } : Store).run as) := by
  have start : Assigned ({ config } : Store) := fun _ _ found => by cases found
  exact @run_invariant (fun s _ => Assigned s) _
    (fun assigned _ => assigned.step (effect _ _)) _ [] as start (along_all as)

theorem assigned_exist (assigned : Assigned s) (given : p ∈ (s.assignmentOf r).2) :
    ∃ l, s.log? p.log = some l ∧ p.index < l.size := by
  unfold assignmentOf at given
  cases found : s.group? r.group with
  | none => simp [found] at given
  | some g =>
    simp only [found, Group.assigned, assigned r.group g found] at given
    cases there : (Group.assignRanges g.members s.sizeOf?).lookup r.number with
    | none => simp [there] at given
    | some ps =>
      obtain ⟨member, joined, same⟩ := List.mem_map.mp (mem_of_lookup there)
      obtain ⟨-, rfl⟩ := Prod.mk.inj same
      rw [there] at given
      obtain ⟨size, known, within⟩ := Group.partitionsOf_exist joined given
      obtain ⟨l, log, rfl⟩ := Option.map_eq_some_iff.mp known
      exact ⟨l, log, within⟩

end Store

end Logbook
