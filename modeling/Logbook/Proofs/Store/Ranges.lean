import Mathlib.Data.List.Nodup
import Logbook.Proofs.Store.Groups

/-! The ranges of a log do not overlap and leave nothing out, so that every partition of a log that
some member subscribes to belongs to one member. -/
namespace Logbook.Group

variable {members : List (Nat × List String)} {sizeOf : String → Option Nat}
  {member other : Nat × List String} {p : Partition} {size count index : Nat}

/-- Every place of a log lies in a share. -/
theorem exists_share (within : index < shareStart size count places) :
    ∃ place < places,
      shareStart size count place ≤ index ∧ index < shareStart size count (place + 1) := by
  induction places with
  | zero => simp [shareStart] at within
  | succ places ih =>
    by_cases before : index < shareStart size count places
    · obtain ⟨place, earlier, bounds⟩ := ih before
      exact ⟨place, Nat.lt_succ_of_lt earlier, bounds⟩
    · exact ⟨places, Nat.lt_succ_self places, Nat.le_of_not_lt before, within⟩

/-- No place lies in two shares. -/
theorem share_unique
    (left : shareStart size count i ≤ index ∧ index < shareStart size count (i + 1))
    (right : shareStart size count j ≤ index ∧ index < shareStart size count (j + 1)) : i = j := by
  have apart {i j : Nat} (before : i < j) (ends : index < shareStart size count (i + 1)) :
      index < shareStart size count j :=
    Nat.lt_of_lt_of_le ends (shareStart_mono size count before)
  rcases Nat.lt_trichotomy i j with before | same | behind
  · have ended := apart before left.2
    omega
  · exact same
  · have ended := apart behind right.2
    omega

theorem nodup_subscribers (once : (members.map (·.1)).Nodup) (log : String) :
    (subscribers members log).Nodup :=
  once.sublist (List.filter_sublist.map _)

/-- A partition of a log that a member subscribes to belongs to some member. -/
theorem exists_owner (once : (members.map (·.1)).Nodup) (there : member ∈ members)
    (wants : p.log ∈ member.2) (known : sizeOf p.log = some size) (within : p.index < size) :
    ∃ owner ∈ members, p ∈ partitionsOf members sizeOf owner := by
  have positive : 0 < (subscribers members p.log).length :=
    List.length_pos_of_mem (mem_subscribers there wants)
  rw [← shareStart_count size positive] at within
  obtain ⟨place, below, bounds⟩ := exists_share within
  have subscribes := List.getElem_mem below
  simp only [subscribers, List.mem_map, List.mem_filter] at subscribes
  obtain ⟨owner, ⟨joined, asks⟩, number⟩ := subscribes
  refine ⟨owner, joined, mem_partitionsOf.mpr ⟨by simpa using asks, size, known, ?_⟩⟩
  have placed : (subscribers members p.log).idxOf owner.1 = place := by
    rw [number]
    exact (nodup_subscribers once p.log).idxOf_getElem place below
  rw [placed, mem_share]
  exact ⟨rfl, bounds⟩

/-- No partition belongs to two members. -/
theorem owner_unique (there : member ∈ members)
    (given : p ∈ partitionsOf members sizeOf member)
    (again : p ∈ partitionsOf members sizeOf other) : member.1 = other.1 := by
  obtain ⟨wants, size, known, shared⟩ := mem_partitionsOf.mp given
  obtain ⟨wants', size', known', shared'⟩ := mem_partitionsOf.mp again
  cases Option.some.inj (known.symm.trans known')
  have places := share_unique (mem_share.mp shared).2 (mem_share.mp shared').2
  exact (List.idxOf_inj (mem_subscribers there wants)).mp places

variable {g : Group}

/-- The partitions that a member has are its ranges. -/
theorem mem_assigned (once : (g.members.map (·.1)).Nodup)
    (ranges : g.assignment = assignRanges g.members sizeOf) {number : Nat} :
    p ∈ g.assigned number ↔
      ∃ member ∈ g.members, member.1 = number ∧ p ∈ partitionsOf g.members sizeOf member := by
  have keys : (assignRanges g.members sizeOf).map (·.1) = g.members.map (·.1) := by
    rw [assignRanges, List.map_map]
    rfl
  rw [assigned, ranges]
  constructor
  · intro given
    cases found : (assignRanges g.members sizeOf).lookup number with
    | none => simp [found] at given
    | some ps =>
      obtain ⟨member, joined, same⟩ := List.mem_map.mp (mem_of_lookup found)
      obtain ⟨rfl, rfl⟩ := Prod.mk.inj same
      exact ⟨member, joined, rfl, by simpa [found] using given⟩
  · rintro ⟨member, joined, rfl, given⟩
    have entry : (member.1, partitionsOf g.members sizeOf member) ∈ assignRanges g.members sizeOf :=
      List.mem_map_of_mem joined
    rw [lookup_of_mem (keys ▸ once) entry]
    exact given

/-- No partition is given to two numbers. -/
theorem assigned_apart (once : (g.members.map (·.1)).Nodup)
    (ranges : g.assignment = assignRanges g.members sizeOf) {i j : Nat} (given : p ∈ g.assigned i)
    (again : p ∈ g.assigned j) : i = j := by
  obtain ⟨owner, joined, rfl, range⟩ := (mem_assigned once ranges).mp given
  obtain ⟨other, _, rfl, range'⟩ := (mem_assigned once ranges).mp again
  exact owner_unique joined range range'

/-- Each partition of a log that somebody subscribes to is given to exactly one member. -/
theorem assigned_once (once : (g.members.map (·.1)).Nodup)
    (ranges : g.assignment = assignRanges g.members sizeOf) (there : member ∈ g.members)
    (wants : p.log ∈ member.2) (known : sizeOf p.log = some size) (within : p.index < size) :
    ∃ owner ∈ g.members, p ∈ g.assigned owner.1 ∧
      ∀ number, p ∈ g.assigned number → number = owner.1 := by
  obtain ⟨owner, joined, range⟩ := exists_owner once there wants known within
  have given : p ∈ g.assigned owner.1 := (mem_assigned once ranges).mpr ⟨owner, joined, rfl, range⟩
  exact ⟨owner, joined, given, fun _ also => assigned_apart once ranges also given⟩

/-- A member subscribes to the logs whose partitions it has, and these exist. -/
theorem assigned_exists (once : (g.members.map (·.1)).Nodup)
    (ranges : g.assignment = assignRanges g.members sizeOf) {number : Nat}
    (given : p ∈ g.assigned number) : ∃ names, (number, names) ∈ g.members ∧ p.log ∈ names ∧
      ∃ size, sizeOf p.log = some size ∧ p.index < size := by
  obtain ⟨member, joined, rfl, range⟩ := (mem_assigned once ranges).mp given
  exact ⟨member.2, joined, (mem_partitionsOf.mp range).1, partitionsOf_exist joined range⟩

end Logbook.Group
