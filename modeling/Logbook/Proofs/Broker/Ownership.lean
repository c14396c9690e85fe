import Mathlib.Data.List.Nodup
import Logbook.Proofs.Lookup
import Logbook.Broker.Tailers

/-! The owners on record are the true ones: a key belongs to an active number exactly when a creation
in progress asked for it or an open tailer was handed out with it. -/
namespace Logbook.Ownership
open Broker

/-- Who holds keys: creations in progress, and tailers that were handed out until they are
closed. -/
structure Holders where
  tickets : List Ticket
  explicit : List TailerRef
  isClosed : TailerRef → Bool
  keysOf : TailerRef → List GroupPartition

def Holders.Has (h : Holders) (key : GroupPartition) : Prop :=
  (∃ k ∈ h.tickets, key ∈ k.keys) ∨
    ∃ r ∈ h.explicit, h.isClosed r = false ∧ key ∈ h.keysOf r

def Used (o : Ownership) (id : Nat) : Prop :=
  id ∈ o.reserved ∨ (∃ e ∈ o.live, e.1 = id) ∨ ∃ e ∈ o.owners, e.2 = id

/-- What an ownership keeps is what its holders have. -/
structure Agrees (o : Ownership) (next : Nat) (h : Holders) : Prop where
  once : (o.owners.map (·.1)).Nodup
  numbered : (o.live.map (·.1)).Nodup
  numbers : (h.tickets.map Ticket.number).Nodup
  reserved : ∀ id, id ∈ o.reserved ↔ ∃ k ∈ h.tickets, k.number = id
  apart : ∀ e ∈ o.live, e.1 ∉ o.reserved
  drawn : ∀ id, o.Used id → id < next
  creating : ∀ k ∈ h.tickets, ∀ key, o.owners.lookup key = some k.number ↔ key ∈ k.keys
  handedOut : ∀ r ∈ h.explicit, h.isClosed r = false →
    ∃ id, (id, r) ∈ o.live ∧ ∀ key ∈ h.keysOf r, o.owners.lookup key = some id
  owned : ∀ e ∈ o.live, h.isClosed e.2 = false → ∀ key, o.owners.lookup key = some e.1 →
    e.2 ∈ h.explicit ∧ key ∈ h.keysOf e.2

variable {o : Ownership} {next : Nat} {h : Holders} {key : GroupPartition}

theorem Used.live {e : Nat × TailerRef} (live : e ∈ o.live) : o.Used e.1 := .inr (.inl ⟨e, live, rfl⟩)

theorem Used.owner {id : Nat} (owner : o.owners.lookup key = some id) : o.Used id :=
  .inr (.inr ⟨_, mem_of_lookup owner, rfl⟩)

theorem Agrees.unused (agrees : Agrees o next h) : ¬o.Used next := fun used =>
  Nat.lt_irrefl _ (agrees.drawn _ used)

theorem isActive_iff {isClosed : TailerRef → Bool} {id : Nat} : o.isActive isClosed id = true ↔
    id ∈ o.reserved ∨ ∃ r, (id, r) ∈ o.live ∧ isClosed r = false := by
  simp only [isActive, Bool.or_eq_true, List.contains_iff_mem, List.any_eq_true, Bool.and_eq_true,
    decide_eq_true_eq, Bool.not_eq_true']
  refine or_congr Iff.rfl ⟨?_, ?_⟩
  · rintro ⟨⟨number, r⟩, member, rfl, opened⟩
    exact ⟨r, member, opened⟩
  · rintro ⟨r, member, opened⟩
    exact ⟨_, member, rfl, opened⟩

/-- A key is taken exactly when someone has it. -/
theorem Agrees.active (agrees : Agrees o next h) (key : GroupPartition) :
    (o.owners.lookup key).any (o.isActive h.isClosed) = true ↔ h.Has key := by
  simp only [Option.any_eq_true, isActive_iff]
  constructor
  · rintro ⟨id, owner, creating | ⟨r, live, opened⟩⟩
    · obtain ⟨k, member, rfl⟩ := (agrees.reserved id).mp creating
      exact .inl ⟨k, member, (agrees.creating k member key).mp owner⟩
    · obtain ⟨member, holds⟩ := agrees.owned _ live opened key owner
      exact .inr ⟨r, member, opened, holds⟩
  · rintro (⟨k, member, asked⟩ | ⟨r, member, opened, holds⟩)
    · exact ⟨k.number, (agrees.creating k member key).mpr asked,
        .inl ((agrees.reserved _).mpr ⟨k, member, rfl⟩)⟩
    · obtain ⟨id, live, owner⟩ := agrees.handedOut r member opened
      exact ⟨id, owner key holds, .inr ⟨r, live, opened⟩⟩

/-- No key has two holders among the tailers. -/
theorem Agrees.disjoint (agrees : Agrees o next h) {r q : TailerRef} (handed : r ∈ h.explicit)
    (other : q ∈ h.explicit) (apart : r ≠ q) (opened : h.isClosed r = false)
    (also : h.isClosed q = false) : ∀ key ∈ h.keysOf r, key ∉ h.keysOf q := by
  intro key mine yours
  obtain ⟨id, live, owner⟩ := agrees.handedOut r handed opened
  obtain ⟨id', live', owner'⟩ := agrees.handedOut q other also
  cases Option.some.inj ((owner key mine).symm.trans (owner' key yours))
  exact apart (Prod.mk.inj (List.inj_on_of_nodup_map agrees.numbered live live' rfl)).2

theorem Agrees.skip (agrees : Agrees o next h) (more : next ≤ next') : Agrees o next' h :=
  { agrees with drawn := fun id used => Nat.lt_of_lt_of_le (agrees.drawn id used) more }

theorem Agrees.later (agrees : Agrees o next h) {isClosed : TailerRef → Bool}
    {keysOf : TailerRef → List GroupPartition}
    (closed : ∀ r, (r ∈ h.explicit ∨ ∃ id, (id, r) ∈ o.live) → isClosed r = false →
      h.isClosed r = false)
    (keys : ∀ r ∈ h.explicit, keysOf r = h.keysOf r) :
    Agrees o next { h with isClosed, keysOf } where
  once := agrees.once
  numbered := agrees.numbered
  numbers := agrees.numbers
  reserved := agrees.reserved
  apart := agrees.apart
  drawn := agrees.drawn
  creating := agrees.creating
  handedOut r handed opened := by
    obtain ⟨id, live, owner⟩ := agrees.handedOut r handed (closed r (.inl handed) opened)
    exact ⟨id, live, fun key holds => owner key (keys r handed ▸ holds)⟩
  owned e live opened key owner := by
    have before := closed e.2 (.inr ⟨e.1, live⟩) opened
    obtain ⟨handed, holds⟩ := agrees.owned e live before key owner
    refine ⟨handed, ?_⟩
    simp only [keys e.2 handed]
    exact holds

/-! What the operations keep. -/

theorem lookup_prune (once : (o.owners.map (·.1)).Nodup) (isClosed : TailerRef → Bool) {id : Nat} :
    (o.prune isClosed).owners.lookup key = some id ↔ o.owners.lookup key = some id ∧
      (id ∈ o.reserved ∨ ∃ r, (id, r) ∈ o.live ∧ isClosed r = false) := by
  simp only [prune, lookup_filter once]
  refine and_congr Iff.rfl ?_
  simp only [Bool.or_eq_true, List.contains_iff_mem, List.any_eq_true, List.mem_filter,
    Bool.not_eq_true', decide_eq_true_eq]
  refine or_congr Iff.rfl ⟨?_, ?_⟩
  · rintro ⟨⟨number, r⟩, ⟨member, opened⟩, rfl⟩
    exact ⟨r, member, opened⟩
  · rintro ⟨r, member, opened⟩
    exact ⟨_, ⟨member, opened⟩, rfl⟩

theorem mem_prune {isClosed : TailerRef → Bool} {e : Nat × TailerRef} :
    e ∈ (o.prune isClosed).live ↔ e ∈ o.live ∧ isClosed e.2 = false := by
  simp [prune]

theorem used_prune {isClosed : TailerRef → Bool} {id : Nat} (used : (o.prune isClosed).Used id) :
    o.Used id := by
  rcases used with creating | ⟨e, live, same⟩ | ⟨e, owner, same⟩
  · exact .inl creating
  · exact .inr (.inl ⟨e, (mem_prune.mp live).1, same⟩)
  · exact .inr (.inr ⟨e, List.mem_of_mem_filter owner, same⟩)

theorem Agrees.prune (agrees : Agrees o next h) : Agrees (o.prune h.isClosed) next h where
  once := agrees.once.sublist (List.filter_sublist.map _)
  numbered := agrees.numbered.sublist (List.filter_sublist.map _)
  numbers := agrees.numbers
  reserved := agrees.reserved
  apart e live := agrees.apart e (mem_prune.mp live).1
  drawn id used := agrees.drawn id (used_prune used)
  creating k member key := by
    rw [lookup_prune agrees.once, ← agrees.creating k member key]
    exact and_iff_left (.inl ((agrees.reserved _).mpr ⟨k, member, rfl⟩))
  handedOut r handed opened := by
    obtain ⟨id, live, owner⟩ := agrees.handedOut r handed opened
    exact ⟨id, mem_prune.mpr ⟨live, opened⟩, fun key holds =>
      (lookup_prune agrees.once _).mpr ⟨owner key holds, .inr ⟨r, live, opened⟩⟩⟩
  owned e live opened key owner :=
    agrees.owned e (mem_prune.mp live).1 opened key ((lookup_prune agrees.once _).mp owner).1

theorem lookup_reserve (o : Ownership) (id : Nat) (keys : List GroupPartition)
    (key : GroupPartition) : (o.reserve id keys).owners.lookup key =
      if key ∈ keys then some id else o.owners.lookup key := by
  simp only [reserve, List.lookup_append, lookup_filter_key o.owners fun k => !keys.contains k]
  have mine : (keys.map (·, id)).lookup key = if key ∈ keys then some id else none := by
    induction keys with
    | nil => rfl
    | cons k rest ih =>
      by_cases same : key = k
      · simp [same]
      · simp [List.lookup_cons, beq_false_of_ne same, ih, same]
  rw [mine]
  by_cases asked : key ∈ keys <;> simp [asked]

theorem used_reserve {id new : Nat} {keys : List GroupPartition}
    (used : (o.reserve new keys).Used id) : id = new ∨ o.Used id := by
  rcases used with creating | live | ⟨e, owner, rfl⟩
  · rcases List.mem_cons.mp creating with rfl | old
    · exact .inl rfl
    · exact .inr (.inl old)
  · exact .inr (.inr (.inl live))
  · rcases List.mem_append.mp owner with mine | theirs
    · obtain ⟨key, _, rfl⟩ := List.mem_map.mp mine
      exact .inl rfl
    · exact .inr (.inr (.inr ⟨e, List.mem_of_mem_filter theirs, rfl⟩))

theorem once_reserve {keys : List GroupPartition} (once : (o.owners.map (·.1)).Nodup)
    (each : keys.Nodup) (id : Nat) : ((o.reserve id keys).owners.map (·.1)).Nodup := by
  simp only [reserve, List.map_append, List.map_map]
  refine List.nodup_append.mpr ⟨?_, once.sublist (List.filter_sublist.map _), ?_⟩
  · simpa [Function.comp_def] using each
  · rintro key mine other theirs rfl
    obtain ⟨e, kept, rfl⟩ := List.mem_map.mp theirs
    have asked : e.1 ∈ keys := by simpa using mine
    have absent := (List.mem_filter.mp kept).2
    simp [asked] at absent

/-- A reservation takes the keys of other numbers away from them. -/
theorem lookup_reserve_other {id new : Nat} (used : id ≠ new) (keys : List GroupPartition)
    (key : GroupPartition) : (o.reserve new keys).owners.lookup key = some id ↔
      key ∉ keys ∧ o.owners.lookup key = some id := by
  rw [lookup_reserve]
  by_cases asked : key ∈ keys
  · simp [asked, Ne.symm used]
  · simp [asked]

/-- A reservation takes keys that nobody has. -/
theorem Agrees.reserve (agrees : Agrees o next h) {k : Ticket} (number : k.number = next)
    (each : k.keys.Nodup) (free : ∀ key ∈ k.keys, ¬h.Has key) :
    Agrees (o.reserve k.number k.keys) (next + 1) { h with tickets := h.tickets ++ [k] } := by
  have fresh {id : Nat} (used : o.Used id) : id ≠ k.number := by
    rintro rfl
    exact agrees.unused (number ▸ used)
  have creates {j : Ticket} (member : j ∈ h.tickets) : o.Used j.number :=
    .inl ((agrees.reserved _).mpr ⟨j, member, rfl⟩)
  exact {
    once := once_reserve agrees.once each _
    numbered := agrees.numbered
    numbers := by
      simp only [List.map_append, List.map_singleton]
      refine List.nodup_append.mpr ⟨agrees.numbers, List.nodup_singleton _, ?_⟩
      rintro id used other new rfl
      obtain ⟨j, member, rfl⟩ := List.mem_map.mp used
      exact fresh (creates member) (List.mem_singleton.mp new)
    reserved := fun id => by
      simp only [Ownership.reserve, List.mem_cons, agrees.reserved id, List.mem_append,
        List.mem_nil_iff, or_false]
      constructor
      · rintro (rfl | ⟨j, member, same⟩)
        · exact ⟨k, .inr rfl, rfl⟩
        · exact ⟨j, .inl member, same⟩
      · rintro ⟨j, member | rfl, same⟩
        · exact .inr ⟨j, member, same⟩
        · exact .inl same.symm
    apart := fun e live => by
      simp only [Ownership.reserve, List.mem_cons, not_or]
      exact ⟨fresh (.live live), agrees.apart e live⟩
    drawn := fun id used => by
      rcases used_reserve used with rfl | old
      · exact number ▸ Nat.lt_succ_self _
      · exact Nat.lt_succ_of_lt (agrees.drawn id old)
    creating := fun j member key => by
      rcases List.mem_append.mp member with old | new
      · rw [lookup_reserve_other (fresh (creates old)), agrees.creating j old key]
        exact and_iff_right_of_imp fun asked mine => free key mine (.inl ⟨j, old, asked⟩)
      · cases List.mem_singleton.mp new
        rw [lookup_reserve]
        by_cases asked : key ∈ k.keys
        · simp [asked]
        · simp only [iff_false, asked]
          exact fun owner => fresh (.owner owner) rfl
    handedOut := fun r handed opened => by
      obtain ⟨id, live, owner⟩ := agrees.handedOut r handed opened
      refine ⟨id, live, fun key holds => ?_⟩
      rw [lookup_reserve_other (fresh (.live live))]
      exact ⟨fun asked => free key asked (.inr ⟨r, handed, opened, holds⟩), owner key holds⟩
    owned := fun e live opened key owner => by
      -- a closed tailer may lose a key to the reservation, an open one does not have it
      rw [lookup_reserve_other (fresh (.live live))] at owner
      exact agrees.owned e live opened key owner.2 }

variable {k : Ticket} {before after : List Ticket} {explicit : List TailerRef}
  {isClosed : TailerRef → Bool} {keysOf : TailerRef → List GroupPartition}

theorem Agrees.others (agrees : Agrees o next ⟨before ++ k :: after, explicit, isClosed, keysOf⟩) :
    ((before ++ after).map Ticket.number).Nodup ∧
      (∀ j ∈ before ++ after, j ∈ before ++ k :: after ∧ j.number ≠ k.number) ∧
      ∀ id, id ∈ o.reserved.filter (· ≠ k.number) ↔ ∃ j ∈ before ++ after, j.number = id := by
  have numbers : ((before ++ k :: after).map Ticket.number).Nodup := agrees.numbers
  rw [List.map_append, List.map_cons, List.nodup_middle, List.nodup_cons,
    ← List.map_append] at numbers
  have apart (j : Ticket) (member : j ∈ before ++ after) : j.number ≠ k.number :=
    fun same => numbers.1 (same ▸ List.mem_map_of_mem member)
  have whole (j : Ticket) : j ∈ before ++ k :: after ↔ j = k ∨ j ∈ before ++ after := by
    simp only [List.mem_append, List.mem_cons]
    tauto
  refine ⟨numbers.2, fun j member => ⟨(whole j).mpr (.inr member), apart j member⟩, fun id => ?_⟩
  simp only [List.mem_filter, decide_eq_true_eq, agrees.reserved id]
  constructor
  · rintro ⟨⟨j, member, rfl⟩, other⟩
    rcases (whole j).mp member with rfl | stays
    · exact absurd rfl other
    · exact ⟨j, stays, rfl⟩
  · rintro ⟨j, member, rfl⟩
    exact ⟨⟨j, (whole j).mpr (.inr member), rfl⟩, apart j member⟩

theorem used_release {id gone : Nat} {keys : List GroupPartition}
    (used : (o.release gone keys).Used id) : o.Used id := by
  rcases used with creating | live | ⟨e, owner, same⟩
  · exact .inl (List.mem_of_mem_filter creating)
  · exact .inr (.inl live)
  · exact .inr (.inr ⟨e, List.mem_of_mem_filter owner, same⟩)

/-- A creation that fails gives its keys back. -/
theorem Agrees.release (agrees : Agrees o next ⟨before ++ k :: after, explicit, isClosed, keysOf⟩) :
    Agrees (o.release k.number k.keys) next ⟨before ++ after, explicit, isClosed, keysOf⟩ := by
  obtain ⟨numbers, others, reserved⟩ := agrees.others
  have mine : k ∈ before ++ k :: after := by simp
  have owner {id : Nat} {key : GroupPartition} :
      (o.release k.number k.keys).owners.lookup key = some id ↔
        o.owners.lookup key = some id ∧ id ≠ k.number := by
    simp only [Ownership.release, lookup_filter agrees.once]
    refine and_congr_right fun found => ?_
    by_cases same : id = k.number
    · subst same
      simp [(agrees.creating k mine key).mp found]
    · simp [same]
  have creates : k.number ∈ o.reserved := (agrees.reserved _).mpr ⟨k, mine, rfl⟩
  exact {
    once := agrees.once.sublist (List.filter_sublist.map _)
    numbered := agrees.numbered
    numbers
    reserved
    apart := fun e live creating => agrees.apart e live (List.mem_of_mem_filter creating)
    drawn := fun id used => agrees.drawn id (used_release used)
    creating := fun j member key => by
      rw [owner, and_iff_left (others j member).2]
      exact agrees.creating j (others j member).1 key
    handedOut := fun r handed opened => by
      obtain ⟨id, live, owns⟩ := agrees.handedOut r handed opened
      refine ⟨id, live, fun key holds => owner.mpr ⟨owns key holds, ?_⟩⟩
      rintro rfl
      exact agrees.apart _ live creates
    owned := fun e live opened key found => agrees.owned e live opened key (owner.mp found).1 }

theorem used_track {id new : Nat} {r : TailerRef} (used : (o.track new r).Used id) :
    id = new ∨ o.Used id := by
  rcases used with creating | ⟨e, live, same⟩ | owner
  · exact .inr (.inl creating)
  · rcases List.mem_cons.mp live with rfl | old
    · exact .inl same.symm
    · exact .inr (.inr (.inl ⟨e, old, same⟩))
  · exact .inr (.inr (.inr owner))

theorem used_activate {id new : Nat} {r : TailerRef} (creates : new ∈ o.reserved)
    (used : (o.activate new r).Used id) : o.Used id := by
  have tracked : (o.track new r).Used id :=
    used.imp List.mem_of_mem_filter fun rest => rest
  rcases used_track tracked with rfl | old
  · exact .inl creates
  · exact old

/-- A creation that succeeds leaves its keys to the tailer. -/
theorem Agrees.activate (agrees : Agrees o next ⟨before ++ k :: after, explicit, isClosed, keysOf⟩)
    {r : TailerRef} (keys : keysOf r = k.keys) :
    Agrees (o.activate k.number r) next
      ⟨before ++ after, explicit ++ [r], isClosed, keysOf⟩ := by
  obtain ⟨numbers, others, reserved⟩ := agrees.others
  have mine : k ∈ before ++ k :: after := by simp
  have creates : k.number ∈ o.reserved := (agrees.reserved _).mpr ⟨k, mine, rfl⟩
  exact {
    once := agrees.once
    numbered := by
      refine List.nodup_cons.mpr ⟨fun used => ?_, agrees.numbered⟩
      obtain ⟨e, live, same⟩ := List.mem_map.mp used
      exact agrees.apart e live (same ▸ creates)
    numbers
    reserved
    apart := fun e live creating => by
      rcases List.mem_cons.mp live with rfl | old
      · simp [Ownership.activate] at creating
      · exact agrees.apart e old (List.mem_of_mem_filter creating)
    drawn := fun id used => agrees.drawn id (used_activate creates used)
    creating := fun j member key => agrees.creating j (others j member).1 key
    handedOut := fun q handed opened => by
      rcases List.mem_append.mp handed with old | new
      · obtain ⟨id, live, owns⟩ := agrees.handedOut q old opened
        exact ⟨id, List.mem_cons_of_mem _ live, owns⟩
      · cases List.mem_singleton.mp new
        exact ⟨k.number, List.mem_cons_self, fun key holds =>
          (agrees.creating k mine key).mpr (keys ▸ holds)⟩
    owned := fun e live opened key owner => by
      rcases List.mem_cons.mp live with rfl | old
      · refine ⟨List.mem_append_right _ (List.mem_singleton_self r), ?_⟩
        simp only [keys]
        exact (agrees.creating k mine key).mp owner
      · obtain ⟨handed, holds⟩ := agrees.owned e old opened key owner
        exact ⟨List.mem_append_left _ handed, holds⟩ }

/-- A tailer without keys gets a new number. -/
theorem Agrees.track (agrees : Agrees o next h) (r : TailerRef) :
    Agrees (o.track next r) (next + 1) h where
  once := agrees.once
  numbered := by
    refine List.nodup_cons.mpr ⟨fun used => ?_, agrees.numbered⟩
    obtain ⟨e, live, rfl⟩ := List.mem_map.mp used
    exact agrees.unused (.live live)
  numbers := agrees.numbers
  reserved := agrees.reserved
  apart e live creating := by
    rcases List.mem_cons.mp live with rfl | old
    · exact agrees.unused (.inl creating)
    · exact agrees.apart e old creating
  drawn id used := by
    rcases used_track used with rfl | old
    · exact Nat.lt_succ_self _
    · exact Nat.lt_succ_of_lt (agrees.drawn id old)
  creating := agrees.creating
  handedOut q handed opened := by
    obtain ⟨id, live, owns⟩ := agrees.handedOut q handed opened
    exact ⟨id, List.mem_cons_of_mem _ live, owns⟩
  owned e live opened key owner := by
    rcases List.mem_cons.mp live with rfl | old
    · exact absurd (.owner owner) agrees.unused
    · exact agrees.owned e old opened key owner

end Logbook.Ownership
