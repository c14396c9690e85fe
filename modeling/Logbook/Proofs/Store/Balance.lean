import Mathlib.Data.List.Sort
import Logbook.Proofs.Store.Ranges

/-! Range assignment. Every log is cut into consecutive ranges, one for each of its subscribers and of
almost one size, by a loop over the logs and one over the subscribers, in which no sum is too large for
32 bits. -/
namespace Logbook.Group

abbrev Entries := List (Nat × List Partition)

/-! ### Handing out in loops -/

/-- A sum, unless it is no 32-bit word. -/
def sum? (a b : Nat) : Option Nat := if a + b < 0x100000000 then some (a + b) else none

def divide? (a b : Nat) : Option (Nat × Nat) := if b = 0 then none else some (a / b, a % b)

/-- Adds partitions to those of a member, who may be new. -/
def give (entries : Entries) (member : Nat) (ps : List Partition) : Entries :=
  if entries.any (·.1 = member) then
    entries.map fun e => if e.1 = member then (e.1, e.2 ++ ps) else e
  else entries ++ [(member, ps)]

/-- Each member takes the next places of a log, from `start` on, and the first `extra` members take one
more than the others. The counter is ahead of the members by one. -/
def deal? (log : String) (least extra : Nat) :
    (index start : Nat) → List Nat → Entries → Option Entries
  | index, _, [], entries => (sum? index 1).map fun _ => entries
  | index, start, member :: others, entries => do
    let next ← sum? index 1
    let length ← sum? least (if index < extra then 1 else 0)
    let stop ← sum? start length
    deal? log least extra next stop others
      (give entries member ((List.range' start length).map (⟨log, ·⟩)))

/-- Hands out one log, if it exists. The number of its subscribers is taken as a 32-bit word. -/
def dealLog? (members : List (Nat × List String)) (sizeOf : String → Option Nat) (entries : Entries)
    (log : String) : Option Entries :=
  match sizeOf log with
  | none => some entries
  | some size => do
    let consumers := subscribers members log
    let (least, extra) ← divide? size (consumers.length % 0x100000000)
    deal? log least extra 0 0 consumers entries

/-- Hands out all logs that somebody subscribes to, in the order of their names. -/
def dealAll? (members : List (Nat × List String)) (sizeOf : String → Option Nat) : Option Entries :=
  (distinctNames (members.flatMap (·.2))).foldlM (dealLog? members sizeOf)
    (members.map fun m => (m.1, []))

variable {members : List (Nat × List String)} {member : Nat × List String}
  {sizeOf : String → Option Nat} {entries : Entries} {log : String} {size count place : Nat}

theorem shareSize_le (some : 0 < count) (size place : Nat) : shareSize size count place ≤ size := by
  have whole := Nat.div_add_mod size count
  have least : size / count ≤ count * (size / count) := Nat.le_mul_of_pos_left _ some
  rw [shareSize]
  split <;> omega

theorem shareStart_le (below : place ≤ count) (some : 0 < count) :
    shareStart size count place ≤ size := by
  have mono := shareStart_mono size count below
  rwa [shareStart_count size some] at mono

theorem sum?_eq {a b : Nat} (fits : a + b < 0x100000000) : sum? a b = some (a + b) := if_pos fits

theorem give_eq {number : Nat} {ps : List Partition} (there : number ∈ entries.map (·.1)) :
    give entries number ps = entries.map fun e => if e.1 = number then (e.1, e.2 ++ ps) else e := by
  obtain ⟨e, entered, same⟩ := List.mem_map.mp there
  exact if_pos (List.any_eq_true.mpr ⟨e, entered, by simpa using same⟩)

theorem keys_give {number : Nat} {ps : List Partition} (there : number ∈ entries.map (·.1)) :
    (give entries number ps).map (·.1) = entries.map (·.1) := by
  rw [give_eq there, List.map_map]
  apply List.map_congr_left
  intro e _
  by_cases same : e.1 = number <;> simp [same]

/-- What the loop over the subscribers of a log does, once some of them have their shares. -/
theorem deal?_eq {numbers : List Nat} (fits : size < 0x100000000) (few : count < 0x80000000)
    (once : numbers.Nodup) (known : ∀ n ∈ numbers, n ∈ entries.map (·.1))
    (left : place + numbers.length = count) (some : 0 < count) :
    deal? log (size / count) (size % count) place (shareStart size count place) numbers entries =
      .some (entries.map fun e => if e.1 ∈ numbers then
        (e.1, e.2 ++ share log size count (place + numbers.idxOf e.1)) else e) := by
  induction numbers generalizing place entries with
  | nil =>
    rw [List.length_nil] at left
    rw [deal?, sum?_eq (by omega)]
    simp
  | cons number numbers ih =>
    rw [List.length_cons] at left
    rw [List.nodup_cons] at once
    have there : number ∈ entries.map (·.1) := known number List.mem_cons_self
    have more : sum? (size / count) (if place < size % count then 1 else 0) =
        .some (shareSize size count place) := by
      have small := shareSize_le some size place
      rw [shareSize] at small ⊢
      exact sum?_eq (by omega)
    have next : sum? (shareStart size count place) (shareSize size count place) =
        .some (shareStart size count (place + 1)) := by
      have small : shareStart size count (place + 1) ≤ size := shareStart_le (by omega) some
      rw [← shareStart_succ] at small ⊢
      exact sum?_eq (by omega)
    rw [deal?]
    simp only [sum?_eq (a := place) (b := 1) (by omega), more, next, bind, Option.bind_some]
    rw [ih once.2 (fun n member => by rw [keys_give there]; exact known n (.tail _ member)) (by omega),
      give_eq there, List.map_map]
    congr 1
    apply List.map_congr_left
    intro e _
    by_cases here : e.1 = number
    · -- the first one has its share, and no other entry is his
      simp [here, once.1, share]
    · have later : place + 1 + numbers.idxOf e.1 = place + (numbers.idxOf e.1 + 1) := by omega
      have other : ¬number = e.1 := fun same => here same.symm
      by_cases among : e.1 ∈ numbers <;>
        simp [here, among, List.idxOf_cons, beq_false_of_ne other, later]

def rangeOf (members : List (Nat × List String)) (sizeOf : String → Option Nat)
    (member : Nat × List String) (log : String) : List Partition :=
  match sizeOf log with
  | none => []
  | some size => share log size (subscribers members log).length
      ((subscribers members log).idxOf member.1)

theorem mem_subscribers_iff (once : (members.map (·.1)).Nodup) (there : member ∈ members) :
    member.1 ∈ subscribers members log ↔ log ∈ member.2 := by
  constructor
  · intro counted
    obtain ⟨other, chosen, same⟩ := List.mem_map.mp counted
    obtain ⟨joined, wants⟩ := List.mem_filter.mp chosen
    obtain rfl : other = member := List.inj_on_of_nodup_map once joined there same
    exact List.contains_iff_mem.mp wants
  · exact mem_subscribers there

theorem dealLog?_eq (once : (members.map (·.1)).Nodup) (few : members.length < 0x80000000)
    (words : ∀ log size, sizeOf log = some size → size < 0x100000000)
    (wanted : ∃ member ∈ members, log ∈ member.2) (given : Nat × List String → List Partition) :
    dealLog? members sizeOf (members.map fun m => (m.1, given m)) log =
      some (members.map fun m =>
        (m.1, given m ++ if log ∈ m.2 then rangeOf members sizeOf m log else [])) := by
  rw [dealLog?]
  cases known : sizeOf log with
  | none => simp [rangeOf, known]
  | some size =>
    obtain ⟨member, joined, wants⟩ := wanted
    have positive : 0 < (subscribers members log).length :=
      List.length_pos_of_mem (mem_subscribers joined wants)
    have counted : (subscribers members log).length < 0x80000000 := by
      have fewer := List.length_filter_le (fun m => m.2.contains log) members
      rw [subscribers, List.length_map]
      omega
    have word : (subscribers members log).length % 0x100000000 =
        (subscribers members log).length := Nat.mod_eq_of_lt (by omega)
    have keys : (members.map fun m => (m.1, given m)).map (·.1) = members.map (·.1) := by
      rw [List.map_map]
      rfl
    have start : (0 : Nat) = shareStart size (subscribers members log).length 0 := by
      simp [shareStart]
    have divided : divide? size (subscribers members log).length = some
        (size / (subscribers members log).length, size % (subscribers members log).length) :=
      if_neg (by omega)
    have among : ∀ n ∈ subscribers members log, n ∈ (members.map fun m => (m.1, given m)).map (·.1) := by
      rw [keys]
      intro n counted
      exact (List.filter_sublist.map _).subset counted
    simp only [word, divided, bind, Option.bind_some]
    nth_rewrite 2 [start]
    rw [deal?_eq (words log size known) counted (nodup_subscribers once log) among (Nat.zero_add _)
      positive, List.map_map]
    congr 1
    apply List.map_congr_left
    intro m joined
    by_cases wants : log ∈ m.2
    · simp only [Function.comp, (mem_subscribers_iff once joined).mpr wants, wants, if_true, rangeOf,
        known, Nat.zero_add]
    · simp only [Function.comp, mt (mem_subscribers_iff once joined).mp wants, wants, if_false,
        List.append_nil]

theorem dealLogs?_eq (once : (members.map (·.1)).Nodup) (few : members.length < 0x80000000)
    (words : ∀ log size, sizeOf log = some size → size < 0x100000000) {logs : List String}
    (wanted : ∀ log ∈ logs, ∃ member ∈ members, log ∈ member.2)
    (given : Nat × List String → List Partition) :
    logs.foldlM (dealLog? members sizeOf) (members.map fun m => (m.1, given m)) =
      some (members.map fun m =>
        (m.1, given m ++ (logs.filter (· ∈ m.2)).flatMap (rangeOf members sizeOf m))) := by
  induction logs generalizing given with
  | nil => simp
  | cons log logs ih =>
    rw [List.forall_mem_cons] at wanted
    rw [List.foldlM_cons, dealLog?_eq once few words wanted.1]
    simp only [bind, Option.bind_some]
    rw [ih wanted.2]
    congr 1
    apply List.map_congr_left
    intro m _
    by_cases wants : log ∈ m.2 <;> simp [wants]

/-- Names are in order, each once. -/
theorem distinctNames_increase (names : List String) : (distinctNames names).Pairwise (· < ·) := by
  have sorted : names.mergeSort.Pairwise (· ≤ ·) := List.pairwise_mergeSort' _ _
  have inOrder : (distinctNames names).Pairwise (· ≤ ·) := sorted.sublist (eraseDups_sublist _)
  have once : (distinctNames names).Pairwise (· ≠ ·) := nodup_eraseDups _
  exact inOrder.imp₂ (fun _ _ below apart => Std.lt_of_le_of_ne below apart) once

/-- The names that a member subscribes to, in order, out of those that anybody subscribes to. -/
theorem filter_distinctNames (joined : member ∈ members) :
    (distinctNames (members.flatMap (·.2))).filter (· ∈ member.2) = distinctNames member.2 := by
  apply ((distinctNames_increase _).filter _).eq_of_mem_iff (distinctNames_increase _)
  intro name
  simp only [List.mem_filter, mem_distinctNames, List.mem_flatMap, decide_eq_true_eq]
  exact ⟨fun both => both.2, fun wants => ⟨⟨member, joined, wants⟩, wants⟩⟩

/-- The loops give what the range assignment is, and no step of theirs fails. -/
theorem dealAll?_eq (once : (members.map (·.1)).Nodup) (few : members.length < 0x80000000)
    (words : ∀ log size, sizeOf log = some size → size < 0x100000000) :
    dealAll? members sizeOf = some (assignRanges members sizeOf) := by
  have wanted : ∀ log ∈ distinctNames (members.flatMap (·.2)), ∃ member ∈ members, log ∈ member.2 := by
    intro log among
    exact List.mem_flatMap.mp (mem_distinctNames.mp among)
  rw [dealAll?, dealLogs?_eq once few words wanted, assignRanges]
  congr 1
  apply List.map_congr_left
  intro m joined
  rw [List.nil_append, filter_distinctNames joined]
  rfl

/-! ### The ranges of one log -/

def portion (entries : Entries) (log : String) (number : Nat) : List Partition :=
  ((entries.lookup number).getD []).filter (·.log = log)

theorem log_of_mem_rangeOf {p : Partition} (range : p ∈ rangeOf members sizeOf member log) :
    p.log = log := by
  rw [rangeOf] at range
  split at range
  · cases range
  · exact (mem_share.mp range).1

/-- Of the ranges of several logs only one is of the log. -/
theorem filter_ranges {logs : List String} (once : logs.Nodup) :
    (logs.flatMap (rangeOf members sizeOf member)).filter (·.log = log) =
      if log ∈ logs then rangeOf members sizeOf member log else [] := by
  induction logs with
  | nil => rfl
  | cons first logs ih =>
    rw [List.nodup_cons] at once
    rw [List.flatMap_cons, List.filter_append, ih once.2]
    by_cases same : log = first
    · subst same
      have kept : (rangeOf members sizeOf member log).filter (·.log = log) =
          rangeOf members sizeOf member log :=
        List.filter_eq_self.mpr fun p range => by simpa using log_of_mem_rangeOf range
      rw [kept, if_neg once.1, if_pos List.mem_cons_self, List.append_nil]
    · have dropped : (rangeOf members sizeOf member first).filter (·.log = log) = [] :=
        List.filter_eq_nil_iff.mpr fun p range => by
          simpa [log_of_mem_rangeOf range] using Ne.symm same
      simp [dropped, same]

theorem keys_assignRanges : (assignRanges members sizeOf).map (·.1) = members.map (·.1) := by
  rw [assignRanges, List.map_map]
  rfl

theorem portion_eq (once : (members.map (·.1)).Nodup) (joined : member ∈ members) :
    portion (assignRanges members sizeOf) log member.1 =
      if log ∈ member.2 then rangeOf members sizeOf member log else [] := by
  have entry : (member.1, partitionsOf members sizeOf member) ∈ assignRanges members sizeOf :=
    List.mem_map_of_mem joined
  rw [portion, lookup_of_mem (keys_assignRanges ▸ once) entry]
  exact (filter_ranges (nodup_eraseDups _)).trans (if_congr mem_distinctNames rfl rfl)

theorem portion_share (once : (members.map (·.1)).Nodup) (known : sizeOf log = some size)
    {number : Nat} (counted : number ∈ subscribers members log) :
    portion (assignRanges members sizeOf) log number =
      share log size (subscribers members log).length ((subscribers members log).idxOf number) := by
  obtain ⟨member, chosen, rfl⟩ := List.mem_map.mp counted
  obtain ⟨joined, wants⟩ := List.mem_filter.mp chosen
  rw [portion_eq once joined, if_pos (List.contains_iff_mem.mp wants), rangeOf, known]

theorem length_share : (share log size count place).length = shareSize size count place := by
  simp [share]

/-- The shares of the first places, one after the other. -/
theorem flatMap_share (log : String) (size count places : Nat) :
    (List.range places).flatMap (share log size count) =
      Partition.allOf log (shareStart size count places) := by
  induction places with
  | zero => simp [shareStart, Partition.allOf]
  | succ places ih =>
    have next : List.range' 0 (shareStart size count places) ++
        List.range' (shareStart size count places) (shareSize size count places) =
        List.range' 0 (shareStart size count (places + 1)) := by
      rw [← shareStart_succ, ← List.range'_append_1, Nat.zero_add]
    rw [List.range_succ, List.flatMap_append, ih, List.flatMap_singleton, Partition.allOf, share,
      ← List.map_append, List.range_eq_range', next, Partition.allOf, List.range_eq_range']

theorem map_idxOf {numbers : List Nat} (once : numbers.Nodup) :
    numbers.map numbers.idxOf = List.range numbers.length := by
  apply List.ext_getElem
  · simp
  · intro i there _
    simp [once.idxOf_getElem]

/-- A share is an equal one, rounded down or up. -/
theorem shareSize_even (some : 0 < count) (place : Nat) :
    shareSize size count place = size / count ∨
      shareSize size count place = (size + count - 1) / count := by
  rw [shareSize]
  split
  case isFalse => exact .inl (Nat.add_zero _)
  case isTrue more =>
    right
    have whole := Nat.div_add_mod size count
    have rest := Nat.mod_lt size some
    symm
    rw [Nat.div_eq_iff some, Nat.add_mul, Nat.mul_comm (size / count)]
    omega

theorem shareSize_mono (before : i ≤ j) : shareSize size count j ≤ shareSize size count i := by
  simp only [shareSize]
  split <;> split <;> omega

/-- How a log is cut up: into ranges, one after the other in the order of the members' numbers, that
leave nothing out. They are of the size of an equal share, rounded down or up, the larger ones first. -/
structure Splits (log : String) (size : Nat) (numbers : List Nat) (given : Nat → List Partition) :
    Prop where
  increasing : numbers.Pairwise (· < ·)
  whole : numbers.flatMap given = Partition.allOf log size
  consecutive : ∀ n ∈ numbers, ∃ start,
    given n = (List.range' start (given n).length).map (⟨log, ·⟩)
  even : ∀ n ∈ numbers, (given n).length = size / numbers.length ∨
    (given n).length = (size + numbers.length - 1) / numbers.length
  largerFirst : numbers.Pairwise fun m n => (given n).length ≤ (given m).length

theorem splits (inOrder : (members.map (·.1)).Pairwise (· < ·)) (known : sizeOf log = some size)
    (wanted : ∃ member ∈ members, log ∈ member.2) :
    Splits log size (subscribers members log) (portion (assignRanges members sizeOf) log) := by
  obtain ⟨member, joined, wants⟩ := wanted
  have positive : 0 < (subscribers members log).length :=
    List.length_pos_of_mem (mem_subscribers joined wants)
  have once : (members.map (·.1)).Nodup := inOrder.imp fun below => Nat.ne_of_lt below
  have nodup := nodup_subscribers once log
  have shares {n : Nat} (counted : n ∈ subscribers members log) := portion_share once known counted
  constructor
  case increasing => exact inOrder.sublist (List.filter_sublist.map _)
  case whole =>
    calc
      (subscribers members log).flatMap (portion (assignRanges members sizeOf) log)
        = (subscribers members log).flatMap fun n =>
            share log size (subscribers members log).length ((subscribers members log).idxOf n) :=
          List.flatMap_congr fun n counted => shares counted
      _ = (List.range (subscribers members log).length).flatMap
            (share log size (subscribers members log).length) := by
          rw [← map_idxOf nodup, List.flatMap_map]
      _ = Partition.allOf log size := by rw [flatMap_share, shareStart_count size positive]
  case consecutive =>
    intro n counted
    rw [shares counted, length_share]
    exact ⟨_, rfl⟩
  case even =>
    intro n counted
    rw [shares counted, length_share]
    exact shareSize_even positive _
  case largerFirst =>
    rw [List.pairwise_iff_getElem]
    intro i j below within before
    rw [shares (List.getElem_mem _), shares (List.getElem_mem _), length_share, length_share,
      nodup.idxOf_getElem, nodup.idxOf_getElem]
    exact shareSize_mono (Nat.le_of_lt before)

theorem compare_log {p q : Partition} (earlier : p.log < q.log) : p.compare q = .lt := by
  have first : Ord.compare p.log q.log = .lt := compareOfLessAndEq_eq_lt.mpr earlier
  rw [Partition.compare, first]
  rfl

theorem compare_index {i j : Nat} (log : String) (below : i < j) :
    (⟨log, i⟩ : Partition).compare ⟨log, j⟩ = .lt := by
  have second : Ord.compare i j = .lt := Nat.compare_eq_lt.mpr below
  rw [Partition.compare, Std.ReflOrd.compare_self, second]
  rfl

/-- The partitions of a member are in order, each once. -/
theorem partitionsOf_increase (member : Nat × List String) :
    (partitionsOf members sizeOf member).Pairwise fun p q => p.compare q = .lt := by
  have ranges : partitionsOf members sizeOf member =
      (distinctNames member.2).flatMap (rangeOf members sizeOf member) := rfl
  rw [ranges, List.pairwise_flatMap]
  constructor
  · intro log _
    rw [rangeOf]
    split
    · exact List.Pairwise.nil
    · rw [share, List.pairwise_map]
      exact (List.pairwise_lt_range' 1).imp (compare_index log)
  · refine (distinctNames_increase member.2).imp ?_
    intro log other earlier p range q range'
    rw [← log_of_mem_rangeOf range, ← log_of_mem_rangeOf range'] at earlier
    exact compare_log earlier

/-- What the range assignment gives to members: each has an entry, in which its partitions are in order,
each once; every log that exists is cut up for those who subscribe to it, and no others have any of it;
and it is what is computed with 32-bit words. -/
structure Balanced (members : List (Nat × List String)) (sizeOf : String → Option Nat) : Prop where
  entries : (assignRanges members sizeOf).map (·.1) = members.map (·.1)
  increasing : ∀ e ∈ assignRanges members sizeOf, e.2.Pairwise fun p q => p.compare q = .lt
  splits : ∀ log size, sizeOf log = some size → (∃ member ∈ members, log ∈ member.2) →
    Splits log size (subscribers members log) (portion (assignRanges members sizeOf) log)
  others : ∀ member ∈ members, ∀ log, log ∉ member.2 ∨ sizeOf log = none →
    portion (assignRanges members sizeOf) log member.1 = []
  computed : dealAll? members sizeOf = some (assignRanges members sizeOf)

/-- Members are told apart by their numbers and listed in their order. -/
theorem ranges_balanced (inOrder : (members.map (·.1)).Pairwise (· < ·))
    (few : members.length < 0x80000000)
    (words : ∀ log size, sizeOf log = some size → size < 0x100000000) : Balanced members sizeOf := by
  have once : (members.map (·.1)).Nodup := inOrder.imp fun below => Nat.ne_of_lt below
  constructor
  case entries => exact keys_assignRanges
  case increasing =>
    intro e entered
    obtain ⟨member, -, rfl⟩ := List.mem_map.mp entered
    exact partitionsOf_increase member
  case splits => exact fun log size known wanted => Group.splits inOrder known wanted
  case others =>
    intro member joined log absent
    rw [portion_eq once joined]
    rcases absent with foreign | missing
    · exact if_neg foreign
    · simp [rangeOf, missing]
  case computed => exact dealAll?_eq once few words

def threeMembers : List (Nat × List String) :=
  [(1, ["events", "audit"]), (2, ["events", "events"]), (5, ["missing", "audit"])]

def twoSizes (log : String) : Option Nat :=
  if log = "events" then some 5 else if log = "audit" then some 1 else none

theorem threeMembers_balanced :
    (threeMembers.map (·.1)).Pairwise (· < ·) ∧ threeMembers.length < 0x80000000 ∧
    (∀ log size, twoSizes log = some size → size < 0x100000000) ∧
    portion (assignRanges threeMembers twoSizes) "events" 1 =
      [⟨"events", 0⟩, ⟨"events", 1⟩, ⟨"events", 2⟩] ∧
    portion (assignRanges threeMembers twoSizes) "events" 2 = [⟨"events", 3⟩, ⟨"events", 4⟩] ∧
    Balanced threeMembers twoSizes := by
  have inOrder : (threeMembers.map (·.1)).Pairwise (· < ·) := by decide
  have few : threeMembers.length < 0x80000000 := by decide
  have words : ∀ log size, twoSizes log = some size → size < 0x100000000 := by
    intro log size known
    rw [twoSizes] at known
    split at known
    · cases known
      decide
    · split at known
      · cases known
        decide
      · cases known
  have once : (threeMembers.map (·.1)).Nodup := by decide
  have known : twoSizes "events" = some 5 := rfl
  exact ⟨inOrder, few, words, portion_share once known (by decide), portion_share once known (by decide),
    ranges_balanced inOrder few words⟩

end Logbook.Group
