import Logbook.Proofs.Store.Frames

/-! The round that a look makes: it goes over all partitions once, beginning after the one that
delivered last, and ends at the first partition in which there is a record, or which cannot be
read. -/
namespace Logbook

namespace Tailer

/-- The partition that a look comes to after so many others. -/
def ahead? (t : Tailer) (k : Nat) : Option Partition :=
  t.assignments[(t.next + k) % t.assignments.length]?

variable {t : Tailer} {p : Partition} {k : Nat}

/-- A look goes over every assigned partition. -/
theorem mem_lookOrder {i : Nat} : i ∈ t.lookOrder ↔ i < t.assignments.length := by
  simp only [lookOrder, List.mem_map, List.mem_range]
  constructor
  · rintro ⟨k, below, rfl⟩
    exact Nat.mod_lt _ (Nat.zero_lt_of_lt below)
  · intro below
    have positive := Nat.zero_lt_of_lt below
    -- the place is reached after as many steps as it lies behind the first one, going round
    refine ⟨(i + (t.assignments.length - t.next % t.assignments.length)) % t.assignments.length,
      Nat.mod_lt _ positive, ?_⟩
    have first := Nat.mod_lt t.next positive
    rw [Nat.add_mod, Nat.mod_mod, ← Nat.add_mod, ← Nat.mod_add_mod]
    have around : t.next % t.assignments.length +
        (i + (t.assignments.length - t.next % t.assignments.length)) =
          i + t.assignments.length := by omega
    rw [around, Nat.add_mod_right, Nat.mod_eq_of_lt below]

theorem exists_ahead (holds : p ∈ t.assignments) :
    ∃ k < t.assignments.length, t.ahead? k = some p := by
  obtain ⟨i, below, rfl⟩ := List.getElem_of_mem holds
  obtain ⟨k, within, place⟩ := List.mem_map.mp (mem_lookOrder.mpr below)
  refine ⟨k, List.mem_range.mp within, ?_⟩
  rw [ahead?, place, List.getElem?_eq_getElem below]

theorem ahead?_mem (there : t.ahead? k = some p) : p ∈ t.assignments :=
  List.mem_of_getElem? there

/-- The places before one of the places of a look are those of fewer steps. -/
theorem lookOrder_split {before after : List Nat} {i : Nat}
    (split : t.lookOrder = before ++ i :: after) :
    before.length < t.assignments.length ∧
      i = (t.next + before.length) % t.assignments.length ∧
      ∀ j < before.length, (t.next + j) % t.assignments.length ∈ before := by
  have long : t.lookOrder.length = t.assignments.length := by
    rw [lookOrder, List.length_map, List.length_range]
  have within : before.length < t.assignments.length := by
    rw [← long, split, List.length_append, List.length_cons]
    omega
  have place (j : Nat) (below : j < t.assignments.length) :
      t.lookOrder[j]? = some ((t.next + j) % t.assignments.length) := by
    rw [lookOrder, List.getElem?_map, List.getElem?_range below, Option.map_some]
  refine ⟨within, ?_, ?_⟩
  · have here := place before.length within
    rw [split, List.getElem?_append_right (Nat.le_refl _), Nat.sub_self] at here
    exact Option.some.inj here
  · intro j earlier
    have here := place j (Nat.lt_trans earlier within)
    rw [split, List.getElem?_append_left earlier] at here
    exact List.mem_of_getElem? here

end Tailer

namespace Store

variable {s : Store} {t : Tailer} {p q : Partition} {k d : Nat}

def Idle (s : Store) (t : Tailer) (i : Nat) : Prop :=
  ∀ p, t.assignments[i]? = some p → s.peek t p = .ok none

/-- A look passes over a place where there is nothing to read. -/
theorem firstRecord_idle {i : Nat} (idle : s.Idle t i) (rest : List Nat) :
    s.firstRecord t (i :: rest) = s.firstRecord t rest := by
  cases there : t.assignments[i]? with
  | none => simp only [firstRecord, there]
  | some p => simp only [firstRecord, there, idle p there]

/-- A look over some places finds nothing at any of them, or ends at the first one where there is
something else. -/
theorem firstRecord_cases (s : Store) (t : Tailer) (order : List Nat) :
    ((∀ i ∈ order, s.Idle t i) ∧ s.firstRecord t order = .ok none) ∨
      ∃ before i after p, order = before ++ i :: after ∧ (∀ j ∈ before, s.Idle t j) ∧
        t.assignments[i]? = some p ∧
        ((∃ data, s.peek t p = .ok (some data) ∧
            s.firstRecord t order = .ok (some (i, p, data))) ∨
          ∃ e, s.peek t p = .error e ∧ s.firstRecord t order = .error e) := by
  induction order with
  | nil => exact .inl ⟨fun _ member => absurd member List.not_mem_nil, rfl⟩
  | cons i rest ih =>
    by_cases idle : s.Idle t i
    · rw [firstRecord_idle idle]
      rcases ih with ⟨others, nothing⟩ | ⟨before, j, after, p, rfl, others, there, found⟩
      · exact .inl ⟨List.forall_mem_cons.mpr ⟨idle, others⟩, nothing⟩
      · exact .inr ⟨i :: before, j, after, p, rfl, List.forall_mem_cons.mpr ⟨idle, others⟩, there,
          found⟩
    · obtain ⟨p, busy⟩ := Classical.not_forall.mp idle
      obtain ⟨there, something⟩ := Classical.not_imp.mp busy
      refine .inr ⟨[], i, rest, p, rfl, fun _ member => absurd member List.not_mem_nil, there, ?_⟩
      cases seen : s.peek t p with
      | error e => exact .inr ⟨e, rfl, by simp only [firstRecord, there, seen]⟩
      | ok record =>
        cases record with
        | none => exact absurd seen something
        | some data => exact .inl ⟨data, rfl, by simp only [firstRecord, there, seen]⟩

/-- A look comes to a partition after others in which there is nothing to read. -/
structure Reaches (s : Store) (t : Tailer) (k : Nat) (p : Partition) : Prop where
  within : k < t.assignments.length
  there : t.ahead? k = some p
  idle : ∀ j < k, ∀ q, t.ahead? j = some q → s.peek t q = .ok none

/-- A look finds nothing in any partition, or ends at the first one where there is something
else. -/
theorem round_cases (s : Store) (t : Tailer) :
    ((∀ p ∈ t.assignments, s.peek t p = .ok none) ∧
        s.firstRecord t t.lookOrder = .ok none) ∨
      ∃ k p, s.Reaches t k p ∧
        ((∃ data, s.peek t p = .ok (some data) ∧ s.firstRecord t t.lookOrder =
            .ok (some ((t.next + k) % t.assignments.length, p, data))) ∨
          ∃ e, s.peek t p = .error e ∧ s.firstRecord t t.lookOrder = .error e) := by
  rcases firstRecord_cases s t t.lookOrder with
    ⟨idle, nothing⟩ | ⟨before, i, after, p, split, idle, there, found⟩
  · refine .inl ⟨fun p holds => ?_, nothing⟩
    obtain ⟨i, below, rfl⟩ := List.getElem_of_mem holds
    exact idle i (Tailer.mem_lookOrder.mpr below) _ (List.getElem?_eq_getElem below)
  · obtain ⟨within, rfl, places⟩ := Tailer.lookOrder_split split
    exact .inr ⟨before.length, p, ⟨within, there, fun j earlier => idle _ (places j earlier)⟩,
      found⟩

/-- There is one partition at which a look ends. -/
theorem Reaches.unique (reaches : s.Reaches t k p) (something : s.peek t p ≠ .ok none)
    (again : s.Reaches t d q) (also : s.peek t q ≠ .ok none) : k = d ∧ p = q := by
  have same : k = d := by
    rcases Nat.lt_trichotomy k d with before | same | behind
    · exact absurd (again.idle k before p reaches.there) something
    · exact same
    · exact absurd (reaches.idle d behind q again.there) also
  subst same
  exact ⟨rfl, Option.some.inj (reaches.there.symm.trans again.there)⟩

/-- After a record was consumed, the next look goes on with the partition that comes next. -/
theorem ahead?_consume (t : Tailer) (k : Nat) (p : Partition) (data : Bytes) (j : Nat) :
    (consume t ((t.next + k) % t.assignments.length) p data).2.ahead? j =
      t.ahead? (k + 1 + j) := by
  rw [consume_snd]
  change t.assignments[(((t.next + k) % t.assignments.length + 1) % t.assignments.length + j) %
    t.assignments.length]? = t.assignments[(t.next + (k + 1 + j)) % t.assignments.length]?
  rw [Nat.mod_add_mod, Nat.add_assoc, Nat.mod_add_mod]
  congr 2
  omega

end Store

end Logbook
