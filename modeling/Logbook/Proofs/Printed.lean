import Mathlib.Data.Set.Operations
import Logbook.Limits
import Logbook.Partition
import Logbook.Proofs.Success
import Logbook.Proofs.Text.Number

/-! Printed names. Digits follow the last hyphen and the last plus sign, and no colon stands in the name
of a group, so that the parts are found back and no two names are printed alike. -/
namespace Logbook

section

variable {α : Type} {c : α} {as bs cs ds : List α}

/-- Nothing before the first separator is one: what stands before it and after it is found back. -/
theorem split_first (left : c ∉ as) (right : c ∉ bs) (same : as ++ c :: cs = bs ++ c :: ds) :
    as = bs ∧ cs = ds := by
  induction as generalizing bs with
  | nil =>
    cases bs with
    | nil => exact ⟨rfl, List.tail_eq_of_cons_eq same⟩
    | cons b bs =>
      obtain ⟨rfl, -⟩ := List.cons_eq_cons.mp same
      exact absurd List.mem_cons_self right
  | cons a as ih =>
    rw [List.mem_cons, not_or] at left
    cases bs with
    | nil => exact absurd (List.cons_eq_cons.mp same).1.symm left.1
    | cons b bs =>
      rw [List.mem_cons, not_or] at right
      obtain ⟨rfl, tails⟩ := List.cons_eq_cons.mp same
      obtain ⟨rfl, rfl⟩ := ih left.2 right.2 tails
      exact ⟨rfl, rfl⟩

/-- Nothing after the last separator is one. -/
theorem split_last (left : c ∉ cs) (right : c ∉ ds) (same : as ++ c :: cs = bs ++ c :: ds) :
    as = bs ∧ cs = ds := by
  have backwards : cs.reverse ++ c :: as.reverse = ds.reverse ++ c :: bs.reverse := by
    simpa using congrArg List.reverse same
  obtain ⟨after, before⟩ := split_first (by simpa using left) (by simpa using right) backwards
  exact ⟨List.reverse_inj.mp before, List.reverse_inj.mp after⟩

end

theorem Partition.display_injective : Function.Injective Partition.display := by
  intro p q same
  have chars (p : Partition) :
      p.display.toList = p.log.toList ++ '-' :: Text.padLeft 2 (Text.decimal p.index) := by
    simp [display, Text.padded]
  have hyphen (n : Nat) : '-' ∉ Text.padLeft 2 (Text.decimal n) := fun here =>
    absurd (Text.isDigit_of_mem_padLeft here) (by decide)
  have whole := congrArg String.toList same
  rw [chars, chars] at whole
  obtain ⟨logs, digits⟩ := split_last (hyphen p.index) (hyphen q.index) whole
  obtain ⟨log, index⟩ := p
  obtain rfl : log = q.log := String.toList_injective logs
  obtain rfl : index = q.index := Text.padLeft_decimal_injective 2 digits
  rfl

theorem Offset.display_injective : Function.Injective Offset.display := by
  intro a b same
  have chars (o : Offset) : o.display.toList =
      (o.partition.display.toList ++ [':']) ++ '+' :: Text.decimal o.position := by
    simp [display]
  have plus (n : Nat) : '+' ∉ Text.decimal n := fun here =>
    absurd (Text.isDigit_of_mem_decimal here) (by decide)
  have whole := congrArg String.toList same
  rw [chars, chars] at whole
  obtain ⟨partitions, digits⟩ := split_last (plus a.position) (plus b.position) whole
  obtain ⟨partition, position⟩ := a
  obtain rfl : partition = b.partition :=
    Partition.display_injective (String.toList_injective (List.append_cancel_right partitions))
  obtain rfl : position = b.position := Text.decimal_injective digits
  rfl

/-- A name that was accepted is made of the characters of names. -/
theorem Limits.isNameChar_of_checkName {kind name : String} {max : Nat} {c : Char}
    (accepted : checkName kind name max = .ok ()) (here : c ∈ name.toList) : isNameChar c = true := by
  obtain ⟨-, accepted⟩ := check_eq_ok.mp accepted
  obtain ⟨-, accepted⟩ := check_eq_ok.mp accepted
  cases found : name.toList.find? (!isNameChar ·) with
  | some d =>
    rw [found] at accepted
    cases accepted
  | none => simpa using List.find?_eq_none.mp found c here

/-- The groups that some limits accept are told apart by the first colon. -/
theorem GroupPartition.display_injOn :
    Set.InjOn display {k | ∃ l : Limits, l.checkGroupName k.group = .ok ()} := by
  rintro j ⟨l, acceptedj⟩ k ⟨l', acceptedk⟩ same
  have chars (k : GroupPartition) :
      k.display.toList = k.group.toList ++ ':' :: k.partition.display.toList := by
    simp [display]
  have whole := congrArg String.toList same
  rw [chars, chars] at whole
  have colon {l : Limits} {group : String} (accepted : l.checkGroupName group = .ok ()) :
      ':' ∉ group.toList := fun here =>
    absurd (Limits.isNameChar_of_checkName accepted here) (by decide)
  obtain ⟨groups, partitions⟩ := split_first (colon acceptedj) (colon acceptedk) whole
  obtain ⟨group, partition⟩ := j
  obtain rfl : group = k.group := String.toList_injective groups
  obtain rfl : partition = k.partition :=
    Partition.display_injective (String.toList_injective partitions)
  rfl

/-- No two partitions and no two places are printed alike, whatever characters stand in the names of
logs, and no two partitions of groups, as long as the groups' names are accepted. -/
theorem printed_apart :
    Function.Injective Partition.display ∧ Function.Injective Offset.display ∧
      Set.InjOn GroupPartition.display {k | ∃ l : Limits, l.checkGroupName k.group = .ok ()} :=
  ⟨Partition.display_injective, Offset.display_injective, GroupPartition.display_injOn⟩

/-- Other names of groups could be mistaken. -/
example : (⟨"a:b", ⟨"c", 0⟩⟩ : GroupPartition).display =
    (⟨"a", ⟨"b:c", 0⟩⟩ : GroupPartition).display := by cbv

end Logbook
