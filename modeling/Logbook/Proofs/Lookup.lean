/-! Lists: what a lookup finds after entries were taken out or replaced, first occurrences, and pieces
with a separator between them. -/
namespace Logbook

variable {α β : Type} [DecidableEq α]

theorem mem_of_lookup {l : List (α × β)} (found : l.lookup k = some v) : (k, v) ∈ l := by
  obtain ⟨first, second, rfl, _⟩ := List.lookup_eq_some_iff.mp found
  simp

theorem lookup_of_mem {l : List (α × β)} (once : (l.map (·.1)).Nodup) (member : (k, v) ∈ l) :
    l.lookup k = some v := by
  induction l with
  | nil => simp at member
  | cons e rest ih =>
    obtain ⟨head, value⟩ := e
    simp only [List.map_cons, List.nodup_cons] at once
    rcases List.mem_cons.mp member with same | later
    · cases same
      exact List.lookup_cons_self
    · have other : k ≠ head := by
        rintro rfl
        exact once.1 (List.mem_map.mpr ⟨_, later, rfl⟩)
      rw [List.lookup_cons, beq_false_of_ne other]
      exact ih once.2 later

theorem lookup_filter_key (l : List (α × β)) (keep : α → Bool) (k : α) :
    (l.filter fun e => keep e.1).lookup k = if keep k then l.lookup k else none := by
  induction l with
  | nil => simp
  | cons e rest ih =>
    obtain ⟨head, value⟩ := e
    by_cases same : k = head
    · subst same
      cases kept : keep k <;> simp [kept, ih]
    · have other := beq_false_of_ne same
      cases kept : keep head <;> simp [kept, ih, List.lookup_cons, other]

theorem lookup_filter_ne (l : List (α × β)) (gone k : α) :
    (l.filter (·.1 ≠ gone)).lookup k = if k = gone then none else l.lookup k := by
  rw [lookup_filter_key l (fun key => decide (key ≠ gone))]
  by_cases same : k = gone <;> simp [same]

/-- An entry that is found and stays is still found. -/
theorem lookup_filter_kept {l : List (α × β)} {keep : α × β → Bool} (found : l.lookup k = some v)
    (kept : keep (k, v) = true) : (l.filter keep).lookup k = some v := by
  obtain ⟨first, second, rfl, before⟩ := List.lookup_eq_some_iff.mp found
  apply List.lookup_eq_some_iff.mpr
  refine ⟨first.filter keep, second.filter keep, ?_, fun e member =>
    before e (List.mem_filter.mp member).1⟩
  rw [List.filter_append, List.filter_cons_of_pos kept]

theorem lookup_filter {l : List (α × β)} (once : (l.map (·.1)).Nodup) {keep : α × β → Bool} :
    (l.filter keep).lookup k = some v ↔ l.lookup k = some v ∧ keep (k, v) = true := by
  constructor
  · intro found
    obtain ⟨member, kept⟩ := List.mem_filter.mp (mem_of_lookup found)
    exact ⟨lookup_of_mem once member, kept⟩
  · rintro ⟨found, kept⟩
    exact lookup_filter_kept found kept

/-- Replacing the value under a key wherever it stands. -/
theorem lookup_replace (l : List (α × β)) (key : α) (value : β) (k : α) :
    (l.map fun e => if e.1 = key then (key, value) else e).lookup k =
      if k = key then (l.lookup k).map fun _ => value else l.lookup k := by
  induction l with
  | nil => simp
  | cons e rest ih =>
    obtain ⟨head, old⟩ := e
    by_cases same : head = key
    · subst same
      by_cases here : k = head
      · simp [here]
      · simp [List.lookup_cons, beq_false_of_ne here, ih, here]
    · by_cases here : k = head
      · subst here
        simp [same]
      · simp [List.lookup_cons, beq_false_of_ne here, ih, same]

theorem keys_replace (l : List (α × β)) (key : α) (value : β) :
    (l.map fun e => if e.1 = key then (key, value) else e).map (·.1) = l.map (·.1) := by
  rw [List.map_map]
  apply List.map_congr_left
  intro e _
  by_cases same : e.1 = key <;> simp [same]

theorem lookup_map_value (l : List (α × β)) (change : α → β → γ) (k : α) :
    (l.map fun e => (e.1, change e.1 e.2)).lookup k = (l.lookup k).map (change k) := by
  induction l with
  | nil => simp
  | cons e rest ih =>
    obtain ⟨head, value⟩ := e
    by_cases same : k = head
    · subst same
      simp
    · simp [List.lookup_cons, beq_false_of_ne same, ih]

/-! First occurrences. -/

theorem nodup_eraseDups (l : List α) : l.eraseDups.Nodup := by
  cases l with
  | nil => exact List.nodup_nil
  | cons a rest =>
    rw [List.eraseDups_cons, List.nodup_cons]
    refine ⟨by simp [List.mem_eraseDups], nodup_eraseDups _⟩
termination_by l.length
decreasing_by exact Nat.lt_succ_of_le (List.length_filter_le _ _)

/-- First occurrences are in the order of the list. -/
theorem eraseDups_sublist (l : List α) : l.eraseDups.Sublist l := by
  cases l with
  | nil => exact List.Sublist.refl _
  | cons a rest =>
    rw [List.eraseDups_cons]
    exact ((eraseDups_sublist _).trans List.filter_sublist).cons_cons a
termination_by l.length
decreasing_by exact Nat.lt_succ_of_le (List.length_filter_le _ _)

theorem find?_eraseDups (l : List α) (p : α → Bool) : l.eraseDups.find? p = l.find? p := by
  cases l with
  | nil => rfl
  | cons a rest =>
    rw [List.eraseDups_cons]
    cases here : p a with
    | true => rw [List.find?_cons_of_pos here, List.find?_cons_of_pos here]
    | false =>
      have other : ¬p a = true := by simp [here]
      rw [List.find?_cons_of_neg other, List.find?_cons_of_neg other, find?_eraseDups,
        List.find?_filter]
      congr 1
      funext b
      by_cases same : b = a <;> simp [same, here]
termination_by l.length
decreasing_by exact Nat.lt_succ_of_le (List.length_filter_le _ _)

/-! Pieces. -/

theorem intercalate_cons {α : Type} (between first : List α) (others : List (List α)) :
    between.intercalate (first :: others) = first ++ others.flatMap (between ++ ·) := by
  induction others generalizing first with
  | nil => simp [List.intercalate]
  | cons second others ih =>
    rw [List.intercalate_cons_cons, ih, List.flatMap_cons, List.append_assoc, List.append_assoc]

end Logbook
