/-! A computation that can fail and succeeded: what its parts gave. -/
namespace Logbook

variable {α β ε φ : Type}

theorem map_eq_ok {f : α → β} {x : Except ε α} {b : β} :
    x.map f = .ok b ↔ ∃ a, x = .ok a ∧ f a = b := by
  cases x with
  | ok a => simp [Except.map]
  | error e => simp [Except.map]

theorem mapError_eq_ok {f : ε → φ} {x : Except ε α} {a : α} :
    x.mapError f = .ok a ↔ x = .ok a := by
  cases x with
  | ok a' =>
    constructor
    · rintro ⟨⟩
      rfl
    · rintro ⟨⟩
      rfl
  | error e =>
    constructor
    · rintro ⟨⟩
    · rintro ⟨⟩

theorem bind_eq_ok {x : Except ε α} {f : α → Except ε β} {b : β} :
    x >>= f = .ok b ↔ ∃ a, x = .ok a ∧ f a = .ok b := by
  cases x with
  | ok a => simp [bind, Except.bind]
  | error e => simp [bind, Except.bind]

/-- A check that refuses was passed. -/
theorem check_eq_ok {refuses : Prop} [Decidable refuses] {fault : ε} {x : Except ε α} {a : α} :
    (if refuses then .error fault else x) = .ok a ↔ ¬refuses ∧ x = .ok a := by
  by_cases refused : refuses
  · simp [refused]
  · simp [refused]

theorem mapM_eq_ok {f : α → Except ε β} {g : α → β} {xs : List α}
    (all : ∀ x ∈ xs, f x = .ok (g x)) : xs.mapM f = .ok (xs.map g) := by
  induction xs with
  | nil => rfl
  | cons x xs ih =>
    rw [List.mapM_cons, all x List.mem_cons_self,
      ih fun y member => all y (List.mem_cons_of_mem x member)]
    rfl

end Logbook
