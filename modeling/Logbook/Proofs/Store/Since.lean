import Mathlib.Data.List.Induction
import Logbook.Proofs.Store.Tenure

/-! What was done since a tailer got a partition: an action counts only if the tailer had the
partition by then and has kept it in all states since. -/
namespace Logbook.Store

/-- An action commits the position of a tailer in a partition. -/
def CommitsTo (r : TailerRef) (p : Partition) (s : Store) (a : Action) : Prop :=
  ∃ t ps, s.tailer? r = some t ∧ t.closed = false ∧ Commits r t a ps ∧ p ∈ ps

/-- A run has done something while a tailer had a partition, and the tailer has kept it since. -/
def Since (Q : Store → Action → Prop) (r : TailerRef) (p : Partition) (s : Store)
    (as : List Action) : Prop :=
  ∃ before a after, as = before ++ a :: after ∧ Q (s.run before) a ∧
    Along (fun s _ => Holds r p s) (s.run before) (a :: after) ∧ Holds r p (s.run as)

variable {s s' : Store} {a : Action} {as : List Action} {r q : TailerRef} {t t' : Tailer}
  {p : Partition} {Q : Store → Action → Prop}

theorem run_concat (s : Store) (as : List Action) (a : Action) :
    s.run (as ++ [a]) = (s.run as).act a := run_append s as [a]

theorem Since.later (since : Since Q r p s as) (holds : Holds r p ((s.run as).act a)) :
    Since Q r p s (as ++ [a]) := by
  obtain ⟨before, b, after, rfl, done, kept, last⟩ := since
  refine ⟨before, b, after ++ [a], by simp, done, ?_, run_concat s _ a ▸ holds⟩
  have same : (s.run before).run (b :: after) = s.run (before ++ b :: after) :=
    (run_append s before (b :: after)).symm
  rw [← List.cons_append, along_append, same]
  exact ⟨kept, last, trivial⟩

theorem Since.now (done : Q (s.run as) a) (had : Holds r p (s.run as))
    (holds : Holds r p ((s.run as).act a)) : Since Q r p s (as ++ [a]) :=
  ⟨as, a, [], rfl, done, ⟨had, trivial⟩, run_concat s as a ▸ holds⟩

/-- What was done since is done somewhere along the run. -/
theorem Since.excluded {allowed : Store → Action → Prop} (along : Along allowed s as)
    (never : ∀ {s a}, allowed s a → ¬Q s a) : ¬Since Q r p s as := by
  rintro ⟨before, a, after, rfl, done, -, -⟩
  exact never (along_append.mp along).2.1 done

/-- A property of runs that is kept by one more action holds of all runs. -/
theorem run_induction {P : List Action → Prop} {allowed : Store → Action → Prop} (start : P [])
    (keeps : ∀ as a, Along allowed s as → allowed (s.run as) a → P as → P (as ++ [a]))
    (along : Along allowed s as) : P as := by
  induction as using List.reverseRecOn with
  | nil => exact start
  | append_singleton as a ih =>
    obtain ⟨before, now, -⟩ := along_append.mp along
    exact keeps as a before now (ih before)

theorem commits_assigned {ps : List Partition} (commits : Commits r t a ps) (member : p ∈ ps) :
    p ∈ t.assignments := by
  cases commits with
  | all => exact member
  | one q holds => exact List.mem_singleton.mp member ▸ holds

/-- A tailer that begins to have a partition was created with it or has taken over. -/
theorem Effect.begins_by (step : Effect s a s') (before : ¬Holds r p s)
    (found : s'.tailer? r = some t') (holds : p ∈ t'.assignments) :
    (∃ ps type codec, a = .createTailer r.group ps type codec) ∨ a = .takeOver r := by
  cases there : s.tailer? r with
  | none =>
    rcases step.newTailer there with absent | ⟨ps, type, codec, same, _⟩ | ⟨_, _, _, _, new⟩
    · cases absent.symm.trans found
    · exact .inl ⟨ps, type, codec, same⟩
    · cases Option.some.inj (new.symm.trans found)
      cases holds
  | some t =>
    have change := step.change there found
    exact .inr (change.gains (fun member => before ⟨t, there, member⟩) holds).1

/-- When a tailer begins to have a partition, the partition is neither committed nor deleted. -/
theorem Effect.begins_quietly (step : Effect s a s') (before : ¬Holds r p s)
    (found : s'.tailer? r = some t') (holds : p ∈ t'.assignments) :
    s'.committed? r.group p = s.committed? r.group p ∧ ∀ name, a ≠ .delete name := by
  have action := step.begins_by before found holds
  constructor
  · rcases step.committed r.group p with same | ⟨rfl, -⟩ | ⟨q, u, ps, -, -, -, commits, -, -⟩
    · exact same
    · rcases action with ⟨_, _, _, impossible⟩ | impossible <;> cases impossible
    · rcases action with ⟨_, _, _, rfl⟩ | rfl <;> cases commits
  · rintro name rfl
    rcases action with ⟨_, _, _, impossible⟩ | impossible <;> cases impossible

end Logbook.Store
