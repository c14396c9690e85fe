import Logbook.Proofs.Store.Lacking

/-! Moving to the ends. Partitions are moved one after the other, and the first one that its log
lacks ends it: those before it stay moved, and the answer does not tell of them. -/
namespace Logbook.Store

variable {s : Store} {r : TailerRef} {t t' : Tailer} {p : Partition} {size : Nat}

/-- The end of a partition is known unless its log lacks it. -/
theorem endOrStart_cases (s : Store) (p : Partition) :
    (s.endOrStart p = .ok (s.reach p) ∧ ∀ size, ¬s.Lacks p size) ∨
      ∃ size, s.Lacks p size ∧ s.endOrStart p = .error (.outOfRange p size) := by
  cases log : s.log? p.log with
  | none =>
    left
    constructor
    · rw [reach_eq, endOrStart, log]
      rfl
    · rintro size ⟨sized, -⟩
      rw [sizeOf?, log] at sized
      cases sized
  | some l =>
    rcases records_cases log with ⟨⟨rs, there⟩, free⟩ | ⟨lacks, missing⟩
    · have known : s.endOrStart p = .ok rs.length := by
        simp only [endOrStart, log, Log.endOffset, there]
        rfl
      exact .inl ⟨reach_of_endOrStart known ▸ known, free⟩
    · right
      refine ⟨l.size, lacks, ?_⟩
      simp only [endOrStart, log, Log.endOffset, missing]
      rfl

/-- How a move to the ends turns out, and what becomes of the tailer. Either all partitions are at
their ends, or at the start if their log is gone, and none is stopped any more; or some log lacks
one of them, and all that has changed is that those before it are at their ends. -/
inductive MovesToEnds (s : Store) (t : Tailer) : Outcome Unit → Tailer → Prop where
  | all {t' : Tailer} : (∀ p ∈ t.assignments, s.endOrStart p = .ok (t'.position p)) →
      (∀ p, p ∉ t.assignments → t'.position p = t.position p) → t'.stopped = [] →
      MovesToEnds s t (.ok ()) t'
  | upTo {t' : Tailer} {before after : List Partition} {p : Partition} {size : Nat} :
      t.assignments = before ++ p :: after → s.Lacks p size →
      (∀ q ∈ before, s.endOrStart q = .ok (t'.position q)) →
      (∀ q, q ∉ before → t'.position q = t.position q) → t'.stopped = t.stopped →
      MovesToEnds s t (.error (.outOfRange p size)) t'

theorem moveToEnds_cases (s : Store) (t : Tailer) (ps : List Partition) :
    ((∀ p ∈ ps, s.endOrStart p = .ok (s.reach p)) ∧
        s.moveToEnds t ps = (.ok (), { t.place ps s.reach with stopped := [] })) ∨
      ∃ before p after size, ps = before ++ p :: after ∧
        (∀ q ∈ before, s.endOrStart q = .ok (s.reach q)) ∧ s.Lacks p size ∧
        s.moveToEnds t ps = (.error (.outOfRange p size), t.place before s.reach) := by
  induction ps generalizing t with
  | nil => exact .inl ⟨fun _ member => absurd member List.not_mem_nil, rfl⟩
  | cons p rest ih =>
    rcases endOrStart_cases s p with ⟨known, -⟩ | ⟨size, lacks, unknown⟩
    · have moved : s.moveToEnds t (p :: rest) =
          s.moveToEnds (t.setPosition p (s.reach p)) rest := by
        simp only [moveToEnds, known]
      rw [moved]
      rcases ih (t.setPosition p (s.reach p)) with ⟨others, done⟩ |
          ⟨before, q, after, size, rfl, others, lacks, done⟩
      · exact .inl ⟨List.forall_mem_cons.mpr ⟨known, others⟩, done⟩
      · exact .inr ⟨p :: before, q, after, size, rfl,
          List.forall_mem_cons.mpr ⟨known, others⟩, lacks, done⟩
    · refine .inr ⟨[], p, rest, size, rfl, ?_, lacks, ?_⟩
      · exact fun _ member => absurd member List.not_mem_nil
      · simp only [moveToEnds, unknown]
        rfl

theorem moves_to_ends (s : Store) (t : Tailer) :
    MovesToEnds s t (s.moveToEnds t t.assignments).1 (s.moveToEnds t t.assignments).2 := by
  rcases moveToEnds_cases s t t.assignments with ⟨known, done⟩ |
      ⟨before, p, after, size, split, known, lacks, done⟩
  · rw [done]
    apply MovesToEnds.all
    · intro p holds
      rw [known p holds]
      exact congrArg _ ((Tailer.position_place t t.assignments s.reach p).trans (if_pos holds)).symm
    · intro p other
      exact (Tailer.position_place t t.assignments s.reach p).trans (if_neg other)
    · rfl
  · rw [done]
    apply MovesToEnds.upTo split lacks
    · intro q earlier
      rw [known q earlier, Tailer.position_place, if_pos earlier]
    · intro q other
      rw [Tailer.position_place, if_neg other]
    · rw [Tailer.place_eq]

theorem MovesToEnds.stopped {answer : Outcome Unit} (moved : MovesToEnds s t answer t')
    (failed : answer ≠ .ok ()) : t'.stopped = t.stopped := by
  cases moved with
  | all => exact absurd rfl failed
  | upTo _ _ _ _ same => exact same

/-- What moving to the ends does after a run. It succeeds if and only if no log lacks a partition of
the tailer, and the partition of which a failure tells is one that the tailer has had since before
its log was deleted. -/
structure ReachesEnds (s : Store) (as : List Action) : Prop where
  moves : ∀ r t, (s.run as).openTailer r = .ok t →
    ∃ answer t', (s.run as).toEnd r = (answer, (s.run as).setTailer r t') ∧
      MovesToEnds (s.run as) t answer t'
  succeeds : ∀ r t, (s.run as).openTailer r = .ok t → (((s.run as).toEnd r).1 = .ok () ↔
    ∀ p ∈ t.assignments, ∀ size, ¬(s.run as).Lacks p size)
  fails : ∀ r t p size, (s.run as).openTailer r = .ok t →
    ((s.run as).toEnd r).1 = .error (.outOfRange p size) → OutlivesLog r p s as

theorem toEnd_moves (opened : s.openTailer r = .ok t) :
    ∃ answer t', s.toEnd r = (answer, s.setTailer r t') ∧ MovesToEnds s t answer t' := by
  refine ⟨_, _, ?_, moves_to_ends s t⟩
  simp only [toEnd, opened]

theorem reaches_ends (config : StoreConfig) (as : List Action) :
    ReachesEnds ({ config } : Store) as := by
  constructor
  case moves => exact fun r t => toEnd_moves
  case succeeds =>
    intro r t opened
    obtain ⟨answer, t', done, moved⟩ := toEnd_moves opened
    rw [done]
    cases moved with
    | all known =>
      constructor
      · intro _ p holds size lacks
        rcases endOrStart_cases _ p with ⟨-, free⟩ | ⟨_, -, unknown⟩
        · exact free size lacks
        · cases (known p holds).symm.trans unknown
      · intro _
        rfl
    | @upTo _ _ _ p size split lacks =>
      constructor
      · intro impossible
        cases impossible
      · intro free
        have holds : p ∈ t.assignments := split ▸ List.mem_append_right _ List.mem_cons_self
        exact absurd lacks (free p holds size)
  case fails =>
    intro r t p size opened failed
    obtain ⟨answer, t', done, moved⟩ := toEnd_moves opened
    rw [done] at failed
    subst failed
    cases moved with
    | upTo split lacks =>
      have holds : p ∈ t.assignments := split ▸ List.mem_append_right _ List.mem_cons_self
      have held : Holds r p (({ config } : Store).run as) :=
        ⟨t, (openTailer_ok.mp opened).1, holds⟩
      exact ((lingers_run config as).held held).resolve_left lacks.absent

theorem error_of_toOption {answer : Except ε α} (failed : answer.toOption = none) :
    ∃ e, answer = .error e := by
  cases answer with
  | error e => exact ⟨e, rfl⟩
  | ok x => cases failed

/-- A tailer for a partition of each of two logs, of which the second one is created again with fewer
partitions. -/
def shrinkingLater : List Action :=
  [.create "others" 1, .create "events" 2, .openAppender "others" .string none,
    .appendTo 0 0 (.text "m"),
    .createTailer "readers" [⟨"others", 0⟩, ⟨"events", 1⟩] .string none, .delete "events",
    .create "events" 1]

/-- Moving to the ends fails and has moved the partition of the first log. -/
theorem shrinkingLater_moves :
    ((({} : Store).run shrinkingLater).tailer? ⟨"readers", 0⟩).map (fun t =>
        (t.closed, t.assignments, t.position ⟨"others", 0⟩)) =
      some (false, [⟨"others", 0⟩, ⟨"events", 1⟩], 0) ∧
    (∃ e, ((({} : Store).run shrinkingLater).toEnd ⟨"readers", 0⟩).1 = .error e) ∧
    ((({} : Store).run (shrinkingLater ++ [.toEnd ⟨"readers", 0⟩])).tailer? ⟨"readers", 0⟩).map
      (·.position ⟨"others", 0⟩) = some 1 :=
  ⟨by decide +kernel, error_of_toOption (by decide +kernel), by decide +kernel⟩

end Logbook.Store
