import Logbook.Proofs.Store.Ends
import Logbook.Proofs.Store.Notices

/-! A poison pill stops its partition: the tailer that was handed it reads nothing more of the
partition until it is moved, or has been told that the partition was revoked. -/
namespace Logbook.Store

/-- What lets a stopped partition of a tailer go on: a move of all its partitions that succeeds, a
move of this one, or a takeover that revokes it. -/
def Resumes (r : TailerRef) (p : Partition) (s : Store) : Action → Prop
  | .toStart q => q = r ∧ ∃ s', s.toStart r = .ok s'
  | .toEnd q => q = r ∧ (s.toEnd r).1 = .ok ()
  | .toLastCommitted q => q = r ∧ ∃ s', s.toLastCommitted r = .ok s'
  | .seek q o => q = r ∧ o.partition = p ∧ ∃ s', s.seek r o = .ok s'
  | .takeOver q => ∃ ps, .revoked ps ∈ s.notices r (.takeOver q) ∧ p ∈ ps
  | _ => False

def Stopped (r : TailerRef) (p : Partition) (s : Store) : Prop :=
  ∃ t, s.tailer? r = some t ∧ p ∈ t.stopped

variable {s s' : Store} {a : Action} {as : List Action} {r : TailerRef} {t t' : Tailer}
  {p : Partition} {k : Nat} {m : Message}

theorem moveAll_eq_ok {f : Partition → Nat} :
    s.moveAll r f = .ok s' ↔
      ∃ t, s.openTailer r = .ok t ∧ s' = s.setTailer r (t.moveAll f) := by
  cases opened : s.openTailer r with
  | error e => simp [moveAll, opened, bind, Except.bind]
  | ok t =>
    have moved : s.moveAll r f = .ok (s.setTailer r (t.moveAll f)) := by
      simp only [moveAll, opened, bind, Except.bind]
      rfl
    simp [moved, eq_comm]

theorem seek_eq_ok {o : Offset} :
    s.seek r o = .ok s' ↔ ∃ t, s.openTailer r = .ok t ∧ o.partition ∈ t.assignments ∧
      s' = s.setTailer r { t.setPosition o.partition o.position with
        stopped := t.stopped.filter (· ≠ o.partition) } := by
  cases opened : s.openTailer r with
  | error e => simp [seek, assignedTailer, opened, bind, Except.bind]
  | ok t =>
    by_cases holds : o.partition ∈ t.assignments
    · have moved : s.seek r o = .ok (s.setTailer r { t.setPosition o.partition o.position with
          stopped := t.stopped.filter (· ≠ o.partition) }) := by
        simp only [seek, assignedTailer, opened, bind, Except.bind,
          List.contains_iff_mem.mpr holds, if_true]
        rfl
      simp [moved, holds, eq_comm]
    · simp [seek, assignedTailer, opened, bind, Except.bind, holds, throw, throwThe,
        MonadExceptOf.throw]

/-- Of the partitions that a tailer forgets when it takes over, its listener is told that they were
revoked. -/
theorem follow_revokes : (∃ ps, .revoked ps ∈ (s.follow r t).2 ∧ p ∈ ps) ↔
    t.subscribed = true ∧ t.generation ≠ (s.assignmentOf r).1 ∧
      p ∈ t.lost (s.assignmentOf r).2 := by
  rw [follow]
  by_cases subscribed : t.subscribed = true
  · rw [if_pos subscribed]
    by_cases moved : t.generation = (s.assignmentOf r).1
    · simp [Tailer.follow, moved]
    · rw [Tailer.follow_notices t _ _ _ moved, Notification.ofChange]
      constructor
      · rintro ⟨ps, member, lost⟩
        refine ⟨subscribed, moved, ?_⟩
        rcases List.mem_append.mp member with revoked | assigned
        · split at revoked
          · cases revoked
          · cases List.mem_singleton.mp revoked
            exact lost
        · split at assigned
          · cases assigned
          · cases List.mem_singleton.mp assigned
      · rintro ⟨-, -, lost⟩
        refine ⟨t.lost (s.assignmentOf r).2, List.mem_append_left _ ?_, lost⟩
        rw [if_neg fun empty => List.not_mem_nil (List.isEmpty_iff.mp empty ▸ lost)]
        exact List.mem_cons_self
  · simp [subscribed]

/-- Nothing but what resumes a partition lets it go on. -/
theorem Change.stopped (change : Change s r t a t') (found : s.tailer? r = some t)
    (stopped : p ∈ t.stopped) (kept : ¬Resumes r p s a) : p ∈ t'.stopped := by
  cases change with
  | same | closes => exact stopped
  | turns turn =>
    cases turn with
    | looks =>
      rcases look_cases found with ⟨i, q, data, -, -, same, -, -⟩ | ⟨same, -, -⟩
      · rw [same]
        exact mem_stopped_consume.mpr (.inl stopped)
      · rw [same]
        exact stopped
    | follows unclosed =>
      rcases follow_cases s r t with same | ⟨subscribed, moved, -⟩
      · rw [same]
        exact stopped
      · refine (mem_stopped_follow subscribed moved).mpr ⟨stopped, fun lost => ?_⟩
        rw [Resumes, notices_takeOver (openTailer_ok.mpr ⟨found, unclosed⟩)] at kept
        exact kept (follow_revokes.mpr ⟨subscribed, moved, lost⟩)
    | starts unclosed | returns unclosed =>
      have opened := openTailer_ok.mpr ⟨found, unclosed⟩
      exact absurd ⟨rfl, _, moveAll_eq_ok.mpr ⟨t, opened, rfl⟩⟩ kept
    | ends unclosed =>
      have answer : (s.toEnd r).1 = (s.moveToEnds t t.assignments).1 := by
        simp only [toEnd, openTailer_ok.mpr ⟨found, unclosed⟩]
      rw [(moves_to_ends s t).stopped fun done => kept ⟨rfl, answer.trans done⟩]
      exact stopped
    | seeks o unclosed holds =>
      refine List.mem_filter.mpr ⟨stopped, decide_eq_true ?_⟩
      rintro rfl
      have opened := openTailer_ok.mpr ⟨found, unclosed⟩
      exact kept ⟨rfl, rfl, _, seek_eq_ok.mpr ⟨t, opened, holds, rfl⟩⟩

/-- A look passes over a stopped partition. -/
theorem stopped_unread (found : s.tailer? r = some t) (stopped : p ∈ t.stopped) (a : Action) :
    consumedBy (s.events a) r p = [] := by
  by_cases looking : a = .look r
  · subst looking
    apply List.filterMap_eq_nil_iff.mpr
    intro e member
    cases e with
    | appended => rfl
    | consumed q o told =>
      apply if_neg
      rintro ⟨rfl, rfl⟩
      obtain ⟨-, -, u, data, there, -, seen, -⟩ := consumed_look member
      cases Option.some.inj (there.symm.trans found)
      rw [peek, if_pos (List.contains_iff_mem.mpr stopped)] at seen
      cases seen
  · exact consumedBy_other looking p

/-- A stopped partition stays so, and nothing of it is read, as long as nothing resumes it. -/
theorem stopped_run (stopped : Stopped r p s)
    (kept : Along (fun s a => ¬Resumes r p s a) s as) :
    Stopped r p (s.run as) ∧ consumedBy (s.history as) r p = [] := by
  induction as generalizing s with
  | nil => exact ⟨stopped, rfl⟩
  | cons a as ih =>
    obtain ⟨t, found, member⟩ := stopped
    obtain ⟨t', found', change⟩ := (effect s a).tailer found
    obtain ⟨still, unread⟩ := ih ⟨t', found', change.stopped found member kept.1⟩ kept.2
    refine ⟨still, ?_⟩
    rw [history, consumedBy_append, stopped_unread found member a, unread]
    rfl

/-- A look that hands out a poison pill stops its partition. -/
theorem pill_stopped (looked : s.look r = (.ok (some (⟨p, k⟩, m)), s'))
    (pill : m.isPoisonPill = true) : Stopped r p s' := by
  have next : s.act (.look r) = s' := by rw [act, looked]
  have handed : (s.look r).1 = .ok (some (⟨p, k⟩, m)) := by rw [looked]
  cases found : s.tailer? r with
  | none => simp [look, found] at handed
  | some t =>
    refine ⟨_, next ▸ (effect s (.look r)).look found, ?_⟩
    cases look_ends found with
    | nothing _ _ answer => cases answer.symm.trans handed
    | fails _ _ _ answer => cases answer.symm.trans handed
    | @finds j q data _ _ same answer =>
      rw [handed] at answer
      rw [same, mem_stopped_consume]
      cases told : t.tells data with
      | error e =>
        rw [told] at answer
        cases answer
      | ok m' =>
        rw [told] at answer
        cases answer
        exact .inr ⟨rfl, m, rfl, pill⟩

/-- What resumes a partition lets it go on. -/
theorem Resumes.running (resumes : Resumes r p s a) :
    ∃ t, (s.act a).tailer? r = some t ∧ p ∉ t.stopped := by
  cases a with
  | toStart q =>
    obtain ⟨rfl, s', moved⟩ := resumes
    obtain ⟨t, opened, rfl⟩ := moveAll_eq_ok.mp moved
    rw [act, moved]
    exact ⟨_, found_setTailer (openTailer_ok.mp opened).1 _, List.not_mem_nil⟩
  | toLastCommitted q =>
    obtain ⟨rfl, s', moved⟩ := resumes
    obtain ⟨t, opened, rfl⟩ := moveAll_eq_ok.mp moved
    rw [act, moved]
    exact ⟨_, found_setTailer (openTailer_ok.mp opened).1 _, List.not_mem_nil⟩
  | toEnd q =>
    obtain ⟨rfl, done⟩ := resumes
    cases opened : s.openTailer q with
    | error e => simp [toEnd, opened] at done
    | ok t =>
      obtain ⟨answer, t', whole, moved⟩ := toEnd_moves opened
      rw [whole] at done
      subst done
      rw [act, whole]
      cases moved with
      | all _ _ running =>
        refine ⟨t', found_setTailer (openTailer_ok.mp opened).1 t', ?_⟩
        rw [running]
        exact List.not_mem_nil
  | seek q o =>
    obtain ⟨rfl, rfl, s', moved⟩ := resumes
    obtain ⟨t, opened, holds, rfl⟩ := seek_eq_ok.mp moved
    rw [act, moved]
    refine ⟨_, found_setTailer (openTailer_ok.mp opened).1 _, fun member => ?_⟩
    exact of_decide_eq_true (List.mem_filter.mp member).2 rfl
  | takeOver q =>
    obtain ⟨ps, told, member⟩ := resumes
    rcases notices_cases s r (.takeOver q) with ⟨silent, -⟩ | ⟨t, -, found, -, notices, next⟩
    · rw [silent] at told
      cases told
    · rw [notices] at told
      rw [next]
      refine ⟨_, found_setTailer found _, ?_⟩
      obtain ⟨subscribed, moved, lost⟩ := follow_revokes.mp ⟨ps, told, member⟩
      rw [mem_stopped_follow subscribed moved]
      exact fun kept => kept.2 lost
  | _ => exact resumes.elim

def ReadsNothing (r : TailerRef) (p : Partition) (s : Store) : Prop :=
  ∀ during, Along (fun s a => ¬Resumes r p s a) s during → consumedBy (s.history during) r p = []

theorem pill_silences (looked : s.look r = (.ok (some (⟨p, k⟩, m)), s'))
    (pill : m.isPoisonPill = true) : ReadsNothing r p s' := by
  intro during kept
  exact (stopped_run (pill_stopped looked pill) kept).2

/-- What poison pills do. A tailer that was handed one by a look or by a read, whether it was cut in
two or not, reads nothing of the partition until something resumes it, and whatever does has let
the partition go on. What is read is what looks and reads answer with. -/
structure PillsStop (s : Store) : Prop where
  looks : ∀ r p k m, (s.look r).1 = .ok (some (⟨p, k⟩, m)) → m.isPoisonPill = true →
    ReadsNothing r p (s.look r).2
  reads : ∀ r p k m, (s.read r).1 = .ok (some (⟨p, k⟩, m)) → m.isPoisonPill = true →
    ReadsNothing r p (s.read r).2.2
  begins : ∀ r patience p k m, (s.beginRead r patience).1 = .ended (.ok (some (⟨p, k⟩, m))) →
    m.isPoisonPill = true → ReadsNothing r p (s.beginRead r patience).2
  finishes : ∀ r patience pace reading p k m, (∀ told, reading ≠ .ended told) →
    (s.finishRead r patience pace reading).1 = .ok (some (⟨p, k⟩, m)) → m.isPoisonPill = true →
    ReadsNothing r p (s.finishRead r patience pace reading).2.2
  resumes : ∀ r p a, Resumes r p s a → ∃ t, (s.act a).tailer? r = some t ∧ p ∉ t.stopped
  accounts : ∀ during, ReadsAccount (s.run during)

/-- In every state, a poison pill stops its partition. -/
theorem pills_stop (s : Store) : PillsStop s := by
  constructor
  case looks =>
    intro r p k m handed pill
    exact pill_silences (Prod.ext handed rfl) pill
  case reads =>
    intro r p k m handed pill
    obtain ⟨s₀, looked⟩ := read_looked handed
    exact pill_silences looked pill
  case begins =>
    intro r patience p k m handed pill
    obtain ⟨s₀, looked⟩ := beginRead_looked handed
    exact pill_silences looked pill
  case finishes =>
    intro r patience pace reading p k m unfinished handed pill
    obtain ⟨s₀, looked⟩ := finishRead_looked unfinished handed
    exact pill_silences looked pill
  case resumes => exact fun r p a => Resumes.running
  case accounts => exact fun during => reads_account _

/-- What comes behind a poison pill is read after a seek and not before. -/
example :
    let reader : TailerRef := ⟨"readers", 0⟩
    let p : Partition := ⟨"events", 0⟩
    let stops : List Action := [.create "events" 1, .openAppender "events" .record none,
      .createTailer "readers" [p] .record none, .appendTo 0 0 (.record .poisonPill),
      .appendTo 0 0 (.record { key := "k" }), .look reader, .look reader]
    consumedBy (({} : Store).history stops) reader p = [0] ∧
      consumedBy (({} : Store).history (stops ++ [.seek reader ⟨p, 1⟩, .look reader])) reader p =
        [0, 1] := by decide +kernel

end Logbook.Store
