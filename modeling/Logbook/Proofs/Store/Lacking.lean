import Logbook.Proofs.Store.Breaking
import Logbook.Proofs.Store.Deletion
import Logbook.Proofs.Store.Generations

/-! Partitions and records that cannot be read. A log that is created again with fewer partitions
lacks some that a tailer for given partitions still has. A look that comes to one of them fails and
goes no further, so that the partitions behind it are not read for as long as it is lacking. A log
that is gone does no harm, and no subscribed tailer has a partition that is lacking after it took
over. But any tailer breaks at a record that tells of more bytes than memory holds. -/
namespace Logbook.Store

/-- What a read of an open tailer may answer: a record, nothing, or that a record cannot be
decoded. A failure of capacity is no answer. -/
def Documented : Outcome (Option (Offset × Message)) → Prop
  | .ok _ => True
  | .error (.codec e) => e.kind ≠ .capacity
  | .error _ => False

instance : DecidablePred Documented
  | .ok _ => inferInstanceAs (Decidable True)
  | .error (.codec e) => inferInstanceAs (Decidable (e.kind ≠ .capacity))
  | .error (.unknownLog _) | .error (.alreadyAssigned _) | .error (.codecMismatch _ _ _)
  | .error (.typeMismatch _ _ _) | .error .subscribeUnsupported | .error (.outOfRange _ _)
  | .error (.notAssigned _) | .error (.closed _) | .error (.closeFailed _) | .error (.argument _)
  | .error (.injected _) => inferInstanceAs (Decidable False)

/-- A look comes to a partition that it cannot read, and to no record before. -/
def Stuck (s : Store) (t : Tailer) (p : Partition) (size : Nat) : Prop :=
  p ∉ t.stopped ∧ s.Lacks p size ∧ ∃ k, s.Reaches t k p

def Unobstructed (r : TailerRef) (s : Store) (a : Action) : Prop :=
  a = .look r → ∀ t p size, s.tailer? r = some t → p ∈ t.assignments → p ∉ t.stopped →
    ¬s.Lacks p size

def Obstructed (r : TailerRef) (p : Partition) (s : Store) : Prop :=
  ∃ t size, s.tailer? r = some t ∧ p ∉ t.stopped ∧ s.Lacks p size

def countLooks (r : TailerRef) (as : List Action) : Nat :=
  as.countP fun
    | .look q => q = r
    | _ => false

variable {s s' : Store} {f : Fragile} {a : Action} {as : List Action} {r : TailerRef}
  {t t' : Tailer} {p : Partition} {size k d : Nat}

theorem countLooks_other (other : a ≠ .look r) (as : List Action) :
    countLooks r (a :: as) = countLooks r as := by
  apply List.countP_cons_of_neg
  cases a with
  | look q => simpa using other
  | _ => simp

theorem Lacks.absent (lacks : s.Lacks p size) : ¬s.HasPartition p := by
  rintro ⟨l, log, within⟩
  obtain ⟨sized, few⟩ := lacks
  rw [sizeOf?, log, Option.map_some, Option.some.injEq] at sized
  omega

/-! One look. -/

theorem tells_documented (t : Tailer) (data : Bytes) (o : Offset)
    (fits : breaks (t.tells data) = false) :
    Documented ((t.tells data).map fun m => some (o, m)) := by
  rw [Tailer.tells] at fits ⊢
  cases decoded : (defaultCodec t.codec).decode t.type data with
  | ok m => trivial
  | error e =>
    rw [decoded] at fits
    exact of_decide_eq_false fits

theorem Stuck.failed (stuck : s.Stuck t p size) : s.peek t p = .error (.outOfRange p size) := by
  obtain ⟨running, lacks, -⟩ := stuck
  exact peek_error.mpr ⟨running, size, lacks, rfl⟩

/-- A look that is stuck tells of the partition and leaves the tailer as it was. -/
theorem Stuck.look (stuck : s.Stuck t p size) (found : s.tailer? r = some t) :
    (s.look r).1 = .error (.outOfRange p size) ∧ (s.poll t).2 = t := by
  have failed := stuck.failed
  obtain ⟨k, reaches⟩ := stuck.2.2
  cases look_ends found with
  | nothing idle => cases (idle p (Tailer.ahead?_mem reaches.there)).symm.trans failed
  | finds again seen =>
    obtain ⟨-, rfl⟩ := again.unique (by rw [seen]; rintro ⟨⟩) reaches (by rw [failed]; rintro ⟨⟩)
    cases seen.symm.trans failed
  | fails again failed' same answer =>
    obtain ⟨-, rfl⟩ := again.unique (by rw [failed']; rintro ⟨⟩) reaches
      (by rw [failed]; rintro ⟨⟩)
    cases failed'.symm.trans failed
    exact ⟨answer, same⟩

/-- A look that gives an answer answers as documented or is stuck. -/
theorem look_documented (found : s.tailer? r = some t) (fits : breaks (s.look r).1 = false) :
    Documented (s.look r).1 ∨ ∃ p size, s.Stuck t p size := by
  cases look_ends found with
  | nothing _ _ answer =>
    rw [answer]
    exact .inl trivial
  | finds _ _ _ answer =>
    rw [answer, breaks_map] at fits
    rw [answer]
    exact .inl (tells_documented t _ _ fits)
  | @fails j q e reaches failed =>
    obtain ⟨running, size, lacks, rfl⟩ := peek_error.mp failed
    exact .inr ⟨q, size, running, lacks, j, reaches⟩

theorem Fragile.look_stuck (found : f.store.tailer? r = some t) (whole : r ∉ f.broken)
    (stuck : f.store.Stuck t p size) : f.look r = some (.error (.outOfRange p size)) ∧
      (f.act (.look r)).store.tailer? r = some t ∧ r ∉ (f.act (.look r)).broken := by
  obtain ⟨answer, same⟩ := stuck.look found
  have allowed : f.bars (.look r) = false := by simpa [bars, Action.needs?] using whole
  refine ⟨?_, ?_, ?_⟩
  · rw [look, if_neg whole, answer]
    rfl
  · have there := (effect _ (.look r)).look found
    rw [same] at there
    rw [act_allows allowed]
    exact there
  · rw [mem_broken_act, answer]
    rintro (broken | ⟨-, stops⟩)
    · exact whole broken
    · cases stops

theorem Fragile.look_documented_iff (found : f.store.tailer? r = some t) (whole : r ∉ f.broken) :
    (∃ answer, f.look r = some answer ∧ Documented answer) ↔
      (∀ p size, ¬f.store.Stuck t p size) ∧ ¬f.store.Oversized t := by
  constructor
  · rintro ⟨answer, told, documented⟩
    constructor
    · intro p size stuck
      rw [(look_stuck found whole stuck).1] at told
      cases told
      exact documented
    · intro oversized
      rw [look, heard_eq_none.mpr ((look_breaks found).mpr oversized), ite_self] at told
      cases told
  · rintro ⟨free, fits⟩
    rw [← look_breaks found, Bool.not_eq_true] at fits
    rcases look_documented found fits with documented | ⟨p, size, stuck⟩
    · exact ⟨_, (if_neg whole).trans (heard_eq_some.mpr ⟨fits, rfl⟩), documented⟩
    · exact absurd stuck (free p size)

/-- What an open tailer answers to a read: what is documented, unless it has given partitions and is
stuck. -/
def Answers (s : Store) (t : Tailer) (answer : Outcome (Option (Offset × Message))) : Prop :=
  Documented answer ∨
    t.subscribed = false ∧ ∃ p size, s.Stuck t p size ∧ answer = .error (.outOfRange p size)

/-- The partitions that a subscribed tailer has taken over are there, so that it is not stuck. -/
theorem answers_read (followed : Followed s) (assigned : Assigned s)
    (opened : s.openTailer r = .ok t) (fits : breaks (s.read r).1 = false) :
    s.Answers t (s.read r).1 := by
  obtain ⟨found, unclosed⟩ := openTailer_ok.mp opened
  have taken := takeOver_ok opened
  have answer : (s.read r).1 = ((s.setTailer r (s.follow r t).1).look r).1 := by
    simp only [read, taken]
  have there := found_setTailer found (s.follow r t).1
  rw [answer] at fits ⊢
  rcases look_documented there fits with documented | ⟨p, size, stuck⟩
  · exact .inl documented
  · right
    have told := (stuck.look there).1
    obtain ⟨running, lacks, k, reaches⟩ := stuck
    by_cases subscribed : t.subscribed = true
    · obtain ⟨g, grouped, follows⟩ := followed r t found subscribed unclosed
      obtain ⟨-, handed⟩ := follow_follows grouped subscribed follows
      have holds := Tailer.ahead?_mem reaches.there
      rw [handed] at holds
      have given : p ∈ (s.assignmentOf r).2 := by
        simp only [assignmentOf, grouped]
        exact holds
      exact absurd (assigned_exist assigned given) lacks.absent
    · have same : (s.follow r t).1 = t := by rw [follow, if_neg subscribed]
      rw [same] at running reaches told ⊢
      exact ⟨Bool.eq_false_iff.mpr subscribed, p, size,
        ⟨running, lacks, k, reaches.within, reaches.there, reaches.idle⟩, told⟩

theorem Answers.lacks {answer : Outcome (Option (Offset × Message))}
    (answers : s.Answers t answer) : Documented answer ∨
      ∃ p size, s.Lacks p size ∧ answer = .error (.outOfRange p size) := by
  rcases answers with documented | ⟨-, p, size, stuck, told⟩
  · exact .inl documented
  · exact .inr ⟨p, size, stuck.2.1, told⟩

/-- A look changes no log and closes no tailer. -/
theorem look_leaves (opened : s.openTailer r = .ok t) :
    (∃ t', (s.look r).2.openTailer r = .ok t') ∧
      ∀ p size, (s.look r).2.Lacks p size ↔ s.Lacks p size := by
  obtain ⟨found, unclosed⟩ := openTailer_ok.mp opened
  have looked : (s.look r).2 = s.setTailer r (s.poll t).2 := by simp only [look, found]
  rw [looked]
  constructor
  · have still : (s.poll t).2.closed = false := (Turn.looks (r := r)).kept.2.1.trans unclosed
    exact ⟨_, openTailer_ok.mpr ⟨found_setTailer found _, still⟩⟩
  · intro p size
    exact Iff.rfl

/-- The second part of a read that was cut in two. There a tailer that has subscribed can be stuck,
too: when a log was created again since the first part has taken over. -/
theorem finishRead_lacks (config : StoreConfig) (as : List Action) (patience : Patience)
    (pace : Nat) {reading : Reading} (unfinished : ∀ told, reading ≠ .ended told)
    (opened : (({ config } : Store).run as).openTailer r = .ok t) :
    let s := ({ config } : Store).run as
    breaks (s.finishRead r patience pace reading).1 = false →
    Documented (s.finishRead r patience pace reading).1 ∨
      ∃ p size, s.Lacks p size ∧
        (s.finishRead r patience pace reading).1 = .error (.outOfRange p size) := by
  intro s
  obtain ⟨answer, notices, s', whole, ends⟩ := finishRead_answers s r patience pace unfinished
  rw [whole]
  intro fits
  rcases ends with ⟨rfl, -⟩ | ⟨rfl, -⟩ | ⟨rfl, -⟩
  · exact (answers_read (followed_start config as) (assigned_run as) opened fits).lacks
  · have found := (openTailer_ok.mp opened).1
    rcases look_documented found fits with documented | ⟨p, size, stuck⟩
    · exact .inl documented
    · exact .inr ⟨p, size, stuck.2.1, (stuck.look found).1⟩
  · obtain ⟨⟨t', opened'⟩, logs⟩ := look_leaves opened
    have next : (s.look r).2 = ({ config } : Store).run (as ++ [.look r]) :=
      (run_concat _ as (.look r)).symm
    rw [next] at opened' logs fits ⊢
    rcases (answers_read (followed_start config _) (assigned_run _) opened' fits).lacks with
      documented | ⟨p, size, lacks, told⟩
    · exact .inl documented
    · exact .inr ⟨p, size, (logs p size).mp lacks, told⟩

/-! Runs in which everything can be read. -/

theorem Waits.sees (waits : Waits s r t p k d) (clear : Unobstructed r s (.look r)) :
    (readBy (s.events (.look r)) r).length = 1 := by
  cases waits.approaches with
  | arrives _ read => rw [read]; rfl
  | nears _ _ read => rw [read]; rfl
  | halts holds failed =>
    obtain ⟨running, size, lacks, -⟩ := peek_error.mp failed
    exact absurd lacks (clear rfl t _ size waits.found holds running)

/-- As long as a record waits and everything can be read, each look reads something. -/
theorem Waits.counts (waits : Waits s r t p k d) (clear : Unobstructed r s a) (as : List Action) :
    countLooks r (a :: as) ≤ (readBy (s.events a) r).length + countLooks r as := by
  by_cases looking : a = .look r
  · subst looking
    rw [waits.sees clear, countLooks, List.countP_cons_of_pos (by simp), Nat.add_comm]
    exact Nat.le_refl _
  · rw [countLooks_other looking]
    exact Nat.le_add_left _ _

/-- A record that waits is read by one of the next looks, as many as there are partitions. -/
theorem served_soon (waits : Waits s r t p k d) (allowed : Along (Undisturbed r p) s as)
    (clear : Along (Unobstructed r) s as) (often : d < countLooks r as) :
    ∃ told, (⟨p, k⟩, told) ∈ readBy (s.history as) r := by
  induction as generalizing s t d with
  | nil => exact absurd often (Nat.not_lt_zero d)
  | cons a as ih =>
    simp only [history, readBy_append]
    rcases waits.step allowed.1 with ⟨told, served⟩ | ⟨t', d', still, closer⟩
    · rw [served]
      exact ⟨told, List.mem_append_left _ List.mem_cons_self⟩
    · have counts := waits.counts clear.1 as
      obtain ⟨told, member⟩ := ih still allowed.2 clear.2 (by omega)
      exact ⟨told, List.mem_append_right _ member⟩

/-- All looks of a tailer that is whole are done. -/
theorem countLooks_kept (whole : r ∉ (f.run as).broken) :
    countLooks r (f.kept as) = countLooks r as := by
  induction as generalizing f with
  | nil => rfl
  | cons a as ih =>
    cases barred : f.bars a with
    | true =>
      have other : a ≠ .look r := by
        rintro rfl
        have broken : r ∈ f.broken := by simpa [Fragile.bars, Action.needs?] using barred
        exact whole (Fragile.broken_run broken _)
      rw [Fragile.run_cons, Fragile.act_bars barred] at whole
      rw [Fragile.kept_bars barred, countLooks_other other, ih whole]
    | false => rw [Fragile.kept_cons barred, countLooks, countLooks, List.countP_cons,
        List.countP_cons, ← countLooks, ← countLooks, ih whole]

/-! Runs in which one partition cannot be read. -/

/-- Only looks, and takeovers of other partitions, move the round of a tailer. -/
theorem Change.ahead (change : Change s r t a t') (explicit : t.subscribed = false)
    (other : a ≠ .look r) : t'.ahead? d = t.ahead? d := by
  cases change with
  | same | closes => rfl
  | turns turn =>
    cases turn with
    | looks => exact absurd rfl other
    | follows =>
      rw [follow, if_neg]
      rw [explicit]
      rintro ⟨⟩
    | starts | returns =>
      rw [Tailer.moveAll, Tailer.place_eq]
      rfl
    | ends =>
      obtain ⟨positions, stopped, same⟩ := moveToEnds_eq s t t.assignments
      rw [same]
      rfl
    | seeks => rfl

/-- Whatever is done, the round comes closer to a partition that cannot be read with every record,
and does not get past it. -/
theorem obstructed_step (found : s.tailer? r = some t) (explicit : t.subscribed = false)
    (ahead : t.ahead? d = some p) (obstructed : Obstructed r p s) (a : Action) :
    ∃ t' d', (s.act a).tailer? r = some t' ∧ t'.subscribed = false ∧ t'.ahead? d' = some p ∧
      d' + (readBy (s.events a) r).length ≤ d := by
  have step := effect s a
  obtain ⟨t', found', change⟩ := step.tailer found
  have explicit' : t'.subscribed = false := change.kept.1.2.2.trans explicit
  by_cases looking : a = .look r
  · subst looking
    obtain ⟨u, size, there, running, lacks⟩ := obstructed
    cases Option.some.inj (there.symm.trans found)
    have failed : s.peek t p = .error (.outOfRange p size) :=
      peek_error.mpr ⟨running, size, lacks, rfl⟩
    obtain rfl : t' = (s.poll t).2 := Option.some.inj (found'.symm.trans (step.look found))
    cases look_approaches found ahead (by rw [failed]; rintro ⟨⟩) with
    | arrives seen => cases seen.symm.trans failed
    | nears _ _ read closer ahead' =>
      refine ⟨_, _, found', explicit', ahead', ?_⟩
      rw [read]
      exact closer
    | halts _ _ same silent =>
      refine ⟨_, d, found', explicit', ?_, ?_⟩
      · rw [same, ahead]
      · rw [silent]
        exact Nat.le_refl d
  · refine ⟨t', d, found', explicit', ?_, ?_⟩
    · rw [change.ahead explicit looking, ahead]
    · rw [readBy_other looking]
      exact Nat.le_refl d

theorem obstructed_run (found : s.tailer? r = some t) (explicit : t.subscribed = false)
    (ahead : t.ahead? d = some p) (obstructed : Along (fun s _ => Obstructed r p s) s as) :
    (readBy (s.history as) r).length ≤ d := by
  induction as generalizing s t d with
  | nil => exact Nat.zero_le d
  | cons a as ih =>
    obtain ⟨t', d', found', explicit', ahead', closer⟩ :=
      obstructed_step found explicit ahead obstructed.1 a
    have later := ih found' explicit' ahead' obstructed.2
    simp only [history, readBy_append, List.length_append]
    omega

/-- What reads answer after a run. A look of a tailer that is whole answers as documented, unless it
is stuck or comes to a record that stops the program. If it is stuck, it tells of the partition and
leaves the tailer as it was; the tailer has had that partition since before its log was deleted. At
a record that stops the program, the tailer breaks: in the compact layout alone, but with any
partitions. In no other way does a tailer break, and one that has broken answers no look and, until
it is closed, no read, and consumes nothing any more.

Reads answer accordingly, and they do what runs of takeovers and looks do. The first part is never
refused. A read in one piece, or one that the first part ends, is stuck only if its tailer has given
partitions; the second part of one that is cut in two tells of a partition that is lacking, or
answers as documented.

As long as whatever is looked at can be read, be the other logs there or gone, and the tailer is
whole, a record that waits is read by one of the next looks, as many as there are partitions. But as
long as a tailer for given partitions has one that it cannot read, it reads fewer records than it
has partitions, however often it looks and whatever else is done. -/
structure ReadsAnswer (f : Fragile) (as : List Action) : Prop where
  looks : ∀ r t, (f.run as).store.tailer? r = some t → r ∉ (f.run as).broken →
    ((∃ answer, (f.run as).look r = some answer ∧ Documented answer) ↔
      (∀ p size, ¬(f.run as).store.Stuck t p size) ∧ ¬(f.run as).store.Oversized t)
  stuck : ∀ r t p size, (f.run as).store.tailer? r = some t → r ∉ (f.run as).broken →
    (f.run as).store.Stuck t p size →
    (f.run as).look r = some (.error (.outOfRange p size)) ∧
      ((f.run as).act (.look r)).store.tailer? r = some t ∧
      r ∉ ((f.run as).act (.look r)).broken ∧ OutlivesLog r p f.store (f.kept as)
  breaks : ∀ r t, (f.run as).store.tailer? r = some t → (f.run as).store.Oversized t →
    (f.run as).look r = none ∧ r ∈ ((f.run as).act (.look r)).broken ∧
      (defaultCodec t.codec = .binary ∨ ∃ schema, defaultCodec t.codec = .frame schema)
  broke : ∀ r, r ∈ (f.run as).broken → ∃ before after t, as = before ++ .look r :: after ∧
    (f.run before).store.tailer? r = some t ∧ (f.run before).store.Oversized t
  lasts : ∀ r during, r ∈ (f.run as).broken → r ∈ ((f.run as).run during).broken ∧
    readBy ((f.run as).history during) r = []
  silent : ∀ r, r ∈ (f.run as).broken → (f.run as).look r = none ∧
    ∀ t, (f.run as).store.openTailer r = .ok t → (f.run as).read r = none ∧
      ∀ patience, (f.run as).beginRead r patience = none ∧ ∀ pace reading,
        (∀ told, reading ≠ .ended told) → (f.run as).finishRead r patience pace reading = none
  performs : ∀ r, (f.run as).Performs r ((f.run as).look r) [.look r] ∧
    (∃ run, (f.run as).Performs r ((f.run as).read r) run) ∧ ∀ patience,
    (∃ run, (f.run as).Performs r (((f.run as).beginRead r patience).map Reading.answer) run) ∧
      ∀ pace reading, reading.answer = .ok none →
        ∃ run, (f.run as).Performs r ((f.run as).finishRead r patience pace reading) run
  takesOver : ∀ r t, (f.run as).store.openTailer r = .ok t →
    ∃ notices next, (f.run as).store.takeOver r = .ok (notices, next)
  reads : ∀ r t answer, (f.run as).store.openTailer r = .ok t →
    (f.run as).read r = some answer → (f.run as).store.Answers t answer
  begins : ∀ r t patience answer, (f.run as).store.openTailer r = .ok t →
    (f.run as).beginRead r patience = some (.ended answer) → (f.run as).store.Answers t answer
  finishes : ∀ r t patience pace reading answer, (f.run as).store.openTailer r = .ok t →
    (∀ told, reading ≠ .ended told) →
    (f.run as).finishRead r patience pace reading = some answer →
    Documented answer ∨
      ∃ p size, (f.run as).store.Lacks p size ∧ answer = .error (.outOfRange p size)
  serves : ∀ r t p e during, (f.run as).store.tailer? r = some t → p ∈ t.assignments →
    p ∉ t.stopped → (f.run as).store.endOffset p = .ok e → t.position p < e →
    Along (Undisturbed r p) (f.run as).store ((f.run as).kept during) →
    Along (Unobstructed r) (f.run as).store ((f.run as).kept during) →
    r ∉ ((f.run as).run during).broken → t.assignments.length ≤ countLooks r during →
    ∃ told, (⟨p, t.position p⟩, told) ∈ readBy ((f.run as).history during) r ∧
      Store.breaks told = false
  blocks : ∀ r t p during, (f.run as).store.tailer? r = some t → t.subscribed = false →
    p ∈ t.assignments →
    Along (fun s _ => Obstructed r p s) (f.run as).store ((f.run as).kept during) →
    (readBy ((f.run as).history during) r).length < t.assignments.length

theorem reads_answer (config : StoreConfig) (as : List Action) :
    ReadsAnswer { store := { config } } as := by
  generalize start : ({ store := { config } } : Fragile) = f
  have first : f.store = { config } := by rw [← start]
  have whole_first : ∀ r, r ∉ f.broken := by
    intro r
    rw [← start]
    exact List.not_mem_nil
  have reached : (f.run as).store = ({ config } : Store).run (f.kept as) := by
    rw [Fragile.run_store, first]
  have followed : Followed (f.run as).store := reached ▸ followed_start config _
  have assigned : Assigned (f.run as).store := reached ▸ assigned_run _
  constructor
  case looks => exact fun r t found whole => Fragile.look_documented_iff found whole
  case stuck =>
    intro r t p size found whole stuck
    obtain ⟨answer, same, fine⟩ := Fragile.look_stuck found whole stuck
    obtain ⟨k, reaches⟩ := stuck.2.2
    have held : Holds r p (({ config } : Store).run (f.kept as)) :=
      reached ▸ ⟨t, found, Tailer.ahead?_mem reaches.there⟩
    have absent : ¬(({ config } : Store).run (f.kept as)).HasPartition p :=
      reached ▸ stuck.2.1.absent
    have outlives := ((lingers_run config _).held held).resolve_left absent
    exact ⟨answer, same, fine, first ▸ outlives⟩
  case breaks =>
    intro r t found oversized
    have stops := (look_breaks found).mpr oversized
    refine ⟨?_, Fragile.mem_broken_act.mpr (.inr ⟨rfl, stops⟩), oversized.compact⟩
    rw [Fragile.look, heard_eq_none.mpr stops, ite_self]
  case broke =>
    intro r broken
    obtain ⟨before, after, split, -, stops⟩ :=
      (Fragile.mem_broken_run.mp broken).resolve_left (whole_first r)
    cases found : (f.run before).store.tailer? r with
    | none =>
      rw [look, found] at stops
      cases stops
    | some t => exact ⟨before, after, t, split, found, (look_breaks found).mp stops⟩
  case lasts =>
    intro r during broken
    exact ⟨Fragile.broken_run broken during, Fragile.readBy_broken broken during⟩
  case silent => exact fun r broken => Fragile.silent_of_broken broken
  case performs =>
    intro r
    refine ⟨Fragile.look_performs _ r, Fragile.read_performs _ r, fun patience =>
      ⟨Fragile.beginRead_performs _ r patience, ?_⟩⟩
    intro pace reading unfinished
    exact Fragile.finishRead_performs _ r patience pace unfinished
  case takesOver => exact fun r t opened => ⟨_, _, takeOver_ok opened⟩
  case reads =>
    intro r t answer opened told
    obtain ⟨fits, rfl⟩ := Fragile.read_some told
    exact answers_read followed assigned opened fits
  case begins =>
    intro r t patience answer opened ended
    obtain ⟨fits, rfl⟩ := Fragile.read_some (Fragile.beginRead_ended ended)
    exact answers_read followed assigned opened fits
  case finishes =>
    intro r t patience pace reading answer opened unfinished told
    obtain ⟨fits, rfl⟩ := Fragile.finishRead_some unfinished told
    rw [reached] at opened fits ⊢
    exact finishRead_lacks config _ patience pace unfinished opened fits
  case serves =>
    intro r t p e during found holds running there below allowed clear whole often
    obtain ⟨d, within, ahead⟩ := Tailer.exists_ahead holds
    have waits : Waits (f.run as).store r t p (t.position p) d :=
      ⟨found, running, rfl, (reach_of_endOffset there).symm ▸ below, ahead⟩
    rw [← countLooks_kept whole] at often
    obtain ⟨told, member⟩ := served_soon waits allowed clear (Nat.lt_of_lt_of_le within often)
    exact ⟨told, member, Fragile.fits_of_whole whole member⟩
  case blocks =>
    intro r t p during found explicit holds obstructed
    obtain ⟨d, within, ahead⟩ := Tailer.exists_ahead holds
    exact Nat.lt_of_le_of_lt (obstructed_run found explicit ahead obstructed) within

/-- A tailer for a partition of each of two logs, of which the first one is created again with fewer
partitions. -/
def shrinking : List Action :=
  [.create "events" 2, .create "others" 1, .openAppender "others" .string none,
    .createTailer "readers" [⟨"events", 1⟩, ⟨"others", 0⟩] .string none, .delete "events",
    .create "events" 1, .appendTo 0 0 (.text "m")]

theorem readBy_repeated (still : s.run as = s) (silent : readBy (s.history as) r = []) (n : Nat) :
    readBy (s.history (List.replicate n as).flatten) r = [] := by
  induction n with
  | zero => rfl
  | succ n ih =>
    rw [List.replicate_succ, List.flatten_cons, history_append, readBy_append, silent, still, ih]
    rfl

/-- A record waits in the other log, but every read fails, and none ever reads the record. -/
theorem shrinking_blocks :
    ((({} : Store).run shrinking).tailer? ⟨"readers", 0⟩).map (fun t =>
        (t.closed, t.assignments, t.stopped, t.position ⟨"others", 0⟩)) =
      some (false, [⟨"events", 1⟩, ⟨"others", 0⟩], [], 0) ∧
    (({} : Store).run shrinking).endOffset ⟨"others", 0⟩ = .ok 1 ∧
    ¬Documented ((({} : Store).run shrinking).read ⟨"readers", 0⟩).1 ∧
    ∀ n, readBy ((({} : Store).run shrinking).history
      (List.replicate n [.takeOver ⟨"readers", 0⟩, .look ⟨"readers", 0⟩]).flatten)
        ⟨"readers", 0⟩ = [] := by
  have still : (({} : Store).run shrinking).run
      [.takeOver ⟨"readers", 0⟩, .look ⟨"readers", 0⟩] = ({} : Store).run shrinking := by
    decide +kernel
  have silent : (readBy ((({} : Store).run shrinking).history
      [.takeOver ⟨"readers", 0⟩, .look ⟨"readers", 0⟩]) ⟨"readers", 0⟩).isEmpty = true := by
    decide +kernel
  refine ⟨by decide +kernel, ok_of_toOption (by decide +kernel), by decide +kernel, ?_⟩
  exact readBy_repeated still (List.isEmpty_iff.mp silent)

/-- A record in the fixed layout tells the compact one of a length that no memory holds. Its reader
breaks, and another record that waits is never read. -/
example :
    let reader : TailerRef := ⟨"readers", 0⟩
    let oversized : Message :=
      .record { key := "".pushn 'k' 128, watermark := 253, flags := .ofList [] }
    let f := ({} : Fragile).run [.create "events" 1, .openAppender "events" .record (some .fixed),
      .subscribe "readers" ["events"] .record none, .appendTo 0 0 oversized,
      .appendTo 0 0 (.record { key := "k" }), .takeOver reader]
    (f.read reader).isNone ∧ ((f.act (.look reader)).read reader).isNone ∧
      (((f.act (.look reader)).act (.closeTailer reader)).read reader).isSome := by decide +kernel

end Logbook.Store
