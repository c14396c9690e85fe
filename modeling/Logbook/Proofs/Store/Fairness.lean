import Logbook.Proofs.Store.Reach
import Logbook.Proofs.Store.Reading

/-! Nobody starves. Each record that a tailer consumes brings the round closer to every partition
that it has not come to, so that a record that waits in one of `n` partitions is among the next `n`
that are consumed. And where a read finds nothing, nothing was waiting. -/
namespace Logbook.Store

/-- What a tailer has read, in order: the offsets that it consumed, with what it was told. Every read
that hands out a record, or reports that a record cannot be decoded, adds one. -/
def readBy (past : List Event) (r : TailerRef) : List (Offset × Outcome Message) :=
  past.filterMap fun
    | .consumed q o told => if q = r then some (o, told) else none
    | .appended _ _ _ => none

/-- Nobody moves a tailer, it takes over no other generation, and the log of a partition is not
deleted. -/
def Undisturbed (r : TailerRef) (p : Partition) (s : Store) : Action → Prop
  | .toStart q | .toEnd q | .toLastCommitted q | .seek q _ => q ≠ r
  | .takeOver q => q = r → ∀ t, s.tailer? r = some t → t.subscribed = true →
      t.generation = (s.assignmentOf r).1
  | .delete name => p.log = name → (s.delete name).1 = false
  | _ => True

def Exhausted (s : Store) (r : TailerRef) : Prop :=
  ∀ t p e, s.tailer? r = some t → p ∈ t.assignments → p ∉ t.stopped → s.endOffset p = .ok e →
    e ≤ t.position p

variable {s s' : Store} {a : Action} {r : TailerRef} {t t' : Tailer} {p : Partition} {k d : Nat}

theorem readBy_append (past more : List Event) (r : TailerRef) :
    readBy (past ++ more) r = readBy past r ++ readBy more r :=
  List.filterMap_append

theorem readBy_consumed (r : TailerRef) (o : Offset) (told : Outcome Message) :
    readBy [.consumed r o told] r = [(o, told)] := by
  simp [readBy]

/-- Only a look of the tailer itself reads anything. -/
theorem readBy_other (other : a ≠ .look r) : readBy (s.events a) r = [] := by
  apply List.filterMap_eq_nil_iff.mpr
  intro e member
  cases e with
  | appended => rfl
  | consumed q o told =>
    apply if_neg
    rintro rfl
    exact other (consumed_look member).1

/-- What a look does about a partition to which it would come after so many others, if there is
something in it: it reads a record there, reads one of an earlier partition and is that much closer,
or comes no further than to a partition that it cannot read. -/
inductive Approaches (s : Store) (r : TailerRef) (t : Tailer) (p : Partition) (d : Nat) : Prop where
  | arrives {data : Bytes} : s.peek t p = .ok (some data) →
      readBy (s.events (.look r)) r = [(⟨p, t.position p⟩, t.tells data)] → Approaches s r t p d
  | nears {i d' : Nat} {q : Partition} {data : Bytes} {x : Offset × Outcome Message} : p ≠ q →
      (s.poll t).2 = (consume t i q data).2 → readBy (s.events (.look r)) r = [x] → d' < d →
      (s.poll t).2.ahead? d' = some p → Approaches s r t p d
  | halts {q : Partition} {e : LogFault} : q ∈ t.assignments → s.peek t q = .error e →
      (s.poll t).2 = t → readBy (s.events (.look r)) r = [] → Approaches s r t p d

theorem look_approaches (found : s.tailer? r = some t) (ahead : t.ahead? d = some p)
    (something : s.peek t p ≠ .ok none) : Approaches s r t p d := by
  cases look_ends found with
  | nothing idle => exact absurd (idle p (Tailer.ahead?_mem ahead)) something
  | @finds j q data reaches seen same _ event =>
    by_cases here : p = q
    · subst here
      exact .arrives seen (by rw [event, readBy_consumed])
    · -- the partition that is read comes before the other one
      have earlier : j < d := by
        rcases Nat.lt_trichotomy j d with earlier | rfl | later
        · exact earlier
        · exact absurd (Option.some.inj (ahead.symm.trans reaches.there)) here
        · exact absurd (reaches.idle d later p ahead) something
      have steps : j + 1 + (d - (j + 1)) = d := by omega
      have closer : d - (j + 1) < d := by omega
      refine .nears here same (by rw [event, readBy_consumed]) closer ?_
      rw [same, ahead?_consume, steps, ahead]
  | fails reaches stuck same _ silent =>
    exact .halts (Tailer.ahead?_mem reaches.there) stuck same (by rw [silent]; rfl)

/-! A record that waits. -/

structure Waits (s : Store) (r : TailerRef) (t : Tailer) (p : Partition) (k d : Nat) : Prop where
  found : s.tailer? r = some t
  running : p ∉ t.stopped
  position : t.position p = k
  below : k < s.reach p
  ahead : t.ahead? d = some p

theorem Waits.approaches (waits : Waits s r t p k d) : Approaches s r t p d := by
  apply look_approaches waits.found waits.ahead
  intro nothing
  obtain ⟨data, seen⟩ := peek_of_lt_reach waits.running (waits.position ▸ waits.below)
  cases nothing.symm.trans seen

/-- A look reads the record, or leaves it waiting and comes closer with what it reads instead. -/
theorem Waits.look (waits : Waits s r t p k d) :
    (∃ told, readBy (s.events (.look r)) r = [(⟨p, k⟩, told)]) ∨
      ∃ t' d', Waits (s.act (.look r)) r t' p k d' ∧
        d' + (readBy (s.events (.look r)) r).length ≤ d := by
  have further : s.reach p ≤ (s.act (.look r)).reach p :=
    ((effect s (.look r)).reach p).resolve_right fun deletes => by cases deletes.1
  have below : k < (s.act (.look r)).reach p := Nat.lt_of_lt_of_le waits.below further
  have found' := (effect s (.look r)).look waits.found
  cases waits.approaches with
  | arrives _ read =>
    rw [waits.position] at read
    exact .inl ⟨_, read⟩
  | @nears i d' q data x other same read closer ahead =>
    refine .inr ⟨_, d', ⟨found', ?_, ?_, below, ahead⟩, ?_⟩
    · rw [same]
      intro stops
      rcases mem_stopped_consume.mp stops with stopped | ⟨here, -⟩
      · exact waits.running stopped
      · exact other here
    · rw [same, position_consume, if_neg other, waits.position]
    · rw [read]
      exact closer
  | halts _ _ same silent =>
    rw [same] at found'
    rw [silent]
    exact .inr ⟨t, d, ⟨found', waits.running, waits.position, below, waits.ahead⟩, Nat.le_refl d⟩

/-- What is not a look leaves the record waiting. -/
theorem Waits.stays (waits : Waits s r t p k d) (allowed : Undisturbed r p s a)
    (other : a ≠ .look r) : ∃ t', Waits (s.act a) r t' p k d := by
  have step := effect s a
  have further : s.reach p ≤ (s.act a).reach p := by
    apply (step.reach p).resolve_right
    rintro ⟨rfl, deletes⟩
    cases deletes.symm.trans (allowed rfl)
  have below : k < (s.act a).reach p := Nat.lt_of_lt_of_le waits.below further
  obtain ⟨t', found', change⟩ := step.tailer waits.found
  cases change with
  | same | closes => exact ⟨_, found', waits.running, waits.position, below, waits.ahead⟩
  | turns turn =>
    cases turn with
    | follows =>
      have same : (s.follow r t).1 = t := by
        rcases follow_cases s r t with same | ⟨subscribed, moved, -⟩
        · exact same
        · exact absurd (allowed rfl t waits.found subscribed) moved
      rw [same] at found'
      exact ⟨t, found', waits.running, waits.position, below, waits.ahead⟩
    | looks => exact absurd rfl other
    | starts | returns | ends | seeks => exact absurd rfl allowed

/-- One step reads the record, or leaves it waiting and comes closer with what it reads instead. -/
theorem Waits.step (waits : Waits s r t p k d) (allowed : Undisturbed r p s a) :
    (∃ told, readBy (s.events a) r = [(⟨p, k⟩, told)]) ∨
      ∃ t' d', Waits (s.act a) r t' p k d' ∧ d' + (readBy (s.events a) r).length ≤ d := by
  by_cases looks : a = .look r
  · subst looks
    exact waits.look
  · obtain ⟨t', still⟩ := waits.stays allowed looks
    rw [readBy_other looks]
    exact .inr ⟨t', d, still, Nat.le_refl d⟩

/-- A run reads the record after no more others than lay before it, or leaves it waiting and has
come closer with everything that it has read. -/
theorem waits_run {as : List Action} (waits : Waits s r t p k d)
    (allowed : Along (Undisturbed r p) s as) :
    (∃ earlier told later, readBy (s.history as) r = earlier ++ (⟨p, k⟩, told) :: later ∧
        earlier.length ≤ d) ∨
      ∃ t' d', Waits (s.run as) r t' p k d' ∧ d' + (readBy (s.history as) r).length ≤ d := by
  induction as generalizing s t d with
  | nil => exact .inr ⟨t, d, waits, Nat.le_refl d⟩
  | cons a as ih =>
    simp only [history, readBy_append, run_cons]
    rcases waits.step allowed.1 with ⟨told, served⟩ | ⟨t', d', still, closer⟩
    · rw [served]
      exact .inl ⟨[], told, _, rfl, Nat.zero_le d⟩
    · rcases ih still allowed.2 with ⟨earlier, told, later, served, soon⟩ |
          ⟨t'', d'', waits', closest⟩
      · refine .inl ⟨readBy (s.events a) r ++ earlier, told, later, ?_, ?_⟩
        · rw [served, List.append_assoc]
        · rw [List.length_append]
          omega
      · refine .inr ⟨t'', d'', waits', ?_⟩
        rw [List.length_append]
        omega

/-! Reads that find nothing. -/

/-- A look that finds nothing leaves no record waiting. -/
theorem look_exhausted (looked : s.look r = (.ok none, s')) : Exhausted s' r := by
  intro u p e found' holds running there
  have nothing : (s.look r).1 = .ok none := by rw [looked]
  cases found : s.tailer? r with
  | none => simp [look, found] at nothing
  | some t =>
    have final : s' = s.setTailer r (s.poll t).2 := by
      rw [look, found] at looked
      exact (Prod.mk.inj looked).2.symm
    obtain ⟨same, idle⟩ : (s.poll t).2 = t ∧ ∀ p ∈ t.assignments, s.peek t p = .ok none := by
      cases look_ends found with
      | nothing idle same => exact ⟨same, idle⟩
      | finds _ _ _ answer =>
        rw [nothing] at answer
        cases told : t.tells _ <;> rw [told] at answer <;> cases answer
      | fails _ _ _ answer => cases nothing.symm.trans answer
    rw [final, found_setTailer found, same] at found'
    cases found'
    have ending : s.endOffset p = .ok e := by
      rw [final] at there
      exact there
    apply Nat.le_of_not_lt
    intro waiting
    obtain ⟨data, seen⟩ := peek_of_lt_reach running (reach_of_endOffset ending ▸ waiting)
    cases (idle p holds).symm.trans seen

/-- What a store owes to the partitions of a tailer. A record that waits in a running partition is
one of the next that the tailer reads, as many as it has partitions, whatever is appended meanwhile
and whatever else is done that leaves the tailer and the log alone. And a read that finds nothing,
whether it is cut in two or not, leaves no record waiting. -/
structure StarvesNobody (s : Store) : Prop where
  served : ∀ r t p e during, s.tailer? r = some t → p ∈ t.assignments → p ∉ t.stopped →
    s.endOffset p = .ok e → t.position p < e → Along (Undisturbed r p) s during →
    t.assignments.length ≤ (readBy (s.history during) r).length →
    ∃ told, (⟨p, t.position p⟩, told) ∈ (readBy (s.history during) r).take t.assignments.length
  reads : ∀ r, (s.read r).1 = .ok none → Exhausted (s.read r).2.2 r
  begins : ∀ r patience, (s.beginRead r patience).1 = .ended (.ok none) →
    Exhausted (s.beginRead r patience).2 r
  finishes : ∀ r patience pace reading, (∀ found, reading ≠ .ended found) →
    (s.finishRead r patience pace reading).1 = .ok none →
    Exhausted (s.finishRead r patience pace reading).2.2 r

/-- In every state, the looks of a tailer starve none of its partitions. -/
theorem starves_nobody (s : Store) : StarvesNobody s := by
  constructor
  case served =>
    intro r t p e during found holds running there below allowed many
    obtain ⟨d, within, ahead⟩ := Tailer.exists_ahead holds
    have waits : Waits s r t p (t.position p) d :=
      ⟨found, running, rfl, (reach_of_endOffset there).symm ▸ below, ahead⟩
    rcases waits_run waits allowed with ⟨earlier, told, later, served, soon⟩ | ⟨_, _, _, closer⟩
    · obtain ⟨m, long⟩ : ∃ m, t.assignments.length = earlier.length + (m + 1) :=
        ⟨t.assignments.length - earlier.length - 1, by omega⟩
      refine ⟨told, ?_⟩
      rw [served, long, List.take_length_add_append, List.take_succ_cons]
      exact List.mem_append_right _ List.mem_cons_self
    · omega
  case reads =>
    intro r nothing
    obtain ⟨s₀, looked⟩ := read_looked nothing
    exact look_exhausted looked
  case begins =>
    intro r patience nothing
    obtain ⟨s₀, looked⟩ := beginRead_looked nothing
    exact look_exhausted looked
  case finishes =>
    intro r patience pace reading unfinished nothing
    obtain ⟨s₀, looked⟩ := finishRead_looked unfinished nothing
    exact look_exhausted looked

/-- The last partition of a round waits for all the others. -/
example :
    let reader : TailerRef := ⟨"readers", 0⟩
    let events (index : Nat) : Partition := ⟨"events", index⟩
    let run : List Action := [.create "events" 3, .openAppender "events" .string none,
      .createTailer "readers" [events 0, events 1, events 2] .string none,
      .appendTo 0 2 (.text "a"), .appendTo 0 0 (.text "b"), .appendTo 0 0 (.text "c"),
      .appendTo 0 1 (.text "d"), .look reader, .look reader, .look reader]
    (readBy (({} : Store).history run) reader).map (·.1.partition) =
      [events 0, events 1, events 2] := by decide +kernel

end Logbook.Store
