import Logbook.Proofs.Store.Rotation

/-! What one look finds, what its reader is told, and how the positions of a tailer move. -/
namespace Logbook

namespace Tailer

/-- What the reader of a record is told: its message, or that it cannot be decoded. -/
def tells (t : Tailer) (data : Bytes) : Outcome Message :=
  ((defaultCodec t.codec).decode t.type data).mapError
    fun f => .codec (.decode (defaultCodec t.codec) f)

end Tailer

namespace Store

theorem consume_told (t : Tailer) (i : Nat) (p : Partition) (data : Bytes) :
    (consume t i p data).1.map (·.2) = t.tells data := by
  rw [consume_fst, Tailer.tells]
  cases (defaultCodec t.codec).decode t.type data <;> rfl

/-- A poison pill stops its partition, and other partitions stay as they are. -/
theorem mem_stopped_consume {t : Tailer} {i : Nat} {p q : Partition} {data : Bytes} :
    p ∈ (consume t i q data).2.stopped ↔
      p ∈ t.stopped ∨ p = q ∧ ∃ m, t.tells data = .ok m ∧ m.isPoisonPill = true := by
  rw [consume_snd, Tailer.tells]
  cases decoded : (defaultCodec t.codec).decode t.type data with
  | error f => simp
  | ok m =>
    by_cases pill : m.isPoisonPill <;> simp [pill, or_comm]

/-- A log of that name is there, but it has too few partitions. -/
def Lacks (s : Store) (p : Partition) (size : Nat) : Prop :=
  s.sizeOf? p.log = some size ∧ size ≤ p.index

variable {s s' : Store} {r : TailerRef} {t t' : Tailer} {a : Action}

theorem Lacks.unique {p : Partition} {size size' : Nat} (lacks : s.Lacks p size)
    (again : s.Lacks p size') : size' = size :=
  Option.some.inj (again.1.symm.trans lacks.1)

/-- A log that is there has the records of a partition, or it lacks the partition. -/
theorem records_cases {p : Partition} {l : Log} (log : s.log? p.log = some l) :
    ((∃ rs, l.records p.index = .ok rs) ∧ ∀ size, ¬s.Lacks p size) ∨
      (s.Lacks p l.size ∧ l.records p.index = .error (.outOfRange p l.size)) := by
  have sized : s.sizeOf? p.log = some l.size := by rw [sizeOf?, log, Option.map_some]
  by_cases within : p.index < l.size
  · left
    constructor
    · exact ⟨_, by rw [Log.records, List.getElem?_eq_getElem within]⟩
    · rintro size ⟨sized', few⟩
      rw [Option.some.inj (sized.symm.trans sized')] at within
      exact absurd within (Nat.not_lt.mpr few)
  · right
    have name : l.name = p.log := by simpa using List.find?_some log
    refine ⟨⟨sized, Nat.le_of_not_lt within⟩, ?_⟩
    rw [Log.records, List.getElem?_eq_none (Nat.le_of_not_lt within), name]

/-- A running partition that its log lacks cannot be read. -/
theorem peek_error {p : Partition} {e : LogFault} : s.peek t p = .error e ↔
    p ∉ t.stopped ∧ ∃ size, s.Lacks p size ∧ e = .outOfRange p size := by
  unfold peek
  by_cases stops : p ∈ t.stopped
  · simp [stops]
  · rw [if_neg fun member => stops (List.contains_iff_mem.mp member)]
    cases log : s.log? p.log with
    | none => simp [Lacks, sizeOf?, log]
    | some l =>
      rcases records_cases log with ⟨⟨rs, there⟩, free⟩ | ⟨lacks, missing⟩
      · simp [there, free, Except.map]
      · simp only [missing, Except.map, Except.error.injEq, stops, not_false_eq_true, true_and]
        constructor
        · rintro rfl
          exact ⟨l.size, lacks, rfl⟩
        · rintro ⟨size, again, rfl⟩
          rw [lacks.unique again]

/-- How a look ends: nothing is found in any partition, or the first one where there is something
else gives a record, which is consumed, or cannot be read. -/
inductive LookEnds (s : Store) (r : TailerRef) (t : Tailer) : Prop where
  | nothing : (∀ p ∈ t.assignments, s.peek t p = .ok none) → (s.poll t).2 = t →
      (s.look r).1 = .ok none → s.events (.look r) = [] → LookEnds s r t
  | finds {k : Nat} {p : Partition} {data : Bytes} : s.Reaches t k p →
      s.peek t p = .ok (some data) →
      (s.poll t).2 = (consume t ((t.next + k) % t.assignments.length) p data).2 →
      (s.look r).1 = (t.tells data).map (fun m => some (⟨p, t.position p⟩, m)) →
      s.events (.look r) = [.consumed r ⟨p, t.position p⟩ (t.tells data)] → LookEnds s r t
  | fails {k : Nat} {p : Partition} {e : LogFault} : s.Reaches t k p → s.peek t p = .error e →
      (s.poll t).2 = t → (s.look r).1 = .error e → s.events (.look r) = [] → LookEnds s r t

theorem look_ends (found : s.tailer? r = some t) : LookEnds s r t := by
  have answer : (s.look r).1 = (s.poll t).1 := by simp only [look, found]
  rcases round_cases s t with ⟨idle, first⟩ |
      ⟨k, p, reaches, ⟨data, seen, first⟩ | ⟨e, stuck, first⟩⟩
  · apply LookEnds.nothing idle
    · simp only [poll, first]
    · simp only [answer, poll, first]
    · simp only [events, lookEvents, found, first]
  · apply LookEnds.finds reaches seen
    · simp only [poll, first]
    · simp only [answer, poll, first, consume_fst, Tailer.tells]
      cases (defaultCodec t.codec).decode t.type data <;> rfl
    · simp only [events, lookEvents, found, first, consume_told]
  · apply LookEnds.fails reaches stuck
    · simp only [poll, first]
    · simp only [answer, poll, first]
    · simp only [events, lookEvents, found, first]

/-- A look consumes one record of an assigned partition, or leaves the tailer as it is. -/
theorem look_cases (found : s.tailer? r = some t) :
    (∃ i p data, p ∈ t.assignments ∧ s.peek t p = .ok (some data) ∧
      (s.poll t).2 = (consume t i p data).2 ∧
      (s.look r).1 = (t.tells data).map (fun m => some (⟨p, t.position p⟩, m)) ∧
      s.events (.look r) = [.consumed r ⟨p, t.position p⟩ (t.tells data)]) ∨
    ((s.poll t).2 = t ∧ s.events (.look r) = [] ∧
      ((s.look r).1 = .ok none ∧ (∀ p ∈ t.assignments, s.peek t p = .ok none) ∨
        ∃ p size, (s.look r).1 = .error (.outOfRange p size))) := by
  cases look_ends found with
  | nothing idle same answer silent => exact .inr ⟨same, silent, .inl ⟨answer, idle⟩⟩
  | finds reaches seen same answer event =>
    exact .inl ⟨_, _, _, Tailer.ahead?_mem reaches.there, seen, same, answer, event⟩
  | fails _ stuck same answer silent =>
    obtain ⟨-, size, -, rfl⟩ := peek_error.mp stuck
    exact .inr ⟨same, silent, .inr ⟨_, size, answer⟩⟩

theorem appendEvents_appended {x index : Nat} {m : Message} {e : Event}
    (member : e ∈ s.appendEvents x index m) : ∃ log o data, e = .appended log o data := by
  unfold appendEvents at member
  split at member
  · simp at member
  · split at member
    · exact ⟨_, _, _, List.mem_singleton.mp member⟩
    · simp at member

/-- An offset is consumed by a look, whose answer tells of it. -/
theorem consumed_look {o : Offset} {told : Outcome Message}
    (member : .consumed r o told ∈ s.events a) :
    a = .look r ∧ (s.look r).1 = told.map (fun m => some (o, m)) ∧
      ∃ t data, s.tailer? r = some t ∧ o.partition ∈ t.assignments ∧
        s.peek t o.partition = .ok (some data) ∧ o.position = t.position o.partition ∧
        told = t.tells data := by
  cases a with
  | look q =>
    cases found : s.tailer? q with
    | none => simp [events, lookEvents, found] at member
    | some t =>
      rcases look_cases found with ⟨i, p, data, holds, seen, -, answer, event⟩ | ⟨-, silent, -⟩
      · rw [event, List.mem_singleton] at member
        cases member
        exact ⟨rfl, answer, t, data, found, holds, seen, rfl, rfl⟩
      · simp [silent] at member
  | append x key m =>
    simp only [events] at member
    split at member
    · obtain ⟨_, _, _, same⟩ := appendEvents_appended member
      cases same
    · simp at member
  | appendTo x index m =>
    obtain ⟨_, _, _, same⟩ := appendEvents_appended member
    cases same
  | _ => simp [events] at member

/-- A position moves by one when its offset is consumed, otherwise to the start, to the committed
offset, or where the tailer was told to go on. -/
theorem Change.position (found : s.tailer? r = some t) (change : Change s r t a t')
    (p : Partition) :
    t'.position p = t.position p ∨ t'.position p = 0 ∨
      t'.position p = (s.committed? r.group p).getD 0 ∨
      (t'.position p = t.position p + 1 ∧
        ∃ data, s.events a = [.consumed r ⟨p, t.position p⟩ (t.tells data)]) ∨
      a = .toEnd r ∨ ∃ o, a = .seek r o := by
  cases change with
  | same => exact .inl rfl
  | closes => exact .inl rfl
  | turns turn =>
    cases turn with
    | seeks o => exact .inr (.inr (.inr (.inr (.inr ⟨o, rfl⟩))))
    | ends => exact .inr (.inr (.inr (.inr (.inl rfl))))
    | starts =>
      rw [Tailer.position_moveAll]
      split
      · exact .inr (.inl rfl)
      · exact .inl rfl
    | returns =>
      rw [Tailer.position_moveAll]
      split
      · exact .inr (.inr (.inl rfl))
      · exact .inl rfl
    | looks =>
      rcases look_cases found with ⟨i, q, data, -, -, same, -, event⟩ | ⟨same, -, -⟩
      · rw [same, position_consume]
        by_cases here : p = q
        · subst here
          exact .inr (.inr (.inr (.inl ⟨if_pos rfl, data, event⟩)))
        · exact .inl (if_neg here)
      · exact .inl (by rw [same])
    | follows =>
      rcases follow_position s r t p with kept | start | committed
      · exact .inl kept
      · exact .inr (.inl start)
      · exact .inr (.inr (.inl committed))

end Store

end Logbook
