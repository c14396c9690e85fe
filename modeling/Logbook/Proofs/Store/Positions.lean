import Logbook.Proofs.Lookup
import Logbook.Store.Positioning

/-! What the operations of a tailer do to its positions, and what they leave as it is. -/
namespace Logbook.Tailer

def position? (t : Tailer) (p : Partition) : Option Nat := t.positions.lookup p

theorem position_eq (t : Tailer) (p : Partition) : t.position p = (t.position? p).getD 0 := rfl

theorem position?_setPosition (t : Tailer) (p q : Partition) (k : Nat) :
    (t.setPosition p k).position? q = if q = p then some k else t.position? q := by
  by_cases same : q = p
  · simp [setPosition, position?, same]
  · simp only [setPosition, position?, List.lookup_cons, beq_false_of_ne same, lookup_filter_ne,
      if_neg same]

theorem position_setPosition (t : Tailer) (p q : Partition) (k : Nat) :
    (t.setPosition p k).position q = if q = p then k else t.position q := by
  rw [position_eq, position?_setPosition]
  split <;> rfl

def place (t : Tailer) (ps : List Partition) (f : Partition → Nat) : Tailer :=
  ps.foldl (fun t p => t.setPosition p (f p)) t

theorem place_cons (t : Tailer) (p : Partition) (ps : List Partition) (f : Partition → Nat) :
    t.place (p :: ps) f = (t.setPosition p (f p)).place ps f := rfl

theorem position?_place (t : Tailer) (ps : List Partition) (f : Partition → Nat) (q : Partition) :
    (t.place ps f).position? q = if q ∈ ps then some (f q) else t.position? q := by
  induction ps generalizing t with
  | nil => simp [place]
  | cons p rest ih =>
    rw [place_cons, ih, position?_setPosition]
    by_cases later : q ∈ rest
    · simp [later]
    · by_cases here : q = p <;> simp [later, here]

theorem position_place (t : Tailer) (ps : List Partition) (f : Partition → Nat) (q : Partition) :
    (t.place ps f).position q = if q ∈ ps then f q else t.position q := by
  rw [position_eq, position?_place]
  split <;> rfl

/-- Nothing but positions changes. -/
theorem place_eq (t : Tailer) (ps : List Partition) (f : Partition → Nat) :
    t.place ps f = { t with positions := (t.place ps f).positions } := by
  induction ps generalizing t with
  | nil => rfl
  | cons p rest ih =>
    rw [place_cons, ih]
    rfl

def moveAll (t : Tailer) (f : Partition → Nat) : Tailer :=
  { t.place t.assignments f with stopped := [] }

theorem position_moveAll (t : Tailer) (f : Partition → Nat) (q : Partition) :
    (t.moveAll f).position q = if q ∈ t.assignments then f q else t.position q :=
  position_place t t.assignments f q

theorem position?_forget (t : Tailer) (ps : List Partition) (q : Partition) :
    (t.forget ps).position? q = if q ∈ ps then none else t.position? q := by
  simp only [position?, forget, lookup_filter_key t.positions (fun p => !ps.contains p)]
  by_cases gone : q ∈ ps <;> simp [gone]

theorem mem_lost {t : Tailer} {assigned : List Partition} {q : Partition} :
    q ∈ t.lost assigned ↔ q ∈ t.assignments ∧ q ∉ assigned := by
  simp [lost]

theorem mem_gained {t : Tailer} {assigned : List Partition} {q : Partition} :
    q ∈ t.gained assigned ↔ q ∈ assigned ∧ q ∉ t.assignments := by
  simp [gained]

variable (t : Tailer) (generation : Nat) (assigned : List Partition)
  (committed? : Partition → Option Nat)

theorem follow_current (current : t.generation = generation) :
    (t.follow generation assigned committed?).1 = t := by
  simp [follow, current]

theorem follow_moved (moved : t.generation ≠ generation) :
    (t.follow generation assigned committed?).1 =
      { (t.forget (t.lost assigned)).place (t.gained assigned) fun p => (committed? p).getD 0 with
        generation, assignments := assigned, next := 0 } := by
  simp only [follow, if_neg moved]
  rfl

/-- New partitions start where the group has committed, partitions that are kept stay where they
were, and the position in any other is forgotten, if there was one. -/
theorem position?_follow (moved : t.generation ≠ generation) (q : Partition) :
    (t.follow generation assigned committed?).1.position? q =
      if q ∈ t.gained assigned then some ((committed? q).getD 0)
      else if q ∈ t.lost assigned then none else t.position? q := by
  rw [follow_moved t generation assigned committed? moved]
  exact (position?_place _ _ _ q).trans (by rw [position?_forget])

theorem position_follow (moved : t.generation ≠ generation) (q : Partition) :
    (t.follow generation assigned committed?).1.position q =
      if q ∈ t.gained assigned then (committed? q).getD 0
      else if q ∈ t.lost assigned then 0 else t.position q := by
  rw [position_eq, position?_follow t generation assigned committed? moved]
  split
  · rfl
  · split <;> rfl

end Logbook.Tailer

namespace Logbook.Store

/-- A tailer after a record was consumed: one step further in its partition, which a poison pill
stops. -/
theorem consume_snd (t : Tailer) (i : Nat) (p : Partition) (data : Bytes) :
    (consume t i p data).2 =
      { t.setPosition p (t.position p + 1) with
        next := (i + 1) % t.assignments.length
        stopped := match (defaultCodec t.codec).decode t.type data with
          | .ok m => if m.isPoisonPill then p :: t.stopped else t.stopped
          | .error _ => t.stopped } := by
  cases decoded : (defaultCodec t.codec).decode t.type data <;>
    simp [consume, decoded, Tailer.setPosition]

theorem consume_fst (t : Tailer) (i : Nat) (p : Partition) (data : Bytes) :
    (consume t i p data).1 =
      match (defaultCodec t.codec).decode t.type data with
      | .ok m => .ok (⟨p, t.position p⟩, m)
      | .error f => .error (.codec (.decode (defaultCodec t.codec) f)) := by
  cases decoded : (defaultCodec t.codec).decode t.type data <;> simp [consume, decoded]

theorem position_consume (t : Tailer) (i : Nat) (p : Partition) (data : Bytes) (q : Partition) :
    (consume t i p data).2.position q = if q = p then t.position p + 1 else t.position q := by
  rw [consume_snd]
  exact Tailer.position_setPosition t p q _

theorem poll_snd (s : Store) (t : Tailer) :
    (s.poll t).2 = match s.firstRecord t t.lookOrder with
      | .ok (some (i, p, data)) => (consume t i p data).2
      | _ => t := by
  unfold poll
  split <;> simp_all

/-- Moving to the ends changes positions and stopped partitions, also where it fails. -/
theorem moveToEnds_eq (s : Store) (t : Tailer) (ps : List Partition) :
    ∃ positions stopped, (s.moveToEnds t ps).2 = { t with positions, stopped } := by
  induction ps generalizing t with
  | nil => exact ⟨t.positions, [], rfl⟩
  | cons p rest ih =>
    cases found : s.endOrStart p with
    | error e => exact ⟨t.positions, t.stopped, by simp [moveToEnds, found]⟩
    | ok position =>
      obtain ⟨positions, stopped, same⟩ := ih (t.setPosition p position)
      exact ⟨positions, stopped, by simp only [moveToEnds, found, same]; rfl⟩

end Logbook.Store
