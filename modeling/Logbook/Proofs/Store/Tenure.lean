import Logbook.Proofs.Store.Looking

/-! Tenures: the offsets that a tailer consumes from the action that gives it a partition to the one
that takes the partition away. -/
namespace Logbook.Store

def Holds (r : TailerRef) (p : Partition) (s : Store) : Prop :=
  ∃ t, s.tailer? r = some t ∧ p ∈ t.assignments

/-- Nobody moves a tailer, and no log is deleted of which it has a partition. -/
def LeavesAlone (r : TailerRef) (s : Store) : Action → Prop
  | .toStart q | .toEnd q | .toLastCommitted q | .seek q _ => q ≠ r
  | .delete name => (s.delete name).1 = true → ∀ p, Holds r p s → p.log ≠ name
  | _ => True

def consumedBy (past : List Event) (r : TailerRef) (p : Partition) : List Nat :=
  past.filterMap fun
    | .consumed q o _ => if q = r ∧ o.partition = p then some o.position else none
    | .appended _ _ _ => none

variable {s s' : Store} {a : Action} {r : TailerRef} {t t' : Tailer} {p : Partition}
  {past : List Event}

theorem Effect.look (step : Effect s (.look r) s') (found : s.tailer? r = some t) :
    s'.tailer? r = some (s.poll t).2 := by
  have cases := look_cases found
  cases step with
  | keeps _ silent =>
    rcases cases with ⟨i, q, data, -, -, -, -, event⟩ | ⟨same, -, -⟩
    · cases silent.symm.trans event
    · rw [same, found]
  | appends _ _ _ appended =>
    rcases cases with ⟨i, q, data, -, -, -, -, event⟩ | ⟨-, silent, -⟩
    · cases appended.symm.trans event
    · cases silent.symm.trans appended
  | turns there turn =>
    cases turn with
    | looks =>
      cases Option.some.inj (there.symm.trans found)
      exact found_setTailer found _
  | commits _ _ commits => cases commits

theorem consumedBy_append (past more : List Event) (r : TailerRef) (p : Partition) :
    consumedBy (past ++ more) r p = consumedBy past r p ++ consumedBy more r p :=
  List.filterMap_append

/-- Only a look of the tailer itself consumes anything. -/
theorem consumedBy_other (other : a ≠ .look r) (p : Partition) :
    consumedBy (s.events a) r p = [] := by
  apply List.filterMap_eq_nil_iff.mpr
  intro e member
  cases e with
  | appended => rfl
  | consumed q o told =>
    apply if_neg
    rintro ⟨rfl, -⟩
    exact other (consumed_look member).1

/-- A tailer that takes over keeps its position in a partition that it keeps. -/
theorem position_follow_kept (holds : p ∈ t.assignments)
    (keeps : p ∈ (s.follow r t).1.assignments) :
    (s.follow r t).1.position p = t.position p := by
  rcases follow_cases s r t with same | ⟨subscribed, moved, same⟩
  · rw [same]
  · have assigned : p ∈ (s.assignmentOf r).2 := by
      rw [same] at keeps
      exact keeps
    have position := Tailer.position_follow t (s.assignmentOf r).1 (s.assignmentOf r).2
      (s.committed? r.group) moved p
    rw [if_neg fun gained => (Tailer.mem_gained.mp gained).2 holds,
      if_neg fun lost => (Tailer.mem_lost.mp lost).2 assigned] at position
    rw [← position, follow, if_pos subscribed]

/-- One look consumes the offset at the position in a partition, or nothing of the partition. -/
theorem look_consumes_next (found : s.tailer? r = some t) (p : Partition) :
    ∃ n, consumedBy (s.events (.look r)) r p = List.range' (t.position p) n ∧
      (s.poll t).2.position p = t.position p + n := by
  rcases look_cases found with ⟨i, q, data, -, -, same, -, event⟩ | ⟨same, silent, -⟩
  · rw [same, position_consume, event]
    by_cases here : p = q
    · subst here
      exact ⟨1, by simp [consumedBy], if_pos rfl⟩
    · exact ⟨0, by simp [consumedBy, Ne.symm here], if_neg here⟩
  · rw [same, silent]
    exact ⟨0, rfl, rfl⟩

/-- One step within a tenure consumes the next offset, or nothing of the partition. -/
theorem Effect.consumes (step : Effect s a s') (alone : LeavesAlone r s a)
    (found : s.tailer? r = some t) (holds : p ∈ t.assignments) :
    ∃ n t', s'.tailer? r = some t' ∧
      consumedBy (s.events a) r p = List.range' (t.position p) n ∧
      (p ∈ t'.assignments → t'.position p = t.position p + n) := by
  by_cases looks : a = .look r
  · subst looks
    obtain ⟨n, consumed, moved⟩ := look_consumes_next found p
    exact ⟨n, _, step.look found, consumed, fun _ => moved⟩
  · obtain ⟨t', there, change⟩ := step.tailer found
    refine ⟨0, t', there, consumedBy_other looks p, fun keeps => ?_⟩
    cases change with
    | same | closes => rfl
    | turns turn =>
      cases turn with
      | looks => exact absurd rfl looks
      | follows => exact position_follow_kept holds keeps
      | starts | returns | ends | seeks => exact absurd rfl alone

/-- All that is consumed during a tenure are the offsets from its first position to its last. -/
theorem consumes_run {as : List Action} (alone : Along (LeavesAlone r) s as)
    (tenure : Along (fun s _ => Holds r p s) s as) (found : s.tailer? r = some t) :
    ∃ n, consumedBy (s.history as) r p = List.range' (t.position p) n ∧
      ∀ t', (s.run as).tailer? r = some t' → p ∈ t'.assignments →
        t'.position p = t.position p + n := by
  -- over the tenure: the position of the tailer is the offset that it consumes next
  induction as generalizing s t with
  | nil =>
    refine ⟨0, rfl, fun t' found' _ => ?_⟩
    cases Option.some.inj (found'.symm.trans found)
    rfl
  | cons a as ih =>
    obtain ⟨u, there, holds⟩ := tenure.1
    cases Option.some.inj (there.symm.trans found)
    obtain ⟨n, v, found', consumed, moved⟩ := (effect s a).consumes alone.1 found holds
    obtain ⟨m, later, last⟩ := ih alone.2 tenure.2 found'
    rw [history, consumedBy_append, consumed, later]
    cases as with
    | nil =>
      refine ⟨n, ?_, fun t' final member => ?_⟩
      · rw [← later]
        exact List.append_nil _
      · cases Option.some.inj (found'.symm.trans final)
        exact moved member
    | cons b bs =>
      obtain ⟨w, same, keeps⟩ := tenure.2.1
      cases Option.some.inj (same.symm.trans found')
      refine ⟨n + m, ?_, fun t' final member => ?_⟩
      · rw [moved keeps]
        exact List.range'_append_1
      · rw [last t' final member, moved keeps, Nat.add_assoc]

/-- A tailer gets partitions by taking over, and goes on where the group has committed. -/
theorem Change.gains (change : Change s r t a t') (absent : p ∉ t.assignments)
    (gained : p ∈ t'.assignments) : a = .takeOver r ∧ p ∈ (s.assignmentOf r).2 ∧
      t'.position p = (s.committed? r.group p).getD 0 := by
  rcases change.kept.2.2 with same | ⟨subscribed, rfl⟩
  · exact absurd (same ▸ gained) absent
  · cases change with
    | same => exact absurd gained absent
    | closes _ impossible => cases impossible
    | turns turn =>
      cases turn with
      | follows =>
        rcases follow_cases s r t with same | ⟨_, moved, same⟩
        · rw [same] at gained
          exact absurd gained absent
        · have assigned : p ∈ (s.assignmentOf r).2 := by
            rw [same] at gained
            exact gained
          refine ⟨rfl, assigned, ?_⟩
          rw [follow, if_pos subscribed, Tailer.position_follow _ _ _ _ moved,
            if_pos (Tailer.mem_gained.mpr ⟨assigned, absent⟩)]

/-- A tenure begins where the group has committed. -/
theorem Effect.begins (step : Effect s a s') (before : ¬Holds r p s)
    (found : s'.tailer? r = some t') (holds : p ∈ t'.assignments) :
    t'.position p = (s.committed? r.group p).getD 0 := by
  cases there : s.tailer? r with
  | none =>
    rcases step.newTailer there with absent | ⟨ps, _, _, _, _, new⟩ | ⟨_, _, _, _, new⟩
    · cases absent.symm.trans found
    · cases Option.some.inj (new.symm.trans found)
      rw [Store.newTailer, Tailer.place_eq] at holds
      exact (Tailer.position_place _ ps _ p).trans (if_pos holds)
    · cases Option.some.inj (new.symm.trans found)
      cases holds
  | some t =>
    have change := step.change there found
    exact (change.gains (fun member => before ⟨t, there, member⟩) holds).2.2

end Logbook.Store
