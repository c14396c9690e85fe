import Mathlib.Algebra.BigOperators.Group.List.Lemmas
import Mathlib.Algebra.GroupWithZero.Nat
import Logbook.Proofs.Store.Deletion
import Logbook.Proofs.Store.Incarnations

/-! What a run adds up to. As long as no log is deleted, a partition ends behind as many records as
were appended to it, and what is on record for a group is what it has committed last. -/
namespace Logbook.Store

/-- No log is deleted, and nobody moves a tailer to an offset of the caller's. -/
def Accumulates (s : Store) : Action → Prop
  | .delete name => (s.delete name).1 = false
  | .seek _ _ => False
  | _ => True

def appendedTo (past : List Event) : List Partition :=
  past.filterMap fun
    | .appended _ o _ => some o.partition
    | .consumed _ _ _ => none

def commits (s : Store) : Action → List (GroupPartition × Nat)
  | .commit r =>
    match s.openTailer r with
    | .ok t => t.assignments.map fun p => (⟨r.group, p⟩, t.position p)
    | .error _ => []
  | .commitPartition r p =>
    match s.commitPartition r p with
    | .ok (o, _) => [(⟨r.group, o.partition⟩, o.position)]
    | .error _ => []
  | _ => []

def commitsOf (s : Store) : List Action → List (GroupPartition × Nat)
  | [] => []
  | a :: as => s.commits a ++ (s.act a).commitsOf as

/-- The offset that a run has committed last for a group in a partition. -/
def lastCommit? (s : Store) (as : List Action) (group : String) (p : Partition) : Option Nat :=
  (s.commitsOf as).reverse.lookup ⟨group, p⟩

instance decidableAccumulates (s : Store) : DecidablePred (Accumulates s)
  | .delete name => inferInstanceAs (Decidable ((s.delete name).1 = false))
  | .seek _ _ => inferInstanceAs (Decidable False)
  | .create _ _ | .openAppender _ _ _ | .append _ _ _ | .appendTo _ _ _ | .closeAppender _
  | .createTailer _ _ _ _ | .subscribe _ _ _ _ | .takeOver _ | .look _ | .commit _
  | .commitPartition _ _ | .toStart _ | .toEnd _ | .toLastCommitted _ | .closeTailer _
  | .setFaults _ _ => inferInstanceAs (Decidable True)

variable {s s' : Store} {a : Action} {as : List Action} {past : List Event} {p : Partition}
  {group : String} {e : Nat}

theorem Accumulates.neverSeeks (accumulates : Accumulates s a) : NeverSeeks s a := by
  cases a with
  | seek => exact accumulates.elim
  | _ => trivial

theorem Accumulates.spares (accumulates : Accumulates s a) (p : Partition) : ¬Deletes p s a := by
  rintro ⟨rfl, deletes⟩
  cases deletes.symm.trans accumulates

/-! Records. -/

theorem appendedTo_append (past more : List Event) :
    appendedTo (past ++ more) = appendedTo past ++ appendedTo more :=
  List.filterMap_append

theorem appendedTo_lookEvents (s : Store) (r : TailerRef) : appendedTo (s.lookEvents r) = [] := by
  unfold lookEvents
  split
  · rfl
  · split <;> rfl

/-- The end of a partition moves by what is appended to it. -/
theorem Effect.ends (step : Effect s a s') (named : Named s)
    (distinct : (s.logs.map Log.number).Nodup) (accumulates : Accumulates s a) (p : Partition) :
    s'.reach p = s.reach p + (appendedTo (s.events a)).count p := by
  have same (logs : s'.logs = s.logs) (silent : appendedTo (s.events a) = []) :
      s'.reach p = s.reach p + (appendedTo (s.events a)).count p := by
    rw [silent, reach_eq, reach_eq, log?, log?, logs]
    rfl
  cases step with
  | keeps _ silent => exact same rfl (by rw [silent]; rfl)
  | @creates name size _ absent =>
    have silent : appendedTo (s.events (.create name size)) = [] := rfl
    rw [silent, reach_eq, reach_eq, log?_creates]
    by_cases here : name = p.log
    · subst here
      rw [absent, if_pos rfl, Option.none_or, Option.bind_some, List.getElem?_replicate]
      split <;> rfl
    · rw [if_neg here, Option.or_none]
      rfl
  | deletes allowed there => cases (delete_eq_true allowed there).symm.trans accumulates
  | @appends _ _ index w l records data _ found there event =>
    have member := List.mem_of_find?_eq_some found
    have target : appendedTo (s.events a) = [⟨l.name, index⟩] := by rw [event]; rfl
    rw [target, List.count_singleton, reach_eq, reach_eq, log?_putRecord]
    by_cases here : p.log = l.name
    · rw [here, named.log? member, Option.map_some, if_pos rfl, Option.bind_some, Option.bind_some,
        Log.partitions_push]
      by_cases place : p.index = index
      · have hit : (⟨l.name, index⟩ : Partition) = p := by rw [← here, ← place]
        rw [place, there, if_pos (beq_iff_eq.mpr hit)]
        simp
      · have miss : (⟨l.name, index⟩ : Partition) ≠ p := fun hit => place (hit ▸ rfl)
        rw [if_neg (by simpa using miss)]
        cases l.partitions[p.index]? with
        | none => rfl
        | some rs => simp [Ne.symm place]
    · have miss : (⟨l.name, index⟩ : Partition) ≠ p := fun hit => here (hit ▸ rfl)
      rw [if_neg (by simpa using miss)]
      cases other : s.log? p.log with
      | none => rfl
      | some k =>
        have apart : k.number ≠ l.number := by
          intro number
          obtain ⟨member', name⟩ := log?_mem other
          rw [List.inj_on_of_nodup_map distinct member' member number] at name
          exact here name.symm
        rw [Option.map_some, if_neg apart]
        rfl
  | turns _ turn =>
    refine same rfl ?_
    cases turn with
    | looks => exact appendedTo_lookEvents s _
    | _ => rfl
  | commits _ _ commits =>
    refine same ?_ ?_
    · rw [foldl_commit_eq]
    · cases commits <;> rfl
  | leaves =>
    refine same ?_ rfl
    rw [leaveGroup_eq]
    rfl
  | opensAppender | closesAppender | refusesTailer | createsTailer | subscribes | closesTailer
  | setsFaults => exact same rfl rfl

/-- What is appended to is there. -/
theorem Effect.appendsThere (step : Effect s a s') (named : Named s)
    (member : p ∈ appendedTo (s.events a)) : s.HasPartition p := by
  cases step with
  | keeps _ silent => rw [silent] at member; cases member
  | @appends _ _ index w l records data _ found there event =>
    rw [event] at member
    obtain rfl : p = ⟨l.name, index⟩ := List.mem_singleton.mp member
    exact ⟨l, named.log? (List.mem_of_find?_eq_some found), (List.getElem?_eq_some_iff.mp there).1⟩
  | turns _ turn =>
    cases turn with
    | looks =>
      rw [show s.events (.look _) = s.lookEvents _ from rfl, appendedTo_lookEvents] at member
      cases member
    | _ => cases member
  | commits _ _ commits => cases commits <;> cases member
  | _ => cases member

structure Tallied (s : Store) (past : List Event) : Prop where
  ends : ∀ p, s.reach p = (appendedTo past).count p
  there : ∀ p ∈ appendedTo past, s.HasPartition p

theorem Tallied.step (tallied : Tallied s past) (named : Named s) (recorded : Recorded s past)
    (accumulates : Accumulates s a) : Tallied (s.act a) (past ++ s.events a) := by
  have step := effect s a
  constructor
  case ends =>
    intro p
    rw [step.ends named recorded.distinct accumulates p, tallied.ends, appendedTo_append,
      List.count_append]
  case there =>
    intro p member
    rw [appendedTo_append, List.mem_append] at member
    apply step.keepsPartition ?_ (accumulates.spares p)
    rcases member with before | now
    · exact tallied.there p before
    · exact step.appendsThere named now

theorem tallied_run {config : StoreConfig}
    (accumulates : Along Accumulates ({ config } : Store) as) :
    Tallied (({ config } : Store).run as) (({ config } : Store).history as) := by
  have start : Recorded ({ config } : Store) [] ∧ Named ({ config } : Store) ∧
      Tallied ({ config } : Store) [] :=
    ⟨recorded_run [], named_run [], fun _ => rfl, fun _ member => by cases member⟩
  exact (@run_invariant (fun s past => Recorded s past ∧ Named s ∧ Tallied s past) _
    (fun all now => ⟨all.1.step (effect _ _), all.2.1.step all.1 (effect _ _),
      all.2.2.step all.2.1 all.1 now⟩) _ [] as start accumulates).2.2

theorem mem_allOf {name : String} {size : Nat} :
    p ∈ Partition.allOf name size ↔ p.log = name ∧ p.index < size := by
  rw [Partition.allOf, List.mem_map]
  constructor
  · rintro ⟨index, below, rfl⟩
    exact ⟨rfl, List.mem_range.mp below⟩
  · rintro ⟨rfl, below⟩
    exact ⟨p.index, List.mem_range.mpr below, rfl⟩

theorem nodup_allOf (name : String) (size : Nat) : (Partition.allOf name size).Nodup :=
  List.nodup_range.map fun _ _ same => congrArg Partition.index same

/-- The records of a log are those of its partitions. -/
theorem sum_count_allOf {name : String} {size : Nat} {ps : List Partition}
    (within : ∀ p ∈ ps, p.log = name → p.index < size) :
    ((Partition.allOf name size).map ps.count).sum = ps.countP (·.log = name) := by
  induction ps with
  | nil => simp
  | cons q ps ih =>
    have one : ((Partition.allOf name size).map fun p => if q == p then 1 else 0).sum =
        if q.log = name then 1 else 0 := by
      rw [List.sum_map_eq_nsmul_single q _ fun p other _ => if_neg (by simpa using Ne.symm other)]
      by_cases here : q.log = name
      · have member := mem_allOf.mpr ⟨here, within q List.mem_cons_self here⟩
        rw [List.count_eq_one_of_mem (nodup_allOf name size) member, if_pos here]
        simp
      · have missing : q ∉ Partition.allOf name size := fun member => here (mem_allOf.mp member).1
        rw [List.count_eq_zero_of_not_mem missing, if_neg here]
        simp
    simp only [List.count_cons, List.sum_map_add, one, List.countP_cons, decide_eq_true_eq]
    rw [ih fun p member => within p (List.mem_cons_of_mem q member)]

/-! Commits. -/

/-- On record after some commits is the last one of the partition. -/
theorem committed?_commits (s : Store) (group g : String) (ps : List Partition)
    (f : Partition → Nat) (q : Partition) :
    (ps.foldl (fun s p => s.commit group p (f p)) s).committed? g q =
      ((ps.map fun p => ((⟨group, p⟩ : GroupPartition), f p)).reverse.lookup ⟨g, q⟩).or
        (s.committed? g q) := by
  induction ps generalizing s with
  | nil => rfl
  | cons p rest ih =>
    rw [List.foldl_cons, ih, committed?_commit, List.map_cons, List.reverse_cons,
      List.lookup_append, Option.or_assoc, List.lookup_cons]
    by_cases here : g = group ∧ q = p
    · obtain ⟨rfl, rfl⟩ := here
      simp
    · have other : (⟨g, q⟩ : GroupPartition) ≠ ⟨group, p⟩ := by
        rintro ⟨⟩
        exact here ⟨rfl, rfl⟩
      rw [if_neg here, beq_false_of_ne other]
      rfl

/-- What is on record after an action that deletes nothing is what it has committed last, or what was
on record before. -/
theorem committed?_act (accumulates : Accumulates s a) (group : String) (p : Partition) :
    (s.act a).committed? group p =
      ((s.commits a).reverse.lookup ⟨group, p⟩).or (s.committed? group p) := by
  have other (silent : s.commits a = []) (never : ∀ r t ps, ¬Commits r t a ps) :
      (s.act a).committed? group p =
        ((s.commits a).reverse.lookup ⟨group, p⟩).or (s.committed? group p) := by
    rw [silent]
    rcases (effect s a).committed group p with same | ⟨rfl, -⟩ | ⟨r, t, ps, -, -, -, commits, -⟩
    · exact same
    · rw [delete_spares accumulates]
      rfl
    · exact absurd commits (never r t ps)
  cases a with
  | commit r =>
    simp only [act, commits, commitAll]
    cases opened : s.openTailer r with
    | error e => rfl
    | ok t => exact committed?_commits s r.group group t.assignments t.position p
  | commitPartition r q =>
    simp only [act, commits, commitPartition]
    cases assigned : s.assignedTailer r q with
    | error e => rfl
    | ok t => exact committed?_commits s r.group group [q] t.position p
  | _ => exact other rfl fun r t ps commits => by cases commits

theorem committed?_lastCommit (accumulates : Along Accumulates s as) (group : String)
    (p : Partition) :
    (s.run as).committed? group p = (s.lastCommit? as group p).or (s.committed? group p) := by
  induction as generalizing s with
  | nil => rfl
  | cons a as ih =>
    rw [run_cons, ih accumulates.2, committed?_act accumulates.1, lastCommit?, lastCommit?,
      commitsOf, List.reverse_append, List.lookup_append, Option.or_assoc]

/-- No group has committed anything behind the end of a partition. -/
theorem committed_within {config : StoreConfig}
    (accumulates : Along Accumulates ({ config } : Store) as)
    (committed : (({ config } : Store).run as).committed? group p = some e) :
    e ≤ (({ config } : Store).run as).reach p := by
  have grounded := grounded_run (along_imp Accumulates.neverSeeks accumulates)
  rcases grounded.committed committed with within | ⟨before, a, after, r, rfl, -, outlives, -⟩
  · exact within
  · exact absurd outlives (Since.excluded (along_append.mp accumulates).1 fun now => now.spares p)

end Logbook.Store
