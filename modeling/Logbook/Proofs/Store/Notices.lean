import Mathlib.Data.Finset.SDiff
import Mathlib.Data.Finset.Lattice.Basic
import Mathlib.Data.List.Nodup
import Logbook.Proofs.Store.Balance
import Logbook.Proofs.Store.Since

/-! Notices: what a tailer tells its listener of a change is the difference of the old partitions
and the new ones, so that the listener knows the new ones if it knew the old ones. -/
namespace Logbook

namespace Notification

/-- What a listener knows the tailer to have after one notice more. -/
def replay (held : Finset Partition) : Notification → Finset Partition
  | .revoked ps => held \ ps.toFinset
  | .assigned ps => held ∪ ps.toFinset

def replayAll (held : Finset Partition) (notices : List Notification) : Finset Partition :=
  notices.foldl replay held

/-- A notice is about something, and names each partition once: those that are revoked are held,
those that are assigned are not. -/
def Fits (held : Finset Partition) : Notification → Prop
  | .revoked ps => ps ≠ [] ∧ ps.Nodup ∧ ∀ p ∈ ps, p ∈ held
  | .assigned ps => ps ≠ [] ∧ ps.Nodup ∧ ∀ p ∈ ps, p ∉ held

def AllFit (held : Finset Partition) : List Notification → Prop
  | [] => True
  | n :: notices => n.Fits held ∧ AllFit (n.replay held) notices

/-- The one order in which two notices of one change come: what is lost before what is gained, and
nothing in both. -/
def Precedes : Notification → Notification → Prop
  | .revoked lost, .assigned gained => lost.Disjoint gained
  | _, _ => False

instance : DecidableRel Precedes
  | .revoked lost, .assigned gained =>
    decidable_of_iff (∀ p ∈ lost, p ∉ gained)
      ⟨fun apart _ left right => apart _ left right, fun apart _ left right => apart left right⟩
  | .revoked _, .revoked _ | .assigned _, .revoked _ | .assigned _, .assigned _ =>
    inferInstanceAs (Decidable False)

theorem replayAll_append (held : Finset Partition) (first second : List Notification) :
    replayAll held (first ++ second) = replayAll (replayAll held first) second :=
  List.foldl_append

theorem allFit_append {held : Finset Partition} {first second : List Notification} :
    AllFit held (first ++ second) ↔
      AllFit held first ∧ AllFit (replayAll held first) second := by
  induction first generalizing held with
  | nil => simp [AllFit, replayAll]
  | cons n rest ih =>
    rw [List.cons_append, AllFit, AllFit, ih, and_assoc]
    rfl

def ofChange (lost gained : List Partition) : List Notification :=
  (if lost.isEmpty then [] else [.revoked lost]) ++
    if gained.isEmpty then [] else [.assigned gained]

theorem replayAll_ofChange (held : Finset Partition) (lost gained : List Partition) :
    replayAll held (ofChange lost gained) = held \ lost.toFinset ∪ gained.toFinset := by
  cases lost <;> cases gained <;> simp [ofChange, replayAll, replay]

theorem allFit_ofChange {held : Finset Partition} {lost gained : List Partition}
    (once : lost.Nodup) (once' : gained.Nodup) (had : ∀ p ∈ lost, p ∈ held)
    (new : ∀ p ∈ gained, p ∉ held) : AllFit held (ofChange lost gained) := by
  have last : AllFit (held \ lost.toFinset)
      (if gained.isEmpty then [] else [.assigned gained]) := by
    cases gained with
    | nil => trivial
    | cons p rest =>
      refine ⟨⟨List.cons_ne_nil p rest, once', fun q member kept => ?_⟩, trivial⟩
      exact new q member (Finset.mem_sdiff.mp kept).1
  cases lost with
  | nil => simpa [ofChange] using last
  | cons p rest => exact ⟨⟨List.cons_ne_nil p rest, once, had⟩, last⟩

theorem pairwise_ofChange {lost gained : List Partition} (apart : lost.Disjoint gained) :
    (ofChange lost gained).Pairwise Precedes := by
  cases lost with
  | nil => cases gained <;> simp [ofChange]
  | cons p rest =>
    cases gained with
    | nil => simp [ofChange]
    | cons q more => exact List.pairwise_pair.mpr apart

theorem length_ofChange (lost gained : List Partition) : (ofChange lost gained).length ≤ 2 := by
  cases lost <;> cases gained <;> simp [ofChange]

end Notification

open Notification

namespace Tailer

variable (t : Tailer) (generation : Nat) (assigned : List Partition)
  (committed? : Partition → Option Nat)

theorem follow_notices (moved : t.generation ≠ generation) :
    (t.follow generation assigned committed?).2 =
      ofChange (t.lost assigned) (t.gained assigned) := by
  simp only [follow, if_neg moved, ofChange]

/-- Whoever knew the partitions before knows them afterwards. -/
theorem replayAll_follow :
    replayAll t.assignments.toFinset (t.follow generation assigned committed?).2 =
      (t.follow generation assigned committed?).1.assignments.toFinset := by
  by_cases current : t.generation = generation
  · simp [follow, current, replayAll]
  · rw [follow_notices t _ _ _ current, follow_moved t _ _ _ current, replayAll_ofChange]
    ext p
    simp only [Finset.mem_union, Finset.mem_sdiff, List.mem_toFinset, mem_lost, mem_gained]
    tauto

theorem allFit_follow (once : t.assignments.Nodup) (once' : assigned.Nodup) :
    AllFit t.assignments.toFinset (t.follow generation assigned committed?).2 := by
  by_cases current : t.generation = generation
  · simp [follow, current, AllFit]
  · rw [follow_notices t _ _ _ current]
    apply allFit_ofChange (once.filter _) (once'.filter _)
    · intro p lost
      exact List.mem_toFinset.mpr (mem_lost.mp lost).1
    · intro p gained had
      exact (mem_gained.mp gained).2 (List.mem_toFinset.mp had)

theorem pairwise_follow : (t.follow generation assigned committed?).2.Pairwise Precedes := by
  by_cases current : t.generation = generation
  · simp [follow, current]
  · rw [follow_notices t _ _ _ current]
    apply pairwise_ofChange
    intro p lost gained
    exact (mem_gained.mp gained).2 (mem_lost.mp lost).1

theorem length_follow : (t.follow generation assigned committed?).2.length ≤ 2 := by
  by_cases current : t.generation = generation
  · simp [follow, current]
  · rw [follow_notices t _ _ _ current]
    exact length_ofChange _ _

end Tailer

namespace Group

variable {g : Group} {members : List (Nat × List String)} {sizeOf : String → Option Nat}

theorem nodup_partitionsOf (member : Nat × List String) :
    (partitionsOf members sizeOf member).Nodup := by
  refine (partitionsOf_increase member).imp ?_
  rintro p q increasing rfl
  rw [Partition.compare, Std.ReflOrd.compare_self, Std.ReflOrd.compare_self] at increasing
  cases increasing

theorem nodup_assigned (ranges : g.assignment = assignRanges g.members sizeOf) (number : Nat) :
    (g.assigned number).Nodup := by
  rw [assigned, ranges]
  cases found : (assignRanges g.members sizeOf).lookup number with
  | none => exact List.nodup_nil
  | some ps =>
    obtain ⟨member, _, same⟩ := List.mem_map.mp (mem_of_lookup found)
    obtain ⟨-, rfl⟩ := Prod.mk.inj same
    exact nodup_partitionsOf member

end Group

namespace Store

variable {s s' : Store} {a : Action} {r : TailerRef} {t t' : Tailer}

theorem Assigned.nodup (assigned : Assigned s) (r : TailerRef) : (s.assignmentOf r).2.Nodup := by
  unfold assignmentOf
  cases found : s.group? r.group with
  | none => exact List.nodup_nil
  | some g => exact Group.nodup_assigned (assigned r.group g found) r.number

theorem replayAll_follow (s : Store) (r : TailerRef) (t : Tailer) :
    replayAll t.assignments.toFinset (s.follow r t).2 =
      (s.follow r t).1.assignments.toFinset := by
  unfold follow
  split
  · exact t.replayAll_follow _ _ _
  · rfl

theorem allFit_follow (assigned : Assigned s) (r : TailerRef) (once : t.assignments.Nodup) :
    AllFit t.assignments.toFinset (s.follow r t).2 := by
  unfold follow
  split
  · exact t.allFit_follow _ _ _ once (assigned.nodup r)
  · trivial

theorem nodup_follow (assigned : Assigned s) (once : t.assignments.Nodup) :
    (s.follow r t).1.assignments.Nodup := by
  rcases follow_cases s r t with same | ⟨-, -, same⟩
  · rw [same]
    exact once
  · rw [same]
    exact assigned.nodup r

theorem pairwise_follow (s : Store) (r : TailerRef) (t : Tailer) :
    (s.follow r t).2.Pairwise Precedes := by
  unfold follow
  split
  · exact t.pairwise_follow _ _ _
  · exact List.Pairwise.nil

theorem length_follow (s : Store) (r : TailerRef) (t : Tailer) : (s.follow r t).2.length ≤ 2 := by
  unfold follow
  split
  · exact t.length_follow _ _ _
  · exact Nat.zero_le 2

def notices (s : Store) (r : TailerRef) : Action → List Notification
  | .takeOver q =>
    if q = r then
      match s.takeOver r with
      | .ok (notices, _) => notices
      | .error _ => []
    else []
  | _ => []

theorem notices_takeOver (opened : s.openTailer r = .ok t) :
    s.notices r (.takeOver r) = (s.follow r t).2 := by
  simp only [notices, if_true, takeOver_ok opened]

/-- A listener is told something only when its tailer is open and takes over. -/
theorem notices_cases (s : Store) (r : TailerRef) (a : Action) :
    (s.notices r a = [] ∧ (a = .takeOver r → s.act a = s)) ∨
      ∃ t, a = .takeOver r ∧ s.tailer? r = some t ∧ t.closed = false ∧
        s.notices r a = (s.follow r t).2 ∧ s.act a = s.setTailer r (s.follow r t).1 := by
  cases a with
  | takeOver q =>
    by_cases here : q = r
    · subst here
      cases opened : s.openTailer q with
      | error e =>
        refine .inl ⟨?_, fun _ => ?_⟩
        · simp [notices, takeOver, opened, bind, Except.bind]
        · simp only [act, takeOver, opened]
          rfl
      | ok t =>
        obtain ⟨found, still⟩ := openTailer_ok.mp opened
        refine .inr ⟨t, rfl, found, still, notices_takeOver opened, ?_⟩
        simp only [act, takeOver_ok opened]
        rfl
    · refine .inl ⟨if_neg here, fun same => ?_⟩
      exact absurd (Action.takeOver.inj same) here
  | _ => exact .inl ⟨rfl, fun impossible => by cases impossible⟩

theorem notices_pairwise (s : Store) (r : TailerRef) (a : Action) :
    (s.notices r a).Pairwise Precedes := by
  rcases notices_cases s r a with ⟨silent, -⟩ | ⟨t, -, -, -, told, -⟩
  · exact silent ▸ List.Pairwise.nil
  · exact told ▸ pairwise_follow s r t

theorem length_notices (s : Store) (r : TailerRef) (a : Action) : (s.notices r a).length ≤ 2 := by
  rcases notices_cases s r a with ⟨silent, -⟩ | ⟨t, -, -, -, told, -⟩
  · exact silent ▸ Nat.zero_le 2
  · exact told ▸ length_follow s r t

/-- What a listener that was told these knows: nothing before there is a tailer, and the partitions
of a tailer that has subscribed. -/
structure Informed (r : TailerRef) (s : Store) (told : List Notification) : Prop where
  absent : s.tailer? r = none → told = []
  fits : AllFit ∅ told
  knows : ∀ t, s.tailer? r = some t → t.subscribed = true →
    t.assignments.Nodup ∧ replayAll ∅ told = t.assignments.toFinset

theorem Informed.takeOver {told : List Notification} (informed : Informed r s told)
    (assigned : Assigned s) (found : s.tailer? r = some t) :
    Informed r (s.setTailer r (s.follow r t).1) (told ++ (s.follow r t).2) := by
  have there := found_setTailer found (s.follow r t).1
  by_cases subscribed : t.subscribed = true
  · obtain ⟨once, known⟩ := informed.knows t found subscribed
    refine ⟨fun absent => ?_, ?_, fun t' found' _ => ?_⟩
    · cases absent.symm.trans there
    · rw [allFit_append, known]
      exact ⟨informed.fits, allFit_follow assigned r once⟩
    · cases Option.some.inj (there.symm.trans found')
      rw [replayAll_append, known, replayAll_follow]
      exact ⟨nodup_follow assigned once, rfl⟩
  · have nothing : s.follow r t = (t, []) := if_neg subscribed
    rw [nothing] at there ⊢
    refine ⟨fun absent => ?_, ?_, fun t' found' subscribed' => ?_⟩
    · cases absent.symm.trans there
    · simpa using informed.fits
    · cases Option.some.inj (there.symm.trans found')
      exact absurd subscribed' subscribed

/-- No other action concerns the partitions of a tailer that has subscribed. -/
theorem Informed.silent {told : List Notification} (informed : Informed r s told)
    (step : Effect s a s') (other : a ≠ .takeOver r) : Informed r s' told := by
  cases found : s.tailer? r with
  | none =>
    obtain rfl := informed.absent found
    refine ⟨fun _ => rfl, trivial, fun t' found' subscribed => ?_⟩
    rcases step.newTailer found with absent | ⟨_, _, _, _, _, new⟩ | ⟨_, _, _, _, new⟩
    · cases absent.symm.trans found'
    · cases Option.some.inj (new.symm.trans found')
      rw [newTailer, Tailer.place_eq] at subscribed
      cases subscribed
    · cases Option.some.inj (new.symm.trans found')
      exact ⟨List.nodup_nil, rfl⟩
  | some t =>
    obtain ⟨t', there, change⟩ := step.tailer found
    refine ⟨fun absent => ?_, informed.fits, fun u found' subscribed => ?_⟩
    · cases absent.symm.trans there
    · cases Option.some.inj (there.symm.trans found')
      have same : t'.assignments = t.assignments := by
        rcases change.kept.2.2 with same | ⟨-, follows⟩
        · exact same
        · exact absurd follows other
      rw [same]
      exact informed.knows t found (change.kept.1.2.2 ▸ subscribed)

/-- Every action tells a listener what it has to know. -/
theorem Informed.step {told : List Notification} (informed : Informed r s told)
    (assigned : Assigned s) (a : Action) : Informed r (s.act a) (told ++ s.notices r a) := by
  rcases notices_cases s r a with ⟨silent, stays⟩ | ⟨t, rfl, found, -, new, next⟩
  · rw [silent, List.append_nil]
    by_cases here : a = .takeOver r
    · exact (stays here).symm ▸ informed
    · exact informed.silent (effect s a) here
  · rw [new, next]
    exact informed.takeOver assigned found

end Store

end Logbook
