import Logbook.Proofs.Store.Ends

/-! The places of a tailer: it keeps a position in each of its partitions and in no other, so that
no partition falls back to the start and what is committed is where the tailer stands. -/
namespace Logbook.Store

/-- A tailer keeps the positions of its partitions and no others, only its partitions are stopped,
and a look begins at the first of them or at another one that there is. -/
structure WellKept (t : Tailer) : Prop where
  positions : ∀ p, (∃ k, t.position? p = some k) ↔ p ∈ t.assignments
  stopped : ∀ p ∈ t.stopped, p ∈ t.assignments
  next : t.next = 0 ∨ t.next < t.assignments.length

def Moves (r : TailerRef) (p : Partition) (_ : Store) : Action → Prop
  | .toStart q | .toEnd q | .toLastCommitted q => q = r
  | .seek q o => q = r ∧ o.partition = p
  | _ => False

variable {s s' : Store} {a : Action} {as : List Action} {r : TailerRef} {t t' : Tailer}
  {p : Partition} {ps : List Partition}

/-! What each operation of a tailer makes of its places. -/

/-- In its own partitions a tailer never falls back to the start for want of a position. -/
theorem WellKept.position? (kept : WellKept t) (holds : p ∈ t.assignments) :
    t.position? p = some (t.position p) := by
  obtain ⟨k, there⟩ := (kept.positions p).mpr holds
  rw [Tailer.position_eq, there, Option.getD_some]

theorem WellKept.place (kept : WellKept t) (assigned : ∀ p ∈ ps, p ∈ t.assignments)
    (f : Partition → Nat) : WellKept (t.place ps f) := by
  have assignments : (t.place ps f).assignments = t.assignments := by rw [Tailer.place_eq]
  constructor
  case positions =>
    intro p
    rw [Tailer.position?_place, assignments]
    by_cases placed : p ∈ ps
    · simp [placed, assigned p placed]
    · rw [if_neg placed]
      exact kept.positions p
  case stopped =>
    rw [Tailer.place_eq]
    exact kept.stopped
  case next =>
    rw [Tailer.place_eq]
    exact kept.next

theorem WellKept.moveAll (kept : WellKept t) (f : Partition → Nat) : WellKept (t.moveAll f) := by
  have placed := kept.place (fun _ holds => holds) f
  exact ⟨placed.positions, fun _ member => absurd member List.not_mem_nil, placed.next⟩

/-- A move to the ends that fails on the way has moved some partitions and lets none go on. -/
theorem WellKept.moveToEnds (kept : WellKept t) (s : Store) :
    WellKept (s.moveToEnds t t.assignments).2 := by
  rcases moveToEnds_cases s t t.assignments with ⟨-, done⟩ |
      ⟨before, p, after, _, split, -, -, done⟩
  · rw [done]
    exact kept.moveAll s.reach
  · rw [done]
    exact kept.place (fun q earlier => split ▸ List.mem_append_left _ earlier) s.reach

theorem WellKept.consume (kept : WellKept t) (i : Nat) (holds : p ∈ t.assignments)
    (data : Bytes) : WellKept (consume t i p data).2 := by
  have assignments : (Store.consume t i p data).2.assignments = t.assignments := by
    rw [consume_snd]
    rfl
  have placed : WellKept (t.setPosition p (t.position p + 1)) :=
    kept.place (List.forall_mem_singleton.mpr holds) fun _ => t.position p + 1
  constructor
  case positions =>
    intro q
    rw [consume_snd]
    exact placed.positions q
  case stopped =>
    intro q stops
    rw [assignments]
    rcases mem_stopped_consume.mp stops with before | ⟨rfl, -⟩
    · exact kept.stopped q before
    · exact holds
  case next =>
    right
    rw [assignments, consume_snd]
    exact Nat.mod_lt _ (List.length_pos_of_mem holds)

theorem WellKept.follow (kept : WellKept t) (s : Store) (r : TailerRef) :
    WellKept (s.follow r t).1 := by
  rcases follow_cases s r t with same | ⟨subscribed, moved, same⟩
  · rw [same]
    exact kept
  · have assignments : (s.follow r t).1.assignments = (s.assignmentOf r).2 := by rw [same]
    constructor
    case positions =>
      intro p
      have position := Tailer.position?_follow t (s.assignmentOf r).1 (s.assignmentOf r).2
        (s.committed? r.group) moved p
      rw [assignments, Store.follow, if_pos subscribed, position]
      by_cases gained : p ∈ t.gained (s.assignmentOf r).2
      · rw [if_pos gained]
        exact iff_of_true ⟨_, rfl⟩ (Tailer.mem_gained.mp gained).1
      · rw [if_neg gained]
        by_cases lost : p ∈ t.lost (s.assignmentOf r).2
        · rw [if_pos lost]
          exact iff_of_false (by simp) (Tailer.mem_lost.mp lost).2
        · -- what is neither gained nor lost is assigned if and only if it was
          rw [if_neg lost, kept.positions p]
          rw [Tailer.mem_gained] at gained
          rw [Tailer.mem_lost] at lost
          tauto
    case stopped =>
      intro p stops
      obtain ⟨before, remains⟩ := (mem_stopped_follow subscribed moved).mp stops
      rw [assignments]
      by_contra gone
      exact remains (Tailer.mem_lost.mpr ⟨kept.stopped p before, gone⟩)
    case next =>
      rw [same]
      exact .inl rfl

/-- A tailer for given partitions begins with a position in each of them. -/
theorem wellKept_newTailer (s : Store) (group : String) (partitions : List Partition)
    (type : MessageType) (codec : Option Codec) :
    WellKept (s.newTailer group partitions type codec) := by
  constructor
  case positions =>
    intro p
    rw [newTailer, Tailer.position?_place, Tailer.place_eq]
    by_cases given : p ∈ partitions <;> simp [given, Tailer.position?]
  case stopped =>
    rw [newTailer, Tailer.place_eq]
    exact fun _ member => absurd member List.not_mem_nil
  case next =>
    rw [newTailer, Tailer.place_eq]
    exact .inl rfl

theorem WellKept.turn (kept : WellKept t) (found : s.tailer? r = some t)
    (turn : Turn s r t a t') : WellKept t' := by
  cases turn with
  | follows => exact kept.follow s r
  | looks =>
    rcases look_cases found with ⟨i, p, data, holds, -, same, -, -⟩ | ⟨same, -, -⟩
    · rw [same]
      exact kept.consume i holds data
    · rw [same]
      exact kept
  | starts | returns => exact kept.moveAll _
  | ends => exact kept.moveToEnds s
  | seeks o _ holds =>
    have placed : WellKept (t.setPosition o.partition o.position) :=
      kept.place (List.forall_mem_singleton.mpr holds) fun _ => o.position
    refine ⟨placed.positions, fun p stops => ?_, placed.next⟩
    exact kept.stopped p (List.mem_filter.mp stops).1

theorem WellKept.change (kept : WellKept t) (found : s.tailer? r = some t)
    (change : Change s r t a t') : WellKept t' := by
  cases change with
  | same => exact kept
  | closes => exact ⟨kept.positions, kept.stopped, kept.next⟩
  | turns turn => exact kept.turn found turn

/-! Runs. -/

def AllWellKept (s : Store) : Prop := ∀ r t, s.tailer? r = some t → WellKept t

/-- Every tailer that is new is well kept, and none of its partitions is stopped. -/
theorem Effect.newWellKept (step : Effect s a s') (absent : s.tailer? r = none)
    (found' : s'.tailer? r = some t') : WellKept t' ∧ t'.stopped = [] := by
  rcases step.newTailer absent with still | ⟨partitions, type, codec, _, _, new⟩ |
      ⟨_, _, _, _, new⟩
  · cases still.symm.trans found'
  · cases Option.some.inj (new.symm.trans found')
    refine ⟨wellKept_newTailer s r.group partitions type codec, ?_⟩
    rw [Store.newTailer, Tailer.place_eq]
  · cases Option.some.inj (new.symm.trans found')
    exact ⟨⟨fun p => by simp [Tailer.position?], by simp, .inl rfl⟩, rfl⟩

theorem AllWellKept.step (kept : AllWellKept s) (step : Effect s a s') : AllWellKept s' := by
  intro r t' found'
  cases found : s.tailer? r with
  | none => exact (step.newWellKept found found').1
  | some t => exact (kept r t found).change found (step.change found found')

theorem AllWellKept.run (kept : AllWellKept s) (as : List Action) : AllWellKept (s.run as) := by
  induction as generalizing s with
  | nil => exact kept
  | cons a as ih => exact ih (kept.step (effect s a))

/-- A partition that a tailer gets is not stopped, even if it was when the tailer had it before. -/
theorem Effect.begins_running (step : Effect s a s') (kept : AllWellKept s)
    (before : ¬Holds r p s) (found' : s'.tailer? r = some t') (holds : p ∈ t'.assignments) :
    p ∉ t'.stopped := by
  cases found : s.tailer? r with
  | none =>
    rw [(step.newWellKept found found').2]
    exact List.not_mem_nil
  | some t =>
    have absent : p ∉ t.assignments := fun member => before ⟨t, found, member⟩
    have running : p ∉ t.stopped := fun stops => absent ((kept r t found).stopped p stops)
    have change := step.change found found'
    obtain ⟨rfl, -, -⟩ := change.gains absent holds
    cases change with
    | same => exact running
    | closes _ impossible => cases impossible
    | turns turn =>
      cases turn with
      | follows =>
        rcases follow_cases s r t with same | ⟨subscribed, moved, -⟩
        · rw [same]
          exact running
        · exact fun stops => running ((mem_stopped_follow subscribed moved).mp stops).1

/-- A tailer that is not moved goes on from where it was in a partition that it keeps. -/
theorem Change.goesOn (change : Change s r t a t') (found : s.tailer? r = some t)
    (unmoved : ¬Moves r p s a) (holds : p ∈ t.assignments) (keeps : p ∈ t'.assignments) :
    t.position p ≤ t'.position p := by
  cases change with
  | same | closes => exact Nat.le_refl _
  | turns turn =>
    cases turn with
    | follows => exact Nat.le_of_eq (position_follow_kept holds keeps).symm
    | looks =>
      obtain ⟨n, -, further⟩ := look_consumes_next found p
      exact further ▸ Nat.le_add_right _ n
    | starts | returns | ends => exact absurd rfl unmoved
    | seeks o =>
      have apart : p ≠ o.partition := fun same => unmoved ⟨rfl, same.symm⟩
      exact Nat.le_of_eq ((Tailer.position_setPosition t _ p _).trans (if_neg apart)).symm

def NoneBehind (s : Store) (as : List Action) : Prop :=
  ∀ r t p, (s.run as).tailer? r = some t → p ∈ t.assignments →
    Leads r p s as (t.position p) ∨ Since (Moves r p) r p s as

theorem noneBehind_run (config : StoreConfig) (as : List Action) :
    NoneBehind ({ config } : Store) as := by
  have all : Along (fun _ _ => True) ({ config } : Store) as := along_all as
  refine run_induction ?_ ?_ all
  · intro r t p found
    cases found
  · intro as a _ _ behind r t' p found' holds
    rw [run_concat] at found'
    by_cases had : Holds r p (({ config } : Store).run as)
    · obtain ⟨t, found, member⟩ := had
      have keeps : Holds r p ((({ config } : Store).run as).act a) := ⟨t', found', holds⟩
      by_cases moves : Moves r p (({ config } : Store).run as) a
      · exact .inr (.now moves ⟨t, found, member⟩ keeps)
      · have change := (effect (({ config } : Store).run as) a).change found found'
        have goesOn := change.goesOn found moves member holds
        rcases behind r t p found member with leads | moved
        · exact .inl (leads.later found member found' holds goesOn)
        · exact .inr (moved.later keeps)
    · exact .inl (leads_begins had found' holds)

/-- What tailers keep after a run. Each of them is well kept and knows its position in each of its
partitions. What it commits is the position that it keeps, and this takes a committed offset back,
to zero or elsewhere, only if the tailer was moved or another one of its group has committed the
partition since the tailer has had it. A partition that it gets, also one that it had before and
that was revoked, begins where the group has committed and is not stopped. -/
structure KeepsPlaces (s : Store) (as : List Action) : Prop where
  wellKept : ∀ r t, (s.run as).tailer? r = some t → WellKept t
  known : ∀ r t p, (s.run as).tailer? r = some t → p ∈ t.assignments →
    t.position? p = some (t.position p)
  commits : ∀ r p a, CommitsTo r p (s.run as) a → ∃ t k, (s.run as).tailer? r = some t ∧
    t.position? p = some k ∧ ((s.run as).act a).committed? r.group p = some k
  goesBack : ∀ group p a e k, (s.run as).committed? group p = some e →
    ((s.run as).act a).committed? group p = some k → k < e →
    ∃ r, r.group = group ∧ CommitsTo r p (s.run as) a ∧
      (Since (Moves r p) r p s as ∨ ∃ q, Overtaken r q p s as)
  begins : ∀ r t p a, ¬Holds r p (s.run as) → ((s.run as).act a).tailer? r = some t →
    p ∈ t.assignments → t.position? p = some (((s.run as).committed? r.group p).getD 0) ∧
      p ∉ t.stopped

/-- After every run, all tailers have kept their places. -/
theorem keeps_places (config : StoreConfig) (as : List Action) :
    KeepsPlaces ({ config } : Store) as := by
  have start : AllWellKept ({ config } : Store) := fun _ _ found => by cases found
  have kept := start.run as
  constructor
  case wellKept => exact kept
  case known => exact fun r t p found holds => (kept r t found).position? holds
  case commits =>
    rintro r p a ⟨t, ps, found, opened, commits, member⟩
    have known := (kept r t found).position? (commits_assigned commits member)
    exact ⟨t, t.position p, found, known, commits.committed? found opened member⟩
  case goesBack =>
    intro group p a e k committed committed' back
    rcases (effect (({ config } : Store).run as) a).committed group p with same | ⟨_, gone⟩ |
        ⟨r, t, ps, here, found, opened, commits, member, set⟩
    · rw [same, committed] at committed'
      cases committed'
      exact absurd back (Nat.lt_irrefl _)
    · cases gone.symm.trans committed'
    · cases Option.some.inj (set.symm.trans committed')
      subst here
      refine ⟨r, rfl, ⟨t, ps, found, opened, commits, member⟩, ?_⟩
      have assigned := commits_assigned commits member
      rcases noneBehind_run config as r t p found assigned with (ahead | overtaken) | moved
      · rw [committed] at ahead
        exact absurd back (Nat.not_lt.mpr ahead)
      · exact .inr overtaken
      · exact .inl moved
  case begins =>
    intro r t p a before found holds
    have step := effect (({ config } : Store).run as) a
    have kept' := kept.step step
    refine ⟨?_, step.begins_running kept before found holds⟩
    rw [(kept' r t found).position? holds, step.begins before found holds]

/-- A member is stopped in a partition that it loses to a second one, which goes past the poison pill,
commits and closes. The first one gets the partition again and goes on from there. -/
example :
    let first : TailerRef := ⟨"readers", 0⟩
    let second : TailerRef := ⟨"readers", 1⟩
    let p : Partition := ⟨"events", 1⟩
    let stops : List Action := [.create "events" 2, .openAppender "events" .record none,
      .appendTo 0 1 (.record .poisonPill), .appendTo 0 1 (.record { key := "k" }),
      .subscribe "readers" ["events"] .record none, .takeOver first, .look first]
    let loses : List Action := [.subscribe "readers" ["events"] .record none, .takeOver first]
    let gains : List Action := [.takeOver second, .look second, .seek second ⟨p, 1⟩, .look second,
      .commit second, .closeTailer second, .takeOver first]
    let places (as : List Action) := ((({} : Store).run as).tailer? first).map fun t =>
      (t.position? p, t.stopped)
    places stops = some (some 1, [p]) ∧ places (stops ++ loses) = some (none, []) ∧
      places (stops ++ loses ++ gains) = some (some 2, []) := by decide +kernel

end Logbook.Store
