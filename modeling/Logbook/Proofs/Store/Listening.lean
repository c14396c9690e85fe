import Logbook.Proofs.Store.Notices
import Logbook.Proofs.Store.Reading

/-! Listening: the notices of a tailer, one after the other as its listener is told of them, while
other actions take place. A listener that fails, or takes too long, has been told all the same. -/
namespace Logbook

open Notification

namespace Store

variable {s s₁ s' : Store} {r : TailerRef} {as bs : List Action}

/-- What the listener of a tailer is told by each action of a run. -/
def rounds (s : Store) (r : TailerRef) : List Action → List (List Notification)
  | [] => []
  | a :: as => s.notices r a :: (s.act a).rounds r as

theorem rounds_append (s : Store) (r : TailerRef) (as bs : List Action) :
    s.rounds r (as ++ bs) = s.rounds r as ++ (s.run as).rounds r bs := by
  induction as generalizing s with
  | nil => rfl
  | cons a as ih => simp only [List.cons_append, rounds, ih, run_cons]

theorem pairwise_rounds (s : Store) (r : TailerRef) (as : List Action) :
    ∀ round ∈ s.rounds r as, round.Pairwise Precedes := by
  induction as generalizing s with
  | nil => simp [rounds]
  | cons a as ih =>
    intro round member
    rcases List.mem_cons.mp member with rfl | later
    · exact notices_pairwise s r a
    · exact ih (s.act a) round later

end Store

/-- A store while the listener of one tailer is being told: what it was told so far, and what reads
in progress have still to tell it. -/
structure Hearing where
  store : Store
  told : List Notification := []
  due : List Notification := []

/-- An action takes place, or a read in progress tells what it still has to. -/
inductive Move where
  | act (a : Store.Action)
  | tell (k : Nat)

namespace Hearing

def move (r : TailerRef) (h : Hearing) : Move → Hearing
  | .act a =>
    { store := h.store.act a
      told := h.told ++ (h.store.notices r a).take 1
      due := h.due ++ (h.store.notices r a).drop 1 }
  | .tell k => { h with told := h.told ++ h.due[k]?.toList, due := h.due.eraseIdx k }

def run (r : TailerRef) (h : Hearing) (moves : List Move) : Hearing := moves.foldl (move r) h

/-- No read of a tailer takes over while another one is telling. -/
def OneAtATime (r : TailerRef) (h : Hearing) : List Move → Prop
  | [] => True
  | m :: moves => (m = .act (.takeOver r) → h.due = []) ∧ OneAtATime r (h.move r m) moves

/-- The listener has been told, or will be told by reads in progress, what it has to know. -/
structure Attends (r : TailerRef) (h : Hearing) : Prop where
  assigned : Store.Assigned h.store
  informed : Store.Informed r h.store (h.told ++ h.due)
  single : h.due.length ≤ 1

variable {r : TailerRef} {h : Hearing} {m : Move} {moves : List Move}

theorem Attends.act {a : Store.Action} (attends : Attends r h)
    (alone : a = .takeOver r → h.due = []) : Attends r (h.move r (.act a)) := by
  have told : (h.move r (.act a)).told ++ (h.move r (.act a)).due =
      (h.told ++ h.due) ++ h.store.notices r a := by
    simp only [move]
    rcases h.store.notices_cases r a with ⟨silent, -⟩ | ⟨_, takes, -, -, -, -⟩
    · simp [silent]
    · -- the first notice comes after all earlier ones, since none of them is still due
      rw [alone takes, List.append_nil, List.nil_append, List.append_assoc, List.take_append_drop]
  refine ⟨attends.assigned.step (Store.effect _ _), ?_, ?_⟩
  · rw [told]
    exact attends.informed.step attends.assigned a
  · simp only [move, List.length_append, List.length_drop]
    rcases h.store.notices_cases r a with ⟨silent, -⟩ | ⟨_, takes, -, -, -, -⟩
    · simpa [silent] using attends.single
    · have few := h.store.length_notices r a
      rw [alone takes, List.length_nil]
      omega

theorem Attends.tell (attends : Attends r h) (k : Nat) : Attends r (h.move r (.tell k)) := by
  obtain ⟨assigned, informed, single⟩ := attends
  match h with
  | ⟨store, told, []⟩ =>
    refine ⟨assigned, ?_, Nat.zero_le 1⟩
    simpa [move] using informed
  | ⟨store, told, [n]⟩ =>
    cases k with
    | zero =>
      refine ⟨assigned, ?_, Nat.zero_le 1⟩
      simpa [move] using informed
    | succ k =>
      refine ⟨assigned, ?_, Nat.le_refl 1⟩
      simpa [move] using informed
  | ⟨store, told, n :: m :: rest⟩ => simp at single

theorem Attends.run (attends : Attends r h) (alone : OneAtATime r h moves) :
    Attends r (h.run r moves) := by
  induction moves generalizing h with
  | nil => exact attends
  | cons m moves ih =>
    refine ih ?_ alone.2
    cases m with
    | act a => exact attends.act fun takes => alone.1 (congrArg Move.act takes)
    | tell k => exact attends.tell k

theorem attends_start (config : StoreConfig) (r : TailerRef) : Attends r ⟨{ config }, [], []⟩ where
  assigned := Store.assigned_run []
  informed := ⟨fun _ => rfl, trivial, fun _ found => by cases found⟩
  single := Nat.zero_le 1

end Hearing

def Reading.due : Reading → List Notification
  | .telling notices => notices
  | .ended _ | .waiting => []

namespace Store

variable {s s₁ s' : Store} {r : TailerRef} {as bs : List Action} {notices more : List Notification}

/-- A run that does what a read does, and has the listener told the same. -/
structure Tells (s : Store) (r : TailerRef) (notices : List Notification) (s' : Store)
    (as : List Action) : Prop where
  parts : ∀ a ∈ as, a = .takeOver r ∨ a = .look r
  final : s.run as = s'
  told : (s.rounds r as).flatten = notices

theorem tells_nothing (s : Store) (r : TailerRef) : Tells s r [] s [] :=
  ⟨by simp, rfl, rfl⟩

theorem tells_takeOver (taken : s.takeOver r = .ok (notices, s₁)) :
    Tells s r notices s₁ [.takeOver r] where
  parts := by simp
  final := (performs_takeOver taken).final
  told := by simp [rounds, Store.notices, taken]

theorem tells_look (s : Store) (r : TailerRef) : Tells s r [] (s.look r).2 [.look r] :=
  ⟨by simp, rfl, rfl⟩

theorem Tells.append (first : Tells s r notices s₁ as) (later : Tells s₁ r more s' bs) :
    Tells s r (notices ++ more) s' (as ++ bs) where
  parts a member := (List.mem_append.mp member).elim (first.parts a) (later.parts a)
  final := by
    rw [run_append, first.final]
    exact later.final
  told := by
    rw [rounds_append, List.flatten_append, first.told, first.final, later.told]

theorem read_tells (s : Store) (r : TailerRef) :
    ∃ as, Tells s r (s.read r).2.1 (s.read r).2.2 as := by
  unfold read
  cases taken : s.takeOver r with
  | error e => exact ⟨[], tells_nothing s r⟩
  | ok first =>
    obtain ⟨notices, s₁⟩ := first
    have whole := (tells_takeOver taken).append (tells_look s₁ r)
    rw [List.append_nil] at whole
    exact ⟨_, whole⟩

theorem beginRead_tells (s : Store) (r : TailerRef) (patience : Patience) :
    ∃ as, Tells s r (s.beginRead r patience).1.due (s.beginRead r patience).2 as := by
  unfold beginRead
  cases taken : s.takeOver r with
  | error e => exact ⟨[], tells_nothing s r⟩
  | ok first =>
    obtain ⟨notices, s₁⟩ := first
    have begun := tells_takeOver taken
    cases notices with
    | cons n rest => exact ⟨_, begun⟩
    | nil =>
      have looked := begun.append (tells_look s₁ r)
      simp only
      generalize s₁.look r = result at looked ⊢
      obtain ⟨found, s₂⟩ := result
      rcases found with e | (_ | record)
      · exact ⟨_, looked⟩
      · cases patience.outlasts 0 <;> exact ⟨_, looked⟩
      · exact ⟨_, looked⟩

theorem finishRead_tells (s : Store) (r : TailerRef) (patience : Patience) (pace : Nat)
    (reading : Reading) : ∃ more as,
      (s.finishRead r patience pace reading).2.1 = reading.due ++ more ∧
        Tells s r more (s.finishRead r patience pace reading).2.2 as := by
  cases reading with
  | ended found => exact ⟨[], [], rfl, tells_nothing s r⟩
  | waiting =>
    obtain ⟨as, told⟩ := read_tells s r
    exact ⟨_, as, rfl, told⟩
  | telling notices =>
    have looked := tells_look s r
    simp only [finishRead]
    generalize s.look r = result at looked ⊢
    obtain ⟨found, s₁⟩ := result
    rcases found with e | (_ | record)
    · exact ⟨[], _, (List.append_nil _).symm, looked⟩
    · simp only
      split
      · obtain ⟨as, again⟩ := read_tells s₁ r
        exact ⟨_, _, rfl, looked.append again⟩
      · exact ⟨[], _, (List.append_nil _).symm, looked⟩
    · exact ⟨[], _, (List.append_nil _).symm, looked⟩

/-- A read that waits tells what its takeovers tell, those before it waits and those after. -/
theorem waitingRead_tells (s : Store) (r : TailerRef) (patience : Patience) (pace : Nat)
    (between : List Action) :
    let (reading, s₁) := s.beginRead r patience
    let (_, notices, s') := (s₁.run between).finishRead r patience pace reading
    ∃ as bs more, notices = reading.due ++ more ∧ Tells s r reading.due s₁ as ∧
      Tells (s₁.run between) r more s' bs := by
  obtain ⟨as, begun⟩ := beginRead_tells s r patience
  generalize s.beginRead r patience = first at begun ⊢
  obtain ⟨reading, s₁⟩ := first
  obtain ⟨more, bs, whole, finished⟩ := finishRead_tells (s₁.run between) r patience pace reading
  exact ⟨as, bs, more, whole, begun, finished⟩

/-- What coordination tells the listeners. Whatever else takes place meanwhile, as long as no read
of a tailer takes over while another is telling: a listener that is not about to be told anything
knows exactly the partitions that its tailer has, and every notice fits what it knew before. What is
told at once is in order, and reads tell no more than their rounds do. -/
structure TellsChanges (s : Store) : Prop where
  replays : ∀ r moves t, Hearing.OneAtATime r ⟨s, [], []⟩ moves →
    (Hearing.run r ⟨s, [], []⟩ moves).store.tailer? r = some t → t.subscribed = true →
    (Hearing.run r ⟨s, [], []⟩ moves).due = [] →
    replayAll ∅ (Hearing.run r ⟨s, [], []⟩ moves).told = t.assignments.toFinset
  fits : ∀ r moves, Hearing.OneAtATime r ⟨s, [], []⟩ moves →
    AllFit ∅ (Hearing.run r ⟨s, [], []⟩ moves).told
  ordered : ∀ r as, ∀ round ∈ s.rounds r as, round.Pairwise Precedes
  reads : ∀ r as, ((s.run as).read r).2.1.Pairwise Precedes
  waits : ∀ r patience pace before between,
    let start := s.run before
    let (reading, s₁) := start.beginRead r patience
    let (_, notices, s') := (s₁.run between).finishRead r patience pace reading
    ∃ as bs more, notices = reading.due ++ more ∧
      Tells start r reading.due s₁ as ∧ Tells (s₁.run between) r more s' bs

theorem read_notices (s : Store) (r : TailerRef) :
    (s.read r).2.1 = s.notices r (.takeOver r) := by
  simp only [read, Store.notices, if_true]
  cases s.takeOver r with
  | error e => rfl
  | ok first => rfl

/-- Listeners of all tailers are told every change once. -/
theorem listeners_told (config : StoreConfig) : TellsChanges { config } := by
  constructor
  case replays =>
    intro r moves t alone found subscribed settled
    have attends := (Hearing.attends_start config r).run alone
    have known := (attends.informed.knows t found subscribed).2
    rw [settled, List.append_nil] at known
    exact known
  case fits =>
    intro r moves alone
    have attends := (Hearing.attends_start config r).run alone
    exact (allFit_append.mp attends.informed.fits).1
  case ordered =>
    intro r as
    exact pairwise_rounds _ r as
  case reads =>
    intro r as
    rw [read_notices]
    exact notices_pairwise _ r _
  case waits =>
    intro r patience pace before between
    exact waitingRead_tells _ r patience pace between

def joined : List Action :=
  [.create "events" 3, .subscribe "readers" ["events"] .string none,
    .subscribe "readers" ["events"] .string none]

/-- What a read of the second member tells that takes over its first partition, and during which the
log is deleted. -/
def retraction : List Notification :=
  let (reading, s) := (({} : Store).run joined).beginRead ⟨"readers", 1⟩ (.milliseconds 1000)
  ((s.act (.delete "events")).finishRead ⟨"readers", 1⟩ (.milliseconds 1000) 0 reading).2.1

/-- A third member joins, so that the second one has another partition, and a read of it takes over
the deletion of the log while another read has still to tell of the gain. -/
def overlap : List Move :=
  [.act (.takeOver ⟨"readers", 1⟩), .act (.subscribe "readers" ["events"] .string none),
    .act (.takeOver ⟨"readers", 1⟩), .act (.delete "events"), .act (.takeOver ⟨"readers", 1⟩),
    .tell 0]

/-- One read tells of a gain before it tells of the loss, if it waits meanwhile. And a listener that
is told by two reads at a time can be told of a loss before it is told of the gain. -/
theorem waiting_retracts :
    retraction = [.assigned [⟨"events", 2⟩], .revoked [⟨"events", 2⟩]] ∧
      ¬retraction.Pairwise Precedes ∧
      (let h := Hearing.run ⟨"readers", 1⟩ ⟨({} : Store).run joined, [], []⟩ overlap
      h.due = [] ∧ replayAll ∅ h.told = {⟨"events", 1⟩} ∧
        (h.store.tailer? ⟨"readers", 1⟩).map (·.assignments) = some []) :=
  ⟨by decide +kernel, by decide +kernel, by decide +kernel, by decide +kernel, by decide +kernel⟩

end Store

end Logbook
