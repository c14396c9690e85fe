import Logbook.Proofs.Broker.Answers
import Logbook.Proofs.Broker.Tracking

/-! Shutdown. A broker that is closed has closed whatever it has handed out, hands out nothing more,
and closes what was still being opened. Of the resources that are open, the first one takes the blame
when the store is told to let a closing fail. -/
namespace Logbook

/-- In a sorted list, the first element of a kind is the least of its kind. -/
theorem find?_mergeSort {l : List α} {le : α → α → Bool}
    (trans : ∀ a b c, le a b = true → le b c = true → le a c = true)
    (total : ∀ a b, (le a b || le b a) = true) {p : α → Bool} {a : α}
    (found : (l.mergeSort le).find? p = some a) :
    a ∈ l ∧ p a = true ∧ ∀ b ∈ l, p b = true → le a b = true := by
  have sorted := List.pairwise_mergeSort trans total l
  obtain ⟨holds, before, after, split, none⟩ := List.find?_eq_some_iff_append.mp found
  have member : a ∈ l.mergeSort le := split ▸ List.mem_append_right _ List.mem_cons_self
  refine ⟨List.mem_mergeSort.mp member, holds, fun b there also => ?_⟩
  have place : b ∈ before ++ a :: after := split ▸ List.mem_mergeSort.mpr there
  rw [split] at sorted
  rcases List.mem_append.mp place with earlier | later
  · have refuted := none b earlier
    simp [also] at refuted
  · rcases List.mem_cons.mp later with rfl | later
    · simpa using total b b
    · exact List.rel_of_pairwise_cons (List.pairwise_append.mp sorted).2.1 later

namespace Store

variable {s : Store}

/-! Closing, and the order that the next closing fails. -/

theorem closeAppender_cases (s : Store) (a : Nat) :
    s.isClosedAppender a = true ∧ s.closeAppender a = (.ok (), s) ∨
      s.isClosedAppender a = false ∧ (s.closeAppender a).1.isOk = !s.failNextClose ∧
        (s.closeAppender a).2.failNextClose = false := by
  unfold closeAppender
  cases opened : s.openAppender a with
  | error e =>
    left
    refine ⟨Bool.of_not_eq_false fun still => ?_, rfl⟩
    cases found : s.appenders[a]? with
    | none => simp [isClosedAppender, found] at still
    | some w =>
      rw [isClosedAppender_eq found] at still
      cases opened.symm.trans (openAppender_ok.mpr ⟨found, still⟩)
  | ok w =>
    right
    obtain ⟨found, still⟩ := openAppender_ok.mp opened
    refine ⟨(isClosedAppender_eq found).trans still, ?_, rfl⟩
    simp only [takeCloseFault]
    cases s.failNextClose <;> rfl

theorem closeTailer_cases (s : Store) (r : TailerRef) :
    s.isClosedTailer r = true ∧ s.closeTailer r = (.ok (), s) ∨
      s.isClosedTailer r = false ∧ (s.closeTailer r).1.isOk = !s.failNextClose ∧
        (s.closeTailer r).2.failNextClose = false := by
  unfold closeTailer
  cases opened : s.openTailer r with
  | error e =>
    left
    refine ⟨Bool.of_not_eq_false fun still => ?_, rfl⟩
    cases found : s.tailer? r with
    | none => simp [isClosedTailer, found] at still
    | some t =>
      rw [isClosedTailer_eq found] at still
      cases opened.symm.trans (openTailer_ok.mpr ⟨found, still⟩)
  | ok t =>
    right
    obtain ⟨found, still⟩ := openTailer_ok.mp opened
    refine ⟨(isClosedTailer_eq found).trans still, ?_, rfl⟩
    have fault : (if t.subscribed = true then
        (s.setTailer r { t with closed := true }).leaveGroup r
        else s.setTailer r { t with closed := true }).failNextClose = s.failNextClose := by
      split
      · rw [leaveGroup_eq]
        rfl
      · rfl
    simp only [takeCloseFault, fault]
    cases s.failNextClose <;> rfl

/-- A tailer does not notice that appenders are closed. -/
theorem isClosedTailer_closeAppender (s : Store) (a : Nat) :
    (s.closeAppender a).2.isClosedTailer = s.isClosedTailer := by
  unfold closeAppender
  split <;> rfl

def Left (s : Store) (r : TailerRef) : Prop := ∀ names, (r.number, names) ∉ s.membersOf r.group

theorem Coordinated.left {joined : List (TailerRef × List String)}
    (coordinated : Coordinated s joined) {r : TailerRef} (closed : s.isClosedTailer r = true) :
    s.Left r := by
  intro names member
  rw [coordinated.members r.group] at member
  cases (mem_openMembers.mp member).2.symm.trans closed

end Store

namespace Broker

/-- The resource that comes first in the order of closing, of those that are open: appenders in the
order of the names of their logs, and then tailers in the order of their numbers. -/
inductive FirstOpen (b : Broker) : CloseFailure → Prop where
  | appender {name : String} {a : Nat} : (name, a) ∈ b.appenders →
      b.store.isClosedAppender a = false →
      (∀ e ∈ b.appenders, b.store.isClosedAppender e.2 = false → name ≤ e.1) →
      FirstOpen b (.appender name)
  | tailer {id : Nat} {r : TailerRef} : (∀ e ∈ b.appenders, b.store.isClosedAppender e.2 = true) →
      (id, r) ∈ b.ownership.live → b.store.isClosedTailer r = false →
      (∀ e ∈ b.ownership.live, b.store.isClosedTailer e.2 = false → id ≤ e.1) →
      FirstOpen b (.tailer id)

theorem closeAppenders_fails (s : Store) (l : List (String × Nat)) :
    (closeAppenders s l).1 = (if s.failNextClose then
        ((l.find? (!s.isClosedAppender ·.2)).map fun e => .appender e.1).toList else []) ∧
      (closeAppenders s l).2.failNextClose =
        (s.failNextClose && l.all (s.isClosedAppender ·.2)) ∧
      (closeAppenders s l).2.isClosedTailer = s.isClosedTailer := by
  induction l generalizing s with
  | nil => simp [closeAppenders]
  | cons e rest ih =>
    obtain ⟨name, a⟩ := e
    rcases s.closeAppender_cases a with ⟨closed, same⟩ | ⟨opened, outcome, fault⟩
    · obtain ⟨failures, left, tailers⟩ := ih s
      simp only [closeAppenders, same, Except.isOk, Except.toBool, if_true, closed,
        List.find?_cons_of_neg, Bool.not_true, Bool.false_eq_true, not_false_eq_true, List.all_cons,
        Bool.true_and]
      exact ⟨failures, left, tailers⟩
    · obtain ⟨failures, left, tailers⟩ := ih (s.closeAppender a).2
      rw [fault] at failures left
      refine ⟨?_, ?_, tailers.trans (s.isClosedTailer_closeAppender a)⟩
      · simp only [closeAppenders, outcome]
        cases s.failNextClose <;> simp [failures, opened]
      · simp [closeAppenders, left, opened]

theorem closeTailers_fails (s : Store) (l : List (Nat × TailerRef)) :
    (closeTailers s l).1 = if s.failNextClose then
      ((l.find? (!s.isClosedTailer ·.2)).map fun e => .tailer e.1).toList else [] := by
  induction l generalizing s with
  | nil => simp [closeTailers]
  | cons e rest ih =>
    obtain ⟨id, r⟩ := e
    rcases s.closeTailer_cases r with ⟨closed, same⟩ | ⟨opened, outcome, fault⟩
    · simp only [closeTailers, same, Except.isOk, Except.toBool, if_true, closed,
        List.find?_cons_of_neg, Bool.not_true, Bool.false_eq_true, not_false_eq_true]
      exact ih s
    · have failures := ih (s.closeTailer r).2
      rw [fault] at failures
      simp only [closeTailers, outcome]
      cases s.failNextClose <;> simp [failures, opened]

/-- What fails to close when a broker closes. -/
def closeFailures (b : Broker) : List CloseFailure :=
  let (failed, store) := closeAppenders b.store (b.appenders.mergeSort fun x y => x.1 ≤ y.1)
  failed ++ (closeTailers store b.ownership.inOrder).1

theorem close_fst {b : Broker} (opened : b.closed = false) : b.close.1 =
    if b.closeFailures.isEmpty then .ok () else .error (.closeFailed b.closeFailures) := by
  simp only [close, opened, Bool.false_eq_true, if_false]
  rfl

def firstOpen? (b : Broker) : Option CloseFailure :=
  (((b.appenders.mergeSort fun x y => x.1 ≤ y.1).find? (!b.store.isClosedAppender ·.2)).map
    fun e => .appender e.1).or
      ((b.ownership.inOrder.find? (!b.store.isClosedTailer ·.2)).map fun e => .tailer e.1)

/-- The store is told to let one closing fail, and it is the first one that closes anything. -/
theorem closeFailures_eq (b : Broker) :
    b.closeFailures = if b.store.failNextClose then b.firstOpen?.toList else [] := by
  obtain ⟨failures, left, tailers⟩ :=
    closeAppenders_fails b.store (b.appenders.mergeSort fun x y => x.1 ≤ y.1)
  simp only [closeFailures, failures, closeTailers_fails, left, tailers, firstOpen?]
  cases b.store.failNextClose with
  | false => simp
  | true =>
    cases first : (b.appenders.mergeSort fun x y => x.1 ≤ y.1).find?
        (!b.store.isClosedAppender ·.2) with
    | none =>
      have closed : (b.appenders.mergeSort fun x y => x.1 ≤ y.1).all
          (b.store.isClosedAppender ·.2) = true := by
        simpa [List.find?_eq_none] using first
      simp only [closed]
      simp
    | some e =>
      have still : (b.appenders.mergeSort fun x y => x.1 ≤ y.1).all
          (b.store.isClosedAppender ·.2) = false := by
        have opened := List.find?_some first
        refine Bool.eq_false_iff.mpr fun closed => ?_
        have shut := List.all_eq_true.mp closed e (List.mem_of_find?_eq_some first)
        simp [shut] at opened
      simp only [still]
      simp

theorem firstOpen?_some {b : Broker} {f : CloseFailure} (first : b.firstOpen? = some f) :
    b.FirstOpen f := by
  rcases Option.or_eq_some_iff.mp first with appender | ⟨none, tailer⟩
  · obtain ⟨⟨name, a⟩, found, rfl⟩ := Option.map_eq_some_iff.mp appender
    obtain ⟨known, opened, least⟩ := find?_mergeSort (fun x y z => by simpa using String.le_trans)
      (fun x y => by simpa using String.le_total x.1 y.1) found
    simp only [Bool.not_eq_true', decide_eq_true_eq] at opened least
    exact .appender known opened least
  · obtain ⟨⟨id, r⟩, found, rfl⟩ := Option.map_eq_some_iff.mp tailer
    obtain ⟨live, opened, least⟩ := find?_mergeSort (fun x y z => by simpa using Nat.le_trans)
      (fun x y => by simpa using Nat.le_total x.1 y.1) found
    have closed := List.find?_eq_none.mp (Option.map_eq_none_iff.mp none)
    simp only [Bool.not_eq_true', decide_eq_true_eq] at opened least
    simp only [List.mem_mergeSort, Bool.not_eq_true', Bool.not_eq_false] at closed
    exact .tailer closed live opened least

theorem firstOpen?_none {b : Broker} : b.firstOpen? = none ↔
    (∀ e ∈ b.appenders, b.store.isClosedAppender e.2 = true) ∧
      ∀ e ∈ b.ownership.live, b.store.isClosedTailer e.2 = true := by
  simp [firstOpen?, Option.or_eq_none_iff, List.find?_eq_none, Ownership.inOrder]

/-- The error of a call that is finished when the broker is closed: the store's own, if there is
one. -/
def refusal : Outcome TailerRef → LogFault
  | .error e => e
  | .ok _ => .closed .manager

theorem finishTailer_closed {b : Broker} (closed : b.closed = true) (k : Ticket)
    (answer : Outcome TailerRef) : (b.finishTailer k answer).1 = .error (refusal answer) := by
  cases answer with
  | error e => rfl
  | ok r =>
    simp only [finishTailer, closed]
    rfl

theorem finishSubscribe_closed {b : Broker} (closed : b.closed = true)
    (answer : Outcome TailerRef) : (b.finishSubscribe answer).1 = .error (refusal answer) := by
  cases answer with
  | error e => rfl
  | ok r =>
    simp only [finishSubscribe, closed]
    rfl

namespace Session

variable {x : Session} {given : List Nat}

/-- Nothing that was handed out is open, and no tailer is a member of its group. -/
structure Released (x : Session) (given : List Nat) : Prop where
  appenders : ∀ a ∈ given, x.broker.store.isClosedAppender a = true
  tailers : ∀ r ∈ x.returned, x.broker.store.isClosedTailer r = true
  left : ∀ r ∈ x.returned, x.broker.store.Left r

/-- What becomes of a call that the store has answered, if it is finished when the broker is closed:
it fails, and a tailer that the store has opened is closed. -/
structure Abandons (x : Session) (i : Nat) (answer : Outcome TailerRef) : Prop where
  fails : x.answer (.finish i) = .tailer (.error (refusal answer))
  closes : ∀ r, answer = .ok r → (x.act (.finish i)).broker.store.isClosedTailer r = true
  left : ∀ r, answer = .ok r → (x.act (.finish i)).broker.store.Left r

theorem closed_act (x : Session) {op : Operation} (other : op ≠ .close) :
    (x.act op).broker.closed = x.broker.closed := by
  cases op with
  | close => exact absurd rfl other
  | create name size => exact (stays_create x.broker name size).closed
  | delete name => exact (stays_delete x.broker name).closed
  | appender name type codec => exact (moves_appender x.broker name type codec).closed
  | store a => rfl
  | createTailer group partitions type codec =>
    have step := begins x.broker group partitions type codec
    simp only [act]
    generalize x.broker.beginTailer group partitions type codec = result at step
    obtain ⟨outcome, c⟩ := result
    cases step with
    | _ => rfl
  | subscribe group names type codec =>
    simp only [act]
    split <;> rfl
  | ask i =>
    simp only [act, ask]
    split
    · rfl
    · exact (stays_askSubscribe _ _ _ _ _).closed
    · rfl
  | finish i =>
    simp only [act, finish]
    split
    · exact (finishTailer_keeps _ _ _).2
    · exact (finishSubscribe_keeps _ _).2
    · rfl

theorem closed_close (x : Session) : (x.act .close).broker.closed = true := by
  cases closed : x.broker.closed with
  | true => simp only [act, Broker.close, closed, if_true]
  | false => simp only [act, close_eq closed]

/-- An operation hands out nothing: no appender and no tailer is added to those that were returned,
and none is answered, except by the store to those who ask it themselves. -/
structure HandsOutNothing (x : Session) (op : Operation) : Prop where
  returned : (x.act op).returned = x.returned
  appender : x.appender? op = none
  answer : (∀ a, op ≠ .store a) →
    (∀ a, x.answer op ≠ .appender (.ok a)) ∧ ∀ r, x.answer op ≠ .tailer (.ok r)

theorem handsOutNothing_finish (closed : x.broker.closed = true) (i : Nat) :
    HandsOutNothing x (.finish i) := by
  cases there : x.calls[i]? with
  | none => exact ⟨by simp [act, finish, there], rfl, fun _ => by simp [answer, there]⟩
  | some c =>
    cases c with
    | creating | subscribing =>
      exact ⟨by simp [act, finish, there], rfl, fun _ => by simp [answer, there]⟩
    | created k outcome =>
      have fails := finishTailer_closed closed k outcome
      exact ⟨by simp [act, finish, there, fails, handOut, Session.returned], rfl,
        fun _ => by simp [answer, there, fails]⟩
    | subscribed outcome =>
      have fails := finishSubscribe_closed closed outcome
      exact ⟨by simp [act, finish, there, fails, handOut, Session.returned], rfl,
        fun _ => by simp [answer, there, fails]⟩

/-- A broker that is closed refuses, or takes back, whatever it is asked to hand out. -/
theorem handsOutNothing (closed : x.broker.closed = true) (op : Operation) :
    HandsOutNothing x op := by
  cases op with
  | finish i => exact handsOutNothing_finish closed i
  | store a => exact ⟨rfl, rfl, fun other => absurd rfl (other a)⟩
  | create | delete | close => exact ⟨rfl, rfl, fun _ => by simp [answer]⟩
  | appender name type codec =>
    have refused : x.broker.appender name type codec = .error (.closed .manager) := by
      simp only [Broker.appender, checkOpen, closed, if_true]
      rfl
    refine ⟨rfl, ?_, fun _ => by simp [answer, refused, Except.map]⟩
    rw [appender?, refused]
    rfl
  | createTailer group partitions type codec =>
    refine ⟨?_, rfl, fun _ => by simp [answer]⟩
    simp only [act]
    split <;> rfl
  | subscribe group names type codec =>
    refine ⟨?_, rfl, fun _ => by simp [answer]⟩
    simp only [act]
    split <;> rfl
  | ask i =>
    refine ⟨?_, rfl, fun _ => by simp [answer]⟩
    simp only [act, ask]
    split <;> rfl

structure Kept (x : Session) (given : List Nat) : Prop where
  sound : Sound x
  tracked : Tracked x
  memoizes : Memoizes x.broker given
  released : x.broker.closed = true →
    (∀ a ∈ given, x.broker.store.isClosedAppender a = true) ∧
      ∀ r ∈ x.returned, x.broker.store.isClosedTailer r = true

theorem Kept.act (kept : Kept x given) (op : Operation) :
    Kept (x.act op) (given ++ (x.appender? op).toList) := by
  constructor
  case sound => exact kept.sound.act op
  case tracked => exact kept.tracked.act kept.sound op
  case memoizes => exact memoizes_act kept.memoizes op
  case released =>
    intro shut
    cases closed : x.broker.closed with
    | true =>
      -- a broker that was closed before hands out nothing, and what is closed stays closed
      obtain ⟨same, none, -⟩ := handsOutNothing closed op
      obtain ⟨appenders, tailers⟩ := kept.released closed
      rw [same, none, Option.toList_none, List.append_nil, store_act]
      constructor
      · intro a member
        obtain ⟨w, found, -⟩ := kept.memoizes.kept a member
        exact Store.isClosedAppender_run found (appenders a member)
      · intro r member
        obtain ⟨t, found⟩ := kept.tracked.known r (List.mem_append_right _ member)
        exact Store.isClosedTailer_run found (tailers r member)
    | false =>
      have closes : op = .close := by
        by_contra other
        cases shut.symm.trans ((x.closed_act other).trans closed)
      subst closes
      simp only [appender?, Option.toList_none, List.append_nil, Session.act, close_eq closed]
      exact ⟨fun a member => kept.memoizes.closes member, fun r member => kept.tracked.closes member⟩

theorem kept_run (kept : Kept x given) (ops : List Operation) :
    Kept (x.run ops) (given ++ x.appenders ops) := by
  induction ops generalizing x given with
  | nil =>
    rw [appenders, List.append_nil]
    exact kept
  | cons op ops ih =>
    rw [appenders, ← List.append_assoc]
    exact ih (kept.act op)

theorem kept_start (config : StoreConfig) (limits : Limits) : Kept (start config limits) [] where
  sound := sound_start config limits
  tracked := tracked_start config limits
  memoizes := memoizes_start config limits
  released closed := by cases closed

/-- Shutdown is complete. What is open and was handed out is on record, and the live tailers are
counted right. A broker that closes, releases everything; then it hands out nothing, and calls in
progress fail. The closing itself fails exactly if the store was told so and something on record was
open, with the first such resource. -/
structure ShutsDown (x : Session) (given : List Nat) : Prop where
  once : x.returned.Nodup
  live : x.broker.liveTailers = x.returned.countP (!x.broker.store.isClosedTailer ·)
  tracked : ∀ r, x.broker.store.isClosedTailer r = false →
    ((∃ id, (id, r) ∈ x.broker.ownership.live) ↔ r ∈ x.returned)
  memoized : ∀ a, x.broker.store.isClosedAppender a = false →
    ((∃ name, (name, a) ∈ x.broker.appenders) ↔ a ∈ given)
  closes : (x.act .close).broker.closed = true ∧ Released (x.act .close) given
  stays : x.broker.closed = true → Released x given ∧
    ∀ op, (x.act op).broker.closed = true ∧ HandsOutNothing x op
  abandons : x.broker.closed = true → ∀ i k answer,
    (x.calls[i]? = some (.created k answer) ∨ x.calls[i]? = some (.subscribed answer)) →
      x.Abandons i answer
  fails : (∃ e, x.answer .close = .shutdown (.error e)) ↔
    x.broker.closed = false ∧ x.broker.store.failNextClose = true ∧
      ((∃ e ∈ x.broker.appenders, x.broker.store.isClosedAppender e.2 = false) ∨
        ∃ e ∈ x.broker.ownership.live, x.broker.store.isClosedTailer e.2 = false)
  failure : ∀ e, x.answer .close = .shutdown (.error e) →
    ∃ f, x.broker.FirstOpen f ∧ e = .closeFailed [f]

/-- The answer to a closing. -/
theorem answer_close (x : Session) : x.answer .close =
    if x.broker.closed = true then .shutdown (.ok ()) else
      match (if x.broker.store.failNextClose then x.broker.firstOpen? else none) with
      | none => .shutdown (.ok ())
      | some f => .shutdown (.error (.closeFailed [f])) := by
  cases closed : x.broker.closed with
  | true => simp only [answer, Broker.close, closed, if_true]
  | false =>
    simp only [answer, close_fst closed, closeFailures_eq, Bool.false_eq_true, if_false]
    cases x.broker.store.failNextClose with
    | false => rfl
    | true => cases x.broker.firstOpen? <;> rfl

theorem close_fails (x : Session) : (∃ e, x.answer .close = .shutdown (.error e)) ↔
    x.broker.closed = false ∧ x.broker.store.failNextClose = true ∧
      ((∃ e ∈ x.broker.appenders, x.broker.store.isClosedAppender e.2 = false) ∨
        ∃ e ∈ x.broker.ownership.live, x.broker.store.isClosedTailer e.2 = false) := by
  have nothing := firstOpen?_none (b := x.broker)
  rw [answer_close]
  cases x.broker.closed with
  | true => simp
  | false =>
    cases x.broker.store.failNextClose with
    | false => simp
    | true =>
      cases first : x.broker.firstOpen? with
      | none =>
        obtain ⟨appenders, tailers⟩ := nothing.mp first
        simp only [Bool.false_eq_true, if_false, if_true, reduceCtorEq, Answer.shutdown.injEq,
          exists_false, true_and, false_iff, not_or, not_exists, not_and, Bool.not_eq_false]
        exact ⟨appenders, tailers⟩
      | some f =>
        have something : ¬(_ ∧ _) := mt nothing.mpr (by simp [first])
        simp only [not_and_or, not_forall, Bool.not_eq_true, exists_prop] at something
        simpa using something

theorem close_failure {e : LogFault} (failed : x.answer .close = .shutdown (.error e)) :
    ∃ f, x.broker.FirstOpen f ∧ e = .closeFailed [f] := by
  rw [answer_close] at failed
  split at failed
  · cases failed
  · split at failed
    · cases failed
    · rename_i f first
      cases failed
      split at first
      · exact ⟨f, firstOpen?_some first, rfl⟩
      · cases first

variable {joined : List (TailerRef × List String)}

theorem Kept.releases (kept : Kept x given) (coordinated : x.broker.store.Coordinated joined)
    (closed : x.broker.closed = true) : Released x given := by
  obtain ⟨appenders, tailers⟩ := kept.released closed
  exact ⟨appenders, tailers, fun r member => coordinated.left (tailers r member)⟩

theorem Kept.abandons (kept : Kept x given)
    (coordinated : (x.act (.finish i)).broker.store.Coordinated joined)
    (closed : x.broker.closed = true) {k : Ticket} {answer : Outcome TailerRef}
    (there : x.calls[i]? = some (.created k answer) ∨ x.calls[i]? = some (.subscribed answer)) :
    x.Abandons i answer := by
  have closes : ∀ r, answer = .ok r →
      (x.act (.finish i)).broker.store.isClosedTailer r = true := by
    rintro r rfl
    have found : ∃ t, x.broker.store.tailer? r = some t := by
      rcases there with created | subscribed
      · obtain ⟨t, found, -⟩ := (kept.sound.created k r (List.mem_of_getElem? created)).tailer
        exact ⟨t, found⟩
      · exact kept.sound.subscribed r (List.mem_of_getElem? subscribed)
    obtain ⟨t, found⟩ := found
    obtain ⟨t', found', shut⟩ := Store.closeTailer_closes found
    have discards : x.storeActions (.finish i) = [.closeTailer r] := by
      rcases there with created | subscribed
      · simp only [storeActions, created, closed, if_true]
      · simp only [storeActions, subscribed, closed, if_true]
    rw [store_act, discards]
    exact (Store.isClosedTailer_eq found').trans shut
  constructor
  case fails =>
    rcases there with created | subscribed
    · simp only [Session.answer, created, finishTailer_closed closed]
    · simp only [Session.answer, subscribed, finishSubscribe_closed closed]
  case closes => exact closes
  case left => exact fun r made => coordinated.left (closes r made)

/-- Every session can be shut down completely. -/
theorem shuts_down (config : StoreConfig) (limits : Limits) (ops : List Operation) :
    ShutsDown ((start config limits).run ops) ((start config limits).appenders ops) := by
  have kept : Kept ((start config limits).run ops) ((start config limits).appenders ops) :=
    kept_run (kept_start config limits) ops
  have coordinated (op : Operation) :
      (((start config limits).run ops).act op).broker.store.Coordinated
        (({ config } : Store).subscriptions ((start config limits).trace (ops ++ [op]))) := by
    rw [← run_concat, store_start]
    exact Store.coordinated_run config _
  have now : ((start config limits).run ops).broker.store.Coordinated
      (({ config } : Store).subscriptions ((start config limits).trace ops)) := by
    rw [store_start]
    exact Store.coordinated_run config _
  generalize (start config limits).run ops = x at kept coordinated now
  generalize (start config limits).appenders ops = given at kept
  have closing : Kept (x.act .close) (given ++ []) := kept.act .close
  rw [List.append_nil] at closing
  constructor
  case once => exact (List.nodup_append.mp kept.tracked.once).2.1
  case live => exact kept.tracked.liveTailers
  case tracked => exact fun r opened => kept.tracked.mem_live opened
  case memoized => exact fun a opened => kept.memoizes.mem_appenders opened
  case closes =>
    exact ⟨x.closed_close, closing.releases (coordinated .close) x.closed_close⟩
  case stays =>
    intro closed
    refine ⟨kept.releases now closed, fun op => ⟨?_, handsOutNothing closed op⟩⟩
    by_cases closes : op = .close
    · rw [closes]
      exact x.closed_close
    · exact (x.closed_act closes).trans closed
  case abandons =>
    exact fun closed i k answer there => kept.abandons (coordinated (.finish i)) closed there
  case fails => exact x.close_fails
  case failure => exact fun e failed => close_failure failed

end Session

end Broker

end Logbook
