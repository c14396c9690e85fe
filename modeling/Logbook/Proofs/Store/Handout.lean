import Logbook.Proofs.Store.Frames

/-! Tailers and appenders that were handed out: each tailer has a reference of its own, and whatever
happens later, what is closed stays closed and a tailer for given partitions keeps them. -/
namespace Logbook

/-- What stays of a tailer as long as the store runs. -/
structure Tailer.Continues (t t' : Tailer) : Prop where
  codec : t'.codec = t.codec
  subscribed : t'.subscribed = t.subscribed
  closed : t.closed = true → t'.closed = true
  assignments : t.subscribed = false → t'.assignments = t.assignments

theorem Tailer.Continues.opened {t t' : Tailer} (continues : t.Continues t')
    (opened : t'.closed = false) : t.closed = false := by
  apply Bool.eq_false_iff.mpr
  intro closed
  cases opened.symm.trans (continues.closed closed)

structure Appender.Continues (w w' : Appender) : Prop where
  codec : w'.codec = w.codec
  closed : w.closed = true → w'.closed = true

namespace Store

variable {s s' : Store} {a : Action} {r : TailerRef} {t t' : Tailer}

theorem Change.continues (change : Change s r t a t') : t.Continues t' := by
  obtain ⟨⟨_, codec, subscribed⟩, closed, assignments⟩ := change.kept
  refine ⟨codec, subscribed, closed, fun explicit => ?_⟩
  rcases assignments with same | ⟨follows, _⟩
  · exact same
  · cases explicit.symm.trans follows

theorem run_tailer (found : s.tailer? r = some t) (as : List Action) :
    ∃ t', (s.run as).tailer? r = some t' ∧ t.Continues t' := by
  induction as generalizing s t with
  | nil => exact ⟨t, found, rfl, rfl, id, fun _ => rfl⟩
  | cons a as ih =>
    obtain ⟨u, there, change⟩ := (effect s a).tailer found
    obtain ⟨t', final, later⟩ := ih there
    have first := change.continues
    refine ⟨t', final, later.codec.trans first.codec, later.subscribed.trans first.subscribed,
      fun closed => later.closed (first.closed closed), fun explicit => ?_⟩
    exact (later.assignments (first.subscribed.trans explicit)).trans (first.assignments explicit)

def Numbered (s : Store) : Prop :=
  ∀ r ∈ s.refs, r.number < s.refs.countP (·.group = r.group)

theorem nextRef_eq (s : Store) (group : String) :
    s.nextRef group = ⟨group, s.refs.countP (·.group = group)⟩ := by
  rw [nextRef, refs, List.countP_map]
  rfl

theorem Numbered.step (numbered : Numbered s) (step : Effect s a s') : Numbered s' := by
  rcases step.refs with same | ⟨group, _, more⟩
  · rw [Numbered, same]
    exact numbered
  · intro r member
    rw [more, List.mem_append, List.mem_singleton] at member
    rw [more, List.countP_append]
    rcases member with old | rfl
    · exact Nat.lt_of_lt_of_le (numbered r old) (Nat.le_add_right _ _)
    · rw [nextRef_eq]
      simp

theorem Numbered.run (numbered : Numbered s) (as : List Action) : Numbered (s.run as) := by
  induction as generalizing s with
  | nil => exact numbered
  | cons a as ih => exact ih (numbered.step (effect s a))

theorem Numbered.nextRef (numbered : Numbered s) (group : String) :
    s.tailer? (s.nextRef group) = none := by
  rw [tailer?_eq_none]
  intro member
  have below := numbered _ member
  rw [nextRef_eq] at below
  exact Nat.lt_irrefl _ below

/-- A tailer for given partitions is new, has them and the codec asked for. -/
theorem createTailer_ok (numbered : Numbered s) {group : String} {partitions : List Partition}
    {type : MessageType} {codec : Option Codec}
    (answer : (s.createTailer group partitions type codec).1 = .ok r) :
    r.group = group ∧
      ∃ t, (s.createTailer group partitions type codec).2.tailer? r = some t ∧
        t.subscribed = false ∧ t.assignments = partitions ∧ t.codec = codec := by
  unfold createTailer at answer ⊢
  cases checked : s.checkPartitions partitions with
  | error e => simp [checked] at answer
  | ok _ =>
    cases fails : s.failNextTailer with
    | true => simp [checked, fails] at answer
    | false =>
      simp only [checked, fails, Bool.false_eq_true, if_false, addTailer] at answer ⊢
      cases answer
      refine ⟨rfl, s.newTailer group partitions type codec, ?_, ?_⟩
      · have absent := numbered.nextRef group
        exact (tailer?_addTailer s group _ _).trans (by rw [← Store.nextRef, absent, if_pos rfl]; rfl)
      · rw [newTailer, Tailer.place_eq]
        exact ⟨rfl, rfl, rfl⟩

theorem checkPartitions_error {ps : List Partition} {e : LogFault}
    (failed : s.checkPartitions ps = .error e) :
    (∃ name, e = .unknownLog name) ∨ ∃ p size, e = .outOfRange p size := by
  induction ps with
  | nil => cases failed
  | cons p rest ih =>
    simp only [checkPartitions, size, log] at failed
    cases there : s.log? p.log with
    | none =>
      simp only [there, Except.map, bind, Except.bind, Except.error.injEq] at failed
      exact .inl ⟨p.log, failed.symm⟩
    | some l =>
      by_cases outside : l.size ≤ p.index
      · simp only [there, Except.map, bind, Except.bind, outside, if_true, throw, throwThe,
          MonadExceptOf.throw, Except.error.injEq] at failed
        exact .inr ⟨p, l.size, failed.symm⟩
      · simp only [there, Except.map, bind, Except.bind, outside, if_false] at failed
        exact ih failed

/-- A tailer is not handed out when a partition is missing, or when the store was told to fail, which
it then does once. The store knows nothing of owners. -/
theorem createTailer_error {group : String} {partitions : List Partition} {type : MessageType}
    {codec : Option Codec} {e : LogFault}
    (failed : (s.createTailer group partitions type codec).1 = .error e) :
    ((∃ name, e = .unknownLog name) ∨ ∃ p size, e = .outOfRange p size) ∧
        (s.createTailer group partitions type codec).2 = s ∨
      e = .injected .createTailer ∧
        (s.createTailer group partitions type codec).2 = { s with failNextTailer := false } := by
  unfold createTailer at failed ⊢
  cases checked : s.checkPartitions partitions with
  | error e' =>
    simp only [checked, Except.error.injEq] at failed
    exact .inl ⟨checkPartitions_error (failed ▸ checked), rfl⟩
  | ok _ =>
    cases fails : s.failNextTailer with
    | true =>
      simp only [checked, fails, if_true, Except.error.injEq] at failed
      exact .inr ⟨failed.symm, rfl⟩
    | false => simp [checked, fails] at failed

theorem subscribe_ok {group : String} {names : List String} {type : MessageType}
    {codec : Option Codec} (answer : s.subscribe group names type codec = .ok (r, s')) :
    s' = s.act (.subscribe group names type codec) ∧ ∃ t, s'.tailer? r = some t := by
  refine ⟨by simp only [act, answer]; rfl, ?_⟩
  unfold subscribe at answer
  cases allowed : s.config.canSubscribe with
  | false => simp [allowed, throw, throwThe, MonadExceptOf.throw, bind, Except.bind] at answer
  | true =>
    cases named : s.config.limits.checkGroupName group with
    | error e => simp [allowed, named, bind, Except.bind] at answer
    | ok _ =>
      simp only [allowed, named, mapError_ok, bind, Except.bind, Bool.not_true,
        Bool.false_eq_true, if_false, addTailer, pure, Except.pure, Except.ok.injEq,
        Prod.mk.injEq] at answer
      obtain ⟨rfl, rfl⟩ := answer
      have added := tailer?_addTailer s group { type, codec, subscribed := true }
        ⟨group, s.tailers.countP (·.1.group = group)⟩
      rw [if_pos rfl] at added
      cases old : s.tailer? ⟨group, s.tailers.countP (·.1.group = group)⟩ with
      | none => exact ⟨_, added.trans (by rw [old]; rfl)⟩
      | some t => exact ⟨t, added.trans (by rw [old]; rfl)⟩

/-- A tailer is closed after it was told to close, whatever the answer. -/
theorem closeTailer_closes (found : s.tailer? r = some t) :
    ∃ t', (s.act (.closeTailer r)).tailer? r = some t' ∧ t'.closed = true := by
  simp only [act, closeTailer]
  cases opened : s.openTailer r with
  | error e =>
    refine ⟨t, found, ?_⟩
    cases still : t.closed with
    | true => rfl
    | false => cases opened.symm.trans (openTailer_ok.mpr ⟨found, still⟩)
  | ok u =>
    have closed := found_setTailer found { u with closed := true }
    refine ⟨{ u with closed := true }, ?_, rfl⟩
    by_cases subscribed : u.subscribed = true
    · simp only [if_pos subscribed, takeCloseFault]
      rw [leaveGroup_eq]
      exact closed
    · simp only [if_neg subscribed, takeCloseFault]
      exact closed

/-! Appenders. -/

/-- An appender that is closed; one that was never handed out counts as closed. -/
def isClosedAppender (s : Store) (x : Nat) : Bool := (s.appenders[x]?.map (·.closed)).getD true

theorem isClosedAppender_eq {x : Nat} {w : Appender} (found : s.appenders[x]? = some w) :
    s.isClosedAppender x = w.closed := by
  rw [isClosedAppender, found]
  rfl

theorem openAppender_ok {x : Nat} {w : Appender} :
    s.openAppender x = .ok w ↔ s.appenders[x]? = some w ∧ w.closed = false := by
  unfold openAppender
  cases found : s.appenders[x]? with
  | none => simp
  | some v =>
    cases closed : v.closed with
    | true =>
      simp only [closed, if_true, reduceCtorEq, Option.some.injEq, false_iff, not_and]
      rintro rfl opened
      cases closed.symm.trans opened
    | false =>
      simp only [closed, Bool.false_eq_true, if_false, Except.ok.injEq, Option.some.injEq,
        iff_self_and]
      rintro rfl
      exact closed

/-- An appender is closed after it was told to close, whatever the answer. -/
theorem closeAppender_closes {x : Nat} {w : Appender} (found : s.appenders[x]? = some w) :
    (s.act (.closeAppender x)).isClosedAppender x = true := by
  simp only [act, closeAppender]
  cases opened : s.openAppender x with
  | error e =>
    rw [isClosedAppender_eq found]
    refine Bool.of_not_eq_false fun still => ?_
    cases opened.symm.trans (openAppender_ok.mpr ⟨found, still⟩)
  | ok v =>
    obtain ⟨within, _⟩ := List.getElem?_eq_some_iff.mp found
    simp only [isClosedAppender, takeCloseFault, List.getElem?_set_self within, Option.map_some,
      Option.getD_some]

/-- Only the order to close it changes an appender. -/
theorem Effect.appender_kept (step : Effect s a s') {x : Nat} {w : Appender}
    (found : s.appenders[x]? = some w) (other : a ≠ .closeAppender x) :
    s'.appenders[x]? = some w := by
  cases step with
  | opensAppender =>
    obtain ⟨within, -⟩ := List.getElem?_eq_some_iff.mp found
    exact (List.getElem?_append_left within).trans found
  | closesAppender =>
    have apart : _ ≠ x := fun same => other (congrArg Action.closeAppender same)
    exact (List.getElem?_set_ne apart).trans found
  | commits =>
    rw [foldl_commit_eq]
    exact found
  | leaves =>
    rw [leaveGroup_eq]
    exact found
  | keeps | creates | deletes | appends | refusesTailer | createsTailer | subscribes | turns
  | closesTailer | setsFaults => exact found

/-- An appender that was handed out stays as it is, but that it can be closed. -/
theorem Effect.appenderStays (step : Effect s a s') {x : Nat} {w : Appender}
    (found : s.appenders[x]? = some w) : ∃ closed, s'.appenders[x]? = some { w with closed } ∧
      (w.closed = true → closed = true) := by
  by_cases own : a = .closeAppender x
  · subst own
    have same : ∃ closed, s.appenders[x]? = some { w with closed } ∧
        (w.closed = true → closed = true) := ⟨w.closed, found, id⟩
    cases step with
    | closesAppender opened =>
      cases Option.some.inj ((openAppender_ok.mp opened).1.symm.trans found)
      obtain ⟨within, _⟩ := List.getElem?_eq_some_iff.mp found
      exact ⟨true, List.getElem?_set_self within, fun _ => rfl⟩
    | keeps | appends | turns => exact same
    | commits =>
      rw [foldl_commit_eq]
      exact same
  · exact ⟨w.closed, step.appender_kept found own, id⟩

/-- A new appender is one of the log under the name, as it was asked for. -/
theorem createAppender_eq_ok {name : String} {type : MessageType} {codec : Option Codec} {x : Nat} :
    s.createAppender name type codec = .ok (x, s') ↔ ∃ l, s.log? name = some l ∧
      x = s.appenders.length ∧ s' = { s with appenders := s.appenders ++
        [{ log := l.number, name := l.name, size := l.size, type, codec }] } := by
  cases found : s.log? name with
  | none => simp [createAppender, log, found, bind, Except.bind]
  | some l =>
    simp only [createAppender, log, found, bind, Except.bind, pure, Except.pure, Except.ok.injEq,
      Prod.mk.injEq, Option.some.injEq, exists_eq_left', eq_comm]

theorem createAppender_ok {name : String} {type : MessageType} {codec : Option Codec} {x : Nat}
    (answer : s.createAppender name type codec = .ok (x, s')) : x = s.appenders.length ∧
      ∃ w, w.codec = codec ∧ s' = { s with appenders := s.appenders ++ [w] } := by
  obtain ⟨l, -, rfl, rfl⟩ := createAppender_eq_ok.mp answer
  exact ⟨rfl, _, rfl, rfl⟩

theorem appender_kept_run {x : Nat} {w : Appender} {as : List Action}
    (found : s.appenders[x]? = some w) (untouched : .closeAppender x ∉ as) :
    (s.run as).appenders[x]? = some w := by
  induction as generalizing s with
  | nil => exact found
  | cons a as ih =>
    obtain ⟨first, later⟩ := List.ne_and_not_mem_of_not_mem_cons untouched
    exact ih ((effect s a).appender_kept found (Ne.symm first)) later

theorem appenderStays_run {x : Nat} {w : Appender} (found : s.appenders[x]? = some w)
    (as : List Action) : ∃ closed, (s.run as).appenders[x]? = some { w with closed } ∧
      (w.closed = true → closed = true) := by
  induction as generalizing s w with
  | nil => exact ⟨w.closed, found, id⟩
  | cons a as ih =>
    obtain ⟨between, there, first⟩ := (effect s a).appenderStays found
    obtain ⟨closed, final, later⟩ := ih there
    exact ⟨closed, final, fun shut => later (first shut)⟩

theorem run_appender {x : Nat} {w : Appender} (found : s.appenders[x]? = some w)
    (as : List Action) : ∃ w', (s.run as).appenders[x]? = some w' ∧ w.Continues w' := by
  obtain ⟨closed, final, shut⟩ := appenderStays_run found as
  exact ⟨_, final, rfl, shut⟩

theorem isClosedAppender_run {x : Nat} {w : Appender} (found : s.appenders[x]? = some w)
    {as : List Action} (closed : s.isClosedAppender x = true) :
    (s.run as).isClosedAppender x = true := by
  obtain ⟨w', final, later⟩ := run_appender found as
  rw [isClosedAppender_eq final]
  exact later.closed ((isClosedAppender_eq found).symm.trans closed)

end Store

end Logbook
