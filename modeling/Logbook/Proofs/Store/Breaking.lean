import Logbook.Proofs.Store.Fairness

/-! Tailers break. A record may tell of more bytes than memory can ever hold. Decoding it stops the
program in the middle of a look, and what the tailer kept of its partitions is lost: whatever needs
it later stops the program, too. Closing the tailer needs none of it. The store goes on without
what is stopped, like one to which only the rest is done. -/
namespace Logbook.Store

/-- An outcome that stops the program, so that it is no answer. -/
def breaks : Outcome α → Bool
  | .error (.codec e) => e.kind = .capacity
  | _ => false

def heard (outcome : Outcome α) : Option (Outcome α) :=
  if breaks outcome then none else some outcome

/-- A look comes to a record that stops the program, and to nothing before. -/
def Oversized (s : Store) (t : Tailer) : Prop :=
  ∃ k p data, s.Reaches t k p ∧ s.peek t p = .ok (some data) ∧ breaks (t.tells data) = true

/-- The tailer whose partitions and positions an action needs. -/
def Action.needs? : Action → Option TailerRef
  | .takeOver r | .look r | .commit r | .commitPartition r _ | .toStart r | .toEnd r
  | .toLastCommitted r | .seek r _ => some r
  | _ => none

/-- A store, and those of its tailers that have broken. -/
structure Fragile where
  store : Store := {}
  broken : List TailerRef := []

namespace Fragile

def bars (f : Fragile) (a : Action) : Bool := a.needs?.any (· ∈ f.broken)

def damage (f : Fragile) : Action → List TailerRef
  | .look r => if breaks (f.store.look r).1 then r :: f.broken else f.broken
  | _ => f.broken

def act (f : Fragile) (a : Action) : Fragile :=
  if f.bars a then f else ⟨f.store.act a, f.damage a⟩

def run (f : Fragile) (as : List Action) : Fragile := as.foldl act f

/-- What is done of a run. -/
def kept (f : Fragile) : List Action → List Action
  | [] => []
  | a :: as => if f.bars a then f.kept as else a :: (f.act a).kept as

def history (f : Fragile) (as : List Action) : List Event := f.store.history (f.kept as)

/-! What looks and reads answer, if they do. A closed tailer refuses a read before it gets to its
partitions. But a look that was put off until a listener has been told does not ask again. -/

def look (f : Fragile) (r : TailerRef) : Option (Outcome (Option (Offset × Message))) :=
  if r ∈ f.broken then none else heard (f.store.look r).1

def loses (f : Fragile) (r : TailerRef) : Bool := r ∈ f.broken && !f.store.isClosedTailer r

def read (f : Fragile) (r : TailerRef) : Option (Outcome (Option (Offset × Message))) :=
  if f.loses r then none else heard (f.store.read r).1

def beginRead (f : Fragile) (r : TailerRef) (patience : Patience) : Option Reading :=
  if f.loses r then none
  else
    match (f.store.beginRead r patience).1 with
    | .ended outcome => (heard outcome).map .ended
    | reading => some reading

def finishRead (f : Fragile) (r : TailerRef) (patience : Patience) (pace : Nat)
    (reading : Reading) : Option (Outcome (Option (Offset × Message))) :=
  match reading with
  | .ended outcome => some outcome
  | .waiting => f.read r
  | .telling _ =>
    if r ∈ f.broken then none else heard (f.store.finishRead r patience pace reading).1

/-- A run that does what a read does: as long as it answers, the store takes the part, and otherwise
its tailer has broken. -/
inductive Performs (f : Fragile) (r : TailerRef) :
    Option (Outcome (Option (Offset × Message))) → List Action → Prop where
  | answers {answer : Outcome (Option (Offset × Message))} {as : List Action} :
      Store.Performs f.store r answer (f.run as).store as → Performs f r (some answer) as
  | breaks {as : List Action} : (∀ a ∈ as, a = .takeOver r ∨ a = .look r) →
      r ∈ (f.run as).broken → Performs f r none as

end Fragile

variable {s s' : Store} {f : Fragile} {a : Action} {as bs : List Action} {r : TailerRef}
  {t : Tailer} {answer : Outcome (Option (Offset × Message))}

/-! Which looks break a tailer. -/

theorem heard_eq_some {outcome told : Outcome α} :
    heard outcome = some told ↔ breaks outcome = false ∧ outcome = told := by
  cases stops : breaks outcome <;> simp [heard, stops]

theorem heard_eq_none {outcome : Outcome α} : heard outcome = none ↔ breaks outcome = true := by
  cases stops : breaks outcome <;> simp [heard, stops]

@[simp] theorem breaks_map (f : α → β) (outcome : Outcome α) :
    breaks (outcome.map f) = breaks outcome := by
  rcases outcome with (_ | _) | _ <;> rfl

theorem look_breaks (found : s.tailer? r = some t) :
    breaks (s.look r).1 = true ↔ s.Oversized t := by
  cases look_ends found with
  | nothing idle _ answer =>
    rw [answer]
    constructor
    · intro impossible
      cases impossible
    · rintro ⟨k, p, data, reaches, seen, -⟩
      cases (idle p (Tailer.ahead?_mem reaches.there)).symm.trans seen
  | @finds j q data reaches seen _ answer =>
    rw [answer, breaks_map]
    constructor
    · intro stops
      exact ⟨j, q, data, reaches, seen, stops⟩
    · rintro ⟨k, p, data', again, seen', stops⟩
      obtain ⟨-, rfl⟩ := reaches.unique (by rw [seen]; rintro ⟨⟩) again (by rw [seen']; rintro ⟨⟩)
      cases seen.symm.trans seen'
      exact stops
  | @fails j q e reaches failed _ answer =>
    obtain ⟨-, size, -, rfl⟩ := peek_error.mp failed
    rw [answer]
    constructor
    · intro impossible
      cases impossible
    · rintro ⟨k, p, data, again, seen, -⟩
      obtain ⟨-, rfl⟩ := reaches.unique (by rw [failed]; rintro ⟨⟩) again
        (by rw [seen]; rintro ⟨⟩)
      cases failed.symm.trans seen

/-- Only the compact layout tells of lengths that no memory can hold. -/
theorem Oversized.compact (oversized : s.Oversized t) :
    defaultCodec t.codec = .binary ∨ ∃ schema, defaultCodec t.codec = .frame schema := by
  obtain ⟨-, -, data, -, -, stops⟩ := oversized
  rw [Tailer.tells] at stops
  cases codec : defaultCodec t.codec with
  | binary => exact .inl rfl
  | frame schema => exact .inr ⟨schema, rfl⟩
  | json layout =>
    rw [codec, Codec.decode] at stops
    cases read : Json.read t.type data <;> rw [read] at stops <;> cases stops
  | fixed =>
    rw [codec, Codec.decode] at stops
    split at stops
    · cases read : Codec.Fixed.read data <;> rw [read] at stops <;> cases stops
    · cases stops

/-- A look breaks its tailer if and only if it reports a failure of capacity. -/
theorem breaks_accounts (accounts : Accounts r answer past) : breaks answer = true ↔
    ∃ o told, .consumed r o told ∈ past ∧ breaks told = true := by
  unfold Accounts at accounts
  split at accounts
  · subst accounts
    simp [breaks]
  · obtain ⟨o, rfl⟩ := accounts
    simp [breaks]
  · rename_i other
    subst accounts
    rcases answer with (_ | _) | (_ | _) <;> simp_all [breaks]

theorem openTailer_closed (closed : s.isClosedTailer r = true) :
    s.openTailer r = .error (.closed .tailer) := by
  cases found : s.tailer? r with
  | none => simp [openTailer, found]
  | some t =>
    have shut : t.closed = true := (isClosedTailer_eq found).symm.trans closed
    simp [openTailer, found, shut]

theorem mem_readBy {past : List Event} {o : Offset} {told : Outcome Message} :
    (o, told) ∈ readBy past r ↔ .consumed r o told ∈ past := by
  rw [readBy, List.mem_filterMap]
  constructor
  · rintro ⟨e, member, read⟩
    cases e with
    | appended => cases read
    | consumed q o' told' =>
      simp only [Option.ite_none_right_eq_some, Option.some.injEq, Prod.mk.injEq] at read
      obtain ⟨rfl, rfl, rfl⟩ := read
      exact member
  · exact fun member => ⟨_, member, if_pos rfl⟩

theorem readBy_others (others : ∀ a ∈ as, a ≠ .look r) : readBy (s.history as) r = [] := by
  induction as generalizing s with
  | nil => rfl
  | cons a as ih =>
    rw [history, readBy_append, readBy_other (others a List.mem_cons_self),
      ih fun b member => others b (List.mem_cons_of_mem a member)]
    rfl

namespace Fragile

@[simp] theorem run_nil (f : Fragile) : f.run [] = f := rfl

@[simp] theorem run_cons (f : Fragile) (a : Action) (as : List Action) :
    f.run (a :: as) = (f.act a).run as := rfl

@[simp] theorem run_append (f : Fragile) (as bs : List Action) :
    f.run (as ++ bs) = (f.run as).run bs := List.foldl_append

theorem bars_of_mem (needs : a.needs? = some r) (broken : r ∈ f.broken) : f.bars a = true := by
  simp [bars, needs, broken]

theorem act_bars (barred : f.bars a = true) : f.act a = f := if_pos barred

theorem act_allows (allowed : f.bars a = false) : f.act a = ⟨f.store.act a, f.damage a⟩ :=
  if_neg (Bool.eq_false_iff.mp allowed)

theorem kept_cons (allowed : f.bars a = false) (as : List Action) :
    f.kept (a :: as) = a :: (f.act a).kept as := if_neg (Bool.eq_false_iff.mp allowed)

theorem kept_bars (barred : f.bars a = true) (as : List Action) :
    f.kept (a :: as) = f.kept as := if_pos barred

/-- The store of a run is that of a run in which nothing stops. -/
theorem run_store (f : Fragile) (as : List Action) : (f.run as).store = f.store.run (f.kept as) := by
  induction as generalizing f with
  | nil => rfl
  | cons a as ih =>
    rw [run_cons, ih]
    cases barred : f.bars a with
    | true => rw [act_bars barred, kept_bars barred]
    | false =>
      rw [kept_cons barred, Store.run_cons, act_allows barred]

/-- One action breaks the tailer that looks, and mends none. -/
theorem mem_broken_act : r ∈ (f.act a).broken ↔
    r ∈ f.broken ∨ a = .look r ∧ breaks (f.store.look r).1 = true := by
  cases barred : f.bars a with
  | true =>
    rw [act_bars barred]
    constructor
    · exact .inl
    · rintro (broken | ⟨rfl, -⟩)
      · exact broken
      · simpa [bars, Action.needs?] using barred
  | false =>
    rw [act_allows barred]
    cases a with
    | look q =>
      by_cases stops : breaks (f.store.look q).1 = true
      · simp only [damage, if_pos stops, List.mem_cons, Action.look.injEq]
        constructor
        · rintro (rfl | broken)
          · exact .inr ⟨rfl, stops⟩
          · exact .inl broken
        · rintro (broken | ⟨rfl, -⟩)
          · exact .inr broken
          · exact .inl rfl
      · simp only [damage, if_neg stops, Action.look.injEq]
        constructor
        · exact .inl
        · rintro (broken | ⟨rfl, stops'⟩)
          · exact broken
          · exact absurd stops' stops
    | _ => simp [damage]

/-- What has broken stays so. -/
theorem broken_run (broken : r ∈ f.broken) (as : List Action) : r ∈ (f.run as).broken := by
  induction as generalizing f with
  | nil => exact broken
  | cons a as ih => exact ih (mem_broken_act.mpr (.inl broken))

/-- A tailer breaks at one of its looks. -/
theorem mem_broken_run : r ∈ (f.run as).broken ↔ r ∈ f.broken ∨
    ∃ before after, as = before ++ .look r :: after ∧ r ∉ (f.run before).broken ∧
      breaks ((f.run before).store.look r).1 = true := by
  constructor
  · intro broken
    induction as generalizing f with
    | nil => exact .inl broken
    | cons a as ih =>
      rcases ih broken with now | ⟨before, after, rfl, whole, stops⟩
      · rcases mem_broken_act.mp now with already | ⟨rfl, stops⟩
        · exact .inl already
        · by_cases already : r ∈ f.broken
          · exact .inl already
          · exact .inr ⟨[], as, rfl, already, stops⟩
      · exact .inr ⟨a :: before, after, rfl, whole, stops⟩
  · rintro (broken | ⟨before, after, rfl, -, stops⟩)
    · exact broken_run broken as
    · rw [run_append, run_cons]
      exact broken_run (mem_broken_act.mpr (.inr ⟨rfl, stops⟩)) after

/-- As long as a tailer is whole, all that it needs for is done. -/
theorem kept_whole (own : ∀ a ∈ as, a.needs? = some r) (whole : r ∉ (f.run as).broken) :
    f.kept as = as := by
  induction as generalizing f with
  | nil => rfl
  | cons a as ih =>
    have allowed : f.bars a = false := by
      simpa [bars, own a List.mem_cons_self] using fun broken => whole (broken_run broken (a :: as))
    rw [kept_cons allowed, ih (fun b member => own b (List.mem_cons_of_mem a member)) whole]

/-- Of a tailer that has broken, nothing more is asked. -/
theorem kept_broken (broken : r ∈ f.broken) (as : List Action) :
    ∀ a ∈ f.kept as, a.needs? ≠ some r := by
  induction as generalizing f with
  | nil => exact fun a member => absurd member List.not_mem_nil
  | cons a as ih =>
    have later := mem_broken_act (a := a).mpr (.inl broken)
    cases barred : f.bars a with
    | true =>
      rw [kept_bars barred]
      exact ih broken
    | false =>
      rw [kept_cons barred]
      intro b member needs
      rcases List.mem_cons.mp member with rfl | member
      · rw [bars_of_mem needs broken] at barred
        cases barred
      · exact ih later b member needs

theorem readBy_broken (broken : r ∈ f.broken) (as : List Action) :
    readBy (f.history as) r = [] := by
  apply readBy_others
  rintro _ member rfl
  exact kept_broken broken as _ member rfl

/-- The history tells which tailers have broken. -/
theorem broken_act_event (whole : r ∉ f.broken) : r ∈ (f.act a).broken ↔
    ∃ o told, .consumed r o told ∈ f.store.events a ∧ breaks told = true := by
  rw [mem_broken_act]
  constructor
  · rintro (broken | ⟨rfl, stops⟩)
    · exact absurd broken whole
    · exact (breaks_accounts (look_accounts f.store r)).mp stops
  · rintro ⟨o, told, member, stops⟩
    obtain ⟨rfl, answer, -⟩ := consumed_look member
    refine .inr ⟨rfl, ?_⟩
    rw [answer, breaks_map]
    exact stops

theorem broken_event (whole : r ∉ f.broken) : r ∈ (f.run as).broken ↔
    ∃ o told, .consumed r o told ∈ f.history as ∧ breaks told = true := by
  induction as generalizing f with
  | nil => simpa [history, kept, Store.history] using whole
  | cons a as ih =>
    rw [run_cons, history]
    cases barred : f.bars a with
    | true =>
      rw [act_bars barred, kept_bars barred]
      exact ih whole
    | false =>
      have next : (f.act a).store = f.store.act a := by rw [act_allows barred]
      simp only [kept_cons barred, Store.history, List.mem_append, or_and_right, exists_or,
        ← broken_act_event whole]
      by_cases broken : r ∈ (f.act a).broken
      · exact iff_of_true (broken_run broken as) (.inl broken)
      · rw [ih broken, history, next]
        simp [broken]

/-- What a read does to a store, it does here, unless it breaks its tailer. -/
theorem performs_heard (performs : Store.Performs f.store r answer s' as)
    (whole : r ∉ f.broken) : Performs f r (heard answer) as := by
  have own : ∀ a ∈ as, a.needs? = some r := by
    intro a member
    rcases performs.parts a member with rfl | rfl <;> rfl
  have stops := breaks_accounts performs.accounts
  by_cases broken : r ∈ (f.run as).broken
  · obtain ⟨before, after, rfl, fine, stopped⟩ := (mem_broken_run.mp broken).resolve_left whole
    have done : (f.run before).store = f.store.run before := by
      rw [run_store, kept_whole (fun a member => own a (List.mem_append_left _ member)) fine]
    obtain ⟨o, told, member, fatal⟩ := (breaks_accounts (look_accounts _ r)).mp stopped
    have there : .consumed r o told ∈ f.store.history (before ++ .look r :: after) := by
      rw [Store.history_append, ← done]
      exact List.mem_append_right _ (List.mem_append_left _ member)
    rw [heard_eq_none.mpr (stops.mpr ⟨o, told, there, fatal⟩)]
    exact .breaks performs.parts broken
  · have all := kept_whole own broken
    have final : (f.run as).store = s' := by rw [run_store, all, performs.final]
    have fine : breaks answer = false := by
      rw [← Bool.not_eq_true, stops, ← all]
      exact mt (broken_event whole).mpr broken
    rw [heard_eq_some.mpr ⟨fine, rfl⟩]
    exact .answers (final.symm ▸ performs)

/-! What looks and reads do. -/

theorem loses_iff : f.loses r = true ↔ r ∈ f.broken ∧ f.store.isClosedTailer r = false := by
  simp [loses]

theorem closed_of_broken (kept : f.loses r = false) (broken : r ∈ f.broken) :
    f.store.isClosedTailer r = true := by
  simpa [loses, broken] using kept

theorem look_performs (f : Fragile) (r : TailerRef) : f.Performs r (f.look r) [.look r] := by
  by_cases broken : r ∈ f.broken
  · rw [look, if_pos broken]
    exact .breaks (by simp) (broken_run broken _)
  · rw [look, if_neg broken]
    exact performs_heard (performs_look f.store r) broken

/-- Of a tailer that is closed, nothing is asked. -/
theorem performs_refused (closed : f.store.isClosedTailer r = true) :
    f.store.takeOver r = .error (.closed .tailer) ∧
      f.Performs r (some (.error (.closed .tailer))) [] := by
  constructor
  · simp only [takeOver, openTailer_closed closed]
    rfl
  · exact .answers ⟨by simp, rfl, rfl⟩

theorem read_performs (f : Fragile) (r : TailerRef) : ∃ as, f.Performs r (f.read r) as := by
  cases lost : f.loses r with
  | true =>
    rw [read, if_pos lost]
    exact ⟨[], .breaks (by simp) (loses_iff.mp lost).1⟩
  | false =>
    rw [read, if_neg (Bool.eq_false_iff.mp lost)]
    by_cases broken : r ∈ f.broken
    · obtain ⟨refused, performs⟩ := performs_refused (closed_of_broken lost broken)
      simp only [Store.read, refused]
      exact ⟨[], performs⟩
    · obtain ⟨as, performs⟩ := Store.read_performs f.store r
      exact ⟨as, performs_heard performs broken⟩

theorem beginRead_performs (f : Fragile) (r : TailerRef) (patience : Patience) :
    ∃ as, f.Performs r ((f.beginRead r patience).map Reading.answer) as := by
  cases lost : f.loses r with
  | true =>
    rw [beginRead, if_pos lost]
    exact ⟨[], .breaks (by simp) (loses_iff.mp lost).1⟩
  | false =>
    rw [beginRead, if_neg (Bool.eq_false_iff.mp lost)]
    by_cases broken : r ∈ f.broken
    · obtain ⟨refused, performs⟩ := performs_refused (closed_of_broken lost broken)
      simp only [Store.beginRead, refused]
      exact ⟨[], performs⟩
    · obtain ⟨as, performs⟩ := Store.beginRead_performs f.store r patience
      have heard := performs_heard performs broken
      refine ⟨as, ?_⟩
      generalize (f.store.beginRead r patience).1 = reading at heard ⊢
      cases reading with
      | ended outcome => simpa [Reading.answer, Function.comp_def] using heard
      | telling | waiting => exact heard

theorem finishRead_performs (f : Fragile) (r : TailerRef) (patience : Patience) (pace : Nat)
    {reading : Reading} (unfinished : reading.answer = .ok none) :
    ∃ as, f.Performs r (f.finishRead r patience pace reading) as := by
  cases reading with
  | ended outcome =>
    cases unfinished
    exact ⟨[], .answers ⟨by simp, rfl, rfl⟩⟩
  | waiting => exact f.read_performs r
  | telling notices =>
    by_cases broken : r ∈ f.broken
    · rw [finishRead, if_pos broken]
      exact ⟨[], .breaks (by simp) broken⟩
    · rw [finishRead, if_neg broken]
      obtain ⟨as, performs⟩ := Store.finishRead_performs f.store r patience pace unfinished
      exact ⟨as, performs_heard performs broken⟩

/-- A tailer that has broken answers no look and, as long as it is open, no read. -/
theorem silent_of_broken (broken : r ∈ f.broken) : f.look r = none ∧
    ∀ t, f.store.openTailer r = .ok t → f.read r = none ∧
      ∀ patience, f.beginRead r patience = none ∧ ∀ pace reading,
        (∀ told, reading ≠ .ended told) → f.finishRead r patience pace reading = none := by
  refine ⟨if_pos broken, fun t opened => ?_⟩
  obtain ⟨found, unclosed⟩ := openTailer_ok.mp opened
  have lost : f.loses r = true :=
    loses_iff.mpr ⟨broken, (isClosedTailer_eq found).trans unclosed⟩
  refine ⟨if_pos lost, fun patience => ⟨if_pos lost, fun pace reading unfinished => ?_⟩⟩
  cases reading with
  | ended told => exact absurd rfl (unfinished told)
  | telling notices => exact if_pos broken
  | waiting => exact if_pos lost

theorem read_some (told : f.read r = some answer) :
    breaks (f.store.read r).1 = false ∧ (f.store.read r).1 = answer := by
  rw [read] at told
  split at told
  · cases told
  · exact heard_eq_some.mp told

/-- If the first part of a read ends it, then like a read in one piece. -/
theorem beginRead_ended {patience : Patience} (ended : f.beginRead r patience = some (.ended answer)) :
    f.read r = some answer := by
  rw [beginRead] at ended
  split at ended
  · cases ended
  · rename_i kept
    rw [read, if_neg kept]
    cases reading : (f.store.beginRead r patience).1 with
    | ended outcome =>
      rw [reading] at ended
      obtain ⟨told, heard, same⟩ := Option.map_eq_some_iff.mp ended
      cases same
      rw [(Store.beginRead_ended reading).1]
      exact heard
    | telling | waiting =>
      rw [reading] at ended
      cases ended

theorem finishRead_some {patience : Patience} {pace : Nat} {reading : Reading}
    (unfinished : ∀ told, reading ≠ .ended told)
    (told : f.finishRead r patience pace reading = some answer) :
    breaks (f.store.finishRead r patience pace reading).1 = false ∧
      (f.store.finishRead r patience pace reading).1 = answer := by
  cases reading with
  | ended outcome => exact absurd rfl (unfinished outcome)
  | waiting => exact read_some told
  | telling notices =>
    rw [finishRead] at told
    split at told
    · cases told
    · exact heard_eq_some.mp told

/-- What a tailer that is whole was told, did not stop the program. -/
theorem fits_of_whole {o : Offset} {told : Outcome Message} (whole : r ∉ (f.run as).broken)
    (member : (o, told) ∈ readBy (f.history as) r) : breaks told = false := by
  have first : r ∉ f.broken := fun broken => whole (broken_run broken as)
  rw [← Bool.not_eq_true]
  exact fun stops => whole ((broken_event first).mpr ⟨o, told, mem_readBy.mp member, stops⟩)

end Fragile
end Logbook.Store
