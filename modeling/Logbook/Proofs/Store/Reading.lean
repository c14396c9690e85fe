import Logbook.Proofs.Store.Looking
import Logbook.Store.Waiting

/-! A read is a run of takeovers and looks. It consumes what it answers with, however long it waits:
one offset when it hands out a record or reports that a record cannot be decoded, and none
otherwise. -/
namespace Logbook

def Reading.answer : Reading → Outcome (Option (Offset × Message))
  | .ended found => found
  | .telling _ | .waiting => .ok none

namespace Store

/-- What was consumed by a read with this answer. -/
def Accounts (r : TailerRef) (answer : Outcome (Option (Offset × Message)))
    (past : List Event) : Prop :=
  match answer with
  | .ok (some (o, m)) => past = [.consumed r o (.ok m)]
  | .error (.codec e) => ∃ o, past = [.consumed r o (.error (.codec e))]
  | _ => past = []

/-- A run that does what a read does: it ends in the state after the read, and consumes what the
read answers with. -/
structure Performs (s : Store) (r : TailerRef) (answer : Outcome (Option (Offset × Message)))
    (s' : Store) (as : List Action) : Prop where
  parts : ∀ a ∈ as, a = .takeOver r ∨ a = .look r
  final : s.run as = s'
  accounts : Accounts r answer (s.history as)

variable {s s₁ s' : Store} {r : TailerRef} {as bs : List Action}
  {answer : Outcome (Option (Offset × Message))}

theorem look_accounts (s : Store) (r : TailerRef) :
    Accounts r (s.look r).1 (s.events (.look r)) := by
  cases found : s.tailer? r with
  | none => simp [look, Accounts, events, lookEvents, found]
  | some t =>
    rcases look_cases found with ⟨i, p, data, -, -, -, told, event⟩ | ⟨-, silent, told⟩
    · rw [told, event, Tailer.tells]
      cases (defaultCodec t.codec).decode t.type data with
      | ok m => rfl
      | error f => exact ⟨_, rfl⟩
    · rcases told with ⟨nothing, -⟩ | ⟨p, size, stuck⟩
      · rw [nothing]
        exact silent
      · rw [stuck]
        exact silent

theorem performs_look (s : Store) (r : TailerRef) :
    Performs s r (s.look r).1 (s.look r).2 [.look r] where
  parts := by simp
  final := rfl
  accounts := by
    have silent : s.history [.look r] = s.events (.look r) := List.append_nil _
    rw [silent]
    exact look_accounts s r

theorem performs_takeOver {notices : List Notification} (taken : s.takeOver r = .ok (notices, s₁)) :
    Performs s r (.ok none) s₁ [.takeOver r] where
  parts := by simp
  final := by
    rw [run_cons, act, taken]
    rfl
  accounts := rfl

theorem takeOver_error {e : LogFault} (refused : s.takeOver r = .error e) :
    e = .closed .tailer := by
  unfold takeOver openTailer at refused
  split at refused
  · split at refused
    · exact (Except.error.inj refused).symm
    · cases refused
  · exact (Except.error.inj refused).symm

/-- What found nothing has consumed nothing, and the read goes on from there. -/
theorem Performs.after (later : Performs s₁ r answer s' bs)
    (first : Performs s r (.ok none) s₁ as) : Performs s r answer s' (as ++ bs) where
  parts a member := (List.mem_append.mp member).elim (first.parts a) (later.parts a)
  final := by
    rw [run_append, first.final]
    exact later.final
  accounts := by
    have nothing : s.history as = [] := first.accounts
    rw [history_append, nothing, first.final]
    exact later.accounts

theorem read_performs (s : Store) (r : TailerRef) :
    ∃ as, Performs s r (s.read r).1 (s.read r).2.2 as := by
  unfold read
  cases taken : s.takeOver r with
  | error e =>
    cases takeOver_error taken
    exact ⟨[], ⟨by simp, rfl, rfl⟩⟩
  | ok first =>
    obtain ⟨notices, s₁⟩ := first
    exact ⟨_, (performs_look s₁ r).after (performs_takeOver taken)⟩

/-- A read of an open tailer is a takeover and a look, whatever it answers. -/
theorem read_run {t : Tailer} (opened : s.openTailer r = .ok t) :
    (s.read r).2.2 = s.run [.takeOver r, .look r] := by
  have taken := takeOver_ok opened
  have there : s.act (.takeOver r) = s.setTailer r (s.follow r t).1 :=
    (performs_takeOver taken).final
  simp only [read, taken, run_cons, there]
  rfl

/-- A read that answers with a record or with nothing ends with the look that answers so. -/
theorem read_looked {found : Option (Offset × Message)} (answer : (s.read r).1 = .ok found) :
    ∃ s₀ : Store, s₀.look r = (.ok found, (s.read r).2.2) := by
  unfold read at answer ⊢
  cases taken : s.takeOver r with
  | error e => simp [taken] at answer
  | ok first =>
    obtain ⟨notices, s₁⟩ := first
    rw [taken] at answer
    exact ⟨s₁, Prod.ext answer rfl⟩

/-- If the first part of a read that is cut in two ends it, then like a read in one piece. -/
theorem beginRead_ended {patience : Patience}
    (ended : (s.beginRead r patience).1 = .ended answer) :
    (s.read r).1 = answer ∧ (s.read r).2.2 = (s.beginRead r patience).2 := by
  unfold beginRead at ended ⊢
  unfold read
  cases taken : s.takeOver r with
  | error e =>
    rw [taken] at ended
    cases ended
    exact ⟨rfl, rfl⟩
  | ok first =>
    obtain ⟨notices, s₁⟩ := first
    rw [taken] at ended
    cases notices with
    | cons n rest => cases ended
    | nil =>
      simp only at ended ⊢
      generalize s₁.look r = result at ended ⊢
      obtain ⟨told, s₂⟩ := result
      rcases told with e | (_ | record)
      · cases ended
        exact ⟨rfl, rfl⟩
      · simp only at ended
        split at ended <;> cases ended
        exact ⟨rfl, rfl⟩
      · cases ended
        exact ⟨rfl, rfl⟩

/-- The second part answers with a look, or with a read now or after a look that found nothing. -/
theorem finishRead_answers (s : Store) (r : TailerRef) (patience : Patience) (pace : Nat)
    {reading : Reading} (unfinished : ∀ told, reading ≠ .ended told) :
    ∃ answer notices s', s.finishRead r patience pace reading = (answer, notices, s') ∧
      ((answer = (s.read r).1 ∧ s' = (s.read r).2.2) ∨
        (answer = (s.look r).1 ∧ s' = (s.look r).2) ∨
        (answer = ((s.look r).2.read r).1 ∧ s' = ((s.look r).2.read r).2.2)) := by
  cases reading with
  | ended told => exact absurd rfl (unfinished told)
  | waiting => exact ⟨_, _, _, rfl, .inl ⟨rfl, rfl⟩⟩
  | telling notices =>
    simp only [finishRead]
    generalize s.look r = result
    obtain ⟨told, s₁⟩ := result
    rcases told with e | (_ | record)
    · exact ⟨_, _, _, rfl, .inr (.inl ⟨rfl, rfl⟩)⟩
    · by_cases patient : patience.outlasts (s₁.config.tellingTime pace notices) = true
      · simp only [if_pos patient]
        exact ⟨_, _, _, rfl, .inr (.inr ⟨rfl, rfl⟩)⟩
      · simp only [if_neg patient]
        exact ⟨_, _, _, rfl, .inr (.inl ⟨rfl, rfl⟩)⟩
    · exact ⟨_, _, _, rfl, .inr (.inl ⟨rfl, rfl⟩)⟩

theorem beginRead_looked {patience : Patience} {found : Option (Offset × Message)}
    (ended : (s.beginRead r patience).1 = .ended (.ok found)) :
    ∃ s₀ : Store, s₀.look r = (.ok found, (s.beginRead r patience).2) := by
  obtain ⟨answer, final⟩ := beginRead_ended ended
  rw [← final]
  exact read_looked answer

theorem finishRead_looked {patience : Patience} {pace : Nat} {reading : Reading}
    {found : Option (Offset × Message)} (unfinished : ∀ told, reading ≠ .ended told)
    (answer : (s.finishRead r patience pace reading).1 = .ok found) :
    ∃ s₀ : Store, s₀.look r = (.ok found, (s.finishRead r patience pace reading).2.2) := by
  obtain ⟨told, notices, s', whole, ends⟩ := finishRead_answers s r patience pace unfinished
  rw [whole] at answer ⊢
  rcases ends with ⟨rfl, rfl⟩ | ⟨rfl, rfl⟩ | ⟨rfl, rfl⟩
  · exact read_looked answer
  · exact ⟨s, Prod.ext answer rfl⟩
  · exact read_looked answer

theorem beginRead_performs (s : Store) (r : TailerRef) (patience : Patience) :
    ∃ as, Performs s r (s.beginRead r patience).1.answer (s.beginRead r patience).2 as := by
  unfold beginRead
  cases taken : s.takeOver r with
  | error e =>
    cases takeOver_error taken
    exact ⟨[], ⟨by simp, rfl, rfl⟩⟩
  | ok first =>
    obtain ⟨notices, s₁⟩ := first
    have begun := performs_takeOver taken
    cases notices with
    | cons n rest => exact ⟨_, begun⟩
    | nil =>
      have looked := (performs_look s₁ r).after begun
      simp only
      generalize s₁.look r = result at looked ⊢
      obtain ⟨found, s₂⟩ := result
      rcases found with e | (_ | record)
      · exact ⟨_, looked⟩
      · cases patience.outlasts 0 <;> exact ⟨_, looked⟩
      · exact ⟨_, looked⟩

theorem finishRead_performs (s : Store) (r : TailerRef) (patience : Patience) (pace : Nat)
    {reading : Reading} (unfinished : reading.answer = .ok none) :
    ∃ as, Performs s r (s.finishRead r patience pace reading).1
      (s.finishRead r patience pace reading).2.2 as := by
  cases reading with
  | ended found =>
    cases unfinished
    exact ⟨[], ⟨by simp, rfl, rfl⟩⟩
  | waiting => exact read_performs s r
  | telling notices =>
    have looked := performs_look s r
    simp only [finishRead]
    generalize s.look r = result at looked ⊢
    obtain ⟨found, s₁⟩ := result
    rcases found with e | (_ | record)
    · exact ⟨_, looked⟩
    · simp only
      split
      · obtain ⟨as, again⟩ := read_performs s₁ r
        exact ⟨_, again.after looked⟩
      · exact ⟨_, looked⟩
    · exact ⟨_, looked⟩

/-- A read that waits, and in whose waiting nothing else takes place, accounts for its answer. -/
theorem waitingRead_performs (s : Store) (r : TailerRef) (patience : Patience) (pace : Nat) :
    let (reading, s₁) := s.beginRead r patience
    let (answer, _, s') := s₁.finishRead r patience pace reading
    ∃ as, Performs s r answer s' as := by
  obtain ⟨as, begun⟩ := beginRead_performs s r patience
  generalize s.beginRead r patience = first at begun ⊢
  obtain ⟨reading, s₁⟩ := first
  by_cases unfinished : reading.answer = .ok none
  · rw [unfinished] at begun
    obtain ⟨bs, finished⟩ := finishRead_performs s₁ r patience pace unfinished
    exact ⟨_, finished.after begun⟩
  · cases reading with
    | ended found => exact ⟨as, begun⟩
    | waiting | telling => exact absurd rfl unfinished

/-- Looks and reads account for their answers, in one piece, in either of two parts, or in both with
nothing in between: what they answer with is what they consume, and they consume nothing else. -/
structure ReadsAccount (s : Store) : Prop where
  looks : ∀ r, Accounts r (s.look r).1 (s.events (.look r))
  reads : ∀ r, ∃ as, Performs s r (s.read r).1 (s.read r).2.2 as
  begins : ∀ r patience,
    ∃ as, Performs s r (s.beginRead r patience).1.answer (s.beginRead r patience).2 as
  finishes : ∀ r patience pace reading, reading.answer = .ok none →
    ∃ as, Performs s r (s.finishRead r patience pace reading).1
      (s.finishRead r patience pace reading).2.2 as
  waits : ∀ r patience pace,
    let (reading, s₁) := s.beginRead r patience
    let (answer, _, s') := s₁.finishRead r patience pace reading
    ∃ as, Performs s r answer s' as

theorem reads_account (s : Store) : ReadsAccount s where
  looks := look_accounts s
  reads := read_performs s
  begins := beginRead_performs s
  finishes r patience pace _ unfinished := finishRead_performs s r patience pace unfinished
  waits := waitingRead_performs s

end Store

end Logbook
