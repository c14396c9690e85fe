import Logbook.Proofs.Store.Advance
import Logbook.Proofs.Broker.Exclusive

/-! What groups commit in sessions: offsets do not go back where tailers do not. A tailer that was
opened for given partitions is never overtaken by another one of that kind, but one that has
subscribed goes on with partitions that it has lost until it reads. -/
namespace Logbook

namespace Store

def IsSubscribed (r : TailerRef) (s : Store) : Prop :=
  ∃ t, s.tailer? r = some t ∧ t.subscribed = true

/-- No step of a run takes a committed offset back, unless it commits the position of a tailer that
was overtaken, and this tailer or the one that has overtaken it has subscribed. -/
def CommitsAdvance (s : Store) (as : List Action) : Prop :=
  ∀ before a after, as = before ++ a :: after →
    ∀ group p e, (s.run before).committed? group p = some e →
      ∃ e', ((s.run before).act a).committed? group p = some e' ∧
        (e ≤ e' ∨ ∃ r q, r.group = group ∧ CommitsTo r p (s.run before) a ∧
          Overtaken r q p s before ∧ (IsSubscribed r (s.run before) ∨ IsSubscribed q (s.run before)))

end Store

namespace Broker.Session

variable {x : Session} {r q : TailerRef} {p : Partition} {ops : List Operation}

/-- Before a commit, a session has done some of its operations. -/
theorem trace_split {t : Tailer} {ps : List Partition} {a : Store.Action}
    {before after : List Store.Action} (commits : Store.Commits r t a ps)
    (split : x.trace ops = before ++ a :: after) :
    ∃ done rest, ops = done ++ .store a :: rest ∧ before = x.trace done := by
  induction ops generalizing x before with
  | nil => simp [trace] at split
  | cons op ops ih =>
    rw [trace, List.append_eq_append_iff] at split
    rcases split with ⟨more, rfl, later⟩ | ⟨more, own, later⟩
    · obtain ⟨done, rest, rfl, rfl⟩ := ih later
      exact ⟨op :: done, rest, rfl, rfl⟩
    · cases more with
      | nil =>
        have remaining : (x.act op).trace ops = [] ++ a :: after := later.symm
        obtain ⟨done, rest, rfl, nothing⟩ := ih remaining
        refine ⟨op :: done, rest, rfl, ?_⟩
        rw [trace, ← nothing, own, List.append_nil, List.append_nil]
      | cons b more =>
        obtain ⟨rfl, -⟩ := List.cons.inj later
        have member : a ∈ x.storeActions op := own ▸ List.mem_append_right _ List.mem_cons_self
        rcases mem_storeActions member with rfl | impossible | ⟨_, _, _, _, rfl⟩
        · have first : before = [] := by
            cases before with
            | nil => rfl
            | cons c before => simp [storeActions] at own
          exact ⟨[], ops, rfl, first⟩
        · cases commits <;> cases impossible
        · cases commits

/-- A tailer is overtaken only if it or the other one has subscribed. -/
theorem overtaken_subscribed {config : StoreConfig} {limits : Limits}
    {before after : List Store.Action} (managed : ∀ op ∈ ops, Managed op)
    (split : (start config limits).trace ops = before ++ after)
    (opened : (({ config } : Store).run before).isClosedTailer r = false)
    (overtaken : Store.Overtaken r q p ({ config } : Store) before) :
    Store.IsSubscribed r (({ config } : Store).run before) ∨
      Store.IsSubscribed q (({ config } : Store).run before) := by
  obtain ⟨other, group, earlier, a, later, rfl, ⟨u, ps, found', opened', commits, listed⟩, kept, -⟩ :=
    overtaken
  obtain ⟨t, found, holds⟩ := kept.1
  rw [Store.run_append] at opened ⊢
  obtain ⟨t₁, after₁, continues⟩ := Store.run_tailer found (a :: later)
  obtain ⟨u₁, after₂, continues'⟩ := Store.run_tailer found' (a :: later)
  by_contra neither
  have explicit : t.subscribed = false := Bool.eq_false_iff.mpr fun subscribed =>
    neither (.inl ⟨t₁, after₁, continues.subscribed.trans subscribed⟩)
  have explicit' : u.subscribed = false := Bool.eq_false_iff.mpr fun subscribed =>
    neither (.inr ⟨u₁, after₂, continues'.subscribed.trans subscribed⟩)
  have open₁ : t.closed = false :=
    continues.opened ((Store.isClosedTailer_eq after₁).symm.trans opened)
  -- the other one has committed in a session, in which the two share nothing
  rw [List.append_assoc] at split
  obtain ⟨done, rest, rfl, rfl⟩ := trace_split commits split
  rw [← store_start config limits done] at found found'
  have exclusive := exclusive_run config limits fun op member =>
    managed op (List.mem_append_left _ member)
  refine exclusive.disjoint other.symm found explicit open₁ found' explicit' opened' ⟨r.group, p⟩ ?_ ?_
  · simp only [Store.keysOf, found]
    exact List.mem_map_of_mem holds
  · simp only [Store.keysOf, found', group]
    exact List.mem_map_of_mem (Store.commits_assigned commits listed)

/-- In a session where no tailer is moved back and no log is deleted, committed offsets advance. -/
theorem commits_advance {config : StoreConfig} {limits : Limits}
    (managed : ∀ op ∈ ops, Managed op)
    (forward : Store.Along Store.Forward { config } ((start config limits).trace ops)) :
    Store.CommitsAdvance { config } ((start config limits).trace ops) := by
  intro before a after split group p e committed
  rw [split] at forward
  obtain ⟨first, now, -⟩ := Store.along_append.mp forward
  obtain ⟨e', set, advances⟩ := Store.committed_advances first now committed
  refine ⟨e', set, advances.imp_right ?_⟩
  rintro ⟨r, q, here, ⟨t, ps, found, opened, commits⟩, overtaken⟩
  have still := (Store.isClosedTailer_eq found).trans opened
  exact ⟨r, q, here, ⟨t, ps, found, opened, commits⟩, overtaken,
    overtaken_subscribed managed split still overtaken⟩

/-- A member reads a partition, commits it and loses it to a second one, which reads on and
commits. -/
def handoff : List Operation :=
  let first : TailerRef := ⟨"readers", 0⟩
  let second : TailerRef := ⟨"readers", 1⟩
  [.create "events" 2, .appender "events" .string none,
    .subscribe "readers" ["events"] .string none, .ask 0, .finish 0,
    .store (.appendTo 0 1 (.text "a")), .store (.takeOver first), .store (.look first),
    .store (.commit first), .store (.appendTo 0 1 (.text "b")),
    .subscribe "readers" ["events"] .string none, .ask 0, .finish 0,
    .store (.takeOver second), .store (.look second), .store (.commit second)]

/-- The same, and the first member commits once more before it reads. -/
def lateCommit : List Operation := handoff ++ [.store (.commit ⟨"readers", 0⟩)]

theorem lateCommit_advances : (∀ op ∈ lateCommit, Managed op) ∧
    Store.Along Store.Forward {} ((start {} {}).trace lateCommit) ∧
    Store.CommitsAdvance {} ((start {} {}).trace lateCommit) := by
  have managed : ∀ op ∈ lateCommit, Managed op := by
    simp [lateCommit, handoff, Managed, Store.Action.opens?]
  have forward : Store.Along Store.Forward {} ((start {} {}).trace lateCommit) := by
    decide +kernel
  exact ⟨managed, forward, commits_advance managed forward⟩

/-- The last commit takes the offset back that the new owner has committed. -/
theorem lateCommit_goesBack : (∀ op ∈ lateCommit, Managed op) ∧
    Store.Along Store.Forward {} ((start {} {}).trace lateCommit) ∧
    (((start {} {}).run handoff).broker.store.assignmentOf ⟨"readers", 0⟩).2 =
      [⟨"events", 0⟩] ∧
    ((start {} {}).run handoff).broker.store.committed? "readers" ⟨"events", 1⟩ = some 2 ∧
    ((start {} {}).run lateCommit).broker.store.committed? "readers" ⟨"events", 1⟩ = some 1 := by
  have managed : ∀ op ∈ lateCommit, Managed op := by
    simp [lateCommit, handoff, Managed, Store.Action.opens?]
  exact ⟨managed, by decide +kernel, by decide +kernel, by decide +kernel, by decide +kernel⟩

end Broker.Session

end Logbook
