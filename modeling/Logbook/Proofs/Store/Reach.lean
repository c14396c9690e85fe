import Logbook.Proofs.Store.Records
import Logbook.Proofs.Store.Since

/-! Positions and the ends of partitions. Without a seek nobody gets past the end of a partition, but
what was read of a log that is deleted outlives it: in the position of a tailer that kept the
partition all the time, and in what such a tailer commits. -/
namespace Logbook.Store

/-- The end of a partition, zero while it does not exist. -/
def reach (s : Store) (p : Partition) : Nat :=
  match s.endOffset p with
  | .ok e => e
  | .error _ => 0

def Deletes (p : Partition) (s : Store) (a : Action) : Prop :=
  a = .delete p.log ∧ (s.delete p.log).1 = true

/-- A tailer had a partition when the log was deleted, and has had it ever since. -/
def OutlivesLog (r : TailerRef) (p : Partition) (s : Store) (as : List Action) : Prop :=
  Since (Deletes p) r p s as

/-- A tailer of a group has committed a partition whose log it has outlived, and the log was not
deleted again since. -/
def StaleCommit (group : String) (p : Partition) (s : Store) (as : List Action) : Prop :=
  ∃ before a after r, as = before ++ a :: after ∧ r.group = group ∧ OutlivesLog r p s before ∧
    CommitsTo r p (s.run before) a ∧
    Along (fun s a => ¬Deletes p s a) ((s.run before).act a) after

def NeverSeeks (_ : Store) : Action → Prop
  | .seek _ _ => False
  | _ => True

variable {s s' : Store} {a : Action} {as : List Action} {r : TailerRef} {t t' : Tailer}
  {p : Partition} {group : String} {k e : Nat}

/-! The end of a partition. -/

theorem reach_of_endOffset (there : s.endOffset p = .ok e) : s.reach p = e := by
  rw [reach, there]

theorem reach_eq (s : Store) (p : Partition) :
    s.reach p = (((s.log? p.log).bind (·.partitions[p.index]?)).getD []).length := by
  simp only [reach, endOffset, log]
  cases s.log? p.log with
  | none => rfl
  | some l =>
    simp only [bind, Except.bind, Option.bind_some, Log.endOffset, Log.records]
    cases l.partitions[p.index]? <;> rfl

theorem reach_of_endOrStart (there : s.endOrStart p = .ok e) : e = s.reach p := by
  unfold endOrStart at there
  cases found : s.log? p.log with
  | none =>
    rw [reach_eq, found]
    simp only [found, Except.ok.injEq] at there
    exact there.symm
  | some l =>
    simp only [found] at there
    refine (reach_of_endOffset ?_).symm
    simp only [endOffset, log, found, bind, Except.bind, there]

theorem lt_reach_of_peek {data : Bytes} (seen : s.peek t p = .ok (some data)) :
    t.position p < s.reach p := by
  rw [reach_eq]
  unfold peek at seen
  split at seen
  · cases seen
  · cases found : s.log? p.log with
    | none => simp [found] at seen
    | some l =>
      simp only [found, Log.records] at seen
      simp only [Option.bind_some]
      cases there : l.partitions[p.index]? with
      | none => simp [there, Except.map] at seen
      | some records =>
        simp only [there, Except.map, Except.ok.injEq] at seen
        exact (List.getElem?_eq_some_iff.mp seen).1

/-- A record at the position in a running partition is seen. -/
theorem peek_of_lt_reach (running : p ∉ t.stopped) (below : t.position p < s.reach p) :
    ∃ data, s.peek t p = .ok (some data) := by
  rw [reach_eq] at below
  cases log : s.log? p.log with
  | none => simp [log] at below
  | some l =>
    cases there : l.partitions[p.index]? with
    | none => simp [log, there] at below
    | some records =>
      rw [log, Option.bind_some, there, Option.getD_some] at below
      refine ⟨records[t.position p], ?_⟩
      rw [peek, if_neg fun stops => running (List.contains_iff_mem.mp stops)]
      simp only [log, Log.records, there, Except.map, List.getElem?_eq_getElem below]

/-- The end of a partition moves back only when its log is deleted. -/
theorem Effect.reach (step : Effect s a s') (p : Partition) :
    s.reach p ≤ s'.reach p ∨ Deletes p s a := by
  simp only [reach_eq]
  rcases step.log p.log with same | ⟨_, _, absent, _⟩ | ⟨rfl, deletes, _⟩ | ⟨l, i, data, old, new⟩
  · exact .inl (Nat.le_of_eq (by rw [same]))
  · left
    rw [absent]
    exact Nat.zero_le _
  · exact .inr ⟨rfl, deletes⟩
  · left
    rw [old, new, Option.bind_some, Option.bind_some, Log.partitions_push]
    cases l.partitions[p.index]? with
    | none => exact Nat.le_refl _
    | some records =>
      by_cases here : i = p.index <;> simp [here]

theorem Deletes.committed? (deletes : Deletes p s a) (group : String) :
    (s.act a).committed? group p = none := by
  obtain ⟨rfl, done⟩ := deletes
  simp only [act]
  unfold delete at done ⊢
  split at done
  · rename_i allowed
    rw [if_pos allowed]
    refine (lookup_filter_key s.committed (fun k => k.partition.log ≠ p.log) ⟨group, p⟩).trans ?_
    simp
  · cases done

/-! Positions without a seek. -/

theorem position_moveToEnds (s : Store) (t : Tailer) (ps : List Partition) (p : Partition) :
    (s.moveToEnds t ps).2.position p = t.position p ∨
      (s.moveToEnds t ps).2.position p = s.reach p := by
  induction ps generalizing t with
  | nil => exact .inl rfl
  | cons q rest ih =>
    cases found : s.endOrStart q with
    | error e => exact .inl (by simp only [moveToEnds, found])
    | ok e =>
      simp only [moveToEnds, found]
      rcases ih (t.setPosition q e) with same | atEnd
      · rw [same, Tailer.position_setPosition]
        by_cases here : p = q
        · subst here
          exact .inr ((if_pos rfl).trans (reach_of_endOrStart found))
        · exact .inl (if_neg here)
      · exact .inr atEnd

/-- Without a seek, a position stays, is where the group has committed, or is not past the end. -/
theorem Change.reach (allowed : NeverSeeks s a) (found : s.tailer? r = some t)
    (change : Change s r t a t') (p : Partition) :
    t'.position p = t.position p ∨ t'.position p = (s.committed? r.group p).getD 0 ∨
      t'.position p ≤ s.reach p := by
  rcases change.position found p with same | zero | back | ⟨further, data, event⟩ | rfl | ⟨o, rfl⟩
  · exact .inl same
  · exact .inr (.inr (by omega))
  · exact .inr (.inl back)
  · -- what was consumed was there to be seen
    have member : .consumed r ⟨p, t.position p⟩ (t.tells data) ∈ s.events a := by
      rw [event]
      exact List.mem_singleton.mpr rfl
    obtain ⟨-, -, u, bytes, same, -, seen, -, -⟩ := consumed_look member
    cases Option.some.inj (same.symm.trans found)
    have within := lt_reach_of_peek seen
    exact .inr (.inr (further ▸ within))
  · cases change with
    | same => exact .inl rfl
    | closes _ impossible => cases impossible
    | turns turn =>
      cases turn with
      | ends =>
        rcases position_moveToEnds s t t.assignments p with same | atEnd
        · exact .inl same
        · exact .inr (.inr (Nat.le_of_eq atEnd))
  · exact allowed.elim

/-! Runs. -/

theorem StaleCommit.later (stale : StaleCommit group p s as) (spared : ¬Deletes p (s.run as) a) :
    StaleCommit group p s (as ++ [a]) := by
  obtain ⟨before, b, after, r, rfl, same, outlives, commits, kept⟩ := stale
  refine ⟨before, b, after ++ [a], r, by simp, same, outlives, commits, ?_⟩
  have there : ((s.run before).act b).run after = s.run (before ++ b :: after) :=
    (run_append s before (b :: after)).symm
  rw [along_append, there]
  exact ⟨kept, spared, trivial⟩

/-- A position of a tailer is not past the end of its partition, or was taken from a log that is
gone. -/
def Founded (r : TailerRef) (p : Partition) (s : Store) (as : List Action) (k : Nat) : Prop :=
  k ≤ (s.run as).reach p ∨ OutlivesLog r p s as ∨ StaleCommit r.group p s as

/-- Whatever one action does to the log, a tailer that keeps the partition can stay where it was. -/
theorem Founded.later (founded : Founded r p s as k) (had : Holds r p (s.run as))
    (holds : Holds r p ((s.run as).act a)) : Founded r p s (as ++ [a]) k := by
  by_cases deletes : Deletes p (s.run as) a
  · exact .inr (.inl (.now deletes had holds))
  · rcases founded with within | outlives | stale
    · rcases (effect (s.run as) a).reach p with further | gone
      · exact .inl (run_concat s as a ▸ Nat.le_trans within further)
      · exact absurd gone deletes
    · exact .inr (.inl (outlives.later holds))
    · exact .inr (.inr (stale.later deletes))

structure Grounded (s : Store) (as : List Action) : Prop where
  positions : ∀ {r t p}, (s.run as).tailer? r = some t → p ∈ t.assignments →
    Founded r p s as (t.position p)
  committed : ∀ {group p e}, (s.run as).committed? group p = some e →
    e ≤ (s.run as).reach p ∨ StaleCommit group p s as

theorem Grounded.getD_committed (grounded : Grounded s as) (group : String) (p : Partition) :
    ((s.run as).committed? group p).getD 0 ≤ (s.run as).reach p ∨ StaleCommit group p s as := by
  cases committed : (s.run as).committed? group p with
  | none => exact .inl (Nat.zero_le _)
  | some e => exact grounded.committed committed

theorem Grounded.positions_step (grounded : Grounded s as) (allowed : NeverSeeks (s.run as) a)
    (found' : ((s.run as).act a).tailer? r = some t') (holds : p ∈ t'.assignments) :
    Founded r p s (as ++ [a]) (t'.position p) := by
  have step := effect (s.run as) a
  by_cases had : Holds r p (s.run as)
  · obtain ⟨t, found, member⟩ := had
    have change := step.change found found'
    have founded : Founded r p s as (t'.position p) := by
      rcases change.reach allowed found p with same | back | within
      · rw [same]
        exact grounded.positions found member
      · rw [back]
        exact (grounded.getD_committed r.group p).imp_right .inr
      · exact .inl within
    exact founded.later ⟨t, found, member⟩ ⟨t', found', holds⟩
  · have spared : ¬Deletes p (s.run as) a :=
      fun deletes => (step.begins_quietly had found' holds).2 p.log deletes.1
    rw [step.begins had found' holds]
    rcases grounded.getD_committed r.group p with within | stale
    · rcases step.reach p with further | gone
      · exact .inl (run_concat s as a ▸ Nat.le_trans within further)
      · exact absurd gone spared
    · exact .inr (.inr (stale.later spared))

theorem Grounded.committed_step (grounded : Grounded s as)
    (committed : ((s.run as).act a).committed? group p = some e) :
    e ≤ ((s.run as).act a).reach p ∨ StaleCommit group p s (as ++ [a]) := by
  have step := effect (s.run as) a
  have spared : ¬Deletes p (s.run as) a := by
    intro deletes
    cases (deletes.committed? group).symm.trans committed
  have further : (s.run as).reach p ≤ ((s.run as).act a).reach p :=
    (step.reach p).resolve_right spared
  rcases step.committed group p with same | ⟨_, gone⟩ |
      ⟨r, t, ps, here, found, opened, commits, member, set⟩
  · rcases grounded.committed (same ▸ committed) with within | stale
    · exact .inl (Nat.le_trans within further)
    · exact .inr (stale.later spared)
  · cases gone.symm.trans committed
  · cases Option.some.inj (set.symm.trans committed)
    subst here
    rcases grounded.positions found (commits_assigned commits member) with within | outlives | stale
    · exact .inl (Nat.le_trans within further)
    · have now : CommitsTo r p (s.run as) a := ⟨t, ps, found, opened, commits, member⟩
      exact .inr ⟨as, a, [], r, rfl, rfl, outlives, now, trivial⟩
    · exact .inr (stale.later spared)

theorem grounded_run {config : StoreConfig} (allowed : Along NeverSeeks ({ config } : Store) as) :
    Grounded ({ config } : Store) as := by
  refine run_induction ?_ ?_ allowed
  · exact ⟨fun found => (by cases found), fun committed => (by cases committed)⟩
  · intro as a _ now grounded
    constructor
    case positions =>
      intro r t p found holds
      exact grounded.positions_step now (run_concat _ as a ▸ found) holds
    case committed =>
      intro group p e committed
      rw [run_concat] at committed ⊢
      exact grounded.committed_step committed

/-- A tailer is past the end of a partition only if it has had the partition since before the log
was deleted, or if a tailer of its group had and has committed it. -/
theorem position_within {config : StoreConfig} (allowed : Along NeverSeeks ({ config } : Store) as)
    (found : (({ config } : Store).run as).tailer? r = some t) (holds : p ∈ t.assignments)
    (there : (({ config } : Store).run as).endOffset p = .ok e) :
    t.position p ≤ e ∨ OutlivesLog r p ({ config } : Store) as ∨
      StaleCommit r.group p ({ config } : Store) as := by
  have founded := (grounded_run allowed).positions found holds
  rw [Founded, reach_of_endOffset there] at founded
  exact founded

theorem ok_of_toOption {answer : Except ε α} (same : answer.toOption = some x) :
    answer = .ok x := by
  cases answer with
  | error e => cases same
  | ok y => exact congrArg _ (Option.some.inj same)

/-- A subscribed tailer reads while its log is gone, and gives up its position. -/
def restart : List Action :=
  let reader : TailerRef := ⟨"readers", 0⟩
  [.create "events" 1, .openAppender "events" .string none, .appendTo 0 0 (.text "a"),
    .subscribe "readers" ["events"] .string none, .takeOver reader, .look reader,
    .delete "events", .takeOver reader, .look reader, .create "events" 1,
    .openAppender "events" .string none, .appendTo 1 0 (.text "b"), .takeOver reader, .look reader]

theorem restart_within : Along NeverSeeks ({} : Store) restart ∧
    (({} : Store).run restart).endOffset ⟨"events", 0⟩ = .ok 1 ∧
    ∃ t, (({} : Store).run restart).tailer? ⟨"readers", 0⟩ = some t ∧
      ⟨"events", 0⟩ ∈ t.assignments ∧
      (t.position ⟨"events", 0⟩ ≤ 1 ∨
        OutlivesLog ⟨"readers", 0⟩ ⟨"events", 0⟩ ({} : Store) restart ∨
        StaleCommit "readers" ⟨"events", 0⟩ ({} : Store) restart) := by
  have allowed : Along NeverSeeks ({} : Store) restart := by simp [restart, Along, NeverSeeks]
  have there : (({} : Store).run restart).endOffset ⟨"events", 0⟩ = .ok 1 :=
    ok_of_toOption (by decide +kernel)
  have assigned : ((({} : Store).run restart).tailer? ⟨"readers", 0⟩).map (·.assignments) =
      some [⟨"events", 0⟩] := by decide +kernel
  obtain ⟨t, found, same⟩ := Option.map_eq_some_iff.mp assigned
  have holds : ⟨"events", 0⟩ ∈ t.assignments := same ▸ List.mem_singleton.mpr rfl
  exact ⟨allowed, there, t, found, holds, position_within allowed found holds there⟩

/-- A tailer for given partitions and a subscribed one read a record of a log, which is deleted and
created again before they read once more. The subscribed one commits, and another tailer begins
there. -/
def recreation : List Action :=
  let auditor : TailerRef := ⟨"auditors", 0⟩
  let reader : TailerRef := ⟨"readers", 0⟩
  [.create "events" 1, .openAppender "events" .string none, .appendTo 0 0 (.text "a"),
    .createTailer "auditors" [⟨"events", 0⟩] .string none, .takeOver auditor, .look auditor,
    .subscribe "readers" ["events"] .string none, .takeOver reader, .look reader,
    .delete "events", .create "events" 1, .takeOver auditor, .look auditor,
    .takeOver reader, .look reader, .commit reader,
    .createTailer "readers" [⟨"events", 0⟩] .string none]

def rereaders : List TailerRef := [⟨"auditors", 0⟩, ⟨"readers", 0⟩, ⟨"readers", 1⟩]

/-- All three of them are open and past the end, and are told nothing of the next record. -/
theorem recreation_skips : Along NeverSeeks ({} : Store) recreation ∧
    (({} : Store).run recreation).endOffset ⟨"events", 0⟩ = .ok 0 ∧
    ∀ r ∈ rereaders,
      ((({} : Store).run recreation).tailer? r).map (fun t =>
          (t.closed, t.assignments, t.position ⟨"events", 0⟩)) =
        some (false, [⟨"events", 0⟩], 1) ∧
      ((({} : Store).run (recreation ++ [.openAppender "events" .string none,
        .appendTo 1 0 (.text "b")])).read r).1 = .ok none := by
  have allowed : Along NeverSeeks ({} : Store) recreation := by
    simp [recreation, Along, NeverSeeks]
  have past : ∀ r ∈ rereaders,
      ((({} : Store).run recreation).tailer? r).map (fun t =>
          (t.closed, t.assignments, t.position ⟨"events", 0⟩)) =
        some (false, [⟨"events", 0⟩], 1) := by decide +kernel
  have told : ∀ r ∈ rereaders,
      ((({} : Store).run (recreation ++ [.openAppender "events" .string none,
        .appendTo 1 0 (.text "b")])).read r).1.toOption = some none := by decide +kernel
  exact ⟨allowed, ok_of_toOption (by decide +kernel),
    fun r listed => ⟨past r listed, ok_of_toOption (told r listed)⟩⟩

end Logbook.Store
