import Logbook.Proofs.Store.Advance
import Logbook.Proofs.Store.Delivery

/-! Deletion and what is committed. A deletion drops all offsets committed for the log, and an offset
that is on record for a partition that does not exist was committed afterwards, by a tailer that
has had the partition since before the deletion. -/
namespace Logbook.Store

def HasPartition (s : Store) (p : Partition) : Prop :=
  ∃ l, s.log? p.log = some l ∧ p.index < l.size

variable {s s' : Store} {a : Action} {as : List Action} {r : TailerRef} {t t' : Tailer}
  {p : Partition} {group : String} {e : Nat}

/-- A partition is there as long as its log is not deleted. -/
theorem Effect.keepsPartition (step : Effect s a s') (there : s.HasPartition p)
    (spared : ¬Deletes p s a) : s'.HasPartition p := by
  obtain ⟨l, log, within⟩ := there
  have kept (deletes : a = .delete p.log) : (s.delete p.log).1 = false :=
    Bool.eq_false_iff.mpr fun done => spared ⟨deletes, done⟩
  obtain ⟨l', log', size⟩ := step.keepsLog log kept
  exact ⟨l', log', size ▸ within⟩

/-- A tailer only gets partitions that are there. -/
theorem Effect.begins_there (step : Effect s a s') (assigned : Assigned s)
    (before : ¬Holds r p s) (found' : s'.tailer? r = some t') (holds : p ∈ t'.assignments) :
    s'.HasPartition p := by
  have spared : ¬Deletes p s a :=
    fun deletes => (step.begins_quietly before found' holds).2 p.log deletes.1
  refine step.keepsPartition ?_ spared
  cases found : s.tailer? r with
  | none =>
    rcases step.newTailer found with absent | ⟨ps, _, _, _, checked, new⟩ | ⟨_, _, _, _, new⟩
    · cases absent.symm.trans found'
    · cases Option.some.inj (new.symm.trans found')
      rw [Store.newTailer, Tailer.place_eq] at holds
      exact checkPartitions_ok checked p holds
    · cases Option.some.inj (new.symm.trans found')
      cases holds
  | some t =>
    have change := step.change found found'
    exact assigned_exist assigned (change.gains (fun held => before ⟨t, found, held⟩) holds).2.1

/-- A committed offset is overwritten and nothing else, until its log is deleted. -/
theorem Effect.keepsCommitted (step : Effect s a (s.act a)) (spared : ¬Deletes p s a)
    (committed : s.committed? group p = some e) :
    ∃ e', (s.act a).committed? group p = some e' := by
  rcases step.committed group p with same | ⟨rfl, gone⟩ | ⟨r, t, _, _, _, _, _, _, set⟩
  · exact ⟨e, same.trans committed⟩
  · have refused : (s.delete p.log).1 = false := Bool.eq_false_iff.mpr fun done => spared ⟨rfl, done⟩
    rw [delete_spares refused, committed] at gone
    cases gone
  · exact ⟨t.position p, set⟩

/-- Partitions that tailers have, and partitions with committed offsets, are there, or their log is
gone and somebody has kept them. -/
structure Lingers (s : Store) (as : List Action) : Prop where
  held : ∀ {r p}, Holds r p (s.run as) → (s.run as).HasPartition p ∨ OutlivesLog r p s as
  committed : ∀ {group p e}, (s.run as).committed? group p = some e →
    (s.run as).HasPartition p ∨ StaleCommit group p s as

theorem Lingers.held_step (lingers : Lingers s as) (assigned : Assigned (s.run as))
    (holds : Holds r p ((s.run as).act a)) :
    ((s.run as).act a).HasPartition p ∨ OutlivesLog r p s (as ++ [a]) := by
  have step := effect (s.run as) a
  by_cases had : Holds r p (s.run as)
  · by_cases deletes : Deletes p (s.run as) a
    · exact .inr (.now deletes had holds)
    · rcases lingers.held had with there | outlives
      · exact .inl (step.keepsPartition there deletes)
      · exact .inr (outlives.later holds)
  · obtain ⟨t', found', member⟩ := holds
    exact .inl (step.begins_there assigned had found' member)

theorem Lingers.committed_step (lingers : Lingers s as)
    (committed : ((s.run as).act a).committed? group p = some e) :
    ((s.run as).act a).HasPartition p ∨ StaleCommit group p s (as ++ [a]) := by
  have step := effect (s.run as) a
  have spared : ¬Deletes p (s.run as) a := by
    intro deletes
    cases (deletes.committed? group).symm.trans committed
  rcases step.committed group p with same | ⟨_, gone⟩ |
      ⟨r, t, ps, here, found, opened, commits, member, _⟩
  · rcases lingers.committed (same ▸ committed) with there | stale
    · exact .inl (step.keepsPartition there spared)
    · exact .inr (stale.later spared)
  · cases gone.symm.trans committed
  · rcases lingers.held ⟨t, found, commits_assigned commits member⟩ with there | outlives
    · exact .inl (step.keepsPartition there spared)
    · exact .inr ⟨as, a, [], r, rfl, here, outlives, ⟨t, ps, found, opened, commits, member⟩,
        trivial⟩

theorem lingers_run (config : StoreConfig) (as : List Action) :
    Lingers ({ config } : Store) as := by
  have all : Along (fun _ _ => True) ({ config } : Store) as := along_all as
  refine run_induction ?_ ?_ all
  · exact ⟨fun ⟨_, found, _⟩ => (by cases found), fun committed => (by cases committed)⟩
  · intro as a _ _ lingers
    constructor
    case held =>
      intro r p holds
      rw [run_concat] at holds ⊢
      exact lingers.held_step (assigned_run as) holds
    case committed =>
      intro group p e committed
      rw [run_concat] at committed ⊢
      exact lingers.committed_step committed

/-- What was committed stays on record until the log is deleted. -/
theorem committed_lasts (committed : s.committed? group p = some e)
    (spared : Along (fun s a => ¬Deletes p s a) s as) :
    ∃ e', (s.run as).committed? group p = some e' := by
  induction as generalizing s e with
  | nil => exact ⟨e, committed⟩
  | cons a as ih =>
    obtain ⟨e', later⟩ := (effect s a).keepsCommitted spared.1 committed
    exact ih later spared.2

/-- What a commit puts on record is the position of the tailer. -/
theorem Commits.committed? {ps : List Partition} (commits : Commits r t a ps)
    (found : s.tailer? r = some t) (opened : t.closed = false) (member : p ∈ ps) :
    (s.act a).committed? r.group p = some (t.position p) := by
  have opens := openTailer_ok.mpr ⟨found, opened⟩
  cases commits with
  | all =>
    simp only [act, commitAll, opens, bind, Except.bind]
    exact (committed?_foldl_commit s r.group r.group _ _ p).trans (if_pos ⟨rfl, member⟩)
  | one q holds =>
    cases List.mem_singleton.mp member
    simp only [act, commitPartition, assignedTailer, opens, bind, Except.bind,
      List.contains_iff_mem.mpr holds, if_true]
    exact (committed?_commit s r.group r.group p p _).trans (if_pos ⟨rfl, rfl⟩)

theorem CommitsTo.committed? (commits : CommitsTo r p s a) :
    ∃ e, (s.act a).committed? r.group p = some e := by
  obtain ⟨t, ps, found, opened, commits, member⟩ := commits
  exact ⟨t.position p, commits.committed? found opened member⟩

theorem StaleCommit.committed? (stale : StaleCommit group p s as) :
    ∃ e, (s.run as).committed? group p = some e := by
  obtain ⟨before, a, after, r, rfl, rfl, -, commits, spared⟩ := stale
  obtain ⟨e, set⟩ := commits.committed?
  rw [run_append, run_cons]
  exact committed_lasts set spared

/-- What deletions do to committed offsets after a run: one that takes place drops them all. Offsets
of partitions that do not exist are those that were committed since by tailers that had the
partition before, and these are the ones with which a log of that name begins anew. -/
structure DropsCommitted (s : Store) (as : List Action) : Prop where
  deleted : ∀ a p, Deletes p (s.run as) a → ∀ group, ((s.run as).act a).committed? group p = none
  missing : ∀ group p, ¬(s.run as).HasPartition p →
    ((∃ e, (s.run as).committed? group p = some e) ↔ StaleCommit group p s as)
  created : ∀ group p size, (s.run as).log? p.log = none →
    ((∃ e, ((s.run as).act (.create p.log size)).committed? group p = some e) ↔
      StaleCommit group p s as)

theorem drops_committed (config : StoreConfig) (as : List Action) :
    DropsCommitted ({ config } : Store) as := by
  have lingers := lingers_run config as
  have missing (group : String) (p : Partition)
      (absent : ¬(({ config } : Store).run as).HasPartition p) :
      (∃ e, (({ config } : Store).run as).committed? group p = some e) ↔
        StaleCommit group p ({ config } : Store) as :=
    ⟨fun ⟨_, committed⟩ => (lingers.committed committed).resolve_left absent,
      StaleCommit.committed?⟩
  constructor
  case deleted => exact fun a p deletes group => deletes.committed? group
  case missing => exact missing
  case created =>
    intro group p size gone
    have absent : ¬(({ config } : Store).run as).HasPartition p := by
      rintro ⟨l, log, -⟩
      cases log.symm.trans gone
    have same : ((({ config } : Store).run as).act (.create p.log size)).committed? group p =
        (({ config } : Store).run as).committed? group p := by
      rcases (effect (({ config } : Store).run as) (.create p.log size)).committed group p with
        same | ⟨impossible, -⟩ | ⟨_, _, _, _, _, _, commits, _⟩
      · exact same
      · cases impossible
      · cases commits
    rw [same]
    exact missing group p absent

/-- A tailer for given partitions and a subscribed one read a record of a log. They commit when the
log has been deleted, and the log is created again with fewer partitions. -/
def lateCommits : List Action :=
  let auditor : TailerRef := ⟨"auditors", 0⟩
  let reader : TailerRef := ⟨"readers", 0⟩
  [.create "events" 2, .openAppender "events" .string none, .appendTo 0 1 (.text "a"),
    .createTailer "auditors" [⟨"events", 1⟩] .string none, .takeOver auditor, .look auditor,
    .subscribe "readers" ["events"] .string none, .takeOver reader, .look reader,
    .delete "events", .commit auditor, .commitPartition reader ⟨"events", 1⟩]

/-- Their offsets are on record for a log that is gone, and for a partition that the new one does not
have. -/
theorem lateCommits_linger :
    (({} : Store).run lateCommits).log? "events" = none ∧
    (({} : Store).run lateCommits).committed? "auditors" ⟨"events", 1⟩ = some 1 ∧
    (({} : Store).run lateCommits).committed? "readers" ⟨"events", 1⟩ = some 1 ∧
    (({} : Store).run (lateCommits ++ [.create "events" 1])).sizeOf? "events" = some 1 ∧
    (({} : Store).run (lateCommits ++ [.create "events" 1])).committed? "auditors" ⟨"events", 1⟩ =
      some 1 ∧
    (({} : Store).run (lateCommits ++ [.create "events" 1])).committed? "readers" ⟨"events", 1⟩ =
      some 1 := by decide +kernel

end Logbook.Store
