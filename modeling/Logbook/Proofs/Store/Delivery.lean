import Logbook.Proofs.Store.Groups
import Logbook.Proofs.Store.Reading
import Logbook.Proofs.Store.Tenure

/-! No loss, no duplication, in order: a tailer that is left alone is told of every record of its
partitions once, and where it is told that there is none, it has come to the end. -/
namespace Logbook.Store

def BehindPill (past : List Event) (r : TailerRef) (p : Partition) (position : Nat) : Prop :=
  ∃ k m, position = k + 1 ∧ m.isPoisonPill = true ∧ .consumed r ⟨p, k⟩ (.ok m) ∈ past

variable {s s' : Store} {a : Action} {r : TailerRef} {t t' : Tailer} {p : Partition}
  {past more : List Event}

/-! Partitions that a tailer has exist, and those that have stopped are behind a poison pill. -/

theorem Effect.keepsLog (step : Effect s a s') (found : s.log? name = some l)
    (kept : a = .delete name → (s.delete name).1 = false) :
    ∃ l', s'.log? name = some l' ∧ l'.size = l.size := by
  rcases step.log name with same | ⟨_, _, absent, _⟩ | ⟨rfl, deletes, _⟩ | ⟨k, _, _, old, new⟩
  · exact ⟨l, same.trans found, rfl⟩
  · cases absent.symm.trans found
  · cases (kept rfl).symm.trans deletes
  · cases Option.some.inj (old.symm.trans found)
    exact ⟨_, new, Log.size_push _ _ _⟩

theorem checkPartitions_ok {ps : List Partition} (checked : s.checkPartitions ps = .ok ()) :
    ∀ p ∈ ps, ∃ l, s.log? p.log = some l ∧ p.index < l.size := by
  induction ps with
  | nil => simp
  | cons q rest ih =>
    simp only [checkPartitions, size, Store.log] at checked
    cases found : s.log? q.log with
    | none => simp [found, Except.map, bind, Except.bind] at checked
    | some l =>
      by_cases outside : l.size ≤ q.index
      · simp [found, Except.map, bind, Except.bind, outside, throw, throwThe,
          MonadExceptOf.throw] at checked
      · simp only [found, Except.map, bind, Except.bind, outside, if_false] at checked
        intro p member
        rcases List.mem_cons.mp member with rfl | later
        · exact ⟨l, found, Nat.lt_of_not_le outside⟩
        · exact ih checked p later

/-- Where a tailer that is left alone stands: its partitions exist, and a partition stops behind a
poison pill that the tailer has consumed. -/
structure Stands (r : TailerRef) (s : Store) (past : List Event) : Prop where
  exist : ∀ p, Holds r p s → ∃ l, s.log? p.log = some l ∧ p.index < l.size
  stopped : ∀ t p, s.tailer? r = some t → p ∈ t.stopped →
    p ∈ t.assignments ∧ BehindPill past r p (t.position p)

theorem BehindPill.extend {position : Nat} (behind : BehindPill past r p position) :
    BehindPill (past ++ more) r p position := by
  obtain ⟨k, m, same, pill, member⟩ := behind
  exact ⟨k, m, same, pill, List.mem_append_left _ member⟩

theorem Stands.exist_step (stands : Stands r s past) (assigned : Assigned s)
    (alone : LeavesAlone r s a) (step : Effect s a s') (holds : Holds r p s') :
    ∃ l, s'.log? p.log = some l ∧ p.index < l.size := by
  obtain ⟨t', found', member⟩ := holds
  have there : ∃ l, s.log? p.log = some l ∧ p.index < l.size ∧
      (a = .delete p.log → (s.delete p.log).1 = false) := by
    cases found : s.tailer? r with
    | none =>
      rcases step.newTailer found with absent | ⟨ps, _, _, rfl, checked, new⟩ | ⟨_, _, _, rfl, new⟩
      · cases absent.symm.trans found'
      · cases Option.some.inj (new.symm.trans found')
        rw [newTailer, Tailer.place_eq] at member
        obtain ⟨l, log, within⟩ := checkPartitions_ok checked p member
        exact ⟨l, log, within, fun impossible => by cases impossible⟩
      · cases Option.some.inj (new.symm.trans found')
        cases member
    | some t =>
      have change := step.change found found'
      by_cases held : p ∈ t.assignments
      · obtain ⟨l, log, within⟩ := stands.exist p ⟨t, found, held⟩
        refine ⟨l, log, within, ?_⟩
        rintro rfl
        exact Bool.eq_false_iff.mpr fun deletes => alone deletes p ⟨t, found, held⟩ rfl
      · obtain ⟨rfl, given, -⟩ := change.gains held member
        obtain ⟨l, log, within⟩ := assigned_exist assigned given
        exact ⟨l, log, within, fun impossible => by cases impossible⟩
  obtain ⟨l, log, within, kept⟩ := there
  obtain ⟨l', log', size⟩ := step.keepsLog log kept
  exact ⟨l', log', size ▸ within⟩

/-- A look stops a partition only behind a pill, and passes over the ones that have stopped. -/
theorem Stands.look (stands : Stands r s past) (found : s.tailer? r = some t)
    (stops : p ∈ (s.poll t).2.stopped) : p ∈ (s.poll t).2.assignments ∧
      BehindPill (past ++ s.events (.look r)) r p ((s.poll t).2.position p) := by
  rcases look_cases found with ⟨i, q, data, holds, seen, same, -, event⟩ | ⟨same, -, -⟩
  · -- a stopped partition is not looked at, so its position stays behind the pill
    have running : q ∉ t.stopped := by
      intro stopped
      rw [peek, if_pos (List.contains_iff_mem.mpr stopped)] at seen
      cases seen
    have assigned : (s.poll t).2.assignments = t.assignments := by
      rw [same, consume_snd]
      rfl
    rw [same, mem_stopped_consume] at stops
    rw [assigned, same, position_consume, event]
    rcases stops with stopped | ⟨rfl, m, told, pill⟩
    · obtain ⟨member, behind⟩ := stands.stopped t p found stopped
      rw [if_neg fun here : p = q => running (here ▸ stopped)]
      exact ⟨member, behind.extend⟩
    · refine ⟨holds, t.position p, m, if_pos rfl, pill, ?_⟩
      rw [told]
      exact List.mem_append_right _ List.mem_cons_self
  · rw [same] at stops ⊢
    obtain ⟨member, behind⟩ := stands.stopped t p found stops
    exact ⟨member, behind.extend⟩

/-- Taking over leaves partitions stopped that are kept, and no others. -/
theorem Stands.follow (stands : Stands r s past) (found : s.tailer? r = some t)
    (stops : p ∈ (s.follow r t).1.stopped) : p ∈ (s.follow r t).1.assignments ∧
      BehindPill past r p ((s.follow r t).1.position p) := by
  have kept : p ∈ t.stopped ∧ p ∈ (s.follow r t).1.assignments := by
    rcases follow_cases s r t with same | ⟨subscribed, moved, same⟩
    · rw [same] at stops ⊢
      exact ⟨stops, (stands.stopped t p found stops).1⟩
    · obtain ⟨stopped, remains⟩ := (mem_stopped_follow subscribed moved).mp stops
      rw [same]
      refine ⟨stopped, ?_⟩
      by_contra lost
      have member := (stands.stopped t p found stopped).1
      exact remains (Tailer.mem_lost.mpr ⟨member, lost⟩)
  obtain ⟨member, behind⟩ := stands.stopped t p found kept.1
  exact ⟨kept.2, position_follow_kept member kept.2 ▸ behind⟩

theorem Stands.stopped_step (stands : Stands r s past) (alone : LeavesAlone r s a)
    (step : Effect s a s') (found' : s'.tailer? r = some t') (stops : p ∈ t'.stopped) :
    p ∈ t'.assignments ∧ BehindPill (past ++ s.events a) r p (t'.position p) := by
  cases found : s.tailer? r with
  | none =>
    rcases step.newTailer found with absent | ⟨_, _, _, _, _, new⟩ | ⟨_, _, _, _, new⟩
    · cases absent.symm.trans found'
    · cases Option.some.inj (new.symm.trans found')
      rw [newTailer, Tailer.place_eq] at stops
      cases stops
    · cases Option.some.inj (new.symm.trans found')
      cases stops
  | some t =>
    have change := step.change found found'
    cases change with
    | same | closes =>
      obtain ⟨member, behind⟩ := stands.stopped _ p found stops
      exact ⟨member, behind.extend⟩
    | turns turn =>
      cases turn with
      | looks => exact stands.look found stops
      | follows =>
        obtain ⟨member, behind⟩ := stands.follow found stops
        exact ⟨member, behind.extend⟩
      | starts | returns | ends | seeks => exact absurd rfl alone

theorem stands_run {config : StoreConfig} {as : List Action}
    (alone : Along (LeavesAlone r) ({ config } : Store) as) :
    Stands r (({ config } : Store).run as) (({ config } : Store).history as) := by
  have start : Stands r ({ config } : Store) [] ∧ Assigned ({ config } : Store) :=
    ⟨⟨fun _ ⟨_, found, _⟩ => (by cases found), fun _ _ found => (by cases found)⟩,
      fun _ _ found => (by cases found)⟩
  refine (run_invariant (P := fun s past => Stands r s past ∧ Assigned s) ?_ start alone).1
  intro s past a ⟨stands, assigned⟩ alone
  have step := effect s a
  exact ⟨⟨fun _ => stands.exist_step assigned alone step,
    fun _ _ => stands.stopped_step alone step⟩, assigned.step step⟩

/-! What a tailer is told. -/

/-- A record that is seen has one append, to the log that there is. -/
theorem Recorded.peek (recorded : Recorded s past) {data : Bytes}
    (seen : s.peek t p = .ok (some data)) :
    ∃ l, s.log? p.log = some l ∧ appendedAt past l.number ⟨p, t.position p⟩ = [data] := by
  unfold Store.peek at seen
  split at seen
  · cases seen
  · split at seen
    · cases seen
    · rename_i l found
      unfold Log.records at seen
      split at seen
      · rename_i rs there
        have record : rs[t.position p]? = some data := Except.ok.inj seen
        obtain ⟨member, name⟩ := log?_mem found
        have stored := recorded.stored member there (t.position p)
        rw [name, record] at stored
        exact ⟨l, found, stored⟩
      · cases seen

/-- Where nothing is seen, the partition has stopped or the position has reached the end. -/
theorem Stands.peek (stands : Stands r s past) (found : s.tailer? r = some t)
    (holds : p ∈ t.assignments) (nothing : s.peek t p = .ok none) :
    ∃ e, s.endOffset p = .ok e ∧
      (e ≤ t.position p ∨ p ∈ t.stopped ∧ BehindPill past r p (t.position p)) := by
  obtain ⟨l, log, within⟩ := stands.exist p ⟨t, found, holds⟩
  have there : l.partitions[p.index]? = some l.partitions[p.index] :=
    List.getElem?_eq_getElem within
  refine ⟨l.partitions[p.index].length, ?_, ?_⟩
  · simp only [endOffset, Store.log, log, bind, Except.bind, Log.endOffset, Log.records, there]
    rfl
  · unfold Store.peek at nothing
    split at nothing
    · rename_i stops
      have stopped := List.contains_iff_mem.mp stops
      exact .inr ⟨stopped, (stands.stopped t p found stopped).2⟩
    · simp only [log, Log.records, there, Except.map, Except.ok.injEq] at nothing
      exact .inl (List.getElem?_eq_none_iff.mp nothing)

/-- What a run owes to a tailer. In a tenure, it consumes the offsets from where the group has
committed up to its position, each of them once. What it is told of an offset is what was appended
there, as its codec has it, and nothing is read that is not consumed. Where it is told that there is
nothing, its partitions are at their ends or have stopped behind a poison pill. -/
structure Delivers (s : Store) (as : List Action) (r : TailerRef) : Prop where
  inOrder : ∀ before a during rest p, as = before ++ a :: (during ++ rest) →
    ¬Holds r p (s.run before) → Along (fun s _ => Holds r p s) ((s.run before).act a) during →
    ∃ n, consumedBy (((s.run before).act a).history during) r p =
        List.range' (((s.run before).committed? r.group p).getD 0) n ∧
      ∀ t, (s.run (before ++ a :: during)).tailer? r = some t → p ∈ t.assignments →
        t.position p = ((s.run before).committed? r.group p).getD 0 + n
  faithful : ∀ before rest o told, as = before ++ .look r :: rest →
    .consumed r o told ∈ (s.run before).events (.look r) →
    ((s.run before).look r).1 = told.map (fun m => some (o, m)) ∧
      ∃ t l data, (s.run before).tailer? r = some t ∧ o.partition ∈ t.assignments ∧
        (s.run before).log? o.partition.log = some l ∧
        appendedAt (s.history before) l.number o = [data] ∧ told = t.tells data
  accounts : ∀ before rest, as = before ++ rest → ReadsAccount (s.run before)
  complete : ∀ before rest t p, as = before ++ .look r :: rest →
    ((s.run before).look r).1 = .ok none → (s.run before).tailer? r = some t →
    p ∈ t.assignments → ∃ e, (s.run before).endOffset p = .ok e ∧
      (e ≤ t.position p ∨
        p ∈ t.stopped ∧ BehindPill (s.history before) r p (t.position p))

/-- A tailer that is left alone gets every record of its partitions, once and in order. -/
theorem delivers {config : StoreConfig} {as : List Action}
    (alone : Along (LeavesAlone r) ({ config } : Store) as) :
    Delivers ({ config } : Store) as r where
  inOrder before a during rest p split absent tenure := by
    subst split
    have left := (along_append.mp (along_append.mp alone).2.2).1
    have same : ({ config } : Store).run (before ++ a :: during) =
        ((({ config } : Store).run before).act a).run during := run_append _ _ _
    rw [same]
    by_cases begun : Holds r p ((({ config } : Store).run before).act a)
    · obtain ⟨t, found, holds⟩ := begun
      obtain ⟨n, consumed, last⟩ := consumes_run left tenure found
      rw [(effect _ a).begins absent found holds] at consumed last
      exact ⟨n, consumed, last⟩
    · cases during with
      | nil => exact ⟨0, rfl, fun t found holds => absurd ⟨t, found, holds⟩ begun⟩
      | cons b bs => exact absurd tenure.1 begun
  faithful before rest o told split member := by
    obtain ⟨-, answer, t, data, found, holds, seen, position, same⟩ := consumed_look member
    obtain ⟨l, log, appended⟩ := (recorded_run before).peek seen
    rw [← position] at appended
    exact ⟨answer, t, l, data, found, holds, log, appended, same⟩
  accounts _ _ _ := reads_account _
  complete before rest t p split answer found holds := by
    subst split
    refine (stands_run (along_append.mp alone).1).peek found holds ?_
    rcases look_cases found with ⟨_, q, data, _, _, _, told, _⟩ | ⟨_, _, nothing | ⟨_, _, stuck⟩⟩
    · rw [answer, Tailer.tells] at told
      cases decoded : (defaultCodec t.codec).decode t.type data <;> rw [decoded] at told <;>
        cases told
    · exact nothing.2 p holds
    · cases answer.symm.trans stuck

def relay : List Action :=
  let first : TailerRef := ⟨"readers", 0⟩
  let second : TailerRef := ⟨"readers", 1⟩
  let join : Action := .subscribe "readers" ["events"] .record none
  let m : Message := .record { key := "k" }
  [.create "events" 2, .openAppender "events" .record none, join, .takeOver first,
    .appendTo 0 0 m, .appendTo 0 1 m, .look first, join, .takeOver first, .takeOver second,
    .look second, .commit second, .appendTo 0 0 (.record .poisonPill), .appendTo 0 0 m,
    .look first, .takeOver first, .look first, .closeTailer second, .takeOver first, .look first]

theorem relay_delivers :
    Along (LeavesAlone ⟨"readers", 0⟩) ({} : Store) relay ∧
      consumedBy (({} : Store).history relay) ⟨"readers", 0⟩ ⟨"events", 0⟩ = [0, 1] ∧
      Delivers ({} : Store) relay ⟨"readers", 0⟩ := by
  have alone : Along (LeavesAlone ⟨"readers", 0⟩) ({} : Store) relay := by
    simp [relay, Along, LeavesAlone]
  have consumed : consumedBy (({} : Store).history relay) ⟨"readers", 0⟩ ⟨"events", 0⟩ = [0, 1] := by
    decide +kernel
  exact ⟨alone, consumed, delivers alone⟩

end Logbook.Store
