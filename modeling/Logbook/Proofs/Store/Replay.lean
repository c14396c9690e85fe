import Logbook.Proofs.Store.Lacking
import Logbook.Proofs.Store.Stopping

/-! Returning to the committed offsets. What a tailer can read of a partition, as long as it is not
moved, is fixed by its position and the records: it is told of each record from there on, up to the
first poison pill. A commit and the return to it leave the position where it was, so that the reads
after both begin the same sequence, whatever is appended meanwhile. How soon they come to an end of
it is up to the round, which is not set back. -/
namespace Logbook

namespace Store

def recordsOf (s : Store) (p : Partition) : List Bytes :=
  ((s.log? p.log).bind (·.partitions[p.index]?)).getD []

def readFrom (past : List Event) (r : TailerRef) (p : Partition) :
    List (Offset × Outcome Message) :=
  (readBy past r).filter (·.1.partition = p)

def isPill : Outcome Message → Bool
  | .ok m => m.isPoisonPill
  | .error _ => false

def LeavesCommitted (group : String) (p : Partition) (s : Store) (a : Action) : Prop :=
  ∀ q, q.group = group → ¬CommitsTo q p s a

end Store

namespace Tailer

/-- What the reader of records that begin at an offset is told: of each one, up to the first poison
pill. -/
def tellsAll (t : Tailer) (p : Partition) (k : Nat) : List Bytes → List (Offset × Outcome Message)
  | [] => []
  | data :: rest =>
    (⟨p, k⟩, t.tells data) :: if Store.isPill (t.tells data) then [] else t.tellsAll p (k + 1) rest

/-- What a tailer reads of the records of a partition for as long as nobody moves it. -/
def awaits (t : Tailer) (p : Partition) (records : List Bytes) : List (Offset × Outcome Message) :=
  if p ∈ t.stopped then [] else t.tellsAll p (t.position p) (records.drop (t.position p))

variable {t t' : Tailer} {p : Partition} {k : Nat} {records more : List Bytes}
  {xs : List (Offset × Outcome Message)} {x : Offset × Outcome Message}

theorem tellsAll_mono (grown : records <+: more) :
    t.tellsAll p k records <+: t.tellsAll p k more := by
  induction records generalizing k more with
  | nil => exact List.nil_prefix
  | cons data rest ih =>
    obtain ⟨later, rfl⟩ := grown
    rw [List.cons_append, tellsAll, tellsAll]
    refine (List.prefix_cons_inj _).mpr ?_
    split
    · exact List.nil_prefix
    · exact ih (List.prefix_append rest later)

/-- Nothing is told after a poison pill. -/
theorem tellsAll_pill (begins : xs <+: t.tellsAll p k records) (member : x ∈ xs)
    (pill : Store.isPill x.2 = true) : xs = t.tellsAll p k records := by
  induction records generalizing k xs with
  | nil => exact List.prefix_nil.mp begins
  | cons data rest ih =>
    cases xs with
    | nil => cases member
    | cons y ys =>
      rw [tellsAll] at begins ⊢
      obtain ⟨rfl, follows⟩ := List.cons_prefix_cons.mp begins
      by_cases ends : Store.isPill (t.tells data) = true
      · rw [if_pos ends] at follows ⊢
        rw [List.prefix_nil.mp follows]
      · rw [if_neg ends] at follows ⊢
        rcases List.mem_cons.mp member with rfl | later
        · exact absurd pill ends
        · rw [ih follows later]

theorem awaits_pill (t : Tailer) (begins : xs <+: t.awaits p records) (member : x ∈ xs)
    (pill : Store.isPill x.2 = true) : xs = t.awaits p records := by
  rw [awaits] at begins ⊢
  split at begins
  · rw [List.prefix_nil.mp begins] at member
    cases member
  · rename_i running
    rw [if_neg running]
    exact tellsAll_pill begins member pill

theorem tells_congr (type : t'.type = t.type) (codec : t'.codec = t.codec) :
    t'.tells = t.tells := by
  funext data
  rw [tells, tells, type, codec]

theorem tellsAll_congr (same : t'.tells = t.tells) :
    t'.tellsAll p k records = t.tellsAll p k records := by
  induction records generalizing k with
  | nil => rfl
  | cons data rest ih => rw [tellsAll, tellsAll, same, ih]

theorem awaits_congr (same : t'.tells = t.tells) (stopped : p ∈ t'.stopped ↔ p ∈ t.stopped)
    (position : t'.position p = t.position p) : t'.awaits p records = t.awaits p records := by
  simp only [awaits, stopped, position, tellsAll_congr same]

theorem awaits_le (t : Tailer) : t.awaits p records <+:
    t.tellsAll p (t.position p) (records.drop (t.position p)) := by
  rw [awaits]
  split
  · exact List.nil_prefix
  · exact List.prefix_refl _

theorem awaits_mono (grown : records <+: more) : t.awaits p records <+: t.awaits p more := by
  rw [awaits, awaits]
  split
  · exact List.nil_prefix
  · exact tellsAll_mono (grown.drop _)

theorem awaits_moveAll (holds : p ∈ t.assignments) (f : Partition → Nat) :
    (t.moveAll f).awaits p records = t.tellsAll p (f p) (records.drop (f p)) := by
  have running : p ∉ (t.moveAll f).stopped := List.not_mem_nil
  have tells : (t.moveAll f).tells = t.tells := by
    rw [moveAll, place_eq]
    exact tells_congr rfl rfl
  rw [awaits, if_neg running, position_moveAll, if_pos holds, tellsAll_congr tells]

end Tailer

namespace Store

variable {s s' s₁ s₃ : Store} {a : Action} {as between further : List Action} {r : TailerRef}
  {t t' : Tailer} {p : Partition} {group : String} {k d : Nat} {data : Bytes}
  {records : List Bytes}

/-! The records of a partition. -/

theorem length_recordsOf (s : Store) (p : Partition) : (s.recordsOf p).length = s.reach p :=
  (reach_eq s p).symm

theorem recordsOf_of_peek (seen : s.peek t p = .ok (some data)) :
    p ∉ t.stopped ∧ (s.recordsOf p)[t.position p]? = some data := by
  unfold peek at seen
  split at seen
  · cases seen
  · rename_i running
    refine ⟨fun stops => running (List.contains_iff_mem.mpr stops), ?_⟩
    rw [recordsOf]
    cases log : s.log? p.log with
    | none => simp [log] at seen
    | some l =>
      simp only [log, Log.records] at seen
      cases there : l.partitions[p.index]? with
      | none => simp [there, Except.map] at seen
      | some rs =>
        simp only [there, Except.map, Except.ok.injEq] at seen
        rw [Option.bind_some, there, Option.getD_some, seen]

/-- Records are added at the end, until the log is deleted. -/
theorem Effect.recordsOf (step : Effect s a s') (p : Partition) :
    s.recordsOf p <+: s'.recordsOf p ∨ Deletes p s a := by
  simp only [Store.recordsOf]
  rcases step.log p.log with same | ⟨_, _, absent, _⟩ | ⟨rfl, deletes, _⟩ | ⟨l, i, data, old, new⟩
  · left
    rw [same]
  · left
    rw [absent]
    exact List.nil_prefix
  · exact .inr ⟨rfl, deletes⟩
  · left
    rw [old, new, Option.bind_some, Option.bind_some, Log.partitions_push]
    cases l.partitions[p.index]? with
    | none => exact List.nil_prefix
    | some rs =>
      by_cases here : i = p.index <;> simp [here]

theorem Undisturbed.spares (allowed : Undisturbed r p s a) : ¬Deletes p s a := by
  rintro ⟨rfl, deletes⟩
  cases deletes.symm.trans (allowed rfl)

theorem recordsOf_run (allowed : Along (Undisturbed r p) s as) :
    s.recordsOf p <+: (s.run as).recordsOf p := by
  induction as generalizing s with
  | nil => exact List.prefix_refl _
  | cons a as ih =>
    exact (((effect s a).recordsOf p).resolve_right allowed.1.spares).trans (ih allowed.2)

/-! What is read. -/

theorem readFrom_append (past more : List Event) (r : TailerRef) (p : Partition) :
    readFrom (past ++ more) r p = readFrom past r p ++ readFrom more r p := by
  rw [readFrom, readBy_append, List.filter_append]
  rfl

theorem readFrom_consumed (r : TailerRef) (p q : Partition) (told : Outcome Message) :
    readFrom [.consumed r ⟨q, k⟩ told] r p = if q = p then [(⟨p, k⟩, told)] else [] := by
  rw [readFrom, readBy_consumed]
  by_cases here : q = p <;> simp [here]

theorem isPill_iff {told : Outcome Message} :
    isPill told = true ↔ ∃ m, told = .ok m ∧ m.isPoisonPill = true := by
  cases told <;> simp [isPill]

/-- A look reads the first of what a tailer can read of a partition, or nothing of it. -/
theorem awaits_look (found : s.tailer? r = some t) (grown : s.recordsOf p <+: records) :
    t.awaits p records =
      readFrom (s.events (.look r)) r p ++ (s.poll t).2.awaits p records := by
  rcases look_cases found with ⟨i, q, data, -, seen, same, -, event⟩ | ⟨same, silent, -⟩
  · have tells : (consume t i q data).2.tells = t.tells := by
      rw [consume_snd]
      exact Tailer.tells_congr rfl rfl
    rw [same, event, readFrom_consumed]
    by_cases here : q = p
    · subst here
      obtain ⟨running, there⟩ := recordsOf_of_peek seen
      have next : records.drop (t.position q) = data :: records.drop (t.position q + 1) := by
        obtain ⟨later, rfl⟩ := grown
        obtain ⟨below, rfl⟩ := List.getElem?_eq_some_iff.mp there
        have within : t.position q < (s.recordsOf q ++ later).length := by
          rw [List.length_append]
          omega
        rw [List.drop_eq_getElem_cons within, List.getElem_append_left below]
      have stops : q ∈ (consume t i q data).2.stopped ↔ isPill (t.tells data) = true := by
        rw [mem_stopped_consume, isPill_iff]
        simp [running]
      rw [if_pos rfl, Tailer.awaits, if_neg running, next, Tailer.tellsAll, Tailer.awaits,
        position_consume, if_pos rfl, Tailer.tellsAll_congr tells]
      simp only [stops, List.singleton_append]
    · rw [if_neg here, List.nil_append]
      refine (Tailer.awaits_congr tells ?_ ?_).symm
      · simp [mem_stopped_consume, Ne.symm here]
      · rw [position_consume, if_neg (Ne.symm here)]
  · rw [same, silent]
    rfl

/-- What is not a look leaves a tailer as it is, or closes it. -/
theorem Change.undisturbed (change : Change s r t a t') (allowed : Undisturbed r p s a)
    (found : s.tailer? r = some t) (other : a ≠ .look r) :
    t' = t ∨ t' = { t with closed := true } := by
  cases change with
  | same => exact .inl rfl
  | closes => exact .inr rfl
  | turns turn =>
    cases turn with
    | follows =>
      left
      rcases follow_cases s r t with same | ⟨subscribed, moved, -⟩
      · exact same
      · exact absurd (allowed rfl t found subscribed) moved
    | looks => exact absurd rfl other
    | starts | returns | ends | seeks => exact absurd rfl allowed

/-- What one step reads of a partition, and what can be read afterwards, is what could be read
before. -/
theorem awaits_step (found : s.tailer? r = some t) (allowed : Undisturbed r p s a)
    (grown : s.recordsOf p <+: records) :
    ∃ t', (s.act a).tailer? r = some t' ∧ t'.tells = t.tells ∧ t'.assignments = t.assignments ∧
      t.awaits p records = readFrom (s.events a) r p ++ t'.awaits p records := by
  obtain ⟨t', found', change⟩ := (effect s a).tailer found
  refine ⟨t', found', ?_⟩
  by_cases looking : a = .look r
  · subst looking
    obtain rfl : t' = (s.poll t).2 :=
      Option.some.inj (found'.symm.trans ((effect s (.look r)).look found))
    obtain ⟨⟨type, codec, -⟩, -, kept⟩ := change.kept
    exact ⟨Tailer.tells_congr type codec, kept.resolve_right (fun takes => by cases takes.2),
      awaits_look found grown⟩
  · have silent : readFrom (s.events a) r p = [] := by rw [readFrom, readBy_other looking]; rfl
    rw [silent, List.nil_append]
    rcases change.undisturbed allowed found looking with rfl | rfl
    · exact ⟨rfl, rfl, rfl⟩
    · have same : ({ t with closed := true } : Tailer).awaits p records = t.awaits p records :=
        Tailer.awaits_congr rfl Iff.rfl rfl
      exact ⟨rfl, rfl, same.symm⟩

/-- What a run reads of a partition, and what can be read afterwards, is what could be read
before. -/
theorem awaits_run (found : s.tailer? r = some t) (allowed : Along (Undisturbed r p) s as)
    (grown : (s.run as).recordsOf p <+: records) :
    ∃ t', (s.run as).tailer? r = some t' ∧ t'.tells = t.tells ∧ t'.assignments = t.assignments ∧
      t.awaits p records = readFrom (s.history as) r p ++ t'.awaits p records := by
  induction as generalizing s t with
  | nil => exact ⟨t, found, rfl, rfl, rfl⟩
  | cons a as ih =>
    obtain ⟨u, found', tells, assignments, now⟩ :=
      awaits_step found allowed.1 ((recordsOf_run allowed).trans grown)
    obtain ⟨t', last, tells', assignments', later⟩ := ih found' allowed.2 grown
    refine ⟨t', last, tells'.trans tells, assignments'.trans assignments, ?_⟩
    rw [history, readFrom_append, now, later, List.append_assoc]

/-! How soon it is read. -/

/-- Where a tailer can read a record of a partition, the record waits. -/
theorem Waits.of_awaits (found : s.tailer? r = some t) (ahead : t.ahead? d = some p)
    (something : t.awaits p (s.recordsOf p) ≠ []) : Waits s r t p (t.position p) d := by
  refine ⟨found, ?_, rfl, ?_, ahead⟩
  · intro stops
    exact something (if_pos stops)
  · rw [← length_recordsOf]
    apply Nat.lt_of_not_le
    intro behind
    apply something
    rw [Tailer.awaits, List.drop_eq_nil_of_le behind]
    exact ite_self _

/-- The next `m + 1` records of a partition are read, or no more than what comes before it in a
round and `m` rounds have been read altogether. -/
theorem caught_up {m : Nat} (found : s.tailer? r = some t) (ahead : t.ahead? d = some p)
    (allowed : Along (Undisturbed r p) s as) (enough : m < (t.awaits p (s.recordsOf p)).length) :
    m < (readFrom (s.history as) r p).length ∨
      (readBy (s.history as) r).length ≤ d + m * t.assignments.length ∧
        (Along (Unobstructed r) s as → countLooks r as ≤ d + m * t.assignments.length) := by
  induction as generalizing s t d m with
  | nil => exact .inr ⟨Nat.zero_le _, fun _ => Nat.zero_le _⟩
  | cons a as ih =>
    have waits : Waits s r t p (t.position p) d :=
      .of_awaits found ahead (List.ne_nil_of_length_pos (Nat.zero_lt_of_lt enough))
    have grown : s.recordsOf p <+: (s.act a).recordsOf p :=
      ((effect s a).recordsOf p).resolve_right allowed.1.spares
    have enough' : m < (t.awaits p ((s.act a).recordsOf p)).length :=
      Nat.lt_of_lt_of_le enough (Tailer.awaits_mono grown).length_le
    obtain ⟨t', found', tells, assignments, now⟩ := awaits_step found allowed.1 grown
    have counts (clear : Along (Unobstructed r) s (a :: as)) := waits.counts clear.1 as
    rw [history, readBy_append, readFrom_append, List.length_append, List.length_append]
    rcases waits.step allowed.1 with ⟨told, served⟩ | ⟨u, d', waits', closer⟩
    · -- the round begins again, for one record less
      have read : readFrom (s.events a) r p = [(⟨p, t.position p⟩, told)] := by
        rw [readFrom, served]
        simp
      rw [now, read, List.length_append, List.length_singleton] at enough'
      rw [served, List.length_singleton] at counts ⊢
      rw [read, List.length_singleton]
      cases m with
      | zero => exact .inl (by omega)
      | succ m =>
        obtain ⟨d', within, ahead'⟩ :=
          Tailer.exists_ahead (assignments ▸ Tailer.ahead?_mem ahead : p ∈ t'.assignments)
        rw [assignments] at within
        rw [Nat.succ_mul]
        rcases ih (m := m) found' ahead' allowed.2 (by omega) with done | ⟨few, seldom⟩
        · exact .inl (by omega)
        · rw [assignments] at few seldom
          refine .inr ⟨by omega, fun clear => ?_⟩
          have looks := seldom clear.2
          have more := counts clear
          omega
    · -- the record still waits, and the round has come closer to it
      obtain rfl : u = t' := Option.some.inj (waits'.found.symm.trans found')
      have same : u.awaits p ((s.act a).recordsOf p) = t.awaits p ((s.act a).recordsOf p) := by
        apply Tailer.awaits_congr tells
        · exact iff_of_false waits'.running waits.running
        · exact waits'.position
      rcases ih found' waits'.ahead allowed.2 (same ▸ enough') with done | ⟨few, seldom⟩
      · exact .inl (by omega)
      · rw [assignments] at few seldom
        refine .inr ⟨by omega, fun clear => ?_⟩
        have looks := seldom clear.2
        have more := counts clear
        omega

/-! Committing and returning. -/

/-- An offset that nobody commits stays committed. -/
theorem committed?_kept (spared : ¬Deletes p s a) (leaves : LeavesCommitted group p s a) :
    (s.act a).committed? group p = s.committed? group p := by
  rcases (effect s a).committed group p with same | ⟨rfl, -⟩ |
      ⟨q, u, ps, same, found, opened, commits, member, -⟩
  · exact same
  · rw [delete_spares (Bool.eq_false_iff.mpr fun done => spared ⟨rfl, done⟩)]
  · exact absurd ⟨u, ps, found, opened, commits, member⟩ (leaves q same)

theorem committed?_run (allowed : Along (Undisturbed r p) s as)
    (leaves : Along (LeavesCommitted group p) s as) :
    (s.run as).committed? group p = s.committed? group p := by
  induction as generalizing s with
  | nil => rfl
  | cons a as ih =>
    exact (ih allowed.2 leaves.2).trans (committed?_kept allowed.1.spares leaves.1)

theorem commitAll_eq_ok : s.commitAll r = .ok s' ↔ ∃ t, s.openTailer r = .ok t ∧
    s' = t.assignments.foldl (fun s p => s.commit r.group p (t.position p)) s := by
  cases opened : s.openTailer r with
  | error e => simp [commitAll, opened, bind, Except.bind]
  | ok t =>
    have committed : s.commitAll r =
        .ok (t.assignments.foldl (fun s p => s.commit r.group p (t.position p)) s) := by
      simp only [commitAll, opened, bind, Except.bind]
      rfl
    simp [committed, eq_comm]

/-- After the return, a tailer can read of a partition what it has read of it since the commit. -/
theorem returns_to (found : s.tailer? r = some t) (holds : p ∈ t.assignments)
    (commits : s.commitAll r = .ok s₁)
    (meanwhile : Along (Undisturbed r p) s₁ between)
    (leaves : Along (LeavesCommitted r.group p) s₁ between)
    (returns : (s₁.run between).toLastCommitted r = .ok s₃) :
    ∃ t₃, s₃.tailer? r = some t₃ ∧ p ∈ t₃.assignments ∧
      readFrom (s₁.history between) r p <+: t₃.awaits p (s₃.recordsOf p) := by
  obtain ⟨t₁, opened, rfl⟩ := commitAll_eq_ok.mp commits
  obtain rfl : t₁ = t := Option.some.inj ((openTailer_ok.mp opened).1.symm.trans found)
  obtain ⟨t₂, opened₂, rfl⟩ := moveAll_eq_ok.mp returns
  set s₁ := t₁.assignments.foldl (fun s p => s.commit r.group p (t₁.position p)) s with shape
  have found₁ : s₁.tailer? r = some t₁ := by
    rw [shape, foldl_commit_eq]
    exact found
  have committed : s₁.committed? r.group p = some (t₁.position p) := by
    rw [shape, committed?_foldl_commit, if_pos ⟨rfl, holds⟩]
  obtain ⟨u, found₂, tells, assignments, read⟩ :=
    awaits_run found₁ meanwhile (List.prefix_refl _)
  obtain rfl : u = t₂ := Option.some.inj (found₂.symm.trans (openTailer_ok.mp opened₂).1)
  have holds₂ : p ∈ u.assignments := assignments ▸ holds
  refine ⟨_, found_setTailer found₂ _, ?_, ?_⟩
  · rw [Tailer.moveAll, Tailer.place_eq]
    exact holds₂
  · -- nothing is stopped any more, and the position is the one that was committed
    have back : ((s₁.run between).committed? r.group p).getD 0 = t₁.position p := by
      rw [committed?_run meanwhile leaves, committed, Option.getD_some]
    rw [Tailer.awaits_moveAll holds₂, back, Tailer.tellsAll_congr tells]
    exact List.IsPrefix.trans ⟨_, read.symm⟩ t₁.awaits_le

/-- How the reads of a partition after the return compare with those after the commit: the ones
begin the other ones, and both end at the same poison pill. The later ones catch up with the earlier
ones within a round of records for each of these, or within as many looks if everything can be read.
Until they have, each look reads something, unless it comes to a partition that cannot be read. -/
structure Replays (r : TailerRef) (p : Partition) (s s' : Store) (between further : List Action) :
    Prop where
  agrees : readFrom (s.history between) r p <+: readFrom (s'.history further) r p ∨
    readFrom (s'.history further) r p <+: readFrom (s.history between) r p
  stops : ∀ x ∈ readFrom (s.history between) r p, isPill x.2 = true →
    readFrom (s'.history further) r p <+: readFrom (s.history between) r p
  completes : ∀ t, s'.tailer? r = some t →
    (readFrom (s.history between) r p).length * t.assignments.length ≤
      (readBy (s'.history further) r).length →
    readFrom (s.history between) r p <+: readFrom (s'.history further) r p
  unhindered : ∀ t, s'.tailer? r = some t → Along (Unobstructed r) s' further →
    (readFrom (s.history between) r p).length * t.assignments.length ≤ countLooks r further →
    readFrom (s.history between) r p <+: readFrom (s'.history further) r p
  goesOn : (readFrom (s'.history further) r p).length < (readFrom (s.history between) r p).length →
    (∃ x, readBy ((s'.run further).events (.look r)) r = [x]) ∨
      ∃ t q size, (s'.run further).tailer? r = some t ∧ (s'.run further).Stuck t q size

/-- What a tailer reads of a partition after a commit is what it reads again after it has returned,
as long as nobody else commits the partition and its log is not deleted. -/
theorem replays (found : s.tailer? r = some t) (holds : p ∈ t.assignments)
    (commits : s.commitAll r = .ok s₁)
    (meanwhile : Along (Undisturbed r p) s₁ between)
    (leaves : Along (LeavesCommitted r.group p) s₁ between)
    (returns : (s₁.run between).toLastCommitted r = .ok s₃)
    (afterwards : Along (Undisturbed r p) s₃ further) : Replays r p s₁ s₃ between further := by
  obtain ⟨t₃, found₃, holds₃, before⟩ := returns_to found holds commits meanwhile leaves returns
  obtain ⟨t₄, found₄, -, assignments, read⟩ :=
    awaits_run found₃ afterwards (List.prefix_refl ((s₃.run further).recordsOf p))
  have again : readFrom (s₃.history further) r p <+: t₃.awaits p ((s₃.run further).recordsOf p) :=
    ⟨_, read.symm⟩
  have grown : readFrom (s₁.history between) r p <+: t₃.awaits p ((s₃.run further).recordsOf p) :=
    before.trans (Tailer.awaits_mono (recordsOf_run afterwards))
  have catchesUp (t : Tailer) (there : s₃.tailer? r = some t)
      (often : (readFrom (s₁.history between) r p).length * t.assignments.length ≤
          (readBy (s₃.history further) r).length ∨
        Along (Unobstructed r) s₃ further ∧
          (readFrom (s₁.history between) r p).length * t.assignments.length ≤
            countLooks r further) :
      readFrom (s₁.history between) r p <+: readFrom (s₃.history further) r p := by
    obtain rfl : t = t₃ := Option.some.inj (there.symm.trans found₃)
    obtain ⟨d, within, ahead⟩ := Tailer.exists_ahead holds₃
    apply List.prefix_of_prefix_length_le grown again
    cases many : (readFrom (s₁.history between) r p).length with
    | zero => exact Nat.zero_le _
    | succ m =>
      have enough : m < (t.awaits p (s₃.recordsOf p)).length := by
        have fits := before.length_le
        omega
      rcases caught_up found₃ ahead afterwards enough with done | ⟨few, seldom⟩
      · exact done
      · rw [many, Nat.succ_mul] at often
        rcases often with reads | ⟨clear, looks⟩
        · omega
        · have bound := seldom clear
          omega
  constructor
  case agrees => exact List.prefix_or_prefix_of_prefix grown again
  case stops =>
    intro x member pill
    rw [t₃.awaits_pill grown member pill]
    exact again
  case completes => exact fun t there reads => catchesUp t there (.inl reads)
  case unhindered => exact fun t there clear looks => catchesUp t there (.inr ⟨clear, looks⟩)
  case goesOn =>
    intro short
    have something : t₄.awaits p ((s₃.run further).recordsOf p) ≠ [] := by
      intro nothing
      rw [read, nothing, List.append_nil] at grown
      have fits := grown.length_le
      omega
    have holds₄ : p ∈ t₄.assignments := assignments ▸ holds₃
    obtain ⟨d, -, ahead⟩ := Tailer.exists_ahead holds₄
    have waits := Waits.of_awaits found₄ ahead something
    cases look_ends found₄ with
    | nothing idle =>
      obtain ⟨data, seen⟩ := peek_of_lt_reach waits.running waits.below
      cases (idle p holds₄).symm.trans seen
    | finds _ _ _ _ event => exact .inl ⟨_, by rw [event, readBy_consumed]⟩
    | @fails j q e reaches failed =>
      obtain ⟨running, size, lacks, -⟩ := peek_error.mp failed
      exact .inr ⟨t₄, q, size, found₄, running, lacks, j, reaches⟩

instance (r : TailerRef) (p : Partition) (s : Store) : DecidablePred (Undisturbed r p s)
  | .toStart q | .toEnd q | .toLastCommitted q | .seek q _ => inferInstanceAs (Decidable (q ≠ r))
  | .takeOver q => inferInstanceAs (Decidable (q = r → ∀ t ∈ s.tailer? r, t.subscribed = true →
      t.generation = (s.assignmentOf r).1))
  | .delete name => inferInstanceAs (Decidable (p.log = name → (s.delete name).1 = false))
  | .create _ _ | .openAppender _ _ _ | .append _ _ _ | .appendTo _ _ _ | .closeAppender _
  | .createTailer _ _ _ _ | .subscribe _ _ _ _ | .look _ | .commit _ | .commitPartition _ _
  | .closeTailer _ | .setFaults _ _ => inferInstanceAs (Decidable True)

/-- A tailer has read a record of one partition, where then come one that cannot be decoded, a poison
pill and one more. There is a record in its other partition, too. -/
def pillAhead : List Action :=
  [.create "events" 2, .openAppender "events" .record none, .openAppender "events" .string none,
    .createTailer "readers" [⟨"events", 0⟩, ⟨"events", 1⟩] .record none,
    .appendTo 0 0 (.record { key := "a" }), .takeOver ⟨"readers", 0⟩, .look ⟨"readers", 0⟩,
    .appendTo 1 0 (.text "x"), .appendTo 0 0 (.record .poisonPill),
    .appendTo 0 0 (.record { key := "b" }), .appendTo 0 1 (.record { key := "c" })]

def readsOn (reader : TailerRef) : List Action :=
  let read : List Action := [.takeOver reader, .look reader]
  read ++ read ++ read ++
    [.appendTo 0 0 (.record { key := "d" }), .appendTo 0 1 (.record { key := "e" })] ++ read

/-- The second time, the other partition comes first, but each partition is read as before. -/
theorem pillAhead_replays :
    let reader : TailerRef := ⟨"readers", 0⟩
    let s := ({} : Store).run (pillAhead ++ [.commit reader])
    let s' := s.run (readsOn reader ++ [.toLastCommitted reader])
    (({} : Store).run pillAhead).commitAll reader = .ok s ∧
    (s.run (readsOn reader)).toLastCommitted reader = .ok s' ∧
    Along (Undisturbed reader ⟨"events", 0⟩) s (readsOn reader) ∧
    Along (LeavesCommitted "readers" ⟨"events", 0⟩) s (readsOn reader) ∧
    Along (Undisturbed reader ⟨"events", 0⟩) s' (readsOn reader) ∧
    (readFrom (s.history (readsOn reader)) reader ⟨"events", 0⟩).map (·.1.position) = [1, 2] ∧
    ((readBy (s.history (readsOn reader)) reader).map (·.1.partition.index) = [1, 0, 0, 1] ∧
      (readBy (s'.history (readsOn reader)) reader).map (·.1.partition.index) = [0, 1, 0, 1]) ∧
    Replays reader ⟨"events", 0⟩ s s' (readsOn reader) (readsOn reader) := by
  intro reader s s'
  have found : ((({} : Store).run pillAhead).tailer? reader).map (·.assignments) =
      some [⟨"events", 0⟩, ⟨"events", 1⟩] := by decide +kernel
  obtain ⟨t, found, assignments⟩ := Option.map_eq_some_iff.mp found
  have holds : ⟨"events", 0⟩ ∈ t.assignments := assignments ▸ List.mem_cons_self
  have commits : (({} : Store).run pillAhead).commitAll reader = .ok s :=
    ok_of_toOption (by decide +kernel)
  have returns : (s.run (readsOn reader)).toLastCommitted reader = .ok s' :=
    ok_of_toOption (by decide +kernel)
  have meanwhile : Along (Undisturbed reader ⟨"events", 0⟩) s (readsOn reader) := by decide +kernel
  have leaves : Along (LeavesCommitted "readers" ⟨"events", 0⟩) s (readsOn reader) := by
    refine along_of_forall ?_ s
    rintro a member s q - ⟨t, ps, -, -, commits, -⟩
    cases commits <;> simp [readsOn] at member
  have afterwards : Along (Undisturbed reader ⟨"events", 0⟩) s' (readsOn reader) := by
    decide +kernel
  exact ⟨commits, returns, meanwhile, leaves, afterwards, by decide +kernel, by decide +kernel,
    replays found holds commits meanwhile leaves returns afterwards⟩

/-- A tailer for a partition of each of two logs, of which the second one is created again with fewer
partitions. -/
def shrinkingNext : List Action :=
  [.create "others" 1, .create "events" 2, .openAppender "others" .string none,
    .createTailer "readers" [⟨"others", 0⟩, ⟨"events", 1⟩] .string none, .delete "events",
    .create "events" 1, .appendTo 0 0 (.text "m")]

/-- The tailer commits, reads a record of the other log and returns, but every further read fails,
and none ever reads the record again. -/
theorem shrinkingNext_forgets :
    let reader : TailerRef := ⟨"readers", 0⟩
    let read : List Action := [.takeOver reader, .look reader]
    let s := ({} : Store).run (shrinkingNext ++ [.commit reader])
    let s' := s.run (read ++ [.toLastCommitted reader])
    (({} : Store).run shrinkingNext).commitAll reader = .ok s ∧
    (s.run read).toLastCommitted reader = .ok s' ∧
    (readFrom (s.history read) reader ⟨"others", 0⟩).map (·.1.position) = [0] ∧
    ¬Documented (s'.read reader).1 ∧
    ∀ n, readBy (s'.history (List.replicate n read).flatten) reader = [] := by
  intro reader read s s'
  have still : s'.run read = s' := by decide +kernel
  have silent : (readBy (s'.history read) reader).isEmpty = true := by decide +kernel
  refine ⟨ok_of_toOption (by decide +kernel), ok_of_toOption (by decide +kernel),
    by decide +kernel, by decide +kernel, ?_⟩
  exact readBy_repeated still (List.isEmpty_iff.mp silent)

end Store

end Logbook
