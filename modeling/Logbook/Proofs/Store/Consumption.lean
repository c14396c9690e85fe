import Logbook.Proofs.Store.Reading

/-! Nothing is committed before it was consumed: whatever lies below an offset that a group has
committed was read by some tailer of that group. -/
namespace Logbook.Store

/-- A tailer of a group has read an offset: it was handed the record, or it was told that the record
cannot be decoded. -/
def Consumed (past : List Event) (group : String) (o : Offset) : Prop :=
  ∃ r told, r.group = group ∧ .consumed r o told ∈ past ∧
    ((∃ m, told = .ok m) ∨ ∃ codec fault, told = .error (.codec (.decode codec fault)))

structure Covered (s : Store) (past : List Event) : Prop where
  positions : ∀ {r t p k}, s.tailer? r = some t → k < t.position p → Consumed past r.group ⟨p, k⟩
  committed : ∀ {group p e k}, s.committed? group p = some e → k < e → Consumed past group ⟨p, k⟩

/-- No log is deleted, and no tailer is moved to an end or to an offset of the caller's. -/
def SkipsNothing (s : Store) : Action → Prop
  | .delete name => (s.delete name).1 = false
  | .toEnd _ | .seek _ _ => False
  | _ => True

variable {s s' : Store} {a : Action} {r : TailerRef} {t t' : Tailer} {past more : List Event}

theorem Consumed.extend (consumed : Consumed past group o) : Consumed (past ++ more) group o := by
  obtain ⟨r, told, same, member, shape⟩ := consumed
  exact ⟨r, told, same, List.mem_append_left _ member, shape⟩

theorem consumed_event {data : Bytes} (event : s.events a = [.consumed r o (t.tells data)]) :
    Consumed (past ++ s.events a) r.group o := by
  refine ⟨r, t.tells data, rfl, by simp [event], ?_⟩
  rw [Tailer.tells]
  cases (defaultCodec t.codec).decode t.type data with
  | ok m => exact .inl ⟨m, rfl⟩
  | error f => exact .inr ⟨_, f, rfl⟩

/-- A tailer goes one offset further only by consuming it. -/
theorem Covered.change (covered : Covered s past) (allowed : SkipsNothing s a)
    (found : s.tailer? r = some t) (change : Change s r t a t') (below : k < t'.position p) :
    Consumed (past ++ s.events a) r.group ⟨p, k⟩ := by
  rcases change.position found p with same | zero | back | ⟨further, data, event⟩ | rfl | ⟨o, rfl⟩
  · exact (covered.positions found (same ▸ below)).extend
  · omega
  · rw [back] at below
    cases committed : s.committed? r.group p with
    | none => simp [committed] at below
    | some e =>
      rw [committed] at below
      exact (covered.committed committed below).extend
  · by_cases last : k = t.position p
    · subst last
      exact consumed_event event
    · exact (covered.positions found (by omega)).extend
  · exact allowed.elim
  · exact allowed.elim

theorem Covered.newTailer (covered : Covered s past)
    (below : k < (s.newTailer group partitions type codec).position p) :
    Consumed past group ⟨p, k⟩ := by
  rw [Store.newTailer, Tailer.position_place] at below
  split at below
  · cases committed : s.committed? group p with
    | none => simp [committed] at below
    | some e =>
      rw [committed] at below
      exact covered.committed committed below
  · exact absurd below (Nat.not_lt_zero k)

theorem Covered.step (covered : Covered s past) (allowed : SkipsNothing s a)
    (step : Effect s a s') : Covered s' (past ++ s.events a) where
  positions {r t' p k} found' below := by
    cases found : s.tailer? r with
    | some t =>
      have change := step.change found found'
      exact covered.change allowed found change below
    | none =>
      rcases step.newTailer found with absent | ⟨_, _, _, _, _, there⟩ | ⟨_, _, _, _, there⟩
      · cases absent.symm.trans found'
      · cases Option.some.inj (there.symm.trans found')
        exact (covered.newTailer below).extend
      · cases Option.some.inj (there.symm.trans found')
        exact absurd below (Nat.not_lt_zero k)
  committed {group p e k} committed' below := by
    rcases step.committed group p with same | ⟨_, gone⟩ | ⟨r, t, _, rfl, found, _, _, _, set⟩
    · exact (covered.committed (same ▸ committed') below).extend
    · cases gone.symm.trans committed'
    · cases Option.some.inj (set.symm.trans committed')
      exact (covered.positions found below).extend

theorem covered_run {as : List Action} (covered : Covered s past)
    (allowed : Along SkipsNothing s as) : Covered (s.run as) (past ++ s.history as) :=
  run_invariant (fun covered allowed => covered.step allowed (effect _ _)) covered allowed

/-- A group commits only what it has read: what the history tells of is what reads answer with. -/
theorem committed_consumed {config : StoreConfig} {as : List Action} {group : String}
    {p : Partition} {e k : Nat} (allowed : Along SkipsNothing ({ config } : Store) as)
    (committed : (({ config } : Store).run as).committed? group p = some e) (below : k < e) :
    Consumed (({ config } : Store).history as) group ⟨p, k⟩ ∧
      ∀ before rest, as = before ++ rest → ReadsAccount (({ config } : Store).run before) := by
  have start : Covered ({ config } : Store) [] :=
    ⟨fun found => by simp [tailer?] at found, fun committed => by simp [committed?] at committed⟩
  exact ⟨(covered_run start allowed).committed committed below, fun _ _ _ => reads_account _⟩

/-- A tailer for given partitions commits one offset and closes, a subscribed one goes on. -/
def handover : List Action :=
  let p : Partition := ⟨"events", 0⟩
  let first : TailerRef := ⟨"readers", 0⟩
  let second : TailerRef := ⟨"readers", 1⟩
  [.create "events" 1, .openAppender "events" .string none, .appendTo 0 0 (.text "a"),
    .appendTo 0 0 (.text "b"), .createTailer "readers" [p] .string none, .takeOver first,
    .look first, .commit first, .closeTailer first, .subscribe "readers" ["events"] .string none,
    .takeOver second, .look second, .toStart second, .toLastCommitted second, .takeOver second,
    .look second, .commitPartition second p]

theorem handover_consumed :
    Along SkipsNothing ({} : Store) handover ∧
      (({} : Store).run handover).committed? "readers" ⟨"events", 0⟩ = some 2 ∧
      Consumed (({} : Store).history handover) "readers" ⟨⟨"events", 0⟩, 1⟩ := by
  have allowed : Along SkipsNothing ({} : Store) handover := by simp [handover, Along, SkipsNothing]
  have committed : (({} : Store).run handover).committed? "readers" ⟨"events", 0⟩ = some 2 := by
    decide +kernel
  exact ⟨allowed, committed, (committed_consumed allowed committed (by decide)).1⟩

end Logbook.Store
