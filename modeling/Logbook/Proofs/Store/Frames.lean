import Logbook.Proofs.Store.Effects

/-! What an action does to one tailer and to one committed offset, and which tailers there are
afterwards. -/
namespace Logbook.Store

theorem tailer?_setTailer (s : Store) (r q : TailerRef) (t : Tailer) :
    (s.setTailer r t).tailer? q =
      if q = r then (s.tailer? q).map fun _ => t else s.tailer? q :=
  lookup_replace s.tailers r t q

theorem found_setTailer {s : Store} {r : TailerRef} {t : Tailer} (found : s.tailer? r = some t)
    (t' : Tailer) : (s.setTailer r t').tailer? r = some t' := by
  rw [tailer?_setTailer, if_pos rfl, found]
  rfl

/-- A tailer that is put in the place of another one is found there, and only there. -/
theorem setTailer_cases {s : Store} {r q : TailerRef} {t u : Tailer} (found : s.tailer? r = some t)
    (there : s.tailer? q = some u) (u' : Tailer) :
    (r = q ∧ t = u ∧ (s.setTailer q u').tailer? r = some u') ∨
      (s.setTailer q u').tailer? r = some t := by
  rw [tailer?_setTailer]
  by_cases here : r = q
  · subst here
    cases Option.some.inj (there.symm.trans found)
    exact .inl ⟨rfl, rfl, by rw [if_pos rfl, found]; rfl⟩
  · exact .inr (by rw [if_neg here, found])

theorem tailer?_addTailer (s : Store) (group : String) (t : Tailer) (r : TailerRef) :
    (s.addTailer group t).2.tailer? r = (s.tailer? r).or
      (if r = ⟨group, s.tailers.countP (·.1.group = group)⟩ then some t else none) := by
  simp only [addTailer, tailer?, List.lookup_append, List.lookup_cons, List.lookup_nil]
  by_cases new : r = ⟨group, s.tailers.countP (·.1.group = group)⟩
  · simp [new]
  · simp only [beq_false_of_ne new, if_neg new]

theorem leaveGroup_eq (s : Store) (r : TailerRef) :
    s.leaveGroup r = { s with groups := (s.leaveGroup r).groups } := by
  unfold leaveGroup
  split <;> rfl

theorem foldl_commit_eq (s : Store) (group : String) (ps : List Partition)
    (f : Partition → Nat) :
    ps.foldl (fun s p => s.commit group p (f p)) s = { s with committed :=
      (ps.foldl (fun s p => s.commit group p (f p)) s).committed } := by
  induction ps generalizing s with
  | nil => rfl
  | cons p rest ih =>
    rw [List.foldl_cons, ih]
    rfl

/-! Tailers that were handed out. -/

def refs (s : Store) : List TailerRef := s.tailers.map (·.1)

theorem tailer?_eq_none {s : Store} {r : TailerRef} : s.tailer? r = none ↔ r ∉ s.refs := by
  rw [tailer?, List.lookup_eq_none_iff, refs, List.mem_map]
  constructor
  · rintro other ⟨e, member, same⟩
    have differs := other e member
    simp [same] at differs
  · intro other e member
    simp only [bne_iff_ne, ne_eq]
    exact fun same => other ⟨e, member, same.symm⟩

def nextRef (s : Store) (group : String) : TailerRef :=
  ⟨group, s.tailers.countP (·.1.group = group)⟩

def Action.opens? : Action → Option String
  | .createTailer group _ _ _ => some group
  | .subscribe group _ _ _ => some group
  | _ => none

theorem refs_setTailer (s : Store) (r : TailerRef) (t : Tailer) :
    (s.setTailer r t).refs = s.refs := keys_replace s.tailers r t

theorem refs_addTailer (s : Store) (group : String) (t : Tailer) :
    (s.addTailer group t).2.refs = s.refs ++ [s.nextRef group] := by
  simp [refs, addTailer, nextRef]

variable {s s' : Store} {r : TailerRef} {t t' : Tailer} {a : Action}

theorem Effect.refs (step : Effect s a s') :
    s'.refs = s.refs ∨ ∃ group, a.opens? = some group ∧ s'.refs = s.refs ++ [s.nextRef group] := by
  cases step with
  | createsTailer => exact .inr ⟨_, rfl, refs_addTailer _ _ _⟩
  | subscribes => exact .inr ⟨_, rfl, refs_addTailer _ _ _⟩
  | turns => exact .inl (refs_setTailer _ _ _)
  | commits =>
    rw [foldl_commit_eq]
    exact .inl rfl
  | closesTailer => exact .inl (refs_setTailer _ _ _)
  | leaves =>
    rw [leaveGroup_eq]
    exact .inl (refs_setTailer _ _ _)
  | keeps | creates | deletes | opensAppender | appends | closesAppender | refusesTailer
  | setsFaults => exact .inl rfl

theorem isClosedTailer_eq (found : s.tailer? r = some t) : s.isClosedTailer r = t.closed := by
  rw [isClosedTailer, found, Option.map_some, Option.getD_some]

/-- What one action can make of a tailer. -/
inductive Change (s : Store) (r : TailerRef) (t : Tailer) (a : Action) : Tailer → Prop where
  | same : Change s r t a t
  | turns {t' : Tailer} : Turn s r t a t' → Change s r t a t'
  | closes : t.closed = false → a = .closeTailer r → Change s r t a { t with closed := true }

/-- A tailer that was handed out stays, and changes in no other ways than these. -/
theorem Effect.tailer (step : Effect s a s') (found : s.tailer? r = some t) :
    ∃ t', s'.tailer? r = some t' ∧ Change s r t a t' := by
  cases step with
  | createsTailer => exact ⟨t, by rw [tailer?_addTailer, found]; rfl, .same⟩
  | subscribes => exact ⟨t, (tailer?_addTailer _ _ _ r).trans (by rw [found]; rfl), .same⟩
  | @turns q u u' _ there turn =>
    rcases setTailer_cases found there u' with ⟨rfl, rfl, changed⟩ | same
    · exact ⟨u', changed, .turns turn⟩
    · exact ⟨t, same, .same⟩
  | commits =>
    rw [foldl_commit_eq]
    exact ⟨t, found, .same⟩
  | @closesTailer q u there opened =>
    rcases setTailer_cases found there { u with closed := true } with ⟨rfl, rfl, changed⟩ | same
    · exact ⟨_, changed, .closes opened rfl⟩
    · exact ⟨t, same, .same⟩
  | @leaves q u there opened =>
    rw [leaveGroup_eq]
    rcases setTailer_cases found there { u with closed := true } with ⟨rfl, rfl, changed⟩ | same
    · exact ⟨_, changed, .closes opened rfl⟩
    · exact ⟨t, same, .same⟩
  | keeps | creates | deletes | opensAppender | appends | closesAppender | refusesTailer
  | setsFaults => exact ⟨t, found, .same⟩

theorem Effect.change (step : Effect s a s') (found : s.tailer? r = some t)
    (found' : s'.tailer? r = some t') : Change s r t a t' := by
  obtain ⟨u, same, change⟩ := step.tailer found
  cases Option.some.inj (same.symm.trans found')
  exact change

/-- A tailer appears only when it is created or subscribes. -/
theorem Effect.newTailer (step : Effect s a s') (absent : s.tailer? r = none) :
    s'.tailer? r = none ∨
      (∃ partitions type codec, a = .createTailer r.group partitions type codec ∧
        s.checkPartitions partitions = .ok () ∧
        s'.tailer? r = some (s.newTailer r.group partitions type codec)) ∨
      ∃ names type codec, a = .subscribe r.group names type codec ∧
        s'.tailer? r = some { type, codec, subscribed := true } := by
  have still (q : TailerRef) (u : Tailer) : (s.setTailer q u).tailer? r = none := by
    rw [tailer?_setTailer, absent]
    split <;> rfl
  cases step with
  | @createsTailer group partitions type codec checked =>
    simp only [tailer?_addTailer, absent, Option.none_or]
    split
    · rename_i new
      subst new
      exact .inr (.inl ⟨partitions, type, codec, rfl, checked, rfl⟩)
    · exact .inl rfl
  | subscribes group names type codec =>
    have added := tailer?_addTailer s group { type, codec, subscribed := true } r
    simp only [absent, Option.none_or] at added
    split at added
    · rename_i new
      subst new
      exact .inr (.inr ⟨names, type, codec, rfl, added⟩)
    · exact .inl added
  | turns => exact .inl (still _ _)
  | commits =>
    rw [foldl_commit_eq]
    exact .inl absent
  | closesTailer => exact .inl (still _ _)
  | leaves =>
    rw [leaveGroup_eq]
    exact .inl (still _ _)
  | keeps | creates | deletes | opensAppender | appends | closesAppender | refusesTailer
  | setsFaults => exact .inl absent

/-- Taking over changes nothing when there is no new generation. -/
theorem follow_cases (s : Store) (r : TailerRef) (t : Tailer) :
    (s.follow r t).1 = t ∨
      t.subscribed = true ∧ t.generation ≠ (s.assignmentOf r).1 ∧
      (s.follow r t).1 =
        { (t.forget (t.lost (s.assignmentOf r).2)).place (t.gained (s.assignmentOf r).2)
            fun p => (s.committed? r.group p).getD 0 with
          generation := (s.assignmentOf r).1, assignments := (s.assignmentOf r).2, next := 0 } := by
  unfold follow
  split
  · by_cases current : t.generation = (s.assignmentOf r).1
    · exact .inl (Tailer.follow_current _ _ _ _ current)
    · exact .inr ⟨‹_›, current, Tailer.follow_moved _ _ _ _ current⟩
  · exact .inl rfl

theorem mem_stopped_follow {p : Partition} (subscribed : t.subscribed = true)
    (moved : t.generation ≠ (s.assignmentOf r).1) :
    p ∈ (s.follow r t).1.stopped ↔ p ∈ t.stopped ∧ p ∉ t.lost (s.assignmentOf r).2 := by
  rw [follow, if_pos subscribed, Tailer.follow_moved t _ _ _ moved, Tailer.place_eq]
  simp [Tailer.forget]

theorem follow_position (s : Store) (r : TailerRef) (t : Tailer) (p : Partition) :
    (s.follow r t).1.position p = t.position p ∨ (s.follow r t).1.position p = 0 ∨
      (s.follow r t).1.position p = (s.committed? r.group p).getD 0 := by
  unfold follow
  split
  · by_cases current : t.generation = (s.assignmentOf r).1
    · exact .inl (by rw [Tailer.follow_current _ _ _ _ current])
    · rw [Tailer.position_follow _ _ _ _ current]
      split
      · exact .inr (.inr rfl)
      · split
        · exact .inr (.inl rfl)
        · exact .inl rfl
  · exact .inl rfl

/-- Reading and moving leave alone what a tailer was opened with and whether it is open. Only taking
over leads to another generation and to other partitions. -/
theorem Turn.kept (turn : Turn s r t a t') :
    (t'.type = t.type ∧ t'.codec = t.codec ∧ t'.subscribed = t.subscribed) ∧
      t'.closed = t.closed ∧
      (t'.generation = t.generation ∧ t'.assignments = t.assignments ∨
        a = .takeOver r ∧ t.closed = false ∧ t' = (s.follow r t).1) := by
  cases turn with
  | seeks => exact ⟨⟨rfl, rfl, rfl⟩, rfl, .inl ⟨rfl, rfl⟩⟩
  | starts | returns =>
    simp only [Tailer.moveAll]
    rw [Tailer.place_eq]
    exact ⟨⟨rfl, rfl, rfl⟩, rfl, .inl ⟨rfl, rfl⟩⟩
  | ends =>
    obtain ⟨positions, stopped, same⟩ := moveToEnds_eq s t t.assignments
    rw [same]
    exact ⟨⟨rfl, rfl, rfl⟩, rfl, .inl ⟨rfl, rfl⟩⟩
  | looks =>
    rw [poll_snd]
    split
    · rw [consume_snd]
      exact ⟨⟨rfl, rfl, rfl⟩, rfl, .inl ⟨rfl, rfl⟩⟩
    · exact ⟨⟨rfl, rfl, rfl⟩, rfl, .inl ⟨rfl, rfl⟩⟩
  | follows opened =>
    refine ⟨?_, ?_, .inr ⟨rfl, opened, rfl⟩⟩ <;>
      rcases follow_cases s r t with same | ⟨-, -, same⟩ <;> rw [same]
    · exact ⟨rfl, rfl, rfl⟩
    · rw [Tailer.place_eq]
      exact ⟨rfl, rfl, rfl⟩
    · rw [Tailer.place_eq]
      rfl

/-- Type, codec and kind of a tailer are fixed, a closed one stays closed, and only a subscribed one
that takes over gets other partitions. -/
theorem Change.kept (change : Change s r t a t') :
    (t'.type = t.type ∧ t'.codec = t.codec ∧ t'.subscribed = t.subscribed) ∧
      (t.closed = true → t'.closed = true) ∧
      (t'.assignments = t.assignments ∨ t.subscribed = true ∧ a = .takeOver r) := by
  cases change with
  | same => exact ⟨⟨rfl, rfl, rfl⟩, id, .inl rfl⟩
  | closes => exact ⟨⟨rfl, rfl, rfl⟩, fun _ => rfl, .inl rfl⟩
  | turns turn =>
    obtain ⟨fixed, closed, ⟨_, assignments⟩ | ⟨follows, _, rfl⟩⟩ := turn.kept
    · exact ⟨fixed, closed.trans, .inl assignments⟩
    · refine ⟨fixed, closed.trans, ?_⟩
      rcases follow_cases s r t with same | ⟨subscribed, -, -⟩
      · exact .inl (by rw [same])
      · exact .inr ⟨subscribed, follows⟩

/-! Committed offsets. -/

theorem committed?_commit (s : Store) (group g : String) (p q : Partition) (k : Nat) :
    (s.commit group p k).committed? g q =
      if g = group ∧ q = p then some k else s.committed? g q := by
  simp only [committed?, commit, List.lookup_cons, lookup_filter_ne]
  by_cases same : (⟨g, q⟩ : GroupPartition) = ⟨group, p⟩
  · cases same
    simp
  · have apart : ¬ (g = group ∧ q = p) := fun both => same (by rw [both.1, both.2])
    rw [beq_false_of_ne same, if_neg apart, if_neg same]

theorem committed?_foldl_commit (s : Store) (group g : String) (ps : List Partition)
    (f : Partition → Nat) (q : Partition) :
    (ps.foldl (fun s p => s.commit group p (f p)) s).committed? g q =
      if g = group ∧ q ∈ ps then some (f q) else s.committed? g q := by
  induction ps generalizing s with
  | nil => simp
  | cons p rest ih =>
    rw [List.foldl_cons, ih, committed?_commit]
    by_cases later : g = group ∧ q ∈ rest
    · rw [if_pos later, if_pos ⟨later.1, List.mem_cons_of_mem p later.2⟩]
    · rw [if_neg later]
      by_cases here : g = group ∧ q = p
      · rw [if_pos here, if_pos ⟨here.1, here.2 ▸ List.mem_cons_self⟩, here.2]
      · rw [if_neg here, if_neg]
        rintro ⟨same, member⟩
        rcases List.mem_cons.mp member with first | second
        · exact here ⟨same, first⟩
        · exact later ⟨same, second⟩

/-- A committed offset changes when its log is deleted, or to the position of an open tailer of the
group that has the partition. -/
theorem Effect.committed (step : Effect s a s') (g : String) (p : Partition) :
    s'.committed? g p = s.committed? g p ∨
      (a = .delete p.log ∧ s'.committed? g p = none) ∨
      ∃ r t ps, r.group = g ∧ s.tailer? r = some t ∧ t.closed = false ∧ Commits r t a ps ∧
        p ∈ ps ∧ s'.committed? g p = some (t.position p) := by
  cases step with
  | @deletes name =>
    have filtered : committed? (rebalanceWatchers { s with
        logs := s.logs.filter (·.name ≠ name)
        committed := s.committed.filter (·.1.partition.log ≠ name) } name) g p =
          if p.log = name then none else s.committed? g p := by
      refine (lookup_filter_key s.committed (fun k => k.partition.log ≠ name) ⟨g, p⟩).trans ?_
      by_cases same : p.log = name <;> simp [same, committed?]
    rw [filtered]
    by_cases same : p.log = name
    · exact .inr (.inl ⟨same ▸ rfl, if_pos same⟩)
    · exact .inl (if_neg same)
  | @commits r t _ ps found opened commits =>
    rw [committed?_foldl_commit]
    by_cases here : g = r.group ∧ p ∈ ps
    · exact .inr (.inr ⟨r, t, ps, here.1.symm, found, opened, commits, here.2, if_pos here⟩)
    · exact .inl (if_neg here)
  | leaves =>
    rw [leaveGroup_eq]
    exact .inl rfl
  | keeps | creates | opensAppender | appends | closesAppender | refusesTailer | createsTailer
  | subscribes | turns | closesTailer | setsFaults => exact .inl rfl

end Logbook.Store
