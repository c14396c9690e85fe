import Logbook.Proofs.Store.Handout
import Logbook.Proofs.Store.Records

/-! Incarnations: a log that is created again under its old name is another log with another number.
Along a run a log only grows, and an appender knows its log by the number. -/
namespace Logbook

structure Log.GrowsTo (l l' : Log) : Prop where
  number : l'.number = l.number
  name : l'.name = l.name
  size : l'.size = l.size
  records : ∀ (i : Nat) (rs : List Bytes), l.partitions[i]? = some rs →
    ∃ more, l'.partitions[i]? = some (rs ++ more)

namespace Log

theorem GrowsTo.refl (l : Log) : l.GrowsTo l where
  number := rfl
  name := rfl
  size := rfl
  records _ rs there := ⟨[], there.trans (by rw [List.append_nil])⟩

theorem GrowsTo.trans {l l' l'' : Log} (first : l.GrowsTo l') (later : l'.GrowsTo l'') :
    l.GrowsTo l'' where
  number := later.number.trans first.number
  name := later.name.trans first.name
  size := later.size.trans first.size
  records i rs there := by
    obtain ⟨more, between⟩ := first.records i rs there
    obtain ⟨rest, final⟩ := later.records i (rs ++ more) between
    exact ⟨more ++ rest, final.trans (by rw [List.append_assoc])⟩

theorem growsTo_push (l : Log) (index : Nat) (data : Bytes) : l.GrowsTo (l.push index data) where
  number := rfl
  name := rfl
  size := l.size_push index data
  records i rs there := by
    rw [partitions_push, there]
    by_cases here : index = i
    · exact ⟨[data], congrArg some (if_pos here)⟩
    · exact ⟨[], congrArg some ((if_neg here).trans (List.append_nil rs).symm)⟩

end Log

namespace Store

variable {s s' : Store} {a : Action} {as : List Action} {l l' : Log} {name : String}

/-- Whatever is not the deletion of the log that has a name. -/
def Spares (name : String) (s : Store) (a : Action) : Prop :=
  a = .delete name → (s.delete name).1 = false

theorem Effect.grows (step : Effect s a s') (found : s.log? name = some l)
    (spared : Spares name s a) : ∃ l', s'.log? name = some l' ∧ l.GrowsTo l' := by
  rcases step.log name with
    same | ⟨size, -, absent, -⟩ | ⟨rfl, done, -⟩ | ⟨k, index, data, old, new⟩
  · exact ⟨l, same.trans found, .refl l⟩
  · cases absent.symm.trans found
  · cases done.symm.trans (spared rfl)
  · cases Option.some.inj (old.symm.trans found)
    exact ⟨_, new, l.growsTo_push index data⟩

/-- A log stays and grows until it is deleted. -/
theorem log_grows (found : s.log? name = some l) (spared : Along (Spares name) s as) :
    ∃ l', (s.run as).log? name = some l' ∧ l.GrowsTo l' := by
  induction as generalizing s l with
  | nil => exact ⟨l, found, .refl l⟩
  | cons a as ih =>
    obtain ⟨k, there, first⟩ := (effect s a).grows found spared.1
    obtain ⟨l', final, later⟩ := ih there spared.2
    exact ⟨l', final, first.trans later⟩

/-! Numbers. -/

theorem growsTo_putRecord (index : Nat) (data : Bytes)
    (member : l' ∈ (s.putRecord l index data).logs) : ∃ k ∈ s.logs, k.GrowsTo l' := by
  obtain ⟨k, old, rfl⟩ := List.mem_map.mp member
  refine ⟨k, old, ?_⟩
  split
  · exact k.growsTo_push index data
  · exact .refl k

/-- A log that is there was there before, or is new and has the next number. -/
theorem Effect.logs (step : Effect s a s') : s.created ≤ s'.created ∧
    ∀ l' ∈ s'.logs, (∃ l ∈ s.logs, l.GrowsTo l') ∨ s.created ≤ l'.number := by
  have same {t : Store} (logs : t.logs ⊆ s.logs) : ∀ l' ∈ t.logs,
      (∃ l ∈ s.logs, l.GrowsTo l') ∨ s.created ≤ l'.number :=
    fun l' member => .inl ⟨l', logs member, .refl l'⟩
  cases step with
  | @creates name size =>
    refine ⟨Nat.le_succ _, fun l' member => ?_⟩
    rcases List.mem_append.mp member with old | new
    · exact .inl ⟨l', old, .refl l'⟩
    · cases List.mem_singleton.mp new
      exact .inr (Nat.le_refl _)
  | deletes => exact ⟨Nat.le_refl _, same (List.filter_subset_self _)⟩
  | appends => exact ⟨Nat.le_refl _, fun l' member => .inl (growsTo_putRecord _ _ member)⟩
  | commits =>
    rw [foldl_commit_eq]
    exact ⟨Nat.le_refl _, same (List.Subset.refl _)⟩
  | leaves =>
    rw [leaveGroup_eq]
    exact ⟨Nat.le_refl _, same (List.Subset.refl _)⟩
  | keeps | opensAppender | closesAppender | refusesTailer | createsTailer | subscribes | turns
  | closesTailer | setsFaults => exact ⟨Nat.le_refl _, same (List.Subset.refl _)⟩

theorem logs_run (s : Store) (as : List Action) : s.created ≤ (s.run as).created ∧
    ∀ l' ∈ (s.run as).logs, (∃ l ∈ s.logs, l.GrowsTo l') ∨ s.created ≤ l'.number := by
  induction as generalizing s with
  | nil => exact ⟨Nat.le_refl _, fun l' member => .inl ⟨l', member, .refl l'⟩⟩
  | cons a as ih =>
    obtain ⟨more, before⟩ := (effect s a).logs
    obtain ⟨most, after⟩ := ih (s.act a)
    refine ⟨Nat.le_trans more most, fun l' member => ?_⟩
    rcases after l' member with ⟨k, there, later⟩ | new
    · rcases before k there with ⟨l, old, first⟩ | new
      · exact .inl ⟨l, old, first.trans later⟩
      · exact .inr (later.number.symm ▸ new)
    · exact .inr (Nat.le_trans more new)

/-- A number that no log has any more is not given again. -/
theorem number_gone {number : Nat} (below : number < s.created)
    (gone : ∀ l ∈ s.logs, l.number ≠ number) (as : List Action) :
    ∀ l' ∈ (s.run as).logs, l'.number ≠ number := by
  intro l' member same
  rcases (logs_run s as).2 l' member with ⟨l, old, grows⟩ | new
  · exact gone l old (grows.number.symm.trans same)
  · omega

structure Named (s : Store) : Prop where
  names : (s.logs.map Log.name).Nodup
  appenders : ∀ w ∈ s.appenders, w.log < s.created ∧
    ∀ l ∈ s.logs, l.number = w.log → l.name = w.name ∧ l.size = w.size

theorem find?_of_mem {α β : Type} [DecidableEq β] {f : α → β} {xs : List α} {x : α}
    (once : (xs.map f).Nodup) (member : x ∈ xs) : xs.find? (f · = f x) = some x := by
  cases found : xs.find? (f · = f x) with
  | none =>
    have missing := List.find?_eq_none.mp found x member
    simp at missing
  | some y =>
    have same : f y = f x := by simpa using List.find?_some found
    rw [List.inj_on_of_nodup_map once (List.mem_of_find?_eq_some found) member same]

theorem Named.log? (named : Named s) (member : l ∈ s.logs) : s.log? l.name = some l :=
  find?_of_mem named.names member

theorem log?_eq_none : s.log? name = none ↔ ∀ l ∈ s.logs, l.name ≠ name := by
  simp [log?, List.find?_eq_none]

theorem names_putRecord (s : Store) (l : Log) (index : Nat) (data : Bytes) :
    (s.putRecord l index data).logs.map Log.name = s.logs.map Log.name := by
  rw [putRecord, List.map_map]
  apply List.map_congr_left
  intro k _
  simp only [Function.comp_apply]
  split <;> rfl

/-- Records that are put into logs leave names and appenders as they are. -/
theorem Named.fewer (named : Named s) (created : s'.created = s.created)
    (appenders : s'.appenders = s.appenders)
    (names : (s'.logs.map Log.name).Sublist (s.logs.map Log.name))
    (logs : ∀ l' ∈ s'.logs, ∃ l ∈ s.logs, l.GrowsTo l') : Named s' where
  names := named.names.sublist names
  appenders w member := by
    rw [appenders] at member
    obtain ⟨below, fits⟩ := named.appenders w member
    refine ⟨created ▸ below, fun l' there number => ?_⟩
    obtain ⟨l, old, grows⟩ := logs l' there
    obtain ⟨name, size⟩ := fits l old (grows.number.symm.trans number)
    exact ⟨grows.name.trans name, grows.size.trans size⟩

theorem Named.same (named : Named s) (created : s'.created = s.created)
    (appenders : s'.appenders = s.appenders) (logs : s'.logs = s.logs) : Named s' := by
  refine named.fewer created appenders (logs ▸ List.Sublist.refl _) fun l' member => ?_
  exact ⟨l', logs ▸ member, .refl l'⟩

theorem Named.step {past : List Event} (named : Named s) (recorded : Recorded s past)
    (step : Effect s a s') : Named s' := by
  cases step with
  | @creates name size counted absent =>
    refine ⟨?_, fun w member => ?_⟩
    · have new : ∀ l ∈ s.logs, l.name ≠ name := log?_eq_none.mp absent
      change ((s.logs ++ [_]).map Log.name).Nodup
      rw [List.map_append, List.map_singleton, List.nodup_append]
      refine ⟨named.names, List.nodup_singleton _, ?_⟩
      rintro other old _ last rfl
      obtain ⟨l, there, rfl⟩ := List.mem_map.mp old
      exact new l there (List.mem_singleton.mp last)
    · obtain ⟨below, fits⟩ := named.appenders w member
      refine ⟨Nat.lt_succ_of_lt below, fun l there number => ?_⟩
      rcases List.mem_append.mp there with old | last
      · exact fits l old number
      · -- no appender has the number of the new log
        cases List.mem_singleton.mp last
        exact absurd number (Nat.ne_of_gt below)
  | deletes =>
    exact named.fewer rfl rfl (List.filter_sublist.map _)
      fun l' member => ⟨l', List.mem_of_mem_filter member, .refl l'⟩
  | @opensAppender name l type codec found =>
    obtain ⟨there, rfl⟩ := log?_mem found
    refine ⟨named.names, fun w member => ?_⟩
    rcases List.mem_append.mp member with old | new
    · exact named.appenders w old
    · cases List.mem_singleton.mp new
      refine ⟨recorded.numbered there, fun k here number => ?_⟩
      cases List.inj_on_of_nodup_map recorded.distinct here there number
      exact ⟨rfl, rfl⟩
  | @appends _ _ index w l _ data =>
    refine named.fewer rfl rfl ?_ fun l' member => growsTo_putRecord index data member
    rw [names_putRecord]
  | @closesAppender x w opened =>
    refine ⟨named.names, fun v member => ?_⟩
    rcases List.mem_or_eq_of_mem_set member with old | rfl
    · exact named.appenders v old
    · exact named.appenders w (List.mem_of_getElem? (openAppender_ok.mp opened).1)
  | commits =>
    rw [foldl_commit_eq]
    exact named.same rfl rfl rfl
  | leaves =>
    rw [leaveGroup_eq]
    exact named.same rfl rfl rfl
  | keeps | refusesTailer | createsTailer | subscribes | turns | closesTailer | setsFaults =>
    exact named.same rfl rfl rfl

theorem named_run {config : StoreConfig} (as : List Action) :
    Named (({ config } : Store).run as) := by
  have start : Recorded ({ config } : Store) [] ∧ Named ({ config } : Store) :=
    ⟨recorded_run [], List.nodup_nil, fun w member => by cases member⟩
  exact (@run_invariant (fun s past => Recorded s past ∧ Named s) _
    (fun both _ => ⟨both.1.step (effect _ _), both.2.step both.1 (effect _ _)⟩) _ [] as start
    (along_all as)).2

end Store

end Logbook
